import FastGeoApi.Python.Str
import FastGeoApi.Python.Value

/-!
# `urllib.parse`

`urlparse` and `urljoin` of Python 3.12 on the list of characters of a URL. Of the checks on the
network location only the one for unbalanced brackets is kept (the address inside the brackets and
the NFKC test are not looked at).
-/

namespace FastGeoApi.Url

structure Parts where
  scheme : List Char
  netloc : List Char
  path : List Char
  params : List Char
  query : List Char
  fragment : List Char

def usesRelative : List String :=
  ["", "ftp", "http", "gopher", "nntp", "imap", "wais", "file", "https", "shttp", "mms",
    "prospero", "rtsp", "rtsps", "rtspu", "sftp", "svn", "svn+ssh", "ws", "wss"]

def usesNetloc : List String :=
  ["", "ftp", "http", "gopher", "nntp", "telnet", "imap", "wais", "file", "mms", "https",
    "shttp", "snews", "prospero", "rtsp", "rtsps", "rtspu", "rsync", "svn", "svn+ssh", "sftp",
    "nfs", "git", "git+ssh", "ws", "wss", "itms-services"]

def usesParams : List String :=
  ["", "ftp", "hdl", "prospero", "http", "https", "shttp", "rtsp", "rtsps", "rtspu", "sip",
    "sips", "mms", "sftp", "tel"]

def isSchemeChar (c : Char) : Bool := c.isAlphanum || c = '+' || c = '-' || c = '.'

/-- The scheme in front of the first `:`, in lower case, and the rest of the URL. -/
def splitScheme (dflt url : List Char) : List Char × List Char :=
  match Str.splitFirst ':' url with
  | some (c :: cs, rest) =>
    if c.isAlpha && (c :: cs).all isSchemeChar then ((c :: cs).map Char.toLower, rest)
    else (dflt, url)
  | _ => (dflt, url)

/-- The network location after `//` ends at the first of `/?#`. -/
def splitNetloc (url : List Char) : List Char × List Char :=
  match url with
  | '/' :: '/' :: rest =>
    let stop := fun c => c = '/' || c = '?' || c = '#'
    (rest.takeWhile (!stop ·), rest.dropWhile (!stop ·))
  | _ => ([], url)

/-- `_splitparams`: the parameters follow the first `;` of the last path segment. -/
def splitParams (url : List Char) : List Char × List Char :=
  let last := (url.reverse.takeWhile (· ≠ '/')).reverse
  let front := url.take (url.length - last.length)
  match Str.splitFirst ';' last with
  | some (path, params) => (front ++ path, params)
  | none => (url, [])

def urlparse (url dflt : List Char) : Except PyError Parts :=
  let url := url.dropWhile (· ≤ ' ')
  let url := url.filter fun c => c ≠ '\t' && c ≠ '\r' && c ≠ '\n'
  let (scheme, url) := splitScheme dflt url
  let (netloc, url) := splitNetloc url
  if ('[' ∈ netloc) ≠ (']' ∈ netloc) then .error ⟨.valueError, "Invalid IPv6 URL"⟩
  else
    let (url, fragment) := (Str.splitFirst '#' url).getD (url, [])
    let (url, query) := (Str.splitFirst '?' url).getD (url, [])
    let (path, params) :=
      if String.ofList scheme ∈ usesParams then splitParams url else (url, [])
    .ok { scheme, netloc, path, params, query, fragment }

def urlunparse (p : Parts) : List Char :=
  let url := if p.params = [] then p.path else p.path ++ ';' :: p.params
  let url :=
    if p.netloc ≠ [] then
      '/' :: '/' :: p.netloc ++ (if url ≠ [] ∧ url.head? ≠ some '/' then '/' :: url else url)
    else if url.take 2 = ['/', '/'] then '/' :: '/' :: url
    else if p.scheme ≠ [] ∧ String.ofList p.scheme ∈ usesNetloc ∧
        (url = [] ∨ url.head? = some '/') then '/' :: '/' :: url
    else url
  let url := if p.scheme = [] then url else p.scheme ++ ':' :: url
  let url := if p.query = [] then url else url ++ '?' :: p.query
  if p.fragment = [] then url else url ++ '#' :: p.fragment

/-- Drop the empty segments strictly between the first and the last one. -/
def dropEmptyInner (segments : List (List Char)) : List (List Char) :=
  segments.take 1 ++ ((segments.drop 1).dropLast.filter (· ≠ [])) ++
    (segments.drop 1).getLast?.toList

/-- Remove `.` and `..` segments; `done` holds the segments kept so far, last one first. -/
def resolveDots (done : List (List Char)) : List (List Char) → List (List Char)
  | [] => done.reverse
  | seg :: segs =>
    if seg = ['.', '.'] then resolveDots done.tail segs
    else if seg = ['.'] then resolveDots done segs
    else resolveDots (seg :: done) segs

def joinPath (basePath path : List Char) : List Char :=
  let baseParts := Str.split '/' basePath
  let baseParts := if baseParts.getLast? ≠ some [] then baseParts.dropLast else baseParts
  let segments :=
    if path.head? = some '/' then Str.split '/' path
    else dropEmptyInner (baseParts ++ Str.split '/' path)
  let resolved := resolveDots [] segments
  let resolved :=
    if segments.getLast? = some ['.'] ∨ segments.getLast? = some ['.', '.'] then
      resolved ++ [[]]
    else resolved
  let joined := Str.join '/' resolved
  if joined = [] then ['/'] else joined

def urljoin (base url : String) : Except PyError String := do
  if base = "" then return url
  if url = "" then return base
  let b ← urlparse base.toList []
  let p ← urlparse url.toList b.scheme
  let scheme := String.ofList p.scheme
  if p.scheme ≠ b.scheme ∨ scheme ∉ usesRelative then return url
  if scheme ∈ usesNetloc ∧ p.netloc ≠ [] then return String.ofList (urlunparse p)
  let netloc := if scheme ∈ usesNetloc then b.netloc else p.netloc
  if p.path = [] ∧ p.params = [] then
    let query := if p.query = [] then b.query else p.query
    return String.ofList
      (urlunparse { p with netloc, path := b.path, params := b.params, query })
  return String.ofList (urlunparse { p with netloc, path := joinPath b.path p.path })

/-- `urlparse(url).scheme`. -/
def scheme (url : String) : Except PyError String := do
  return String.ofList (← urlparse url.toList []).scheme

/-! ## Origins -/

structure Origin where
  scheme : List Char
  hostname : List Char
  port : Option Nat
  deriving DecidableEq

/-- `_hostinfo`: the host name and the port, behind the user name. -/
def hostinfo (netloc : List Char) : List Char × List Char :=
  let hostinfo := (netloc.reverse.takeWhile (· ≠ '@')).reverse
  match Str.splitFirst '[' hostinfo with
  | some (_, bracketed) =>
    let (hostname, port) := (Str.splitFirst ']' bracketed).getD (bracketed, [])
    (hostname, ((Str.splitFirst ':' port).getD (port, [])).2)
  | none => (Str.splitFirst ':' hostinfo).getD (hostinfo, [])

def defaultPort (scheme : List Char) : Option Nat :=
  if scheme = "http".toList then some 80
  else if scheme = "https".toList then some 443
  else none

/-- The scheme, the host and the port of an absolute URL. -/
def origin (url : List Char) : Option Origin :=
  let (scheme, rest) := splitScheme [] url
  let (netloc, _) := splitNetloc rest
  let (hostname, port) := hostinfo netloc
  let hostname := hostname.map Char.toLower
  if scheme = [] ∨ hostname = [] then none
  else if port = [] then some ⟨scheme, hostname, defaultPort scheme⟩
  else if port.all Char.isDigit then
    some ⟨scheme, hostname, some (port.foldl (fun n c => 10 * n + (c.toNat - '0'.toNat)) 0)⟩
  else none

end FastGeoApi.Url
