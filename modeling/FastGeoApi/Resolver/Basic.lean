import FastGeoApi.Python.Float
import FastGeoApi.Python.Json
import FastGeoApi.Python.Url
import Mathlib.Logic.Function.Basic

/-!
# The external reference resolver

`app/utils/openapi_resolver.py`, function by function. A call runs in a `Session` (the in-memory
document cache, the files of the disk cache and the requests made so far) against a `World` (what
the remote side answers, the clock, the hash function and what goes wrong with the files). Recursion
takes fuel: `resolveObject` gives `none` when it is deeper than its fuel, and never otherwise.
-/

namespace FastGeoApi

/-- A successful response: what each of the two parsers makes of its text. -/
structure Response where
  yaml : Except PyError PyVal
  json : Except PyError PyVal

/-- What an `OSError` in a write leaves of the file: the file as it was, a part of the text, or the
whole text, when it is the closing that fails. -/
inductive WriteFault where
  | unopened
  | cutShort
  | closing

def WriteFault.leaves (before : Option CacheFile) (file : CacheFile) :
    WriteFault → Option CacheFile
  | .unopened => before
  | .cutShort => some (.error ⟨.jsonDecodeError, "partial text"⟩)
  | .closing => some file

structure World where
  /-- The answer to the `n`-th request: `httpx.get` followed by `raise_for_status`. -/
  get : Nat → String → Except PyError Response
  /-- The `n`-th reading of `time.time()`. -/
  time : Nat → Rat
  /-- `hashlib.sha256(url.encode()).hexdigest()`. -/
  sha256 : String → String
  /-- `mkdir` of the directory, after this number of requests. -/
  mkdir : Nat → String → Except PyError Unit := fun _ _ => .ok ()
  /-- The `OSError` of the write to the path, after this number of requests. -/
  writeFault : Nat → String → Option WriteFault := fun _ _ => none

structure Session where
  documentCache : String → Option PyVal
  /-- The files that `exists` does not deny. A `PermissionError` of `exists` itself, which nothing
  catches, is `.other`. -/
  disk : String → Option CacheFile
  requests : List String
  readings : Nat

/-- A computation that may run out of fuel, raise, or return. -/
def Run (α : Type) : Type := Session → Option (Except PyError α × Session)

namespace Run

def outOfFuel : Run α := fun _ => none

def raise (e : PyError) : Run α := fun s => some (.error e, s)

def lift (x : Except PyError α) : Run α := fun s => some (x, s)

def session : Run Session := fun s => some (.ok s, s)

def update (f : Session → Session) : Run Unit := fun s => some (.ok (), f s)

instance : Monad Run where
  pure a := fun s => some (.ok a, s)
  bind x f := fun s =>
    match x s with
    | none => none
    | some (.error e, s') => some (.error e, s')
    | some (.ok a, s') => f a s'

theorem bind_apply (x : Run α) (f : α → Run β) (s : Session) :
    (x >>= f) s = match x s with
      | none => none
      | some (.error e, s') => some (.error e, s')
      | some (.ok a, s') => f a s' := rfl

theorem pure_apply (a : α) (s : Session) : (pure a : Run α) s = some (.ok a, s) := rfl

/-- Run `f` on the values of a dict or of a list, from left to right. -/
def mapVals (f : PyVal → Run PyVal) : List (PyKey × PyVal) → Run (List (PyKey × PyVal))
  | [] => pure []
  | (k, v) :: kvs => do
    let v' ← f v
    let rest ← mapVals f kvs
    return (k, v') :: rest

def mapList (f : PyVal → Run PyVal) : List PyVal → Run (List PyVal)
  | [] => pure []
  | x :: xs => do
    let x' ← f x
    let rest ← mapList f xs
    return x' :: rest

end Run

/-! ## Disk cache -/

/-- `_get_cache_path`. -/
def getCachePath (w : World) (url cacheDir : String) : String :=
  cacheDir ++ "/" ++ String.ofList ((w.sha256 url).toList.take 16) ++ ".json"

def readClock (w : World) : Run Rat := do
  let s ← Run.session
  Run.update fun s => { s with readings := s.readings + 1 }
  return w.time s.readings

/-- `now - timestamp > ttl`, for a float `now` and any `timestamp`. -/
def isExpired (now : Rat) (timestamp : PyVal) (ttl : Int) : Except PyError Bool :=
  match timestamp with
  | .int i =>
    if i.natAbs < floatBound then .ok (((PyFloat.finite now).sub (.ofRat i)).exceeds ttl)
    else .error ⟨.other "OverflowError", "int too large to convert to float"⟩
  | _ =>
    match timestamp.number? with
    | none => .error ⟨.typeError, "unsupported operand type(s) for -"⟩
    | some x => .ok (((PyFloat.finite now).sub x).exceeds ttl)

/-- `_read_from_cache`; a miss is `None`. A JSON error and an `OSError` are turned into a miss, and
nothing in the body raises `KeyError`. -/
def readFromCache (w : World) (url cacheDir : String) (cacheTtlSeconds : Int) : Run PyVal := do
  let s ← Run.session
  match s.disk (getCachePath w url cacheDir) with
  | none => return .none
  | some (.error e) =>
    if e.cls = .jsonDecodeError ∨ e.cls = .osError then return .none else Run.raise e
  | some (.ok (.dict data)) =>
    let timestamp := (PyVal.get data "timestamp").getD (.int 0)
    let now ← readClock w
    let expired ← Run.lift (isExpired now timestamp cacheTtlSeconds)
    return if expired then .none else (PyVal.get data "document").getD .none
  | some (.ok _) => Run.raise ⟨.attributeError, "get"⟩

/-- `cached_data`. -/
def cachedData (timestamp : Rat) (url : String) (document : PyVal) : PyVal :=
  .dict [(.str "timestamp", .float (.finite timestamp)), (.str "url", .str url),
    (.str "document", document)]

/-- `_write_to_cache`. What `mkdir` raises is not caught. The file is truncated before the value is
encoded, so a value that cannot be encoded leaves a partial text behind, and its exception is no
`OSError`; an `OSError` of the write is logged. -/
def writeToCache (w : World) (url : String) (document : PyVal) (cacheDir : String) : Run Unit := do
  let s ← Run.session
  Run.lift (w.mkdir s.requests.length cacheDir)
  let now ← readClock w
  let (file, err) := jsonDump (cachedData now url document)
  let path := getCachePath w url cacheDir
  match w.writeFault s.requests.length path with
  | some fault =>
    Run.update fun s =>
      { s with disk := Function.update s.disk path (fault.leaves (s.disk path) file) }
  | none =>
    Run.update fun s => { s with disk := Function.update s.disk path (some file) }
    match err with
    | some e => Run.raise e
    | none => return ()

/-! ## Documents -/

/-- `_fetch_remote_document`. -/
def fetchRemoteDocument (w : World) (url : String) : Run PyVal := do
  let s ← Run.session
  Run.update fun s => { s with requests := s.requests ++ [url] }
  let content ← Run.lift (w.get s.requests.length url)
  if Str.endsWith url ".yaml" || Str.endsWith url ".yml" then Run.lift content.yaml
  else Run.lift content.json

/-- `result[part]`. -/
def getItem (result : PyVal) (part : String) : Except PyError PyVal :=
  match result with
  | .dict items =>
    match PyVal.get items part with
    | some v => .ok v
    | none => .error ⟨.keyError, part⟩
  | _ => .error ⟨.typeError, "indices must be integers or slices, not str"⟩

/-- The parts of a fragment that the navigation looks up. -/
def fragmentParts (fragment : String) : List String :=
  ((Str.split '/' (Str.strip '/' fragment.toList)).filter (· ≠ [])).map String.ofList

/-- `_navigate_to_fragment`. -/
def navigateToFragment (doc : PyVal) (fragment : String) : Except PyError PyVal :=
  if fragment = "" ∨ fragment = "/" then .ok doc
  else (fragmentParts fragment).foldlM getItem doc

/-- `_resolve_relative_url`. -/
def resolveRelativeUrl (ref : String) (baseUrl : Option String) : Except PyError String := do
  if (← Url.scheme ref) ≠ "" then return ref
  match baseUrl with
  | some base =>
    if base = "" then .error ⟨.valueError, noBaseUrl ref⟩ else Url.urljoin base ref
  | none => .error ⟨.valueError, noBaseUrl ref⟩
where
  noBaseUrl (ref : String) : String :=
    "Cannot resolve relative reference '" ++ ref ++ "' without base URL"

/-- `_get_document`. -/
def getDocument (w : World) (url : String) (diskCacheDir : Option String)
    (cacheTtlSeconds : Int) : Run PyVal := do
  let s ← Run.session
  match s.documentCache url with
  | some doc => return doc
  | none =>
    let cachedDoc ← cached
    if cachedDoc.isNone then
      let doc ← fetchRemoteDocument w url
      remember doc
      store doc
      return doc
    else
      remember cachedDoc
      return cachedDoc
where
  cached : Run PyVal :=
    match diskCacheDir with
    | some dir => readFromCache w url dir cacheTtlSeconds
    | none => pure .none
  remember (doc : PyVal) : Run Unit := Run.update fun s =>
    { s with documentCache := Function.update s.documentCache url (some doc) }
  store (doc : PyVal) : Run Unit :=
    match diskCacheDir with
    | some dir => writeToCache w url doc dir
    | none => pure ()

/-! ## References -/

/-- The document that a reference names (`""` for none) and the fragment inside it: the part of
`_resolve_ref` before the document is fetched. -/
def splitRef (ref : String) (baseUrl : Option String) : Except PyError (String × String) := do
  let (urlPart, fragment) := match Str.splitFirst '#' ref.toList with
    | some (urlPart, fragment) => (String.ofList urlPart, String.ofList fragment)
    | none => (ref, "")
  let absoluteUrl ←
    (if urlPart ≠ "" then resolveRelativeUrl urlPart baseUrl else .ok (baseUrl.getD ""))
  return (absoluteUrl, fragment)

/-- `_resolve_ref`. -/
def resolveRef (w : World) (ref : String) (baseUrl diskCacheDir : Option String)
    (cacheTtlSeconds : Int) : Run (PyVal × String) := do
  let (absoluteUrl, fragment) ← Run.lift (splitRef ref baseUrl)
  let doc ←
    (if absoluteUrl ≠ "" then getDocument w absoluteUrl diskCacheDir cacheTtlSeconds
    else pure (.dict []))
  let result ← Run.lift (navigateToFragment doc fragment)
  return (result, absoluteUrl)

/-- `"$ref" in obj and len(obj) == 1`, with the value of the key. -/
def soleRef? (items : List (PyKey × PyVal)) : Option PyVal :=
  if items.length = 1 then PyVal.get items "$ref" else none

/-- `not ref.startswith("#")`. -/
def isExternal (ref : String) : Bool := !Str.startsWith ref "#"

/-- `_resolve_object`. -/
def resolveObject (w : World) (diskCacheDir : Option String) (cacheTtlSeconds : Int) :
    Nat → Option String → PyVal → Run PyVal
  | 0, _, _ => Run.outOfFuel
  | fuel + 1, baseUrl, .dict items =>
    match soleRef? items with
    | some (.str ref) =>
      if isExternal ref then do
        let (resolved, newBaseUrl) ← resolveRef w ref baseUrl diskCacheDir cacheTtlSeconds
        resolveObject w diskCacheDir cacheTtlSeconds fuel (some newBaseUrl) resolved
      else return .dict items
    | some _ => return .dict items
    | none => do
      return .dict (← Run.mapVals (resolveObject w diskCacheDir cacheTtlSeconds fuel baseUrl) items)
  | fuel + 1, baseUrl, .list items => do
    return .list (← Run.mapList (resolveObject w diskCacheDir cacheTtlSeconds fuel baseUrl) items)
  | _ + 1, _, obj => return obj

/-- `resolve_external_refs`: the call starts with an empty in-memory cache. -/
def resolveExternalRefs (w : World) (fuel : Nat) (spec : PyVal) (cacheDir : Option String)
    (cacheTtlSeconds : Int) : Run PyVal := do
  Run.update fun s => { s with documentCache := fun _ => none }
  resolveObject w cacheDir cacheTtlSeconds fuel none spec

/-! ## Detection -/

/-- The value of a dict's `$ref` key when it is an external reference. -/
def externalRef? (items : List (PyKey × PyVal)) : Option String :=
  match PyVal.get items "$ref" with
  | some (.str ref) => if isExternal ref then some ref else none
  | _ => none

mutual
/-- `has_external_refs`. -/
def hasExternalRefs : PyVal → Bool
  | .dict items => (externalRef? items).isSome || hasExternalRefsItems items
  | .list items => hasExternalRefsList items
  | _ => false

def hasExternalRefsItems : List (PyKey × PyVal) → Bool
  | [] => false
  | (_, v) :: items => hasExternalRefs v || hasExternalRefsItems items

def hasExternalRefsList : List PyVal → Bool
  | [] => false
  | v :: items => hasExternalRefs v || hasExternalRefsList items
end

end FastGeoApi
