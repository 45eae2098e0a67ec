import FastGeoApi.Asgi
import FastGeoApi.Python.Bytes
import FastGeoApi.Python.Dict
import FastGeoApi.Python.Str

/-!
# Starlette

Requests, responses, headers and routes are the work of Starlette, so they are parameters. What is
documented of them is in `Starlette.Lawful` and `Starlette.Routing.Lawful`.
-/

namespace FastGeoApi

/-- `MutableHeaders(raw=headers)[key] = value`: the first header of the name gets the value, and the
others of the name are deleted. -/
def setHeader (headers : List (String × String)) (key value : String) : List (String × String) :=
  match headers with
  | [] => [(key, value)]
  | (k, v) :: rest =>
    if k = key then (key, value) :: rest.filter (·.1 ≠ key) else (k, v) :: setHeader rest key value

@[simp] theorem lookup_setHeader {headers : List (String × String)} {key value : String} :
    (setHeader headers key value).lookup key = some value := by
  induction headers with
  | nil => exact List.lookup_cons_self
  | cons header rest ih =>
    obtain ⟨k, v⟩ := header
    rw [setHeader]
    by_cases hk : k = key
    · rw [if_pos hk]
      exact List.lookup_cons_self
    · have hbeq : (key == k) = false := beq_eq_false_iff_ne.mpr (Ne.symm hk)
      rw [if_neg hk, List.lookup_cons, hbeq]
      exact ih

theorem lookup_setHeader_of_ne {headers : List (String × String)} {name key value : String}
    (h : name ≠ key) :
    (setHeader headers key value).lookup name = headers.lookup name := by
  have hrest : ∀ rest : List (String × String),
      (rest.filter (·.1 ≠ key)).lookup name = rest.lookup name := by
    intro rest
    induction rest with
    | nil => rfl
    | cons header rest ih =>
      obtain ⟨k, v⟩ := header
      by_cases hk : k = key
      · have hne : (name == k) = false := beq_eq_false_iff_ne.mpr fun heq => h (heq.trans hk)
        rw [List.filter_cons_of_neg (by simpa using hk), List.lookup_cons, hne, ih]
      · rw [List.filter_cons_of_pos (by simpa using hk), List.lookup_cons, List.lookup_cons, ih]
  induction headers with
  | nil => rw [setHeader, List.lookup_cons, beq_eq_false_iff_ne.mpr h]
  | cons header rest ih =>
    obtain ⟨k, v⟩ := header
    rw [setHeader]
    split
    · rename_i hk
      have hne : (name == k) = false := beq_eq_false_iff_ne.mpr fun heq => h (heq.trans hk)
      rw [List.lookup_cons, beq_eq_false_iff_ne.mpr h, List.lookup_cons, hne]
      exact hrest rest
    · rw [List.lookup_cons, List.lookup_cons, ih]

def LowerCase (name : String) : Prop := lower name = name.toList

instance : Decidable (LowerCase name) := inferInstanceAs (Decidable (_ = _))

/-- What the inner application sends; ASGI has header names in lower case. -/
structure InnerResponse where
  status : Nat
  headers : List (String × String)
  chunks : List ByteArray
  lowerCase : ∀ header ∈ headers, LowerCase header.1

/-- The response that `call_next` returns. -/
structure Starlette.StreamingResponse where
  statusCode : Nat
  rawHeaders : List (String × String)
  mediaType : Option String
  bodyIterator : List ByteArray

structure Starlette.Response where
  statusCode : Nat
  rawHeaders : List (String × String)
  body : ByteArray

/-- What Starlette does with requests, responses and headers. -/
structure Starlette where
  /-- `call_next(request)`, where the inner application sends this response. -/
  callNext : InnerResponse → Starlette.StreamingResponse
  /-- `headers.keys()`. -/
  keys : List (String × String) → List String
  /-- `headers[key]`. -/
  getItem : List (String × String) → String → Except PyError String
  /-- `headers[key] = value`. -/
  setItem : List (String × String) → String → String → List (String × String)
  /-- The headers of `Response(content, status_code, headers, media_type)`. -/
  initHeaders : ByteArray → Nat → List (String × String) → Option String → List (String × String)

structure Starlette.Lawful (s : Starlette) : Prop where
  keepsStatus (inner : InnerResponse) : (s.callNext inner).statusCode = inner.status
  keepsHeaders (inner : InnerResponse) : (s.callNext inner).rawHeaders = inner.headers
  noMediaType (inner : InnerResponse) : (s.callNext inner).mediaType = none
  keepsBody (inner : InnerResponse) :
    joinBytes (s.callNext inner).bodyIterator = joinBytes inner.chunks
  /-- A repeated name is a repeated key. -/
  keys : s.keys headers = headers.map Prod.fst
  /-- The first header of the name. -/
  getItem : LowerCase key → s.getItem headers key =
    match headers.lookup key with
    | some value => .ok value
    | none => .error ⟨.keyError, key⟩
  /-- The header is set, and duplicates of it are removed. -/
  setItem : LowerCase key → s.setItem headers key value = setHeader headers key value
  /-- The headers that are given, and a content length when there is none and the status allows a
  body. -/
  initHeaders {headers : List (String × String)} : (∀ header ∈ headers, LowerCase header.1) →
    s.initHeaders body statusCode headers none =
      if "content-length" ∈ headers.map Prod.fst ∨ statusCode < 200 ∨ statusCode = 204 ∨
          statusCode = 304 then
        headers
      else headers ++ [("content-length", toString body.size)]

section
variable (s : Starlette)

/-- `headers.get(key)`. -/
def Starlette.get (headers : List (String × String)) (key : String) : Option String :=
  (s.getItem headers key).toOption

/-- `dict(headers)`. -/
def Starlette.dict (headers : List (String × String)) : Except PyError (List (String × String)) :=
  (s.keys headers).foldlM (fun items key => do
    return FastGeoApi.setItem items key (← s.getItem headers key)) []

/-- `Response(content, status_code, headers, media_type)`. -/
def Starlette.response (content : ByteArray) (statusCode : Nat) (headers : List (String × String))
    (mediaType : Option String) : Starlette.Response where
  statusCode := statusCode
  rawHeaders := s.initHeaders content statusCode headers mediaType
  body := content

end

/-! ## Routes -/

/-- The paths that are compared as they stand: they have no parameters, and no line break. -/
def LiteralPath (path : List Char) : Prop := ∀ c ∈ path, c ≠ '\x7b' ∧ c ≠ '\n'

instance (path : List Char) : Decidable (LiteralPath path) :=
  List.decidableBAll (fun c => c ≠ '\x7b' ∧ c ≠ '\n') path

/-- What `Mount` puts in front of the rest of a path. -/
def mountPrefix (path : String) : List Char := Str.rstrip '/' path.toList ++ ['/']

/-- A route with these methods serves the method. No methods stand for every method. -/
def servesMethod (methods : List String) (method : String) : Bool :=
  methods = [] || method ∈ methods

/-- What may come after a root path. -/
def FromSlash (rest : String) : Prop := rest = "" ∨ Str.startsWith rest "/" = true

/-- What Starlette does with paths. A route matches where its `matches` is `Match.FULL`. -/
structure Starlette.Routing where
  /-- `get_route_path(scope)`, for the root path and the path of the scope. -/
  getRoutePath : String → String → String
  /-- The assertion that a route makes of its path. -/
  checkPath : String → Except PyError Unit
  /-- `Route(path, endpoint, methods=methods).methods`. -/
  routeMethods : List String → List String
  /-- A route of this path, with these methods, matches a route path and a method. -/
  routeMatches : String → List String → String → String → Bool
  /-- `@app.get(path)` matches a route path and a method. -/
  getMatches : String → String → String → Bool
  /-- `Mount(path)` matches a route path. -/
  mountMatches : String → String → Bool

structure Starlette.Routing.Lawful (routing : Starlette.Routing) : Prop where
  /-- The root path is taken off. -/
  removesRootPath : FromSlash rest → routing.getRoutePath rootPath (rootPath ++ rest) = rest
  keepsOther : (∀ rest, FromSlash rest → path ≠ rootPath ++ rest) →
    routing.getRoutePath rootPath path = path
  /-- Routed paths must start with a slash. -/
  checkPath : routing.checkPath path = .ok () ↔ Str.startsWith path "/" = true
  /-- Methods get upper case, and `HEAD` comes with `GET`: a second time changes nothing. -/
  routeMethods : method ∈ routing.routeMethods (routing.routeMethods methods) ↔
    method ∈ routing.routeMethods methods
  routeMatches : LiteralPath path.toList → '\n' ∉ routePath.toList →
    (routing.routeMatches path methods routePath method = true ↔
      routePath = path ∧ servesMethod methods method = true)
  getMatches : LiteralPath path.toList → '\n' ∉ routePath.toList →
    (routing.getMatches path routePath method = true ↔ routePath = path ∧ method = "GET")
  mountMatches : LiteralPath path.toList → '\n' ∉ routePath.toList →
    (routing.mountMatches path routePath = true ↔ mountPrefix path <+: routePath.toList)

theorem Starlette.Routing.Lawful.servesMethod_methods {routing : Starlette.Routing}
    (h : routing.Lawful) (methods : List String) (method : String) :
    servesMethod (routing.routeMethods (routing.routeMethods methods)) method =
      servesMethod (routing.routeMethods methods) method := by
  have hnil : routing.routeMethods (routing.routeMethods methods) = [] ↔
      routing.routeMethods methods = [] := by
    simp only [List.eq_nil_iff_forall_not_mem, h.routeMethods]
  simp only [servesMethod, hnil, h.routeMethods]

/-! ## Starlette on header names in lower case -/

def asgiStarlette : Starlette where
  callNext inner := ⟨inner.status, inner.headers, none, inner.chunks⟩
  keys headers := headers.map Prod.fst
  getItem headers key :=
    match headers.lookup key with
    | some value => .ok value
    | none => .error ⟨.keyError, key⟩
  setItem := setHeader
  initHeaders body statusCode headers _ :=
    if "content-length" ∈ headers.map Prod.fst ∨ statusCode < 200 ∨ statusCode = 204 ∨
        statusCode = 304 then
      headers
    else headers ++ [("content-length", toString body.size)]

theorem asgiStarlette_lawful : asgiStarlette.Lawful where
  keepsStatus _ := rfl
  keepsHeaders _ := rfl
  noMediaType _ := rfl
  keepsBody _ := rfl
  keys := rfl
  getItem _ := rfl
  setItem _ := rfl
  initHeaders _ := rfl

/-! ## Starlette on paths without parameters -/

def literalRouting : Starlette.Routing where
  getRoutePath rootPath path :=
    let rest := String.ofList (path.toList.drop rootPath.toList.length)
    if Str.startsWith path rootPath ∧ (rest = "" ∨ Str.startsWith rest "/") then rest else path
  checkPath path :=
    if Str.startsWith path "/" then .ok ()
    else .error ⟨.other "AssertionError", "Routed paths must start with '/'"⟩
  routeMethods methods := if "GET" ∈ methods then "HEAD" :: methods else methods
  -- the dollar sign at the end of a regex also matches in front of a line break that ends the path
  routeMatches path methods routePath method :=
    (routePath = path || routePath = path ++ "\n") && servesMethod methods method
  getMatches path routePath method :=
    (routePath = path || routePath = path ++ "\n") && method = "GET"
  mountMatches path routePath :=
    (mountPrefix path).isPrefixOf routePath.toList &&
      '\n' ∉ (routePath.toList.drop (mountPrefix path).length).dropLast

theorem ne_append_of_not_mem {path routePath : String} (h : '\n' ∉ routePath.toList) :
    routePath ≠ path ++ "\n" := by
  rintro rfl
  refine h ?_
  rw [String.toList_append]
  exact List.mem_append_right _ (by decide)

theorem literalRouting_lawful : literalRouting.Lawful where
  removesRootPath {rest rootPath} h := by
    have hdrop : String.ofList ((rootPath ++ rest).toList.drop rootPath.toList.length) = rest := by
      rw [String.toList_append, List.drop_left, String.ofList_toList]
    have hstarts : Str.startsWith (rootPath ++ rest) rootPath = true := by
      rw [Str.startsWith_iff, String.toList_append]
      exact List.prefix_append _ _
    simp only [literalRouting, hdrop]
    rw [if_pos ⟨hstarts, h⟩]
  keepsOther {path rootPath} h := by
    simp only [literalRouting]
    refine if_neg fun hrest => h _ hrest.2 ?_
    obtain ⟨rest, hpath⟩ := Str.startsWith_iff.mp hrest.1
    rw [← hpath, List.drop_left, ← String.toList_inj, String.toList_append, String.toList_ofList,
      hpath]
  checkPath {path} := by
    simp only [literalRouting]
    split
    · exact iff_of_true rfl ‹_›
    · exact iff_of_false (fun h => by cases h) ‹_›
  routeMethods {method methods} := by
    simp only [literalRouting]
    grind
  routeMatches {path methods routePath method} _ hline := by
    simp [literalRouting, ne_append_of_not_mem hline]
  getMatches {path routePath method} _ hline := by
    simp [literalRouting, ne_append_of_not_mem hline]
  mountMatches {path routePath} _ hline := by
    rw [literalRouting, Bool.and_eq_true, List.isPrefixOf_iff_prefix, decide_eq_true_iff]
    refine and_iff_left fun hmem => hline ?_
    exact (List.drop_sublist _ _).subset ((List.dropLast_sublist _).subset hmem)

end FastGeoApi
