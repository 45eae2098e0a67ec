import FastGeoApi.Lib.Lists
import FastGeoApi.Starlette

/-!
# The proxy middleware

`ForwardedLinksMiddleware` of `app/middleware/proxy.py`: the response is read to its end and built
anew, and when a reverse proxy has forwarded the request, the URLs of pygeoapi in it become URLs of
the proxy.
-/

namespace FastGeoApi

section
variable (s : Starlette)

def truthy : Option String → Bool
  | some value => value ≠ ""
  | none => false

/-- The content types whose bodies are rewritten. -/
def rewrittenTypes : List String :=
  ["text/html", "application/json", "application/ld+json", "application/schema+json",
    "application/vnd.oai.openapi+json;version=3.0"]

/-- `ForwardedLinksMiddleware.dispatch`. -/
def dispatch (pygeoapiBaseurl : String) (request : Request) (inner : InnerResponse) :
    Except PyError Starlette.Response := do
  let response_ := s.callNext inner
  let responseBody := joinBytes response_.bodyIterator
  let headers ← s.dict response_.rawHeaders
  let response := s.response responseBody response_.statusCode headers response_.mediaType
  let response ←
    if truthy (s.get request.headers "x-forwarded-proto") &&
        truthy (s.get request.headers "x-forwarded-host") then do
      let contentType ← s.getItem response_.rawHeaders "content-type"
      if contentType ∈ rewrittenTypes then
        let body_ ← decodeUtf8 responseBody
        let proxiedBaseUrl := (← s.getItem request.headers "x-forwarded-proto") ++ "://" ++
          (← s.getItem request.headers "x-forwarded-host")
        let body := Str.replace body_ pygeoapiBaseurl proxiedBaseUrl
        let headers ← s.dict response_.rawHeaders
        let response := s.response body.toByteArray response_.statusCode headers response_.mediaType
        pure { response with
          rawHeaders := s.setItem response.rawHeaders "x-pygeoapi-forwarded-url" proxiedBaseUrl }
      else pure response
    else pure response
  return { response with
    rawHeaders := s.setItem response.rawHeaders "content-length" (toString response.body.size) }

end

/-! ## What comes of a response -/

/-- `f"{proto}://{host}"`, when both headers are there and neither is empty. -/
def forwardedUrl (request : Request) : Option String :=
  match request.headers.lookup "x-forwarded-proto", request.headers.lookup "x-forwarded-host" with
  | some proto, some host =>
    if proto ≠ "" ∧ host ≠ "" then some (proto ++ "://" ++ host) else none
  | _, _ => none

def InnerResponse.contentType (inner : InnerResponse) : Option String :=
  inner.headers.lookup "content-type"

def InnerResponse.body (inner : InnerResponse) : ByteArray := joinBytes inner.chunks

def deliveredBody (pygeoapiBaseurl : String) (request : Request) (inner : InnerResponse) :
    Except PyError ByteArray :=
  match forwardedUrl request with
  | none => .ok inner.body
  | some url =>
    match inner.contentType with
    | none => .error ⟨.keyError, "content-type"⟩
    | some contentType =>
      if contentType ∈ rewrittenTypes then
        (decodeUtf8 inner.body).map fun text => (Str.replace text pygeoapiBaseurl url).toByteArray
      else .ok inner.body

/-- Each name once, with its first value. -/
def firstValues (headers : List (String × String)) : List (String × String) :=
  dictFromKeys (fun name => (headers.lookup name).getD "") (headers.map Prod.fst)

def isOther (name : String) : Bool :=
  name ≠ "content-length" && name ≠ "x-pygeoapi-forwarded-url"

/-- The headers that the middleware has nothing to do with. -/
def otherHeaders (headers : List (String × String)) : List (String × String) :=
  headers.filter (isOther ·.1)

theorem otherHeaders_setHeader {headers : List (String × String)} {key value : String}
    (hkey : isOther key = false) :
    otherHeaders (setHeader headers key value) = otherHeaders headers := by
  have hrest : ∀ rest : List (String × String),
      otherHeaders (rest.filter (·.1 ≠ key)) = otherHeaders rest := by
    intro rest
    rw [otherHeaders, List.filter_filter]
    refine List.filter_congr fun header _ => ?_
    by_cases h : header.1 = key
    · simp [h, hkey]
    · simp [h]
  induction headers with
  | nil => simp [setHeader, otherHeaders, hkey]
  | cons header rest ih =>
    obtain ⟨name, v⟩ := header
    rw [setHeader]
    split
    · rename_i hname
      rw [otherHeaders, List.filter_cons_of_neg (by simp [hkey]), ← otherHeaders, hrest,
        otherHeaders, otherHeaders, List.filter_cons_of_neg (by simp [hname, hkey])]
    · rw [otherHeaders, List.filter_cons, ← otherHeaders, ih, otherHeaders, otherHeaders,
        List.filter_cons]

section
variable {s : Starlette} {pygeoapiBaseurl : String} {request : Request} {inner : InnerResponse}
  {headers : List (String × String)} {key : String}

theorem Starlette.Lawful.get (hs : s.Lawful) (hkey : LowerCase key) :
    s.get headers key = headers.lookup key := by
  rw [Starlette.get, hs.getItem hkey]
  cases headers.lookup key <;> rfl

theorem Starlette.Lawful.getItem_of_lookup {value : String} (hs : s.Lawful) (hkey : LowerCase key)
    (h : headers.lookup key = some value) : s.getItem headers key = .ok value := by
  rw [hs.getItem hkey, h]

theorem Starlette.Lawful.dict (hs : s.Lawful) (hlower : ∀ header ∈ headers, LowerCase header.1) :
    s.dict headers = .ok (firstValues headers) := by
  rw [Starlette.dict, hs.keys]
  refine foldlM_eq_ok fun name hname items => ?_
  -- a name of a header is there when it is looked up
  obtain ⟨header, hheader, rfl⟩ := List.mem_map.mp hname
  cases hvalue : headers.lookup header.1 with
  | none => exact absurd rfl (bne_iff_ne.mp (List.lookup_eq_none_iff.mp hvalue header hheader))
  | some value =>
    rw [hs.getItem_of_lookup (hlower header hheader) hvalue]
    simp only [hvalue]
    rfl

theorem lowerCase_firstValues (hlower : ∀ header ∈ headers, LowerCase header.1) :
    ∀ header ∈ firstValues headers, LowerCase header.1 := by
  intro header hheader
  obtain ⟨header', hheader', hname⟩ :=
    List.mem_map.mp (mem_keys_dictFromKeys.mp (List.mem_map_of_mem (f := Prod.fst) hheader))
  exact hname ▸ hlower header' hheader'

theorem otherHeaders_initHeaders (hs : s.Lawful) (hlower : ∀ header ∈ headers, LowerCase header.1)
    {body : ByteArray} {statusCode : Nat} :
    otherHeaders (s.initHeaders body statusCode headers none) = otherHeaders headers := by
  rw [hs.initHeaders hlower]
  split
  · rfl
  · rw [otherHeaders, List.filter_append, ← otherHeaders]
    exact List.append_nil _

theorem forwarded_cases (hs : s.Lawful) (request : Request) :
    (forwardedUrl request = none ∧
      (truthy (s.get request.headers "x-forwarded-proto") &&
        truthy (s.get request.headers "x-forwarded-host")) = false) ∨
    ∃ proto host, s.getItem request.headers "x-forwarded-proto" = .ok proto ∧
      s.getItem request.headers "x-forwarded-host" = .ok host ∧
      forwardedUrl request = some (proto ++ "://" ++ host) ∧
      (truthy (s.get request.headers "x-forwarded-proto") &&
        truthy (s.get request.headers "x-forwarded-host")) = true := by
  have hproto : LowerCase "x-forwarded-proto" := by decide
  have hhost : LowerCase "x-forwarded-host" := by decide
  rw [hs.get hproto, hs.get hhost, forwardedUrl]
  cases hlookup : request.headers.lookup "x-forwarded-proto" with
  | none => exact .inl ⟨rfl, rfl⟩
  | some proto =>
    cases hlookup' : request.headers.lookup "x-forwarded-host" with
    | none => exact .inl ⟨rfl, Bool.and_false _⟩
    | some host =>
      by_cases hne : proto ≠ "" ∧ host ≠ ""
      · refine .inr ⟨proto, host, hs.getItem_of_lookup hproto hlookup,
          hs.getItem_of_lookup hhost hlookup', if_pos hne, ?_⟩
        simpa [truthy] using hne
      · refine .inl ⟨if_neg hne, ?_⟩
        simpa [truthy] using hne

/-- The status is kept, the body is delivered, and of the headers only the two that are set are not
those of the dict. -/
theorem dispatch_eq (hs : s.Lawful) (pygeoapiBaseurl : String) (request : Request)
    (inner : InnerResponse) :
    ∃ headers : ByteArray → List (String × String),
      dispatch s pygeoapiBaseurl request inner =
        (deliveredBody pygeoapiBaseurl request inner).map
          (fun body => ⟨inner.status, headers body, body⟩) ∧
      ∀ body, (headers body).lookup "content-length" = some (toString body.size) ∧
        otherHeaders (headers body) = otherHeaders (firstValues inner.headers) := by
  have hlength : LowerCase "content-length" := by decide
  have hforwarded : LowerCase "x-pygeoapi-forwarded-url" := by decide
  have htype : LowerCase "content-type" := by decide
  have hlower := lowerCase_firstValues inner.lowerCase
  have hinit : ∀ body, otherHeaders (s.initHeaders body inner.status (firstValues inner.headers)
      none) = otherHeaders (firstValues inner.headers) := fun body =>
    otherHeaders_initHeaders hs hlower
  have hplain : ∀ body, otherHeaders (setHeader (s.initHeaders body inner.status
      (firstValues inner.headers) none) "content-length" (toString body.size)) =
      otherHeaders (firstValues inner.headers) := by
    intro body
    rw [otherHeaders_setHeader (by decide), hinit]
  simp only [dispatch, deliveredBody, Starlette.response, hs.keepsStatus, hs.keepsHeaders,
    hs.noMediaType, hs.keepsBody, hs.dict inner.lowerCase, hs.setItem hlength,
    hs.setItem hforwarded]
  rcases forwarded_cases hs request with ⟨hurl, hnot⟩ | ⟨proto, host, hproto, hhost, hurl, hboth⟩
  · rw [hurl, hnot]
    exact ⟨_, rfl, fun body => ⟨lookup_setHeader, hplain body⟩⟩
  · rw [hurl, hboth, hproto, hhost, hs.getItem htype, InnerResponse.contentType]
    cases inner.headers.lookup "content-type" with
    | none => exact ⟨_, rfl, fun body => ⟨lookup_setHeader, hplain body⟩⟩
    | some contentType =>
      simp only [bind, Except.bind, pure, Except.pure, if_true]
      by_cases hrewritten : contentType ∈ rewrittenTypes
      · simp only [hrewritten, if_true, InnerResponse.body]
        cases decodeUtf8 (joinBytes inner.chunks) with
        | error e => exact ⟨_, rfl, fun body => ⟨lookup_setHeader, hplain body⟩⟩
        | ok text =>
          refine ⟨fun body => setHeader (setHeader (s.initHeaders body inner.status
            (firstValues inner.headers) none) "x-pygeoapi-forwarded-url"
            (proto ++ "://" ++ host)) "content-length" (toString body.size), rfl,
            fun body => ⟨lookup_setHeader, ?_⟩⟩
          rw [otherHeaders_setHeader (by decide), otherHeaders_setHeader (by decide), hinit]
      · simp only [hrewritten, if_false]
        exact ⟨_, rfl, fun body => ⟨lookup_setHeader, hplain body⟩⟩

/-- A text that is rewritten: the proxy is in the place of pygeoapi and in a header. -/
theorem dispatch_forwarded (hs : s.Lawful) (pygeoapiBaseurl : String)
    {url contentType text : String} (hurl : forwardedUrl request = some url)
    (htype : inner.headers.lookup "content-type" = some contentType)
    (hrewritten : contentType ∈ rewrittenTypes) (htext : decodeUtf8 inner.body = .ok text) :
    ∃ headers, dispatch s pygeoapiBaseurl request inner =
        .ok ⟨inner.status, headers, (Str.replace text pygeoapiBaseurl url).toByteArray⟩ ∧
      headers.lookup "x-pygeoapi-forwarded-url" = some url := by
  have hlength : LowerCase "content-length" := by decide
  have hforwarded : LowerCase "x-pygeoapi-forwarded-url" := by decide
  have hcontent : LowerCase "content-type" := by decide
  have hne : "x-pygeoapi-forwarded-url" ≠ "content-length" := by decide
  rcases forwarded_cases hs request with ⟨hnone, -⟩ | ⟨proto, host, hproto, hhost, hurl', hboth⟩
  · rw [hurl] at hnone
    cases hnone
  · rw [hurl] at hurl'
    obtain rfl := Option.some.inj hurl'
    rw [InnerResponse.body] at htext
    simp only [dispatch, Starlette.response, hs.keepsStatus, hs.keepsHeaders, hs.noMediaType,
      hs.keepsBody, hs.dict inner.lowerCase, hs.setItem hlength, hs.setItem hforwarded, hboth,
      hproto, hhost, hs.getItem hcontent, htype, hrewritten, htext, bind, Except.bind, pure,
      Except.pure, if_true]
    refine ⟨_, rfl, ?_⟩
    rw [lookup_setHeader_of_ne hne, lookup_setHeader]

end

def proxyRequest : Request where
  method := "GET"
  path := "/geoapi/collections"
  headers := [("x-forwarded-proto", "https"), ("x-forwarded-host", "proxy.example.com")]

end FastGeoApi
