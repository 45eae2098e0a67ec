import FastGeoApi.Lib.Utf8
import FastGeoApi.Middleware.Proxy
import FastGeoApi.Python.Url

/-!
# Which links the proxy middleware rewrites

Whether it rewrites is decided by comparing the whole content type with a few values. What it
rewrites is every occurrence of the base URL, also inside a URL that is not one of pygeoapi.
-/

namespace FastGeoApi
open Substitution

/-- A response comes back with this body, and states its length. -/
def Delivers (s : Starlette) (pygeoapiBaseurl : String) (request : Request)
    (inner : InnerResponse) (body : ByteArray) : Prop :=
  ∃ response, dispatch s pygeoapiBaseurl request inner = .ok response ∧ response.body = body ∧
    response.rawHeaders.lookup "content-length" = some (toString response.body.size)

section
variable {s : Starlette} {pygeoapiBaseurl : String} {request : Request} {inner : InnerResponse}
  {url : String} {text : String}

theorem delivers_iff (hs : s.Lawful) {body : ByteArray} :
    Delivers s pygeoapiBaseurl request inner body ↔
      deliveredBody pygeoapiBaseurl request inner = .ok body := by
  obtain ⟨headers, hdispatch, hheaders⟩ := dispatch_eq hs pygeoapiBaseurl request inner
  rw [Delivers, hdispatch]
  refine ⟨fun ⟨response, hresponse, hbody, _⟩ => ?_, fun h => ?_⟩
  · cases hdelivered : deliveredBody pygeoapiBaseurl request inner with
    | error e =>
      rw [hdelivered] at hresponse
      cases hresponse
    | ok delivered =>
      rw [hdelivered] at hresponse
      cases hresponse
      rw [← hbody]
  · rw [h]
    exact ⟨_, rfl, rfl, (hheaders body).1⟩

theorem deliveredBody_of_rewritten (hurl : forwardedUrl request = some url) {contentType : String}
    (htype : inner.contentType = some contentType) (hrewritten : contentType ∈ rewrittenTypes)
    (htext : decodeUtf8 inner.body = .ok text) :
    deliveredBody pygeoapiBaseurl request inner =
      .ok (Str.replace text pygeoapiBaseurl url).toByteArray := by
  rw [deliveredBody, hurl, htype]
  simp only [hrewritten, if_true, htext]
  rfl

theorem deliveredBody_of_other (hurl : forwardedUrl request = some url) {contentType : String}
    (htype : inner.contentType = some contentType) (hother : contentType ∉ rewrittenTypes) :
    deliveredBody pygeoapiBaseurl request inner = .ok inner.body := by
  rw [deliveredBody, hurl, htype]
  exact if_neg hother

theorem replace_eq_self_iff {old new : String} :
    Str.replace text old new = text ↔ Str.isIn old text = false ∨ old = new := by
  rw [Str.replace, ← String.toList_inj, String.toList_ofList, replaceAll_eq_self_iff,
    ← Str.isIn_iff, Bool.not_eq_true, String.toList_inj]

end

/-! ## Content types -/

def isBlank (c : Char) : Bool := c = ' ' || c = '\t'

/-- The media type in a content type: what stands in front of the parameters, in lower case. -/
def mediaType (contentType : String) : String :=
  let type := (contentType.toList.takeWhile (· ≠ ';')).dropWhile isBlank
  String.ofList ((type.reverse.dropWhile isBlank).reverse.map Char.toLower)

def DenotesHtmlOrJson (contentType : String) : Prop :=
  mediaType contentType = "text/html" ∨ mediaType contentType = "application/json" ∨
    ∃ name, mediaType contentType = "application/" ++ name ++ "+json"

/-- A request that a reverse proxy has forwarded. -/
structure ForwardedRequest extends Request where
  proto : String
  host : String
  hasProto : headers.lookup "x-forwarded-proto" = some proto
  hasHost : headers.lookup "x-forwarded-host" = some host
  proto_ne : proto ≠ ""
  host_ne : host ≠ ""

/-- A response with links in its body. -/
structure LinkedResponse extends InnerResponse where
  mimetype : String
  text : String
  hasType : headers.lookup "content-type" = some mimetype
  denotes : DenotesHtmlOrJson mimetype
  hasText : decodeUtf8 (joinBytes chunks) = .ok text

def ForwardedRequest.url (request : ForwardedRequest) : String :=
  request.proto ++ "://" ++ request.host

/-- The body is delivered with the proxy in place of every base URL. -/
def RewritesLinks (s : Starlette) (pygeoapiBaseurl : String) (request : ForwardedRequest)
    (page : LinkedResponse) : Prop :=
  Delivers s pygeoapiBaseurl request.toRequest page.toInnerResponse
    (Str.replace page.text pygeoapiBaseurl request.url).toByteArray

theorem ForwardedRequest.forwardedUrl_eq (request : ForwardedRequest) :
    forwardedUrl request.toRequest = some request.url := by
  rw [forwardedUrl, request.hasProto, request.hasHost]
  exact if_pos ⟨request.proto_ne, request.host_ne⟩

theorem LinkedResponse.body_eq (page : LinkedResponse) : page.body = page.text.toByteArray :=
  (decodeUtf8_eq_ok.mp page.hasText).symm

section
variable {s : Starlette} {pygeoapiBaseurl : String} {request : ForwardedRequest}
  {page : LinkedResponse}

theorem rewritesLinks_of_type (hs : s.Lawful) (h : page.mimetype ∈ rewrittenTypes) :
    RewritesLinks s pygeoapiBaseurl request page :=
  (delivers_iff hs).mpr
    (deliveredBody_of_rewritten request.forwardedUrl_eq page.hasType h page.hasText)

/-- Where the type is not one of those, the body stays as it is. -/
theorem rewritesLinks_iff_same (hs : s.Lawful) (h : page.mimetype ∉ rewrittenTypes) :
    RewritesLinks s pygeoapiBaseurl request page ↔
      Str.isIn pygeoapiBaseurl page.text = false ∨ pygeoapiBaseurl = request.url := by
  rw [RewritesLinks, delivers_iff hs,
    deliveredBody_of_other request.forwardedUrl_eq page.hasType h, Except.ok.injEq, page.body_eq,
    String.toByteArray_inj, eq_comm, replace_eq_self_iff]

end

theorem rewritesLinks_iff (s : Starlette) (hs : s.Lawful) (pygeoapiBaseurl : String)
    (request : ForwardedRequest) (page : LinkedResponse) :
    RewritesLinks s pygeoapiBaseurl request page ↔
      page.mimetype ∈ rewrittenTypes ∨ Str.isIn pygeoapiBaseurl page.text = false ∨
        pygeoapiBaseurl = request.url := by
  by_cases h : page.mimetype ∈ rewrittenTypes
  · exact iff_of_true (rewritesLinks_of_type hs h) (.inl h)
  · rw [rewritesLinks_iff_same hs h, or_iff_right h]

def forwardedCollections : ForwardedRequest where
  toRequest := proxyRequest
  proto := "https"
  host := "proxy.example.com"
  hasProto := rfl
  hasHost := rfl
  proto_ne := by decide
  host_ne := by decide

def lakesLink : String := "\x7b\"href\": \"http://localhost:5000/collections/lakes\"\x7d"

/-- The items of a collection, as pygeoapi serves them. -/
def lakesItems : LinkedResponse where
  status := 200
  headers := [("content-type", "application/geo+json")]
  chunks := [lakesLink.toByteArray]
  lowerCase := by decide
  mimetype := "application/geo+json"
  text := lakesLink
  hasType := rfl
  denotes := .inr (.inr ⟨"geo", by decide⟩)
  hasText := joinBytes_singleton ▸ decodeUtf8_toByteArray

theorem lakesItems_rewritesLinks_iff :
    RewritesLinks asgiStarlette "http://localhost:5000" forwardedCollections lakesItems ↔
      lakesItems.mimetype ∈ rewrittenTypes ∨
        Str.isIn "http://localhost:5000" lakesItems.text = false ∨
        "http://localhost:5000" = forwardedCollections.url :=
  rewritesLinks_iff asgiStarlette asgiStarlette_lawful _ _ _

/-- Features are JSON, and come with the URLs of pygeoapi. -/
theorem lakesItems_not_rewritten :
    ¬RewritesLinks asgiStarlette "http://localhost:5000" forwardedCollections lakesItems := by
  have htype : lakesItems.mimetype ∉ rewrittenTypes := by decide
  rw [rewritesLinks_iff_same asgiStarlette_lawful htype]
  intro h
  rcases h with hnone | hsame
  · exact absurd hnone (by decide)
  · exact absurd hsame (by decide)

/-! ## URLs of other origins -/

/-- An absolute URL of this origin; which characters a URL has is left to the format of the text. -/
structure AbsoluteUrl (urlChar : Char → Bool) (url : List Char) (origin : Url.Origin) : Prop where
  chars : ∀ c ∈ url, urlChar c = true
  origin : Url.origin url = some origin

/-- In the body, the URL is all that stands between two characters that no URL has, or bytes that
are no character. -/
structure UrlAt (urlChar : Char → Bool) (body before : ByteArray) (url : List Char)
    (after : ByteArray) (origin : Url.Origin) : Prop where
  body_eq : body = before ++ utf8 url ++ after
  isUrl : AbsoluteUrl urlChar url origin
  begins : ∀ front c, before = front ++ utf8 [c] → urlChar c = false
  ends : ∀ c back, after = utf8 [c] ++ back → urlChar c = false

def InnerResponse.withBody (inner : InnerResponse) (body : ByteArray) : InnerResponse :=
  { inner with chunks := [body] }

/-- The URL is delivered as it is, between what becomes of the body before and behind it. -/
def KeepsUrl (s : Starlette) (pygeoapiBaseurl : String) (request : Request)
    (inner : InnerResponse) (before : ByteArray) (url : List Char) (after : ByteArray) : Prop :=
  ∃ before' after', Delivers s pygeoapiBaseurl request inner (before' ++ utf8 url ++ after') ∧
    Delivers s pygeoapiBaseurl request (inner.withBody before) before' ∧
    Delivers s pygeoapiBaseurl request (inner.withBody after) after'

def KeepsForeignUrls (s : Starlette) (urlChar : Char → Bool) (pygeoapiBaseurl : String)
    (base : Url.Origin) (request : Request) (inner : InnerResponse) : Prop :=
  ∀ before url after origin, UrlAt urlChar inner.body before url after origin → origin ≠ base →
    KeepsUrl s pygeoapiBaseurl request inner before url after

/-- Behind a proxy there is a content type, and where it is one of those that are rewritten, the
body is text and the base URL is replaced by itself or does not occur in this one. -/
def Spared (pygeoapiBaseurl : String) (request : Request) (inner : InnerResponse)
    (url : List Char) : Prop :=
  ∀ forwarded, forwardedUrl request = some forwarded →
    ∃ contentType, inner.contentType = some contentType ∧
      (contentType ∈ rewrittenTypes → (∃ text, decodeUtf8 inner.body = .ok text) ∧
        (pygeoapiBaseurl = forwarded ∨ ¬pygeoapiBaseurl.toList <:+: url))

section
variable {s : Starlette} {urlChar : Char → Bool} {pygeoapiBaseurl : String} {base : Url.Origin}
  {request : Request} {inner : InnerResponse} {before after : ByteArray} {url : List Char}
  {origin : Url.Origin}

theorem AbsoluteUrl.ne_nil (h : AbsoluteUrl urlChar url origin) : url ≠ [] := by
  rintro rfl
  exact nomatch h.origin

theorem withBody_body (inner : InnerResponse) (body : ByteArray) :
    (inner.withBody body).body = body := joinBytes_singleton

theorem UrlAt.text_eq {body : ByteArray} {text : String}
    (h : UrlAt urlChar body before url after origin) (htext : decodeUtf8 body = .ok text) :
    ∃ front back, before = utf8 front ∧ after = utf8 back ∧ text.toList = front ++ url ++ back ∧
      (∀ c ∈ front.getLast?, urlChar c = false) ∧ ∀ c ∈ back.head?, urlChar c = false := by
  have hbody : utf8 text.toList = before ++ utf8 url ++ after := by
    rw [utf8, String.ofList_toList, decodeUtf8_eq_ok.mp htext, h.body_eq]
  obtain ⟨front, back, rfl, rfl, heq⟩ := utf8_split hbody h.isUrl.ne_nil
  exact ⟨front, back, rfl, rfl, heq, utf8_begins_iff.mp h.begins, utf8_ends_iff.mp h.ends⟩

theorem keepsUrl_of_unchanged (hs : s.Lawful)
    (hat : UrlAt urlChar inner.body before url after origin)
    (h : ∀ chunks, deliveredBody pygeoapiBaseurl request { inner with chunks := chunks } =
      .ok (joinBytes chunks)) :
    KeepsUrl s pygeoapiBaseurl request inner before url after := by
  refine ⟨before, after, (delivers_iff hs).mpr ?_, (delivers_iff hs).mpr ?_,
    (delivers_iff hs).mpr ?_⟩
  · rw [← hat.body_eq]
    exact h inner.chunks
  · rw [InnerResponse.withBody, h, joinBytes_singleton]
  · rw [InnerResponse.withBody, h, joinBytes_singleton]

/-- No base URL goes on into this URL or begins in it and goes on behind it. -/
theorem replaceAll_around {old new front back : List Char} (hbase : AbsoluteUrl urlChar old base)
    (hfront : ∀ c ∈ front.getLast?, urlChar c = false)
    (hback : ∀ c ∈ back.head?, urlChar c = false) :
    replaceAll old new (front ++ url ++ back) =
      replaceAll old new front ++ replaceAll old new url ++ replaceAll old new back := by
  have hold := hbase.ne_nil
  rw [List.append_assoc, replaceAll_append hold (apart_of_end hbase.chars hfront),
    replaceAll_append hold (apart_of_begin hbase.chars hback), List.append_assoc]

theorem delivers_iff_replaced (hs : s.Lawful) {forwarded contentType : String}
    (hforwarded : forwardedUrl request = some forwarded)
    (htype : inner.contentType = some contentType) (hrewritten : contentType ∈ rewrittenTypes)
    {text : List Char} (htext : inner.body = utf8 text) {body : ByteArray} :
    Delivers s pygeoapiBaseurl request inner body ↔
      body = utf8 (replaceAll pygeoapiBaseurl.toList forwarded.toList text) := by
  have hdecode : decodeUtf8 inner.body = .ok (String.ofList text) := by
    rw [htext]
    exact decodeUtf8_toByteArray
  rw [delivers_iff hs, deliveredBody_of_rewritten hforwarded htype hrewritten hdecode,
    Except.ok.injEq, Str.replace, String.toList_ofList, ← utf8, eq_comm]

/-- In a text that is rewritten, a URL is kept exactly when the scan leaves it alone. -/
theorem keepsUrl_iff_replaced (hs : s.Lawful)
    (hbase : AbsoluteUrl urlChar pygeoapiBaseurl.toList base) {forwarded contentType : String}
    (hforwarded : forwardedUrl request = some forwarded)
    (htype : inner.contentType = some contentType) (hrewritten : contentType ∈ rewrittenTypes)
    {text : String} (htext : decodeUtf8 inner.body = .ok text)
    (h : UrlAt urlChar inner.body before url after origin) :
    KeepsUrl s pygeoapiBaseurl request inner before url after ↔
      replaceAll pygeoapiBaseurl.toList forwarded.toList url = url := by
  obtain ⟨front, back, rfl, rfl, -, hfront, hback⟩ := h.text_eq htext
  have hbody := h.body_eq
  rw [← utf8_append, ← utf8_append] at hbody
  have hpart : ∀ part body, Delivers s pygeoapiBaseurl request (inner.withBody (utf8 part)) body ↔
      body = utf8 (replaceAll pygeoapiBaseurl.toList forwarded.toList part) := by
    intro part body
    have htype' : (inner.withBody (utf8 part)).contentType = some contentType := htype
    exact delivers_iff_replaced hs hforwarded htype' hrewritten (withBody_body inner _)
  simp only [KeepsUrl, hpart, delivers_iff_replaced hs hforwarded htype hrewritten hbody,
    replaceAll_around hbase hfront hback, utf8_append]
  refine ⟨fun ⟨before', after', hwhole, hbefore, hafter⟩ => ?_, fun hurl => ⟨_, _, ?_, rfl, rfl⟩⟩
  · rw [hbefore, hafter, ByteArray.append_left_inj, ByteArray.append_right_inj, utf8_inj] at hwhole
    exact hwhole.symm
  · rw [hurl]

/-- Without a content type, or where a body to rewrite is no text, nothing is delivered. -/
theorem not_keepsUrl_of_error (hs : s.Lawful) {e : PyError}
    (h : deliveredBody pygeoapiBaseurl request inner = .error e) :
    ¬KeepsUrl s pygeoapiBaseurl request inner before url after := by
  rintro ⟨before', after', hdelivers, _⟩
  rw [delivers_iff hs, h] at hdelivers
  cases hdelivers

theorem deliveredBody_of_noType {forwarded : String}
    (hforwarded : forwardedUrl request = some forwarded) (htype : inner.contentType = none) :
    deliveredBody pygeoapiBaseurl request inner = .error ⟨.keyError, "content-type"⟩ := by
  rw [deliveredBody, hforwarded, htype]

theorem deliveredBody_of_noText {forwarded contentType : String} {e : PyError}
    (hforwarded : forwardedUrl request = some forwarded)
    (htype : inner.contentType = some contentType) (hrewritten : contentType ∈ rewrittenTypes)
    (htext : decodeUtf8 inner.body = .error e) :
    deliveredBody pygeoapiBaseurl request inner = .error e := by
  rw [deliveredBody, hforwarded, htype]
  simp only [hrewritten, if_true, htext]
  rfl

theorem keepsUrl_iff_spared (hs : s.Lawful)
    (hbase : AbsoluteUrl urlChar pygeoapiBaseurl.toList base)
    (h : UrlAt urlChar inner.body before url after origin) :
    KeepsUrl s pygeoapiBaseurl request inner before url after ↔
      Spared pygeoapiBaseurl request inner url := by
  cases hforwarded : forwardedUrl request with
  | none =>
    refine iff_of_true (keepsUrl_of_unchanged hs h fun chunks => ?_) fun forwarded hsome => ?_
    · rw [deliveredBody, hforwarded]
      rfl
    · rw [hforwarded] at hsome
      cases hsome
  | some forwarded =>
    cases htype : inner.contentType with
    | none =>
      refine iff_of_false (not_keepsUrl_of_error hs (deliveredBody_of_noType hforwarded htype))
        fun hspared => ?_
      obtain ⟨contentType, hsome, _⟩ := hspared forwarded hforwarded
      rw [htype] at hsome
      cases hsome
    | some contentType =>
      have hspared : Spared pygeoapiBaseurl request inner url ↔ (contentType ∈ rewrittenTypes →
          (∃ text, decodeUtf8 inner.body = .ok text) ∧
            (pygeoapiBaseurl = forwarded ∨ ¬pygeoapiBaseurl.toList <:+: url)) := by
        simp [Spared, hforwarded, htype]
      rw [hspared]
      by_cases hrewritten : contentType ∈ rewrittenTypes
      · rw [imp_iff_right hrewritten]
        cases htext : decodeUtf8 inner.body with
        | error e =>
          refine iff_of_false (not_keepsUrl_of_error hs
            (deliveredBody_of_noText hforwarded htype hrewritten htext)) ?_
          rintro ⟨⟨text, hok⟩, _⟩
          cases hok
        | ok text =>
          rw [keepsUrl_iff_replaced hs hbase hforwarded htype hrewritten htext h,
            replaceAll_eq_self_iff, String.toList_inj, or_comm, and_iff_right ⟨text, rfl⟩]
      · refine iff_of_true (keepsUrl_of_unchanged hs h fun _ => ?_) fun h => absurd h hrewritten
        exact deliveredBody_of_other hforwarded htype hrewritten

end

theorem keepsForeignUrls_iff (s : Starlette) (hs : s.Lawful) (urlChar : Char → Bool)
    (pygeoapiBaseurl : String) (base : Url.Origin)
    (hbase : AbsoluteUrl urlChar pygeoapiBaseurl.toList base) (request : Request)
    (inner : InnerResponse) :
    KeepsForeignUrls s urlChar pygeoapiBaseurl base request inner ↔
      ∀ before url after origin, UrlAt urlChar inner.body before url after origin →
        origin ≠ base → Spared pygeoapiBaseurl request inner url := by
  refine ⟨fun hkeeps before url after origin hat hforeign => ?_,
    fun hspared before url after origin hat hforeign => ?_⟩
  · exact (keepsUrl_iff_spared hs hbase hat).mp (hkeeps before url after origin hat hforeign)
  · exact (keepsUrl_iff_spared hs hbase hat).mpr (hspared before url after origin hat hforeign)

/-- The characters that RFC 3986 has, but for the quote that HTML has too. -/
def isUrlChar (c : Char) : Bool := c.isAlphanum || c ∈ "-._~:/?#[]@!$&()*+,;=%".toList

def pygeoapiOrigin : Url.Origin := ⟨"http".toList, "localhost".toList, some 5000⟩

theorem pygeoapiBaseurl_isUrl :
    AbsoluteUrl isUrlChar "http://localhost:5000".toList pygeoapiOrigin :=
  ⟨List.all_eq_true.mp (by decide), by decide⟩

def otherPortText : String := "\x7b\"href\": \"http://localhost:50001/x\"\x7d"

/-- A link to another service on the same host. -/
def otherPort : InnerResponse where
  status := 200
  headers := [("content-type", "application/json")]
  chunks := [otherPortText.toByteArray]
  lowerCase := by decide

theorem otherPort_keepsForeignUrls_iff :
    KeepsForeignUrls asgiStarlette isUrlChar "http://localhost:5000" pygeoapiOrigin proxyRequest
        otherPort ↔
      ∀ before url after origin, UrlAt isUrlChar otherPort.body before url after origin →
        origin ≠ pygeoapiOrigin → Spared "http://localhost:5000" proxyRequest otherPort url :=
  keepsForeignUrls_iff asgiStarlette asgiStarlette_lawful _ _ _ pygeoapiBaseurl_isUrl _ _

theorem otherPort_urlAt :
    UrlAt isUrlChar otherPort.body (utf8 "\x7b\"href\": \"".toList)
      "http://localhost:50001/x".toList (utf8 "\"\x7d".toList)
      ⟨"http".toList, "localhost".toList, some 50001⟩ := by
  refine ⟨?_, ⟨List.all_eq_true.mp (by decide), by decide⟩, utf8_begins_iff.mpr fun c hc => ?_,
    utf8_ends_iff.mpr fun c hc => ?_⟩
  · rw [InnerResponse.body, otherPort, joinBytes_singleton, ← utf8_append, ← utf8_append, utf8]
    rfl
  · cases hc
    rfl
  · cases hc
    rfl

/-- The client is sent to `https://proxy.example.com1/x`. -/
theorem otherPort_not_kept :
    deliveredBody "http://localhost:5000" proxyRequest otherPort =
        .ok "\x7b\"href\": \"https://proxy.example.com1/x\"\x7d".toByteArray ∧
      ¬KeepsForeignUrls asgiStarlette isUrlChar "http://localhost:5000" pygeoapiOrigin proxyRequest
        otherPort := by
  have htext : decodeUtf8 otherPort.body = .ok otherPortText := by
    rw [InnerResponse.body, otherPort, joinBytes_singleton]
    exact decodeUtf8_toByteArray
  have htype : otherPort.contentType = some "application/json" := rfl
  have hurl : forwardedUrl proxyRequest = some "https://proxy.example.com" := by decide
  refine ⟨?_, fun hkeeps => ?_⟩
  · have hreplaced : Str.replace otherPortText "http://localhost:5000" "https://proxy.example.com" =
        "\x7b\"href\": \"https://proxy.example.com1/x\"\x7d" := by decide
    rw [deliveredBody_of_rewritten hurl htype (by decide) htext, hreplaced]
  · have hkept := hkeeps _ _ _ _ otherPort_urlAt (by decide)
    rw [keepsUrl_iff_replaced asgiStarlette_lawful pygeoapiBaseurl_isUrl hurl htype (by decide)
      htext otherPort_urlAt] at hkept
    exact absurd hkept (by decide)

end FastGeoApi
