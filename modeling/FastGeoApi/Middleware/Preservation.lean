import FastGeoApi.Middleware.Proxy

/-!
# What the proxy middleware leaves alone

The response is built anew from a dict of its headers, so a header that comes twice is lost; and
behind a proxy one without a content type, or with text that is no UTF-8, does not come back at all.
-/

namespace FastGeoApi

/-- The links in the response are to be rewritten. -/
def Eligible (request : Request) (inner : InnerResponse) : Prop :=
  forwardedUrl request ≠ none ∧
    ∃ contentType, inner.contentType = some contentType ∧ contentType ∈ rewrittenTypes

structure PreservedIn (request : Request) (inner : InnerResponse)
    (response : Starlette.Response) : Prop where
  statusCode : response.statusCode = inner.status
  headers : otherHeaders response.rawHeaders = otherHeaders inner.headers
  body : ¬Eligible request inner → response.body = inner.body

/-- The middleware returns a response, with what it has nothing to do with as it was. -/
def Preserves (s : Starlette) (pygeoapiBaseurl : String) (request : Request)
    (inner : InnerResponse) : Prop :=
  ∃ response, dispatch s pygeoapiBaseurl request inner = .ok response ∧
    PreservedIn request inner response

structure Preservable (request : Request) (inner : InnerResponse) : Prop where
  distinct : ((otherHeaders inner.headers).map Prod.fst).Nodup
  typed : forwardedUrl request ≠ none → inner.contentType ≠ none
  text : Eligible request inner → ∃ text, decodeUtf8 inner.body = .ok text

/-! ## Headers -/

theorem lookup_otherHeaders {headers : List (String × String)} {name : String}
    (hname : isOther name = true) :
    (otherHeaders headers).lookup name = headers.lookup name := by
  induction headers with
  | nil => rfl
  | cons header rest ih =>
    rw [otherHeaders, List.filter_cons, ← otherHeaders]
    split
    · rw [List.lookup_cons, List.lookup_cons, ih]
    · rename_i hother
      have hne : name ≠ header.1 := fun h => hother (h ▸ hname)
      rw [ih, List.lookup_cons, beq_eq_false_iff_ne.mpr hne]

theorem otherHeaders_firstValues {headers : List (String × String)} :
    otherHeaders (firstValues headers) =
      dictFromKeys (fun name => (headers.lookup name).getD "")
        ((otherHeaders headers).map Prod.fst) := by
  rw [otherHeaders, firstValues, filter_dictFromKeys, otherHeaders, List.filter_map]
  rfl

/-- The dict of the headers keeps them all exactly when no name is repeated. -/
theorem otherHeaders_firstValues_eq_iff {headers : List (String × String)} :
    otherHeaders (firstValues headers) = otherHeaders headers ↔
      ((otherHeaders headers).map Prod.fst).Nodup := by
  rw [otherHeaders_firstValues]
  refine ⟨fun h => ?_, fun h => ?_⟩
  · rw [← h]
    exact dictFromKeys_nodup
  · rw [dictFromKeys_of_nodup h, List.map_map]
    refine (List.map_congr_left fun header hheader => ?_).trans (List.map_id _)
    have hother : isOther header.1 = true := (List.mem_filter.mp hheader).2
    have hvalue : headers.lookup header.1 = some header.2 := by
      rw [← lookup_otherHeaders hother, lookup_of_mem h hheader]
    simp only [Function.comp_apply, hvalue, Option.getD_some, id_eq]

/-! ## Responses -/

section
variable {s : Starlette} {pygeoapiBaseurl : String} {request : Request} {inner : InnerResponse}

theorem deliveredBody_of_not_eligible (h : ¬Eligible request inner)
    (htyped : forwardedUrl request ≠ none → inner.contentType ≠ none) :
    deliveredBody pygeoapiBaseurl request inner = .ok inner.body := by
  rw [deliveredBody]
  cases hurl : forwardedUrl request with
  | none => rfl
  | some url =>
    have hforwarded : forwardedUrl request ≠ none := by
      rw [hurl]
      exact Option.some_ne_none url
    cases htype : inner.contentType with
    | none => exact absurd htype (htyped hforwarded)
    | some contentType =>
      exact if_neg fun hrewritten => h ⟨hforwarded, contentType, htype, hrewritten⟩

/-- A body is delivered exactly when there is a content type to look at, and text where the type is
one of those that are rewritten. -/
theorem deliveredBody_ok_iff :
    (∃ body, deliveredBody pygeoapiBaseurl request inner = .ok body) ↔
      (forwardedUrl request ≠ none → inner.contentType ≠ none) ∧
        (Eligible request inner → ∃ text, decodeUtf8 inner.body = .ok text) := by
  by_cases heligible : Eligible request inner
  · have ⟨hforwarded, contentType, htype, hrewritten⟩ := heligible
    obtain ⟨url, hurl⟩ := Option.ne_none_iff_exists'.mp hforwarded
    have hbody : deliveredBody pygeoapiBaseurl request inner = (decodeUtf8 inner.body).map
        fun text => (Str.replace text pygeoapiBaseurl url).toByteArray := by
      rw [deliveredBody, hurl, htype]
      exact if_pos hrewritten
    rw [hbody]
    cases decodeUtf8 inner.body with
    | error e =>
      refine iff_of_false (fun h => ?_) fun h => ?_
      · obtain ⟨body, hbody⟩ := h
        cases hbody
      · obtain ⟨text, htext⟩ := h.2 heligible
        cases htext
    | ok text =>
      have htyped : inner.contentType ≠ none := by
        rw [htype]
        exact Option.some_ne_none contentType
      exact iff_of_true ⟨_, rfl⟩ ⟨fun _ => htyped, fun _ => ⟨text, rfl⟩⟩
  · refine ⟨fun h => ⟨fun hforwarded => ?_, fun h' => absurd h' heligible⟩, fun h =>
      ⟨_, deliveredBody_of_not_eligible heligible h.1⟩⟩
    intro htype
    obtain ⟨body, hbody⟩ := h
    obtain ⟨url, hurl⟩ := Option.ne_none_iff_exists'.mp hforwarded
    rw [deliveredBody, hurl, htype] at hbody
    cases hbody

theorem Preserves.preservable (hs : s.Lawful)
    (h : Preserves s pygeoapiBaseurl request inner) : Preservable request inner := by
  obtain ⟨headers, hdispatch, hheaders⟩ := dispatch_eq hs pygeoapiBaseurl request inner
  obtain ⟨response, hresponse, hpreserved⟩ := h
  rw [hdispatch] at hresponse
  cases hbody : deliveredBody pygeoapiBaseurl request inner with
  | error e =>
    rw [hbody] at hresponse
    cases hresponse
  | ok body =>
    rw [hbody] at hresponse
    cases hresponse
    obtain ⟨htyped, htext⟩ := deliveredBody_ok_iff.mp ⟨body, hbody⟩
    have hsame := hpreserved.headers
    rw [(hheaders body).2] at hsame
    exact ⟨otherHeaders_firstValues_eq_iff.mp hsame, htyped, htext⟩

theorem Preservable.preserves (hs : s.Lawful) (h : Preservable request inner) :
    Preserves s pygeoapiBaseurl request inner := by
  obtain ⟨headers, hdispatch, hheaders⟩ := dispatch_eq hs pygeoapiBaseurl request inner
  obtain ⟨body, hbody⟩ := deliveredBody_ok_iff.mpr ⟨h.typed, h.text⟩
  refine ⟨⟨inner.status, headers body, body⟩, ?_, rfl, ?_, fun hnot => ?_⟩
  · rw [hdispatch, hbody]
    rfl
  · rw [(hheaders body).2]
    exact otherHeaders_firstValues_eq_iff.mpr h.distinct
  · rw [deliveredBody_of_not_eligible hnot h.typed] at hbody
    exact (Except.ok.inj hbody).symm

end

/-- The response comes back as it was exactly when no other header is repeated and, behind a proxy,
it has a content type, and its body is text where that type is one of those that are rewritten. -/
theorem preserves_iff_preservable (s : Starlette) (hs : s.Lawful) (pygeoapiBaseurl : String)
    (request : Request) (inner : InnerResponse) :
    Preserves s pygeoapiBaseurl request inner ↔ Preservable request inner :=
  ⟨fun h => h.preservable hs, fun h => h.preserves hs⟩

def landingPage : InnerResponse where
  status := 200
  headers := [("content-type", "application/json"), ("content-length", "2")]
  chunks := ["\x7b\x7d".toByteArray]
  lowerCase := by decide

theorem landingPage_preserves_iff :
    Preserves asgiStarlette "http://localhost:5000" proxyRequest landingPage ↔
      Preservable proxyRequest landingPage :=
  preserves_iff_preservable asgiStarlette asgiStarlette_lawful _ _ _

/-- What Starlette answers a path with a slash too many. -/
def slashRedirect : InnerResponse where
  status := 307
  headers := [("location", "http://localhost:5000/geoapi/collections"), ("content-length", "0")]
  chunks := []
  lowerCase := by decide

def twoCookies : InnerResponse where
  status := 200
  headers := [("content-type", "text/plain"), ("set-cookie", "a=1"), ("set-cookie", "b=2")]
  chunks := []
  lowerCase := by decide

/-- Behind a proxy a redirect raises; and a second cookie is lost wherever the request is from. -/
theorem slashRedirect_not_preserved :
    dispatch asgiStarlette "http://localhost:5000" proxyRequest slashRedirect =
        .error ⟨.keyError, "content-type"⟩ ∧
      ¬Preserves asgiStarlette "http://localhost:5000" proxyRequest slashRedirect ∧
      ∀ request, ¬Preserves asgiStarlette "http://localhost:5000" request twoCookies := by
  have hraises : dispatch asgiStarlette "http://localhost:5000" proxyRequest slashRedirect =
      .error ⟨.keyError, "content-type"⟩ := rfl
  refine ⟨hraises, fun h => ?_, fun request h => ?_⟩
  · obtain ⟨response, hresponse, _⟩ := h
    rw [hraises] at hresponse
    cases hresponse
  · have hdistinct := (h.preservable asgiStarlette_lawful).distinct
    exact absurd hdistinct (by decide)

end FastGeoApi
