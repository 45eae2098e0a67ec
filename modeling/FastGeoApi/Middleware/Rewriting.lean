import FastGeoApi.Middleware.OpenApi
import FastGeoApi.OpenApi.Security

/-!
# Which responses the middleware gets right

Each body message is decoded, tested for the HTML marker and augmented on its own, and each one
sends the start again. So a response comes through whole only when its body is one message, and then
the marker in its text decides, not the status or the content type.
-/

namespace FastGeoApi

/-- The client is sent one response: a start, then its body in some number of messages. -/
structure Sends (run : List Message × Except PyError Unit) (start : Start) (body : ByteArray) :
    Prop where
  returns : run.2 = .ok ()
  messages : ∃ bodies : List (ByteArray × Bool),
    run.1 = .start start :: bodies.map (fun b => .body b.1 b.2) ∧
      joinBytes (bodies.map Prod.fst) = body

def hasMarker (text : String) : Bool := Str.isIn "<!-- HTML" text

section
variable {s : Starlette} {p : Pydantic} {cfg : Configuration}
  {securitySchemes : List SecurityScheme}

/-! ## One body message -/

/-- What a body is replaced by, with its start. -/
inductive Replaced (p : Pydantic) (cfg : Configuration) (securitySchemes : List SecurityScheme)
    (start : Start) (b : ByteArray) : Start → ByteArray → Prop where
  | page (htext : decodeUtf8 b = .ok text) (hmarker : hasMarker text = true) :
    Replaced p cfg securitySchemes start b start b
  | document (htext : decodeUtf8 b = .ok text) (hmarker : hasMarker text = false)
    (haugmented : augmentSecurity p cfg text securitySchemes = .ok result)
    (hbody : body = (p.dumpJson result).toByteArray) :
    Replaced p cfg securitySchemes start b
      { start with
        headers := setHeader start.headers "content-length" (toString body.size)
        body := some body } body

theorem setItem_contentLength (hs : s.Lawful) {headers : List (String × String)} {value : String} :
    s.setItem headers "content-length" value = setHeader headers "content-length" value :=
  hs.setItem (by decide)

/-- A body message raises and sends nothing, or sends the start and a body. -/
theorem send_body (hs : s.Lawful) (b : ByteArray) (moreBody : Bool) (start : Start) :
    (∃ e, sendWithSecurity s p cfg securitySchemes (.body b moreBody) (.start start) =
      ([], .error e)) ∨
    ∃ start' b', Replaced p cfg securitySchemes start b start' b' ∧
      sendWithSecurity s p cfg securitySchemes (.body b moreBody) (.start start) =
        ([.start start', .body b' moreBody], .ok (.start start')) := by
  rw [sendWithSecurity]
  cases htext : decodeUtf8 b with
  | error e => exact .inl ⟨e, rfl⟩
  | ok text =>
    simp only
    split
    · rename_i hmarker
      exact .inr ⟨_, _, .page htext hmarker, rfl⟩
    · rename_i hmarker
      cases haugmented : augmentSecurity p cfg text securitySchemes with
      | error e => exact .inl ⟨e, rfl⟩
      | ok result =>
        refine .inr ⟨_, _, .document htext (Bool.not_eq_true _ ▸ hmarker) haugmented rfl, ?_⟩
        simp only [setItem_contentLength hs]

theorem Replaced.send (hs : s.Lawful) {start start' : Start} {b b' : ByteArray} (moreBody : Bool)
    (h : Replaced p cfg securitySchemes start b start' b') :
    sendWithSecurity s p cfg securitySchemes (.body b moreBody) (.start start) =
      ([.start start', .body b' moreBody], .ok (.start start')) := by
  rw [sendWithSecurity]
  cases h with
  | page htext hmarker =>
    rw [hasMarker] at hmarker
    simp only [htext, hmarker, if_true]
  | document htext hmarker haugmented hbody =>
    rw [hasMarker] at hmarker
    simp only [htext, hmarker, haugmented, hbody, if_false, Bool.false_eq_true,
      setItem_contentLength hs]

/-! ## A whole response -/

theorem respond_start {start : Start} {messages : List Message} :
    respond s p cfg securitySchemes .empty (.start start :: messages) =
      respond s p cfg securitySchemes (.start start) messages := rfl

/-- The first thing that body messages send is a start. -/
theorem respond_bodyMessages (hs : s.Lawful) {start : Start} {first : ByteArray}
    {rest : List ByteArray}
    (h : (respond s p cfg securitySchemes (.start start) (bodyMessages first rest)).2 = .ok ()) :
    ∃ start' sent, (respond s p cfg securitySchemes (.start start) (bodyMessages first rest)).1 =
      .start start' :: sent := by
  have hhead : ∃ moreBody messages, bodyMessages first rest = .body first moreBody :: messages := by
    cases rest <;> exact ⟨_, _, rfl⟩
  obtain ⟨moreBody, messages, hmessages⟩ := hhead
  rw [hmessages, respond] at h ⊢
  rcases send_body hs first moreBody start with ⟨e, he⟩ | ⟨start', b', _, hsent⟩
  · rw [he] at h
    cases h
  · rw [hsent]
    exact ⟨start', _, rfl⟩

/-- Only a body in one message comes through as one response. -/
theorem sends_iff (hs : s.Lawful) {start start' : Start} {first body : ByteArray}
    {rest : List ByteArray} :
    Sends (respond s p cfg securitySchemes .empty (.start start :: bodyMessages first rest))
        start' body ↔
      rest = [] ∧ Replaced p cfg securitySchemes start first start' body := by
  rw [respond_start]
  constructor
  · intro hsends
    obtain ⟨hreturns, bodies, hbodies, hbody⟩ := hsends
    cases rest with
    | nil =>
      refine ⟨rfl, ?_⟩
      rw [bodyMessages, respond] at hreturns hbodies
      rcases send_body hs first false start with ⟨e, he⟩ | ⟨start₁, b₁, hreplaced, hsent⟩
      · rw [he] at hreturns
        cases hreturns
      · rw [hsent] at hbodies
        obtain ⟨hstart, hbodies⟩ := List.cons.inj hbodies
        cases hstart
        match bodies with
        | [(b, _)] =>
          cases hbodies
          rw [List.map_singleton, joinBytes_singleton] at hbody
          exact hbody ▸ hreplaced
    | cons second rest =>
      -- after the first body comes the start again
      exfalso
      rw [bodyMessages, respond] at hreturns hbodies
      rcases send_body hs first true start with ⟨e, he⟩ | ⟨start₁, b₁, _, hsent⟩
      · rw [he] at hreturns
        cases hreturns
      · rw [hsent] at hreturns hbodies
        obtain ⟨start₂, sent, hstart₂⟩ := respond_bodyMessages hs hreturns
        have hmem : Message.start start₂ ∈ bodies.map fun b => .body b.1 b.2 := by
          rw [← (List.cons.inj hbodies).2, hstart₂]
          simp
        obtain ⟨b, _, hb⟩ := List.mem_map.mp hmem
        cases hb
  · intro hsent
    obtain ⟨rfl, hreplaced⟩ := hsent
    rw [bodyMessages, respond, hreplaced.send hs false]
    exact ⟨rfl, [(body, false)], rfl, joinBytes_singleton⟩

/-! ## Documents and other bodies -/

/-- The bytes are an OpenAPI document. -/
def IsDocument (p : Pydantic) (whole : ByteArray) : Prop :=
  ∃ text openapi, decodeUtf8 whole = .ok text ∧ p.validateJson text = .ok openapi

/-- `body` is the augmented document for the bytes. -/
def Augmented (p : Pydantic) (cfg : Configuration) (securitySchemes : List SecurityScheme)
    (whole body : ByteArray) : Prop :=
  ∃ text result, decodeUtf8 whole = .ok text ∧
    augmentSecurity p cfg text securitySchemes = .ok result ∧
    body = (p.dumpJson result).toByteArray

/-- The text is what its own augmentation is written as. -/
def SelfAugmented (p : Pydantic) (cfg : Configuration) (securitySchemes : List SecurityScheme)
    (text : String) : Prop :=
  ∃ result, augmentSecurity p cfg text securitySchemes = .ok result ∧ p.dumpJson result = text

theorem IsDocument.of_augmented {whole : ByteArray} {text : String} {result : OpenAPI}
    (htext : decodeUtf8 whole = .ok text)
    (h : augmentSecurity p cfg text securitySchemes = .ok result) : IsDocument p whole := by
  obtain ⟨openapi, hopenapi, _⟩ := augmentSecurity_eq_ok.mp h
  exact ⟨text, openapi, htext, hopenapi⟩

theorem augmented_iff {whole body : ByteArray} {text : String}
    (htext : decodeUtf8 whole = .ok text) :
    Augmented p cfg securitySchemes whole body ↔
      ∃ result, augmentSecurity p cfg text securitySchemes = .ok result ∧
        body = (p.dumpJson result).toByteArray := by
  constructor
  · intro haugmented
    obtain ⟨text', result, htext', h⟩ := haugmented
    obtain rfl : text = text' := Except.ok.inj (htext.symm.trans htext')
    exact ⟨result, h⟩
  · intro haugmented
    obtain ⟨result, h⟩ := haugmented
    exact ⟨text, result, htext, h⟩

/-- Passing a text on is right when it is augmented already. -/
theorem augmented_self_iff {whole : ByteArray} {text : String}
    (htext : decodeUtf8 whole = .ok text) :
    Augmented p cfg securitySchemes whole whole ↔ SelfAugmented p cfg securitySchemes text := by
  rw [augmented_iff htext, SelfAugmented]
  simp only [← decodeUtf8_eq_ok.mp htext, String.toByteArray_inj, eq_comm (a := text)]

/-! ## Chunks -/

/-- The client is sent one response: the augmented document if the whole body is a document, and the
same body if not, with its length in the headers. -/
def Rewritten (p : Pydantic) (cfg : Configuration) (securitySchemes : List SecurityScheme)
    (whole : ByteArray) (run : List Message × Except PyError Unit) : Prop :=
  ∃ start body, Sends run start body ∧
    (IsDocument p whole → Augmented p cfg securitySchemes whole body) ∧
    (¬IsDocument p whole → body = whole) ∧
    start.headers.lookup "content-length" = some (toString body.size)

/-- The body is UTF-8 text. Without the marker it can be augmented; with it, the inner application
has set the right length, and a document is augmented already. -/
def Rewritable (p : Pydantic) (cfg : Configuration) (securitySchemes : List SecurityScheme)
    (start : Start) (whole : ByteArray) : Prop :=
  ∃ text, decodeUtf8 whole = .ok text ∧
    (hasMarker text = false → ∃ result, augmentSecurity p cfg text securitySchemes = .ok result) ∧
    (hasMarker text = true →
      start.headers.lookup "content-length" = some (toString whole.size) ∧
      (IsDocument p whole → SelfAugmented p cfg securitySchemes text))

theorem rewritten_iff_rewritable (hs : s.Lawful) {start : Start} {first : ByteArray}
    {rest : List ByteArray} :
    Rewritten p cfg securitySchemes (joinBytes (first :: rest))
        (respond s p cfg securitySchemes .empty (.start start :: bodyMessages first rest)) ↔
      rest = [] ∧ Rewritable p cfg securitySchemes start first := by
  simp only [Rewritten, sends_iff hs]
  constructor
  · intro hrewritten
    obtain ⟨start', body, ⟨rfl, hreplaced⟩, hdocument, hother, hlength⟩ := hrewritten
    rw [joinBytes_singleton] at hdocument hother
    refine ⟨rfl, ?_⟩
    cases hreplaced with
    | @page text htext hmarker =>
      refine ⟨text, htext, fun h => ?_, fun _ => ⟨hlength, fun hwhole => ?_⟩⟩
      · rw [hmarker] at h
        cases h
      · exact (augmented_self_iff htext).mp (hdocument hwhole)
    | @document text result _ htext hmarker haugmented =>
      refine ⟨text, htext, fun _ => ⟨result, haugmented⟩, fun h => ?_⟩
      rw [hmarker] at h
      cases h
  · rintro ⟨rfl, text, htext, hplain, hmarked⟩
    rw [joinBytes_singleton]
    cases hmarker : hasMarker text with
    | false =>
      obtain ⟨result, haugmented⟩ := hplain hmarker
      refine ⟨_, _, ⟨rfl, .document htext hmarker haugmented rfl⟩, fun _ => ?_, fun hnot => ?_, ?_⟩
      · exact (augmented_iff htext).mpr ⟨result, haugmented, rfl⟩
      · exact absurd (.of_augmented htext haugmented) hnot
      · exact lookup_setHeader
    | true =>
      obtain ⟨hlength, hself⟩ := hmarked hmarker
      refine ⟨start, first, ⟨rfl, .page htext hmarker⟩, fun hwhole => ?_, fun _ => rfl, hlength⟩
      exact (augmented_self_iff htext).mpr (hself hwhole)

/-- Text that `lakesPydantic` does not know raises. -/
theorem send_not_lakes {text : String} (hne : text ≠ lakesText) (hmarker : hasMarker text = false)
    {moreBody : Bool} {start : Start} :
    sendWithSecurity asgiStarlette lakesPydantic lakesConfiguration [bearerScheme]
        (.body text.toByteArray moreBody) (.start start) =
      ([], .error ⟨.validationError, "OpenAPI"⟩) := by
  have hparse : lakesPydantic.validateJson text = .error ⟨.validationError, "OpenAPI"⟩ := by
    simp only [lakesPydantic, hne, if_false]
  rw [hasMarker] at hmarker
  simp only [sendWithSecurity, decodeUtf8_toByteArray, hmarker, Bool.false_eq_true, if_false,
    augmentSecurity, hparse]
  rfl

theorem lakes_marker : hasMarker lakesText = false := by decide +kernel

def okStart : Start where
  status := 200
  headers := []

/-- A document that comes in one piece. -/
theorem wholeLakes_rewritten :
    Rewritten lakesPydantic lakesConfiguration [bearerScheme] (joinBytes [lakesText.toByteArray])
      (respond asgiStarlette lakesPydantic lakesConfiguration [bearerScheme] .empty
        (.start okStart :: bodyMessages lakesText.toByteArray [])) := by
  refine (rewritten_iff_rewritable asgiStarlette_lawful).mpr
    ⟨rfl, lakesText, decodeUtf8_toByteArray, fun _ => lakes_augmented, fun hmarker => ?_⟩
  rw [lakes_marker] at hmarker
  cases hmarker

/-- A document that comes in two pieces. -/
def splitLakes (start : Start) : List Message × Except PyError Unit :=
  respond asgiStarlette lakesPydantic lakesConfiguration [bearerScheme] .empty
    (.start start :: bodyMessages lakesHead.toByteArray [lakesTail.toByteArray])

/-- The first piece is no document, so nothing is sent. -/
theorem splitLakes_not_rewritten :
    joinBytes [lakesHead.toByteArray, lakesTail.toByteArray] = lakesText.toByteArray ∧
      IsDocument lakesPydantic lakesText.toByteArray ∧
      ∀ start, splitLakes start = ([], .error ⟨.validationError, "OpenAPI"⟩) ∧
        ¬Rewritten lakesPydantic lakesConfiguration [bearerScheme] lakesText.toByteArray
          (splitLakes start) := by
  refine ⟨?_, ⟨lakesText, lakesOpenAPI, decodeUtf8_toByteArray, lakes_parsed⟩, fun start => ?_⟩
  · rw [joinBytes, joinBytes_singleton, lakesText, String.toByteArray_append]
  · have hne : lakesHead ≠ lakesText := by decide
    have hrun : splitLakes start = ([], .error ⟨.validationError, "OpenAPI"⟩) := by
      rw [splitLakes, respond_start, bodyMessages, respond, send_not_lakes hne (by decide)]
    refine ⟨hrun, ?_⟩
    rw [hrun]
    intro hrewritten
    obtain ⟨start', body, hsends, _⟩ := hrewritten
    cases hsends.returns

/-! ## Documents and other responses -/

/-- A 200 response with a document is augmented, and every other one is passed on. -/
def OnlyDocumentsAugmented (p : Pydantic) (cfg : Configuration)
    (securitySchemes : List SecurityScheme) (start : Start) (whole : ByteArray)
    (run : List Message × Except PyError Unit) : Prop :=
  ∃ start' body, Sends run start' body ∧ start'.status = start.status ∧
    (start.status = 200 ∧ IsDocument p whole → Augmented p cfg securitySchemes whole body) ∧
    (¬(start.status = 200 ∧ IsDocument p whole) → start'.headers = start.headers ∧ body = whole)

/-- The body is UTF-8 text. Without the marker it can be augmented, which changes nothing unless the
status is 200; with it, a document with status 200 is augmented already. -/
def Separable (p : Pydantic) (cfg : Configuration) (securitySchemes : List SecurityScheme)
    (start : Start) (whole : ByteArray) : Prop :=
  ∃ text, decodeUtf8 whole = .ok text ∧
    (hasMarker text = false →
      (∃ result, augmentSecurity p cfg text securitySchemes = .ok result) ∧
      (start.status ≠ 200 → SelfAugmented p cfg securitySchemes text ∧
        setHeader start.headers "content-length" (toString whole.size) = start.headers)) ∧
    (hasMarker text = true →
      start.status = 200 → IsDocument p whole → SelfAugmented p cfg securitySchemes text)

theorem onlyDocumentsAugmented_iff_separable (hs : s.Lawful) {request : Request}
    (hroute : request.path ∈ routesWithOpenapi cfg) {start : Start} {first : ByteArray}
    {rest : List ByteArray} :
    OnlyDocumentsAugmented p cfg securitySchemes start (joinBytes (first :: rest))
        (openapiSecurityMiddleware s p cfg securitySchemes (.http request)
          (.start start :: bodyMessages first rest)) ↔
      rest = [] ∧ Separable p cfg securitySchemes start first := by
  simp only [OnlyDocumentsAugmented, openapiSecurityMiddleware, hroute, if_true, sends_iff hs]
  constructor
  · intro honly
    obtain ⟨start', body, ⟨rfl, hreplaced⟩, _, hdocument, hother⟩ := honly
    rw [joinBytes_singleton] at hdocument hother
    refine ⟨rfl, ?_⟩
    cases hreplaced with
    | @page text htext hmarker =>
      refine ⟨text, htext, fun h => ?_, fun _ hstatus hwhole => ?_⟩
      · rw [hmarker] at h
        cases h
      · exact (augmented_self_iff htext).mp (hdocument ⟨hstatus, hwhole⟩)
    | @document text result _ htext hmarker haugmented hbody =>
      refine ⟨text, htext, fun _ => ⟨⟨result, haugmented⟩, fun hstatus => ?_⟩, fun h => ?_⟩
      · obtain ⟨hheaders, hsame⟩ := hother fun h => hstatus h.1
        have hself : Augmented p cfg securitySchemes first first :=
          (augmented_iff htext).mpr ⟨result, haugmented, hsame ▸ hbody⟩
        exact ⟨(augmented_self_iff htext).mp hself, hsame ▸ hheaders⟩
      · rw [hmarker] at h
        cases h
  · rintro ⟨rfl, text, htext, hplain, hmarked⟩
    rw [joinBytes_singleton]
    cases hmarker : hasMarker text with
    | false =>
      obtain ⟨⟨result, haugmented⟩, hsame⟩ := hplain hmarker
      refine ⟨_, _, ⟨rfl, .document htext hmarker haugmented rfl⟩, rfl, fun _ => ?_, fun hnot => ?_⟩
      · exact (augmented_iff htext).mpr ⟨result, haugmented, rfl⟩
      · have hstatus : start.status ≠ 200 := fun h => hnot ⟨h, .of_augmented htext haugmented⟩
        obtain ⟨⟨result', haugmented', hdump⟩, hheaders⟩ := hsame hstatus
        obtain rfl : result = result' := Except.ok.inj (haugmented.symm.trans haugmented')
        rw [hdump, decodeUtf8_eq_ok.mp htext]
        exact ⟨hheaders, rfl⟩
    | true =>
      refine ⟨start, first, ⟨rfl, .page htext hmarker⟩, rfl, fun ⟨hstatus, hwhole⟩ => ?_,
        fun _ => ⟨rfl, rfl⟩⟩
      exact (augmented_self_iff htext).mpr (hmarked hmarker hstatus hwhole)

end

/-! ## An error of the inner application -/

def invalidFormat : String :=
  "\x7b\"code\": \"InvalidParameterValue\", \"description\": \"Invalid format requested\"\x7d"

def invalidFormatStart : Start where
  status := 400
  headers := [("content-type", "application/json")]

def openapiRequest : Request where
  method := "GET"
  path := "/geoapi/openapi"
  headers := []

def invalidFormatRun : List Message × Except PyError Unit :=
  openapiSecurityMiddleware asgiStarlette lakesPydantic lakesConfiguration [bearerScheme]
    (.http openapiRequest)
    (.start invalidFormatStart :: bodyMessages invalidFormat.toByteArray [])

theorem invalidFormat_iff_separable :
    OnlyDocumentsAugmented lakesPydantic lakesConfiguration [bearerScheme] invalidFormatStart
        (joinBytes [invalidFormat.toByteArray]) invalidFormatRun ↔
      [] = ([] : List ByteArray) ∧
        Separable lakesPydantic lakesConfiguration [bearerScheme] invalidFormatStart
          invalidFormat.toByteArray :=
  onlyDocumentsAugmented_iff_separable asgiStarlette_lawful (by decide)

/-- The error is taken for a document, and a validation error comes up in its place. -/
theorem invalidFormat_not_passed_on :
    invalidFormatRun = ([], .error ⟨.validationError, "OpenAPI"⟩) ∧
      ¬OnlyDocumentsAugmented lakesPydantic lakesConfiguration [bearerScheme] invalidFormatStart
        invalidFormat.toByteArray invalidFormatRun := by
  have hroute : openapiRequest.path ∈ routesWithOpenapi lakesConfiguration := by decide
  have hne : invalidFormat ≠ lakesText := by decide
  have hrun : invalidFormatRun = ([], .error ⟨.validationError, "OpenAPI"⟩) := by
    simp only [invalidFormatRun, openapiSecurityMiddleware, hroute, if_true]
    rw [respond_start, bodyMessages, respond, send_not_lakes hne (by decide)]
  refine ⟨hrun, ?_⟩
  rw [hrun]
  intro honly
  obtain ⟨start', body, hsends, _⟩ := honly
  cases hsends.returns

end FastGeoApi
