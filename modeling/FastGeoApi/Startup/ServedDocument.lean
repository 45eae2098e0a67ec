import FastGeoApi.Middleware.Rewriting
import FastGeoApi.Startup.Access

/-!
# The document that is served

The `openapi` command and `create_app` make the security schemes out of the same settings, each in
code of its own, and augment the document of pygeoapi with them: the command before it writes a
file, the application while it sends a response. What they come to is the same text. Behind
`ForwardedLinksMiddleware` this does not depend on the messages that the response is sent in, since
it sends the body in one; what the application augments there has the URL of the proxy in it.
-/

namespace FastGeoApi
open Layers

/-- The command is called with the settings of the application. -/
structure OpenapiCommand.For (c : OpenapiCommand) (pf : Platform) (cfg : ServerSettings) :
    Prop where
  settings : c.settings = cfg.toCommandSettings
  pydantic : c.pydantic = pf.pydantic
  securityScheme : c.securityScheme = pf.securityScheme

/-- `call_next` reads the whole of a response. -/
def Platform.ReadsResponses (pf : Platform) : Prop :=
  ∀ start first rest reached, (∀ header ∈ start.headers, LowerCase header.1) →
    ∃ inner, pf.readResponse ⟨.start start :: bodyMessages first rest, reached, .ok ()⟩ =
      .ok inner ∧ inner.status = start.status ∧ inner.headers = start.headers ∧
      joinBytes inner.chunks = joinBytes (first :: rest)

section
variable {pf : Platform} {cfg : ServerSettings} {m : Moment} {created : CreatedApp}
  {c : OpenapiCommand} {request : Request} {start : Start} {first : ByteArray}
  {rest : List ByteArray} {reached : List Scope} {text document : String} {pygeoapi : Asgi}

/-- Where the application starts, the command makes the same security schemes. -/
theorem OpenapiCommand.For.securitySchemes (hc : c.For pf cfg)
    {guarded : Guard × List SecurityScheme} (h : createGuard pf cfg = .ok guarded) :
    c.securitySchemes = .ok guarded.2 := by
  unfold OpenapiCommand.securitySchemes
  rw [hc.settings, hc.securityScheme]
  unfold createGuard at h
  simp only
  split at h
  · rename_i hopa
    rw [if_pos hopa]
    split at h
    · cases h
    · rename_i hothers
      obtain ⟨layer, _, h⟩ := except_bind_ok.mp h
      obtain ⟨scheme, hscheme, h⟩ := except_bind_ok.mp h
      cases h
      rw [if_neg hothers, hscheme]
      rfl
  · rename_i hopa
    rw [if_neg hopa]
    split at h
    · rename_i hjwks
      rw [if_pos hjwks]
      split at h
      · cases h
      · rename_i hothers
        obtain ⟨oauth2, hoauth2, h⟩ := except_bind_ok.mp h
        obtain ⟨bearer, hbearer, h⟩ := except_bind_ok.mp h
        cases h
        rw [if_neg hothers, hoauth2]
        simp only [bind, Except.bind]
        rw [hbearer]
        rfl
    · rename_i hjwks
      rw [if_neg hjwks]
      split at h
      · rename_i hkey
        rw [if_pos hkey, if_neg hopa]
        split at h
        · cases h
        · rename_i hmissing
          obtain ⟨scheme, hscheme, h⟩ := except_bind_ok.mp h
          cases h
          rw [if_neg hmissing, hscheme]
          rfl
      · cases h
        rw [if_neg ‹_›]

/-- The command augments the text with the schemes of the application. -/
theorem OpenapiCommand.For.openapiString (hc : c.For pf cfg)
    (hcreated : createApp pf cfg = .ok created) :
    c.openapiString text = do
      let result ← augmentSecurity pf.pydantic cfg.toConfiguration text created.securitySchemes
      return pf.pydantic.dumpJson result := by
  unfold OpenapiCommand.openapiString
  rw [hc.securitySchemes (createApp_cases hcreated).1, hc.settings, hc.pydantic]
  rfl

theorem writes_of_ok {file : OpenapiFile} (hgenerated : c.generated = .ok text)
    (hdocument : c.openapiString text = .ok document) (h : (c.run file).2 = .ok ()) :
    c.Writes document file := by
  obtain ⟨written, hwritten, hfile⟩ := OpenapiCommand.run_of_ok hgenerated h
  cases hdocument.symm.trans hwritten
  exact hfile

theorem not_ok_of_error {file : OpenapiFile} {e : PyError} (hgenerated : c.generated = .ok text)
    (he : c.openapiString text = .error e) : (c.run file).2 ≠ .ok () := by
  intro h
  obtain ⟨written, hwritten, _⟩ := OpenapiCommand.run_of_ok hgenerated h
  cases he.symm.trans hwritten

/-- The messages of one response with this body, in one message. -/
def Whole (served : Served) (status : Nat) (body : ByteArray) (reached : List Scope) : Prop :=
  ∃ start, served = ⟨[.start start, .body body false], reached, .ok ()⟩ ∧ start.status = status

/-- Without a proxy in front, `ForwardedLinksMiddleware` only puts the body together. -/
theorem whole_proxyLayers (hreads : pf.ReadsResponses) (hstarlette : pf.starlette.Lawful)
    (hforwarded : forwardedUrl request = none)
    (hlower : ∀ header ∈ start.headers, LowerCase header.1)
    (hwhole : rest = [] ∨ created.reverseProxy = true)
    (hsent : pygeoapi (.http request) =
      ⟨.start start :: bodyMessages first rest, reached, .ok ()⟩) :
    Whole (stack (created.proxyLayers pf cfg) pygeoapi (.http request)) start.status
      (joinBytes (first :: rest)) reached := by
  unfold CreatedApp.proxyLayers
  split
  · obtain ⟨inner, hinner, hstatus, _, hbody⟩ := hreads start first rest reached hlower
    obtain ⟨headers, hdispatch, _⟩ :=
      dispatch_eq hstarlette cfg.pygeoapiBaseurl request inner
    have hdelivered : deliveredBody cfg.pygeoapiBaseurl request inner =
        .ok (joinBytes (first :: rest)) := by
      rw [deliveredBody, hforwarded, ← hbody]
      rfl
    rw [hdelivered] at hdispatch
    rw [stack_cons, stack_nil]
    unfold forwardedLinksLayer
    simp only [hsent, hinner, bind, Except.bind, hdispatch, Except.map]
    exact ⟨_, rfl, hstatus⟩
  · rename_i hproxy
    rcases hwhole with rfl | hwhole
    · rw [joinBytes_singleton]
      exact ⟨start, hsent, rfl⟩
    · exact absurd hwhole hproxy

/-- What the responder makes of one response. -/
theorem respond_whole {s : Starlette} {p : Pydantic} {config : Configuration}
    {schemes : List SecurityScheme} {body : ByteArray} (hs : s.Lawful)
    (htext : decodeUtf8 body = .ok text) (hmarker : hasMarker text = false) :
    respond s p config schemes .empty [.start start, .body body false] =
      match augmentSecurity p config text schemes with
      | .ok result =>
        let document := (p.dumpJson result).toByteArray
        ([.start { start with
            headers := setHeader start.headers "content-length" (toString document.size)
            body := some document }, .body document false], .ok ())
      | .error e => ([], .error e) := by
  rw [hasMarker] at hmarker
  rw [respond_start, respond, sendWithSecurity, htext]
  simp only [hmarker, Bool.false_eq_true, if_false]
  cases augmentSecurity p config text schemes with
  | error e => rfl
  | ok result =>
    have hlower : LowerCase "content-length" := by decide
    simp only [hs.setItem hlower]
    rfl

/-- What is served of a text that comes through the inner middlewares in one message. -/
theorem served_whole (hstarlette : pf.starlette.Lawful) (hcreated : createApp pf cfg = .ok created)
    (hschemes : created.securitySchemes ≠ []) (hc : c.For pf cfg)
    (hpath : request.path = cfg.fastgeoapiContext ++ "/openapi")
    (hpublic : ∀ layer ∈ created.guardLayers pf cfg m, Layer.Idle layer (.http request))
    (hinner : stack (created.proxyLayers pf cfg) pygeoapi (.http request) =
      ⟨[.start start, .body text.toByteArray false], reached, .ok ()⟩)
    (hmarker : hasMarker text = false) :
    (∀ document, c.openapiString text = .ok document →
      ∃ start', stack (created.middlewares pf cfg m) pygeoapi (.http request) =
          ⟨[.start start', .body document.toByteArray false], reached, .ok ()⟩ ∧
        start'.status = start.status ∧
        start'.headers =
          setHeader start.headers "content-length" (toString document.toByteArray.size)) ∧
      ∀ e, c.openapiString text = .error e →
        stack (created.middlewares pf cfg m) pygeoapi (.http request) =
          ⟨[], reached, .error e⟩ := by
  have hlayers : created.openapiLayers pf cfg =
      [openapiSecurityLayer pf.starlette pf.pydantic cfg.toConfiguration
        created.securitySchemes] :=
    if_neg hschemes
  have hmem : request.path ∈ routesWithOpenapi cfg.toConfiguration :=
    mem_routesWithOpenapi.mpr hpath
  have hstack : stack (created.middlewares pf cfg m) pygeoapi (.http request) =
      openapiSecurityLayer pf.starlette pf.pydantic cfg.toConfiguration created.securitySchemes
        (stack (created.proxyLayers pf cfg) pygeoapi) (.http request) := by
    rw [CreatedApp.middlewares, stack_idle hpublic passes_openapiLayers, hlayers]
    rfl
  rw [hc.openapiString hcreated, hstack, openapiSecurityLayer, hinner]
  simp only [openapiSecurityMiddleware, hmem, if_true,
    respond_whole hstarlette decodeUtf8_toByteArray hmarker]
  cases augmentSecurity pf.pydantic cfg.toConfiguration text created.securitySchemes with
  | error e =>
    refine ⟨fun document hdocument => ?_, fun e' he' => ?_⟩
    · cases hdocument
    · cases he'
      rfl
  | ok result =>
    refine ⟨fun document hdocument => ?_, fun e' he' => ?_⟩
    · cases hdocument
      exact ⟨_, rfl, rfl, rfl⟩
    · cases he'

end

/-- What a client of the OpenAPI route is served is what the command writes, if it succeeds, when
pygeoapi generates the text that it sends; and where the augmentation raises, the application raises
the same and the command does not succeed. -/
theorem served_document (pf : Platform) (hreads : pf.ReadsResponses)
    (hstarlette : pf.starlette.Lawful) (cfg : ServerSettings) (created : CreatedApp)
    (hcreated : createApp pf cfg = .ok created) (hschemes : created.securitySchemes ≠ [])
    (c : OpenapiCommand) (hc : c.For pf cfg) (m : Moment) (request : Request)
    (hpath : request.path = cfg.fastgeoapiContext ++ "/openapi")
    (hpublic : ∀ layer ∈ created.guardLayers pf cfg m, Layer.Idle layer (.http request))
    (hforwarded : forwardedUrl request = none) (pygeoapi : Asgi) (start : Start)
    (first : ByteArray) (rest : List ByteArray) (reached : List Scope) (text : String)
    (hlower : ∀ header ∈ start.headers, LowerCase header.1)
    (hsent : pygeoapi (.http request) =
      ⟨.start start :: bodyMessages first rest, reached, .ok ()⟩)
    (hwhole : rest = [] ∨ created.reverseProxy = true)
    (htext : joinBytes (first :: rest) = text.toByteArray) (hmarker : hasMarker text = false)
    (hgenerated : c.generated = .ok text) :
    (∀ document, c.openapiString text = .ok document →
      (∃ start', stack (created.middlewares pf cfg m) pygeoapi (.http request) =
          ⟨[.start start', .body document.toByteArray false], reached, .ok ()⟩ ∧
        start'.status = start.status ∧
        start'.headers.lookup "content-length" = some (toString document.toByteArray.size)) ∧
      ∀ file, (c.run file).2 = .ok () → c.Writes document file) ∧
      ∀ e, c.openapiString text = .error e →
        stack (created.middlewares pf cfg m) pygeoapi (.http request) =
          ⟨[], reached, .error e⟩ ∧
        ∀ file, (c.run file).2 ≠ .ok () := by
  obtain ⟨start₁, hinner, hstatus⟩ :=
    @whole_proxyLayers pf cfg created request start first rest reached pygeoapi hreads hstarlette
      hforwarded hlower hwhole hsent
  rw [htext] at hinner
  obtain ⟨hok, herror⟩ := served_whole hstarlette hcreated hschemes hc hpath hpublic hinner hmarker
  refine ⟨fun document hdocument => ⟨?_, fun file => writes_of_ok hgenerated hdocument⟩,
    fun e he => ⟨herror e he, fun file => not_ok_of_error hgenerated he⟩⟩
  obtain ⟨start', hserved, hstatus', hheaders⟩ := hok document hdocument
  exact ⟨start', hserved, hstatus'.trans hstatus, by rw [hheaders, lookup_setHeader]⟩

/-- Behind a proxy it is what the command writes, if it succeeds, when pygeoapi generates the text
with the URL of the proxy in the place of its own. -/
theorem forwarded_document (pf : Platform) (hreads : pf.ReadsResponses)
    (hstarlette : pf.starlette.Lawful) (cfg : ServerSettings) (created : CreatedApp)
    (hcreated : createApp pf cfg = .ok created) (hschemes : created.securitySchemes ≠ [])
    (hproxy : created.reverseProxy = true) (c : OpenapiCommand) (hc : c.For pf cfg) (m : Moment)
    (request : Request) (hpath : request.path = cfg.fastgeoapiContext ++ "/openapi")
    (hpublic : ∀ layer ∈ created.guardLayers pf cfg m, Layer.Idle layer (.http request))
    (url : String) (hforwarded : forwardedUrl request = some url) (pygeoapi : Asgi) (start : Start)
    (first : ByteArray) (rest : List ByteArray) (reached : List Scope) (text : String)
    (hlower : ∀ header ∈ start.headers, LowerCase header.1) (contentType : String)
    (htype : start.headers.lookup "content-type" = some contentType)
    (hrewritten : contentType ∈ rewrittenTypes)
    (hsent : pygeoapi (.http request) =
      ⟨.start start :: bodyMessages first rest, reached, .ok ()⟩)
    (htext : joinBytes (first :: rest) = text.toByteArray)
    (hmarker : hasMarker (Str.replace text cfg.pygeoapiBaseurl url) = false)
    (hgenerated : c.generated = .ok (Str.replace text cfg.pygeoapiBaseurl url)) :
    (∀ document, c.openapiString (Str.replace text cfg.pygeoapiBaseurl url) = .ok document →
      (∃ start', stack (created.middlewares pf cfg m) pygeoapi (.http request) =
          ⟨[.start start', .body document.toByteArray false], reached, .ok ()⟩ ∧
        start'.status = start.status ∧
        start'.headers.lookup "content-length" = some (toString document.toByteArray.size) ∧
        start'.headers.lookup "x-pygeoapi-forwarded-url" = some url) ∧
      ∀ file, (c.run file).2 = .ok () → c.Writes document file) ∧
      ∀ e, c.openapiString (Str.replace text cfg.pygeoapiBaseurl url) = .error e →
        stack (created.middlewares pf cfg m) pygeoapi (.http request) =
          ⟨[], reached, .error e⟩ ∧
        ∀ file, (c.run file).2 ≠ .ok () := by
  have hne : "x-pygeoapi-forwarded-url" ≠ "content-length" := by decide
  obtain ⟨inner, hinner, hstatus, hheaders, hbody⟩ := hreads start first rest reached hlower
  obtain ⟨headers, hdispatch, hurl⟩ := dispatch_forwarded hstarlette
    cfg.pygeoapiBaseurl hforwarded (hheaders ▸ htype) hrewritten
    (decodeUtf8_eq_ok.mpr (hbody.trans htext).symm)
  have hlayers : stack (created.proxyLayers pf cfg) pygeoapi (.http request) =
      ⟨[.start { status := start.status, headers := headers },
        .body (Str.replace text cfg.pygeoapiBaseurl url).toByteArray false], reached, .ok ()⟩ := by
    rw [CreatedApp.proxyLayers, if_pos hproxy, stack_cons, stack_nil]
    unfold forwardedLinksLayer
    simp only [hsent, hinner, bind, Except.bind, hdispatch, hstatus, Starlette.Response.messages]
  obtain ⟨hok, herror⟩ := served_whole hstarlette hcreated hschemes hc hpath hpublic hlayers hmarker
  refine ⟨fun document hdocument => ⟨?_, fun file => writes_of_ok hgenerated hdocument⟩,
    fun e he => ⟨herror e he, fun file => not_ok_of_error hgenerated he⟩⟩
  obtain ⟨start', hserved, hstatus', hheaders'⟩ := hok document hdocument
  refine ⟨start', hserved, hstatus', ?_, ?_⟩
  · rw [hheaders', lookup_setHeader]
  · rw [hheaders', lookup_setHeader_of_ne hne, hurl]

theorem lakesPlatform_readsResponses : lakesPlatform.ReadsResponses := by
  intro start first rest reached hlower
  have hbody : joinBytes (readBody (bodyMessages first rest)) = joinBytes (first :: rest) := by
    induction rest generalizing first with
    | nil => rfl
    | cons second rest ih => exact congrArg (first ++ ·) (ih second)
  refine ⟨⟨start.status, start.headers, readBody (bodyMessages first rest), hlower⟩, ?_, rfl, rfl,
    hbody⟩
  exact dif_pos hlower

/-- The command for `lakesSettings`. -/
def lakesCommand : OpenapiCommand where
  settings := lakesSettings.toCommandSettings
  pydantic := lakesPydantic
  securityScheme := lakesPlatform.securityScheme
  log _ := .ok ()
  errLog _ := .ok ()
  cfgText := "JWKS_ENABLED=True"
  pygeoapiConf := "/app/pygeoapi-config.yml"
  openError := none
  generated := .ok lakesText
  writeError := none

/-- The security schemes of `JWKS_ENABLED`. -/
def lakesSchemes : List SecurityScheme :=
  [⟨"oauth2", .dict [(.str "type", .str "oauth2"), (.str "name", .str "pygeoapi"),
      (.str "flows", .dict [(.str "clientCredentials",
        .dict [(.str "tokenUrl", .str "https://idp.example.com/oidc/token"),
          (.str "scopes", .dict [])])])]⟩,
    ⟨"http", .dict [(.str "type", .str "http"), (.str "name", .str "pygeoapi"),
      (.str "scheme", .str "bearer"), (.str "bearerFormat", .str "JWT")]⟩]

theorem lakes_created :
    createApp lakesPlatform lakesSettings = .ok ⟨.oauth2, lakesSchemes, true⟩ := rfl

theorem lakesCommand_for : lakesCommand.For lakesPlatform lakesSettings where
  settings := rfl
  pydantic := rfl
  securityScheme := rfl

theorem lakesCommand_openapiString :
    ∃ document, lakesCommand.openapiString lakesText = .ok document := by
  have haugmented : ∃ result, augmentSecurity lakesPydantic lakesSettings.toConfiguration
      lakesText lakesSchemes = .ok result := by
    simp only [augmentSecurity, lakes_parsed]
    exact ⟨_, rfl⟩
  obtain ⟨result, hresult⟩ := haugmented
  rw [lakesCommand_for.openapiString lakes_created]
  simp only [lakesPlatform, hresult]
  exact ⟨_, rfl⟩

theorem lakesCommand_succeeds : (lakesCommand.run none).2 = .ok () := by
  have hconfigured : lakesCommand.settings.configured = true := by decide
  obtain ⟨document, hdocument⟩ := lakesCommand_openapiString
  obtain ⟨_, hfill⟩ := OpenapiCommand.fillFile_of_produces ⟨lakesText, rfl, rfl, hdocument⟩
  rw [OpenapiCommand.run_of_opened hconfigured rfl, hfill]
  rfl

/-- pygeoapi sends the document in two messages. -/
def lakesPygeoapi : Asgi := fun scope =>
  ⟨.start { status := 200, headers := [] } ::
    bodyMessages lakesHead.toByteArray [lakesTail.toByteArray], [scope], .ok ()⟩

/-- The OpenAPI route is public. -/
theorem lakes_public {request : Request} (hpath : request.path = "/geoapi/openapi") :
    ∀ layer ∈ CreatedApp.guardLayers lakesPlatform lakesSettings ⟨.oauth2, lakesSchemes, true⟩
      lakesMoment, Layer.Idle layer (.http request) := by
  intro layer hlayer
  rw [List.mem_singleton.mp hlayer]
  obtain ⟨mw, hinit, hskip⟩ : ∃ mw, Oauth2Middleware.init lakesPlatform.re
      lakesSettings.toConfiguration [jwksAuthentication lakesSettings lakesMoment.jwks] none =
      .ok mw ∧ shouldSkipEndpoint "/geoapi/openapi" mw.skipEndpoints = true :=
    ⟨_, rfl, by decide⟩
  rw [← hpath] at hskip
  unfold oauth2Layer
  rw [hinit]
  exact (Oauth2Middleware.LetsIn.skipped hskip).idle

theorem lakes_joined :
    joinBytes [lakesHead.toByteArray, lakesTail.toByteArray] = lakesText.toByteArray := by
  rw [joinBytes, joinBytes_singleton, lakesText, String.toByteArray_append]

theorem lakesPygeoapi_served : ∃ start document,
    stack (CreatedApp.middlewares lakesPlatform lakesSettings ⟨.oauth2, lakesSchemes, true⟩
        lakesMoment) lakesPygeoapi (.http (rootPathRequest "/geoapi/openapi")) =
      ⟨[.start start, .body document.toByteArray false],
        [.http (rootPathRequest "/geoapi/openapi")], .ok ()⟩ ∧
    lakesCommand.Writes document none := by
  have hlower : ∀ header ∈ ([] : List (String × String)), LowerCase header.1 :=
    List.forall_mem_nil _
  have hforwarded : forwardedUrl (rootPathRequest "/geoapi/openapi") = none := rfl
  have hsent : lakesPygeoapi (.http (rootPathRequest "/geoapi/openapi")) =
      ⟨.start { status := 200, headers := [] } ::
        bodyMessages lakesHead.toByteArray [lakesTail.toByteArray],
        [.http (rootPathRequest "/geoapi/openapi")], .ok ()⟩ := rfl
  have hpath : (rootPathRequest "/geoapi/openapi").path =
    lakesSettings.fastgeoapiContext ++ "/openapi" := by decide
  have hserved := served_document lakesPlatform lakesPlatform_readsResponses
    asgiStarlette_lawful lakesSettings _ lakes_created (List.cons_ne_nil _ _) lakesCommand
    lakesCommand_for lakesMoment (rootPathRequest "/geoapi/openapi") hpath (lakes_public rfl)
    hforwarded lakesPygeoapi { status := 200, headers := [] } lakesHead.toByteArray
    [lakesTail.toByteArray] _ lakesText hlower hsent (.inr rfl) lakes_joined lakes_marker rfl
  obtain ⟨document, hdocument⟩ := lakesCommand_openapiString
  obtain ⟨⟨start, hstack, _⟩, hwrites⟩ := hserved.1 document hdocument
  exact ⟨start, document, hstack, hwrites none lakesCommand_succeeds⟩

/-- The request of a client of the proxy. -/
def forwardedRequest : Request where
  method := "GET"
  path := "/geoapi/openapi"
  headers := proxyRequest.headers

def lakesType : String × String :=
  ("content-type", "application/vnd.oai.openapi+json;version=3.0")

/-- pygeoapi with the content type of the document, which has no URL of pygeoapi in it. -/
def typedPygeoapi : Asgi := fun scope =>
  ⟨.start { status := 200, headers := [lakesType] } ::
    bodyMessages lakesHead.toByteArray [lakesTail.toByteArray], [scope], .ok ()⟩

theorem lakes_replaced :
    Str.replace lakesText lakesSettings.pygeoapiBaseurl "https://proxy.example.com" =
      lakesText := by
  decide +kernel

theorem typedPygeoapi_forwarded : ∃ start document,
    stack (CreatedApp.middlewares lakesPlatform lakesSettings ⟨.oauth2, lakesSchemes, true⟩
        lakesMoment) typedPygeoapi (.http forwardedRequest) =
      ⟨[.start start, .body document.toByteArray false], [.http forwardedRequest], .ok ()⟩ ∧
    lakesCommand.openapiString lakesText = .ok document ∧
    start.headers.lookup "x-pygeoapi-forwarded-url" = some "https://proxy.example.com" := by
  have hlower : ∀ header ∈ [lakesType], LowerCase header.1 := by decide
  have hforwarded : forwardedUrl forwardedRequest = some "https://proxy.example.com" := by decide
  have hsent : typedPygeoapi (.http forwardedRequest) =
      ⟨.start { status := 200, headers := [lakesType] } ::
        bodyMessages lakesHead.toByteArray [lakesTail.toByteArray],
        [.http forwardedRequest], .ok ()⟩ := rfl
  have hpath : forwardedRequest.path = lakesSettings.fastgeoapiContext ++ "/openapi" := by decide
  have hmarker : hasMarker (Str.replace lakesText lakesSettings.pygeoapiBaseurl
      "https://proxy.example.com") = false := by
    rw [lakes_replaced]
    exact lakes_marker
  obtain ⟨document, hdocument⟩ := lakesCommand_openapiString
  have hcommand : lakesCommand.openapiString (Str.replace lakesText lakesSettings.pygeoapiBaseurl
      "https://proxy.example.com") = .ok document := by
    rw [lakes_replaced]
    exact hdocument
  have hgenerated : lakesCommand.generated =
      .ok (Str.replace lakesText lakesSettings.pygeoapiBaseurl "https://proxy.example.com") := by
    rw [lakes_replaced]
    rfl
  have hserved := forwarded_document lakesPlatform lakesPlatform_readsResponses
    asgiStarlette_lawful lakesSettings _ lakes_created (List.cons_ne_nil _ _) rfl lakesCommand
    lakesCommand_for lakesMoment forwardedRequest hpath (lakes_public rfl) _ hforwarded
    typedPygeoapi { status := 200, headers := [lakesType] } lakesHead.toByteArray
    [lakesTail.toByteArray] _ lakesText hlower _ rfl (by decide) hsent lakes_joined hmarker
    hgenerated
  obtain ⟨⟨start, hstack, _, _, hurl⟩, _⟩ := hserved.1 _ hcommand
  exact ⟨start, document, hstack, hdocument, hurl⟩

end FastGeoApi
