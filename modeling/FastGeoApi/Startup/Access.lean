import FastGeoApi.Startup.Application

/-!
# What gets to pygeoapi

Whatever the settings are, if the application starts at all, a request that pygeoapi is called for
has come through the sub-application with what the settings ask for there, or through the MCP
server with what they ask for at that one.
-/

namespace FastGeoApi
open Layers

/-- What the settings ask of a scope, at an endpoint that calls pygeoapi. -/
inductive Entitled (pf : Platform) (cfg : ServerSettings) (m : Moment) : Endpoint → Scope → Prop
  /-- No authentication is enabled. -/
  | unguarded {scope : Scope} (hopa : cfg.opaEnabled ≠ some true)
      (hjwks : cfg.jwksEnabled ≠ some true) (hkey : cfg.apiKeyEnabled ≠ some true) :
      Entitled pf cfg m .context scope
  | opa {scope : Scope} {layer : Middleware} (hopa : cfg.opaEnabled = some true)
      (hlayer : pf.opaMiddleware = .ok layer) (h : ¬Layer.Blocks layer scope) :
      Entitled pf cfg m .context scope
  | apiKey {scope : Scope} {key : String} (hkey : cfg.apiKeyEnabled = some true)
      (hglobal : cfg.pygeoapiKeyGlobal = some key) (hne : key ≠ "")
      (h : ¬Layer.Blocks (pf.authorizerMiddleware key [cfg.fastgeoapiContext ++ "/openapi"]
        "PYGEOAPI_KEY_") scope) :
      Entitled pf cfg m .context scope
  | preflight {request : Request} (hjwks : cfg.jwksEnabled = some true)
      (h : request.method = "OPTIONS") : Entitled pf cfg m .context (.http request)
  | publicPath {request : Request} (hjwks : cfg.jwksEnabled = some true)
      (h : pf.re.Matches (skipPatterns cfg.toConfiguration none) request.path) :
      Entitled pf cfg m .context (.http request)
  | token {request : Request} {claims : Claims} (hjwks : cfg.jwksEnabled = some true)
      (h : (jwksAuthentication cfg m.jwks).authenticate request = .ok (.dict claims)) :
      Entitled pf cfg m .context (.http request)
  /-- The user of the MCP server is authenticated and has the scopes of the proxy. -/
  | mcpUser {request : Request} {proxy : OidcProxy} (hjwks : cfg.jwksEnabled = some true)
      (huser : (pf.authenticated proxy request).userAuthenticated = true)
      (hscopes : ∀ required ∈ proxyScopes, ∃ scopes,
        (pf.authenticated proxy request).auth = some scopes ∧ required ∈ scopes) :
      Entitled pf cfg m .mcp (.http request)
  /-- The settings say that the MCP server is open. -/
  | mcpOpen {scope : Scope} (hallowed : cfg.fastgeoapiMcpAllowUnauthenticated = true) :
      Entitled pf cfg m .mcp scope

/-- The guard that the settings ask for. They ask for one at most. -/
inductive Guard.Fits (pf : Platform) (cfg : ServerSettings) : Guard → Prop
  | none (hopa : cfg.opaEnabled ≠ some true) (hjwks : cfg.jwksEnabled ≠ some true)
      (hkey : cfg.apiKeyEnabled ≠ some true) : Guard.Fits pf cfg .none
  | opa {layer : Middleware} (hopa : cfg.opaEnabled = some true)
      (hothers : ¬(cfg.apiKeyEnabled = some true ∨ cfg.jwksEnabled = some true))
      (hlayer : pf.opaMiddleware = .ok layer) : Guard.Fits pf cfg (.opa layer)
  | oauth2 (hjwks : cfg.jwksEnabled = some true)
      (hothers : ¬(cfg.apiKeyEnabled = some true ∨ cfg.opaEnabled = some true)) :
      Guard.Fits pf cfg .oauth2
  | apiKey {key : String} (hkey : cfg.apiKeyEnabled = some true)
      (hothers : ¬(cfg.opaEnabled = some true ∨ cfg.jwksEnabled = some true))
      (hglobal : cfg.pygeoapiKeyGlobal = some key) (hne : key ≠ "") :
      Guard.Fits pf cfg (.apiKey key)

section
variable {pf : Platform} {cfg : ServerSettings} {m : Moment} {created : CreatedApp}
  {request : Request} {scope : Scope}

/-! ## The sub-application -/

theorem createGuard_fits {guarded : Guard × List SecurityScheme}
    (h : createGuard pf cfg = .ok guarded) : guarded.1.Fits pf cfg := by
  unfold createGuard at h
  split at h
  · rename_i hopa
    split at h
    · cases h
    · rename_i hothers
      obtain ⟨layer, hlayer, h⟩ := except_bind_ok.mp h
      obtain ⟨scheme, _, h⟩ := except_bind_ok.mp h
      cases h
      exact .opa hopa hothers hlayer
  · rename_i hopa
    split at h
    · rename_i hjwks
      split at h
      · cases h
      · rename_i hothers
        obtain ⟨oauth2, _, h⟩ := except_bind_ok.mp h
        obtain ⟨bearer, _, h⟩ := except_bind_ok.mp h
        cases h
        exact .oauth2 hjwks hothers
    · rename_i hjwks
      split at h
      · rename_i hkey
        split at h
        · cases h
        · rename_i hne
          obtain ⟨scheme, _, h⟩ := except_bind_ok.mp h
          cases h
          cases hglobal : cfg.pygeoapiKeyGlobal with
          | none =>
            rw [hglobal] at hne
            exact absurd rfl hne
          | some key =>
            rw [hglobal] at hne
            exact .apiKey hkey (fun h => h.elim hopa hjwks) hglobal hne
      · cases h
        exact .none hopa hjwks ‹_›

theorem createApp_cases (h : createApp pf cfg = .ok created) :
    createGuard pf cfg = .ok (created.guard, created.securitySchemes) ∧
      created.reverseProxy = (cfg.fastgeoapiReverseProxy = some true : Bool) := by
  obtain ⟨_, _, h⟩ := except_bind_ok.mp h
  obtain ⟨guarded, hguarded, h⟩ := except_bind_ok.mp h
  split at h
  · obtain ⟨_, _, h⟩ := except_bind_ok.mp h
    cases h
    exact ⟨hguarded, rfl⟩
  · cases h
    exact ⟨hguarded, rfl⟩

theorem passes_openapiLayers :
    ∀ layer ∈ created.openapiLayers pf cfg, Layer.Passes layer scope := by
  intro layer hlayer
  unfold CreatedApp.openapiLayers at hlayer
  split at hlayer
  · cases hlayer
  · rw [List.mem_singleton.mp hlayer]
    exact passes_openapiSecurityLayer scope

theorem admitted_singleton {auth : Authenticator} :
    Admitted [auth] request ↔ ∃ claims, auth.authenticate request = .ok (.dict claims) := by
  rw [admitted_cons]
  refine ⟨fun h => ?_, .inl⟩
  rcases h with h | ⟨_, _, h⟩
  · exact h
  · exact absurd h admitted_nil

/-- Without a gate nothing is let in, and with one, what is entitled. -/
theorem blocks_oauth2Layer (hjwks : cfg.jwksEnabled = some true)
    (h : ¬Entitled pf cfg m .context (.http request)) :
    Layer.Blocks (oauth2Layer pf cfg m) (.http request) := by
  unfold oauth2Layer
  cases hinit : Oauth2Middleware.init pf.re cfg.toConfiguration
      [jwksAuthentication cfg m.jwks] none with
  | error e => exact fun _ _ => rfl
  | ok mw =>
    refine blocks_of_not_letsIn fun hletsIn => h ?_
    have hauths : mw.authentication = [jwksAuthentication cfg m.jwks] := by
      obtain ⟨compiled, _, hmw⟩ := except_bind_ok.mp hinit
      cases hmw
      rfl
    cases hletsIn with
    | preflight hmethod => exact .preflight hjwks hmethod
    | skipped hskip => exact .publicPath hjwks ((shouldSkip_iff hinit).mp hskip)
    | admitted hadmitted =>
      rw [hauths, admitted_singleton] at hadmitted
      obtain ⟨claims, hclaims⟩ := hadmitted
      exact .token hjwks hclaims

theorem blocks_guardLayers (hfits : created.guard.Fits pf cfg)
    (h : ¬Entitled pf cfg m .context (.http request)) :
    ∃ layer, created.guardLayers pf cfg m = [layer] ∧ Layer.Blocks layer (.http request) := by
  unfold CreatedApp.guardLayers
  cases hguard : created.guard with
  | none =>
    rw [hguard] at hfits
    cases hfits with
    | none hopa hjwks hkey => exact absurd (.unguarded hopa hjwks hkey) h
  | opa layer =>
    rw [hguard] at hfits
    cases hfits with
    | opa hopa _ hlayer =>
      exact ⟨_, rfl, by_contra fun hpasses => h (.opa hopa hlayer hpasses)⟩
  | oauth2 =>
    rw [hguard] at hfits
    cases hfits with
    | oauth2 hjwks _ => exact ⟨_, rfl, blocks_oauth2Layer hjwks h⟩
  | apiKey key =>
    rw [hguard] at hfits
    cases hfits with
    | apiKey hkey _ hglobal hne =>
      exact ⟨_, rfl, by_contra fun hpasses => h (.apiKey hkey hglobal hne hpasses)⟩

theorem blocks_context (hpf : pf.Lawful) (hcreated : createApp pf cfg = .ok created)
    (h : ¬Entitled pf cfg m .context (.http request)) :
    Layer.Blocks (created.layer pf cfg m) (.http request) := by
  obtain ⟨layer, hlayer, hblocks⟩ :=
    blocks_guardLayers (createGuard_fits (createApp_cases hcreated).1) h
  refine (hpf.serverErrors_passes _).blocks ?_
  rw [CreatedApp.middlewares, hlayer]
  exact hblocks.behind passes_openapiLayers

/-- With `JWKS_ENABLED` the guard is the gate. -/
theorem guardLayers_of_jwks (hcreated : createApp pf cfg = .ok created)
    (hjwks : cfg.jwksEnabled = some true) :
    created.guardLayers pf cfg m = [oauth2Layer pf cfg m] := by
  have hfits := createGuard_fits (createApp_cases hcreated).1
  unfold CreatedApp.guardLayers
  cases hguard : created.guard with
  | oauth2 => rfl
  | none =>
    rw [hguard] at hfits
    cases hfits with
    | none _ hnot _ => exact absurd hjwks hnot
  | opa layer =>
    rw [hguard] at hfits
    cases hfits with
    | opa _ hothers _ => exact absurd (.inr hjwks) hothers
  | apiKey key =>
    rw [hguard] at hfits
    cases hfits with
    | apiKey _ hothers _ _ => exact absurd (.inr hjwks) hothers

/-- The middlewares other than the guard neither lose nor repeat a call of pygeoapi. -/
theorem reached_unguarded {pygeoapi : Asgi} :
    (stack (created.openapiLayers pf cfg ++ created.proxyLayers pf cfg) pygeoapi scope).reached =
      (pygeoapi scope).reached := by
  have hproxy : (stack (created.proxyLayers pf cfg) pygeoapi scope).reached =
      (pygeoapi scope).reached := by
    unfold CreatedApp.proxyLayers
    split
    · exact forwardedLinksLayer_reached
    · rfl
  rw [stack_append, ← hproxy]
  unfold CreatedApp.openapiLayers
  split
  · rfl
  · exact openapiSecurityLayer_reached

theorem keeps_oauth2Layer : Layer.Keeps (oauth2Layer pf cfg m) Served.Unreached := by
  unfold oauth2Layer
  split
  · exact keeps_layer
  · exact fun _ _ _ => rfl

theorem keeps_context (hpf : pf.Lawful) (hcreated : createApp pf cfg = .ok created) :
    Layer.Keeps (created.layer pf cfg m) Served.Unreached := by
  have hfits := createGuard_fits (createApp_cases hcreated).1
  intro app happ scope
  unfold CreatedApp.layer Served.Unreached
  rw [hpf.serverErrors]
  refine keeps_stack (fun layer hlayer => ?_) app happ scope
  rcases List.mem_append.mp hlayer with hlayer | hlayer
  · unfold CreatedApp.openapiLayers at hlayer
    split at hlayer
    · cases hlayer
    · rw [List.mem_singleton.mp hlayer]
      exact keeps_openapiSecurityLayer
  · rcases List.mem_append.mp hlayer with hlayer | hlayer
    · unfold CreatedApp.guardLayers at hlayer
      split at hlayer
      · cases hlayer
      · rename_i opaLayer hguard
        rw [hguard] at hfits
        cases hfits with
        | opa _ _ hopaLayer =>
          rw [List.mem_singleton.mp hlayer]
          exact hpf.opaMiddleware hopaLayer
      · rw [List.mem_singleton.mp hlayer]
        exact keeps_oauth2Layer
      · rw [List.mem_singleton.mp hlayer]
        exact hpf.authorizerMiddleware
    · unfold CreatedApp.proxyLayers at hlayer
      split at hlayer
      · rw [List.mem_singleton.mp hlayer]
        exact keeps_forwardedLinksLayer
      · cases hlayer

/-! ## The application -/

/-- The endpoint does not call pygeoapi, or it is one of the two that may. -/
def Endpoint.Known : Endpoint → Prop
  | .docs app | .wellKnown app => ∀ scope, (app scope).Unreached
  | _ => True

/-- What `start` has put together. -/
structure Application.Started (pf : Platform) (cfg : ServerSettings)
    (application : Application) : Prop where
  created : createApp pf cfg = .ok application.created
  mcp : ∀ server, application.mcp = some server →
    createMcpServer pf.toMcpPlatform cfg = .ok (some server)
  known : ∀ route ∈ application.routes, route.endpoint.Known

variable {application : Application}

/-- An endpoint does not call pygeoapi for who is not entitled to it. -/
theorem Application.Started.blocks (hpf : pf.Lawful) (h : application.Started pf cfg)
    {endpoint : Endpoint} (hnot : ¬Entitled pf cfg m endpoint (.http request)) :
    Layer.Blocks (application.endpointLayer pf cfg m endpoint) (.http request) := by
  cases endpoint with
  | context => exact blocks_context hpf h.created hnot
  | mcp =>
    unfold endpointLayer
    cases hmcp : application.mcp with
    | none => exact fun _ _ => rfl
    | some server =>
      obtain ⟨hfits, _, spec, _, _, hhttpApp⟩ := createMcpServer_cases (h.mcp server hmcp)
      cases hfits with
      | closed proxy hauth hscopes hjwks _ =>
        rw [hauth] at hhttpApp
        refine hpf.guarded hhttpApp fun hauthorized => hnot ?_
        obtain ⟨huser, hrequired⟩ := hauthorized.scopes
        rw [hscopes] at hrequired
        exact .mcpUser hjwks huser hrequired
      | opened _ _ hallowed => exact absurd (.mcpOpen hallowed) hnot
  | _ => exact fun _ _ => rfl

end

/-- The sub-application serves what the gate lets in exactly as it would without the gate, and calls
pygeoapi just as often. For everything else pygeoapi is not called, and the answer does not depend
on it. -/
theorem gate_exact (pf : Platform) (hpf : pf.Lawful) (cfg : ServerSettings) (created : CreatedApp)
    (hcreated : createApp pf cfg = .ok created) (hjwks : cfg.jwksEnabled = some true) (m : Moment)
    (mw : Oauth2Middleware) (hinit : Oauth2Middleware.init pf.re cfg.toConfiguration
      [jwksAuthentication cfg m.jwks] none = .ok mw) (pygeoapi : Asgi) (scope : Scope) :
    (mw.LetsIn scope →
        created.layer pf cfg m pygeoapi scope =
          { created with guard := .none }.layer pf cfg m pygeoapi scope ∧
        (created.layer pf cfg m pygeoapi scope).reached = (pygeoapi scope).reached) ∧
      (¬mw.LetsIn scope → (created.layer pf cfg m pygeoapi scope).reached = [] ∧
        ∀ pygeoapi', created.layer pf cfg m pygeoapi' scope =
          created.layer pf cfg m pygeoapi scope) := by
  have hgate : oauth2Layer pf cfg m = mw.layer pf.redirectResponse := by
    unfold oauth2Layer
    rw [hinit]
  have hlayers : created.middlewares pf cfg m = created.openapiLayers pf cfg ++
      mw.layer pf.redirectResponse :: created.proxyLayers pf cfg := by
    rw [CreatedApp.middlewares, guardLayers_of_jwks hcreated hjwks, hgate]
    rfl
  constructor
  · intro hletsIn
    have hidle : stack (created.middlewares pf cfg m) pygeoapi scope =
        stack (created.openapiLayers pf cfg ++ created.proxyLayers pf cfg) pygeoapi scope := by
      rw [hlayers]
      exact hletsIn.idle.behind passes_openapiLayers
    obtain ⟨f, hf⟩ := hpf.serverErrors_passes scope
    refine ⟨?_, ?_⟩
    · unfold CreatedApp.layer
      rw [hf, hf, hidle]
      rfl
    · unfold CreatedApp.layer
      rw [hpf.serverErrors, hidle, reached_unguarded]
  · intro hnot
    have hblocks : Layer.Blocks (created.layer pf cfg m) scope := by
      refine (hpf.serverErrors_passes scope).blocks ?_
      rw [hlayers]
      exact (blocks_of_not_letsIn hnot).behind passes_openapiLayers
    refine ⟨?_, fun pygeoapi' => hblocks pygeoapi' pygeoapi⟩
    exact hblocks.of_keeps (keeps_context hpf hcreated) (fun _ => .answered []) fun _ => rfl

/-- The bodies of messages, up to the last one. -/
def readBody : List Message → List ByteArray
  | .body body moreBody :: messages => if moreBody then body :: readBody messages else [body]
  | _ => []

/-- `call_next` on ASGI messages. -/
def asgiReadResponse (served : Served) : Except PyError InnerResponse :=
  match served.sent with
  | .start start :: messages =>
    if h : ∀ header ∈ start.headers, LowerCase header.1 then
      .ok ⟨start.status, start.headers, readBody messages, h⟩
    else .error ⟨.valueError, "headers"⟩
  | _ =>
    match served.result with
    | .error e => .error e
    | .ok () => .error ⟨.other "RuntimeError", "No response returned."⟩

/-- The one user of the MCP server has the token `user`. -/
def lakesMcpScope (request : Request) : McpScope where
  type := "http"
  headers := some (request.headers.map fun header => (header.1.toByteArray, header.2.toByteArray))
  userAuthenticated := request.headers.lookup "authorization" = some "Bearer user"
  auth := some proxyScopes

/-- An MCP server that hands requests on to its client. -/
def lakesHttpApp : Option OidcProxy → Middleware
  | none => fun client => client
  | some proxy => fun client scope =>
    match scope with
    | .http request =>
      let mw : McpAuthMiddleware := ⟨proxy.requiredScopes, none⟩
      match (mw.call false (lakesMcpScope request)).2 with
      | .ok .app => client scope
      | .ok answer => .answered (answerMessages sdkSendAuthError mw answer)
      | .error e => .raised e
    | _ => .answered []

def resourceRoute : Route Asgi where
  path := slashRoute.path
  endpoint _ := .answered []
  methods := slashRoute.methods
  literal := slashRoute.literal

def lakesPlatform : Platform where
  baseSpec := some (.ok (.dict []))
  resolveExternalRefs := .ok
  subapp := .ok ()
  wellKnownRoutes _ := .ok [resourceRoute]
  httpApp _ auth := .ok (lakesHttpApp auth)
  authenticated _ := lakesMcpScope
  resourceMetadataUrl _ := none
  re := literalRe
  starlette := asgiStarlette
  routing := literalRouting
  readResponse := asgiReadResponse
  redirectResponse url := [.start {
      status := 307
      headers := [("content-length", "0"), ("location", url)] }, .body .empty false]
  jsonResponse status _ := [.start { status := status, headers := [] }, .body .empty false]
  pydantic := lakesPydantic
  securityScheme fields := .ok {
    type := match fields.lookup "type" with
      | some (.str type) => type
      | _ => ""
    dumped := .dict (fields.map fun field => (.str field.1, field.2)) }
  opaMiddleware := .error ⟨.osError, ""⟩
  authorizerMiddleware _ _ _ := id
  serverErrors := id
  outside := id
  docsRoutes := []
  unmatched _ := .answered [.start { status := 404, headers := [] }, .body .empty false]

theorem lakesPlatform_lawful : lakesPlatform.Lawful where
  guarded := by
    intro spec proxy httpApp request hhttpApp hnot client client'
    cases hhttpApp
    simp only [lakesHttpApp]
    cases hcall : (McpAuthMiddleware.call ⟨proxy.requiredScopes, none⟩ false
        (lakesMcpScope request)).2 with
    | error e => rfl
    | ok answer =>
      cases answer with
      | app => exact absurd ⟨false, hcall⟩ hnot
      | _ => rfl
  throughClient := by
    intro spec auth httpApp hhttpApp client hclient scope
    cases hhttpApp
    cases auth with
    | none => exact hclient scope
    | some proxy =>
      cases scope with
      | http request =>
        simp only [lakesHttpApp]
        split
        · exact hclient _
        · rfl
        · rfl
      | _ => rfl
  metadata := by
    intro proxy routes route scope hroutes hroute
    cases hroutes
    rw [List.mem_singleton.mp hroute]
    rfl
  opaMiddleware h := nomatch h
  authorizerMiddleware := fun _ happ => happ
  serverErrors := rfl
  serverErrors_passes _ := ⟨id, fun _ => rfl⟩
  outside := fun _ happ => happ
  outside_passes _ := .inr ⟨id, fun _ => rfl⟩
  docsRoutes h := nomatch h
  unmatched := rfl

/-- `JWKS_ENABLED` and `FASTGEOAPI_WITH_MCP`, behind a reverse proxy. -/
def lakesSettings : ServerSettings where
  pygeoapiConfig := "pygeoapi-config.yml"
  pygeoapiOpenapi := "pygeoapi-openapi.yml"
  fastgeoapiContext := "/geoapi"
  pygeoapiSecurityScheme := some "bearer"
  opaEnabled := none
  jwksEnabled := some true
  apiKeyEnabled := none
  pygeoapiKeyGlobal := none
  oidcWellKnownEndpoint := some "https://idp.example.com/oidc/.well-known/openid-configuration"
  oauth2TokenEndpoint := some "https://idp.example.com/oidc/token"
  oauth2JwksEndpoint := some "https://idp.example.com/oidc/jwks"
  host := "0.0.0.0"
  port := "5000"
  pygeoapiBaseurl := "http://localhost:5000/geoapi"
  fastgeoapiReverseProxy := some true
  fastgeoapiWithMcp := true

def lakesMoment : Moment where
  jwks := {
    getJwks := fun _ => .ok []
    decode := fun _ _ _ => .error ⟨.joseError, ""⟩
    validate := fun _ _ _ => .ok ()
    now := 0 }
  file := some []

/-- The document of the API is public. -/
theorem lakesPlatform_openapi : ∃ created, createApp lakesPlatform lakesSettings = .ok created ∧
    ∀ pygeoapi, (created.layer lakesPlatform lakesSettings lakesMoment pygeoapi
        (.http (rootPathRequest "/geoapi/openapi"))).reached =
      (pygeoapi (.http (rootPathRequest "/geoapi/openapi"))).reached := by
  refine ⟨_, rfl, fun pygeoapi => ?_⟩
  refine ((gate_exact lakesPlatform lakesPlatform_lawful lakesSettings _ rfl rfl lakesMoment _ rfl
    pygeoapi (.http (rootPathRequest "/geoapi/openapi"))).1 (.skipped ?_)).2
  decide

end FastGeoApi
