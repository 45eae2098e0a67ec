import FastGeoApi.Auth.ClientAssertions
import FastGeoApi.Auth.Rfc6750
import FastGeoApi.Middleware.Stack
import FastGeoApi.Startup.OpenapiCommand
import FastGeoApi.Startup.WellKnownRoutes

/-!
# The MCP server

`create_mcp_server` of `app/main.py` and `configure_mcp_auth` of `app/auth/mcp_auth_provider.py`.
The server calls pygeoapi without any middleware in between, so with no authentication of its own it
is not built unless the settings allow it. The applications of fastmcp are a parameter.
-/

namespace FastGeoApi
open Layers

/-- The settings that the start of the server reads. -/
structure ServerSettings extends CommandSettings where
  host : String
  port : String
  rootPath : Option String := none
  appUri : Option String := none
  oidcClientId : Option String := none
  oidcClientSecret : Option String := none
  oauth2JwksEndpoint : Option String := none
  oauth2ExpectedAudience : Option String := none
  oauth2ExpectedIssuer : Option String := none
  pygeoapiBaseurl : String
  fastgeoapiReverseProxy : Option Bool := none
  fastgeoapiWithMcp : Bool := false
  fastgeoapiMcpConsentMode : Option String := none
  fastgeoapiMcpAllowUnauthenticated : Bool := false
  fastgeoapiMcpAccessTokenExpirySeconds : Option Int := none

/-! ## The OIDC proxy -/

/-- `bool | Literal["remember", "external"]`: `always` is `True` and `never` is `False`. -/
inductive ConsentMode where
  | always
  | remember
  | external
  | never
  deriving DecidableEq

/-- The characters that `str.strip` takes away. -/
def isSpace (c : Char) : Bool :=
  c.toNat ∈ [0x20, 0x85, 0xa0, 0x1680, 0x2028, 0x2029, 0x202f, 0x205f, 0x3000] ||
    (0x09 ≤ c.toNat && c.toNat ≤ 0x0d) || (0x1c ≤ c.toNat && c.toNat ≤ 0x1f) ||
    (0x2000 ≤ c.toNat && c.toNat ≤ 0x200a)

/-- `_coerce_consent_mode`. -/
def coerceConsentMode : Option String → ConsentMode
  | none => .remember
  | some consentMode =>
    let stripped := (consentMode.toList.dropWhile isSpace).rdropWhile isSpace
    let resolved := lower (String.ofList stripped)
    if resolved = "always".toList then .always
    else if resolved = "external".toList then .external
    else if resolved = "never".toList then .never
    else .remember

def defaultMcpAccessTokenExpirySeconds : Int := 60 * 60 * 24

/-- `client_token_ttl`. -/
def clientTokenTtl (accessTokenExpirySeconds : Option Int) : Option Int :=
  let seconds := accessTokenExpirySeconds.getD defaultMcpAccessTokenExpirySeconds
  if seconds > 0 then some seconds else none

/-- The arguments of `OIDCProxyWithoutResource`, with the scopes of its token verifier, which are
also the valid scopes of its client registration. -/
structure OidcProxy where
  configUrl : String
  clientId : Option String
  clientSecret : Option String
  baseUrl : String
  authorizeScope : String
  requiredScopes : List String
  forwardResource : Bool
  requireAuthorizationConsent : ConsentMode
  accessTokenExpirySeconds : Option Int

/-- The proxy that `configure_mcp_auth` makes. -/
def configureMcpAuth (oidcWellKnownEndpoint : String) (clientId clientSecret : Option String)
    (mcpBaseUrl : String) (scopes : List String) (consentMode : Option String)
    (accessTokenExpirySeconds : Option Int) : OidcProxy where
  configUrl := oidcWellKnownEndpoint
  clientId := clientId
  clientSecret := clientSecret
  baseUrl := mcpBaseUrl
  authorizeScope := Str.joinWith " " scopes
  requiredScopes := scopes
  forwardResource := false
  requireAuthorizationConsent := coerceConsentMode consentMode
  accessTokenExpirySeconds := clientTokenTtl accessTokenExpirySeconds

def proxyScopes : List String := ["openid", "profile", "email", "offline_access"]

def ServerSettings.mcpBaseUrl (cfg : ServerSettings) : String :=
  String.ofList (FastGeoApi.mcpBaseUrl cfg.host.toList cfg.port.toList
    (cfg.appUri.map String.toList))

/-! ## The server -/

/-- What fastmcp and pygeoapi do while the server is built. -/
structure McpPlatform where
  /-- `yaml.safe_load` of the file at `PYGEOAPI_OPENAPI`, when there is one. -/
  baseSpec : Option (Except PyError PyVal)
  /-- `resolve_external_refs(base_spec, cache_dir=cache_dir)`. -/
  resolveExternalRefs : PyVal → Except PyError PyVal
  /-- What `_build_pygeoapi_subapp` raises. -/
  subapp : Except PyError Unit
  /-- The constructor of the proxy, and its `get_well_known_routes(mcp_path="/")`. -/
  wellKnownRoutes : OidcProxy → Except PyError (List (Route Asgi))
  /-- `FastMCP.from_openapi(..., auth=auth).http_app(path="/", stateless_http=True)`, around the
  application that its client calls. -/
  httpApp : PyVal → Option OidcProxy → Except PyError Middleware
  /-- The scope of a request, as the authentication of a proxy leaves it. -/
  authenticated : OidcProxy → Request → McpScope
  /-- `build_resource_metadata_url`. -/
  resourceMetadataUrl : OidcProxy → Option AnyHttpUrl

/-- The middleware that fastmcp puts around the endpoint of a server with authentication, once
`patch_fastmcp_auth_middleware` has been called. -/
def McpPlatform.requireAuth (m : McpPlatform) (proxy : OidcProxy) : McpAuthMiddleware where
  requiredScopes := proxy.requiredScopes
  resourceMetadataUrl := m.resourceMetadataUrl proxy

/-- The user of the request is authenticated and has the scopes that the middleware requires. -/
def McpPlatform.Authorized (m : McpPlatform) (proxy : OidcProxy) (request : Request) : Prop :=
  ∃ provided, (((m.requireAuth proxy).call provided (m.authenticated proxy request)).2) = .ok .app

structure McpPlatform.Lawful (m : McpPlatform) : Prop where
  /-- With a proxy, the client is only used behind `RequireAuthMiddleware`. -/
  guarded {spec : PyVal} {proxy : OidcProxy} {httpApp : Middleware} {request : Request} :
    m.httpApp spec (some proxy) = .ok httpApp → ¬m.Authorized proxy request →
      Layer.Blocks httpApp (.http request)
  /-- pygeoapi is only called through the client. -/
  throughClient {spec : PyVal} {auth : Option OidcProxy} {httpApp : Middleware} :
    m.httpApp spec auth = .ok httpApp → Layer.Keeps httpApp Served.Unreached
  /-- The metadata is the server's own. -/
  metadata {proxy : OidcProxy} {routes : List (Route Asgi)} {route : Route Asgi} {scope : Scope} :
    m.wellKnownRoutes proxy = .ok routes → route ∈ routes → (route.endpoint scope).Unreached

structure McpServer where
  auth : Option OidcProxy
  wellKnownRoutes : List (Route Asgi)
  httpApp : Middleware

/-- `MCPAuthMisconfiguredError`. -/
def mcpAuthMisconfigured : PyError := ⟨.other "MCPAuthMisconfiguredError",
  "FASTGEOAPI_WITH_MCP is enabled but no MCP authentication is configured (JWKS_ENABLED and " ++
  "OIDC_WELL_KNOWN_ENDPOINT are required): refusing to start rather than exposing every MCP " ++
  "tool unauthenticated. Set FASTGEOAPI_MCP_ALLOW_UNAUTHENTICATED=true to opt in to first-class " ++
  "passthrough mode."⟩

/-- `cfg.JWKS_ENABLED and cfg.OIDC_WELL_KNOWN_ENDPOINT`. -/
def ServerSettings.mcpEndpoint (cfg : ServerSettings) : Option String :=
  if cfg.jwksEnabled = some true then configured cfg.oidcWellKnownEndpoint else none

/-- `auth` and `well_known_routes`. -/
def mcpAuth (m : McpPlatform) (cfg : ServerSettings) :
    Except PyError (Option OidcProxy × List (Route Asgi)) :=
  match cfg.mcpEndpoint with
  | some endpoint => do
    let proxy := configureMcpAuth endpoint cfg.oidcClientId cfg.oidcClientSecret cfg.mcpBaseUrl
      proxyScopes cfg.fastgeoapiMcpConsentMode cfg.fastgeoapiMcpAccessTokenExpirySeconds
    let routes ← m.wellKnownRoutes proxy
    return (some proxy, routes)
  | none =>
    if cfg.fastgeoapiMcpAllowUnauthenticated then .ok (none, []) else .error mcpAuthMisconfigured

/-- `create_mcp_server()`; there is no server when there is no OpenAPI file. -/
def createMcpServer (m : McpPlatform) (cfg : ServerSettings) : Except PyError (Option McpServer) :=
  match m.baseSpec with
  | none => .ok none
  | some loaded => do
    let baseSpec ← loaded
    let openapiSpec ← m.resolveExternalRefs baseSpec
    m.subapp
    let auth ← mcpAuth m cfg
    let httpApp ← m.httpApp openapiSpec auth.1
    return some ⟨auth.1, auth.2, httpApp⟩

section
variable {m : McpPlatform} {cfg : ServerSettings}

/-- The server authenticates its users, who have to have the scopes of the proxy, or it is open
because the settings say so. -/
inductive McpServer.Fits (m : McpPlatform) (cfg : ServerSettings) (server : McpServer) : Prop
  | closed (proxy : OidcProxy) (hauth : server.auth = some proxy)
      (hscopes : proxy.requiredScopes = proxyScopes) (hjwks : cfg.jwksEnabled = some true)
      (hroutes : m.wellKnownRoutes proxy = .ok server.wellKnownRoutes)
  | opened (hauth : server.auth = none) (hroutes : server.wellKnownRoutes = [])
      (hallowed : cfg.fastgeoapiMcpAllowUnauthenticated = true)

/-- A server that is built fits the settings, and is built around what the OpenAPI file is resolved
to. -/
theorem createMcpServer_cases {server : McpServer}
    (h : createMcpServer m cfg = .ok (some server)) :
    server.Fits m cfg ∧ ∃ baseSpec spec, m.baseSpec = some (.ok baseSpec) ∧
      m.resolveExternalRefs baseSpec = .ok spec ∧
        m.httpApp spec server.auth = .ok server.httpApp := by
  unfold createMcpServer at h
  split at h
  · cases h
  · rename_i loaded hloaded
    obtain ⟨baseSpec, hbaseSpec, h⟩ := except_bind_ok.mp h
    obtain ⟨openapiSpec, hspec, h⟩ := except_bind_ok.mp h
    obtain ⟨_, _, h⟩ := except_bind_ok.mp h
    obtain ⟨auth, hauth, h⟩ := except_bind_ok.mp h
    obtain ⟨httpApp, hhttpApp, h⟩ := except_bind_ok.mp h
    cases h
    rw [hbaseSpec] at hloaded
    refine ⟨?_, baseSpec, openapiSpec, hloaded, hspec, hhttpApp⟩
    unfold mcpAuth ServerSettings.mcpEndpoint at hauth
    split at hauth
    · rename_i endpoint hendpoint
      obtain ⟨routes, hroutes, hauth⟩ := except_bind_ok.mp hauth
      cases hauth
      refine .closed _ rfl rfl ?_ hroutes
      by_contra hjwks
      rw [if_neg hjwks] at hendpoint
      cases hendpoint
    · split at hauth
      · cases hauth
        exact .opened rfl rfl ‹_›
      · cases hauth

/-- Who is authorized is authenticated and has all the scopes. -/
theorem McpPlatform.Authorized.scopes {proxy : OidcProxy} {request : Request}
    (h : m.Authorized proxy request) : (m.authenticated proxy request).userAuthenticated = true ∧
      ∀ required ∈ proxy.requiredScopes, ∃ scopes,
        (m.authenticated proxy request).auth = some scopes ∧ required ∈ scopes := by
  obtain ⟨provided, hcall⟩ := h
  have hanswer : ∃ provided, McpAuthMiddleware.call.answer (m.requireAuth proxy)
      (m.authenticated proxy request) provided = .app := by
    unfold McpAuthMiddleware.call at hcall
    split at hcall
    · split at hcall
      · cases hcall
      · exact ⟨_, Except.ok.inj hcall⟩
    · exact ⟨_, Except.ok.inj hcall⟩
  obtain ⟨provided, hanswer⟩ := hanswer
  unfold McpAuthMiddleware.call.answer at hanswer
  split at hanswer
  · rename_i huser
    refine ⟨huser, fun required hrequired => ?_⟩
    rcases @checkScopes_cases (m.requireAuth proxy) (m.authenticated proxy request) with
      ⟨hhas, -⟩ | ⟨-, missing, hmissing⟩
    · by_contra hnot
      push Not at hnot
      exact hhas ⟨required, hrequired, hnot⟩
    · rw [hmissing] at hanswer
      cases hanswer
  · split at hanswer <;> cases hanswer

end
end FastGeoApi
