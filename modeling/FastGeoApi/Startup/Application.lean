import FastGeoApi.Middleware.RootPath
import FastGeoApi.Startup.McpServer

/-!
# The application

`create_app` of `app/main.py`, and the code of that module that puts the application and the MCP
server together. The application is a layer around pygeoapi: its requests get to pygeoapi through
the sub-application under the context, with the middlewares around it, and through the MCP server.
Nothing gets there without being entitled to it by one of the two.
-/

namespace FastGeoApi
open Layers

/-- The packages that the application is built with. -/
structure Platform extends McpPlatform where
  re : Re
  starlette : Starlette
  routing : Starlette.Routing
  /-- What `call_next` reads of what an inner application does. -/
  readResponse : Served → Except PyError InnerResponse
  redirectResponse : String → List Message
  /-- What a `JSONResponse` sends. -/
  jsonResponse : Nat → PyVal → List Message
  pydantic : Pydantic
  /-- `SecurityScheme(**fields)`. -/
  securityScheme : List (String × PyVal) → Except PyError SecurityScheme
  /-- `auth_config` for OPA, and `OPAMiddleware` with it. -/
  opaMiddleware : Except PyError Middleware
  /-- `AuthorizerMiddleware`, with `PYGEOAPI_KEY_GLOBAL` in the environment. -/
  authorizerMiddleware : String → List String → String → Middleware
  /-- The middlewares of Starlette around a sub-application, which turn exceptions to responses. -/
  serverErrors : Middleware
  /-- The middlewares of FastAPI around the router, CORS among them. -/
  outside : Middleware
  /-- The routes of FastAPI itself: its document and the pages for it. -/
  docsRoutes : List (BaseRoute Asgi)
  /-- What becomes of a request that no route is a full match of. -/
  unmatched : Asgi

/-- None of the packages calls pygeoapi unless it calls the inner application. -/
structure Platform.Lawful (pf : Platform) : Prop extends pf.toMcpPlatform.Lawful where
  opaMiddleware {layer : Middleware} : pf.opaMiddleware = .ok layer →
    Layer.Keeps layer Served.Unreached
  authorizerMiddleware {key keyPattern : String} {publicPaths : List String} :
    Layer.Keeps (pf.authorizerMiddleware key publicPaths keyPattern) Served.Unreached
  serverErrors {app : Asgi} {scope : Scope} :
    (pf.serverErrors app scope).reached = (app scope).reached
  serverErrors_passes (scope : Scope) : Layer.Passes pf.serverErrors scope
  outside : Layer.Keeps pf.outside Served.Unreached
  /-- A request is answered by these middlewares, or it goes on. -/
  outside_passes (scope : Scope) : Layer.Blocks pf.outside scope ∨ Layer.Passes pf.outside scope
  docsRoutes {route : BaseRoute Asgi} {scope : Scope} : route ∈ pf.docsRoutes →
    (route.endpoint scope).Unreached
  unmatched {scope : Scope} : (pf.unmatched scope).Unreached

/-- What a request meets that is not the same for all requests. -/
structure Moment where
  jwks : JwksWorld
  /-- The file at `PYGEOAPI_OPENAPI`. -/
  file : OpenapiFile

/-! ## `create_app` -/

/-- The middleware that asks for credentials. -/
inductive Guard where
  | none
  | opa (layer : Middleware)
  | oauth2
  | apiKey (key : String)

structure CreatedApp where
  guard : Guard
  securitySchemes : List SecurityScheme
  reverseProxy : Bool

section
variable (pf : Platform) (cfg : ServerSettings)

/-- The branches of `create_app` on the kinds of authentication. -/
def createGuard : Except PyError (Guard × List SecurityScheme) :=
  if cfg.opaEnabled = some true then
    if cfg.apiKeyEnabled = some true ∨ cfg.jwksEnabled = some true then .error mutuallyExclusive
    else do
      let layer ← pf.opaMiddleware
      let scheme ← pf.securityScheme [("type", .str "openIdConnect"),
        ("openIdConnectUrl", pyOption cfg.oidcWellKnownEndpoint)]
      return (.opa layer, [scheme])
  else if cfg.jwksEnabled = some true then
    if cfg.apiKeyEnabled = some true ∨ cfg.opaEnabled = some true then .error mutuallyExclusive
    else do
      let flow := .dict [(.str "tokenUrl", pyOption cfg.oauth2TokenEndpoint),
        (.str "scopes", .dict [])]
      let oauth2 ← pf.securityScheme [("type", .str "oauth2"), ("name", .str "pygeoapi"),
        ("flows", .dict [(.str "clientCredentials", flow)])]
      let bearer ← pf.securityScheme [("type", .str "http"), ("name", .str "pygeoapi"),
        ("scheme", .str "bearer"), ("bearerFormat", .str "JWT")]
      return (.oauth2, [oauth2, bearer])
  else if cfg.apiKeyEnabled = some true then
    if cfg.opaEnabled = some true then
      .error ⟨.valueError, "OPA_ENABLED and API_KEY_ENABLED are mutually exclusive"⟩
    else if cfg.pygeoapiKeyGlobal.getD "" = "" then
      .error ⟨.valueError, "pygeoapi API KEY is missing"⟩
    else do
      let scheme ← pf.securityScheme [("type", .str "apiKey"), ("name", .str "X-API-KEY"),
        ("security_scheme_in", .str "header")]
      return (.apiKey (cfg.pygeoapiKeyGlobal.getD ""), [scheme])
  else .ok (.none, [])

/-- `create_app`. The sub-application is mounted last. -/
def createApp : Except PyError CreatedApp := do
  pf.subapp
  let guarded ← createGuard pf cfg
  if cfg.fastgeoapiContext ≠ "" then pf.routing.checkPath cfg.fastgeoapiContext
  return ⟨guarded.1, guarded.2, cfg.fastgeoapiReverseProxy = some true⟩

/-- `auth_config`, for `JWKS_ENABLED`. Without `OAUTH2_JWKS_ENDPOINT` there is no URL to request. -/
def jwksAuthentication (w : JwksWorld) : Authenticator :=
  let config : JWKSConfig := {
    jwksUri := cfg.oauth2JwksEndpoint.getD ""
    expectedAudience := cfg.oauth2ExpectedAudience
    expectedIssuer := cfg.oauth2ExpectedIssuer }
  match cfg.oauth2JwksEndpoint with
  | some _ => jwksAuthenticator w config
  | none => jwksAuthenticator { w with getJwks := fun _ => .error ⟨.typeError,
      "Invalid type for url.  Expected str or httpx.URL, got <class 'NoneType'>: None"⟩ } config

/-- The gate is made when the first scope comes; where it cannot be made, every scope fails. -/
def oauth2Layer (m : Moment) : Middleware :=
  match Oauth2Middleware.init pf.re cfg.toConfiguration [jwksAuthentication cfg m.jwks] none with
  | .ok mw => mw.layer pf.redirectResponse
  | .error e => fun _ _ => .raised e

namespace CreatedApp
variable (created : CreatedApp) (m : Moment)

def guardLayers : List Middleware :=
  match created.guard with
  | .none => []
  | .opa layer => [layer]
  | .oauth2 => [oauth2Layer pf cfg m]
  | .apiKey key =>
    [pf.authorizerMiddleware key [cfg.fastgeoapiContext ++ "/openapi"] "PYGEOAPI_KEY_"]

/-- `OpenapiSecurityMiddleware` is the last to be added, so it is the first that a scope meets. -/
def openapiLayers : List Middleware :=
  if created.securitySchemes = [] then []
  else [openapiSecurityLayer pf.starlette pf.pydantic cfg.toConfiguration created.securitySchemes]

def proxyLayers : List Middleware :=
  if created.reverseProxy then
    [forwardedLinksLayer pf.starlette pf.readResponse cfg.pygeoapiBaseurl]
  else []

/-- The middlewares that are added to `patched_app`. -/
def middlewares : List Middleware :=
  created.openapiLayers pf cfg ++ (created.guardLayers pf cfg m ++ created.proxyLayers pf cfg)

/-- `patched_app`, around pygeoapi. -/
def layer : Middleware := fun pygeoapi =>
  pf.serverErrors (stack (created.middlewares pf cfg m) pygeoapi)

end CreatedApp

/-! ## The routes -/

inductive Endpoint where
  | docs (app : Asgi)
  | healthz
  | readyz
  | wellKnown (app : Asgi)
  | context
  | mcp

/-- `Mount(path)`. -/
def mount (path : String) (endpoint : Endpoint) : BaseRoute Endpoint where
  isMatch request := pf.routing.mountMatches path request.path
  endpoint := endpoint

/-- `@app.get(path)`. -/
def getRoute (path : String) (endpoint : Endpoint) : BaseRoute Endpoint where
  isMatch request := pf.routing.getMatches path request.path request.method
  endpoint := endpoint

/-- The routes of `create_app`, in the order in which they are tried. -/
def appRoutes : List (BaseRoute Endpoint) :=
  pf.docsRoutes.map (fun route => ⟨route.isMatch, .docs route.endpoint⟩) ++
    [getRoute pf "/healthz" .healthz, getRoute pf "/readyz" .readyz,
      mount pf cfg.fastgeoapiContext .context]

def Route.wellKnown (route : Route Asgi) : Route Endpoint where
  path := route.path
  endpoint := .wellKnown route.endpoint
  methods := route.methods
  literal := route.literal

structure Application where
  created : CreatedApp
  mcp : Option McpServer
  routes : List (BaseRoute Endpoint)

/-- The MCP server, when there is to be one. -/
def startMcp : Except PyError (Option McpServer) :=
  if cfg.fastgeoapiWithMcp then createMcpServer pf.toMcpPlatform cfg else .ok none

/-- The code of the module, after `ensure_openapi_file_exists()`. -/
def start : Except PyError Application := do
  let mcp ← startMcp pf cfg
  let created ← createApp pf cfg
  match mcp with
  | none => return ⟨created, none, appRoutes pf cfg⟩
  | some server => do
    let mounted ← mountWellKnown pf.routing (appRoutes pf cfg)
      (server.wellKnownRoutes.map Route.wellKnown)
    return ⟨created, some server, mounted ++ [mount pf "/mcp" .mcp]⟩

namespace Application
variable (application : Application) (m : Moment)

/-- What an endpoint does, around pygeoapi. -/
def endpointLayer : Endpoint → Middleware
  | .docs app | .wellKnown app => fun _ => app
  | .healthz => fun _ _ => .answered (pf.jsonResponse 200 (.dict [(.str "status", .str "ok")]))
  | .readyz => fun _ _ => .answered (pf.jsonResponse (readyz m.file).1 (readyz m.file).2)
  | .context => application.created.layer pf cfg m
  | .mcp =>
    match application.mcp with
    | some server => server.httpApp
    | none => fun _ => pf.unmatched

/-- The endpoint of a request. Routes are compared with the path without the root path. -/
def endpoint : Scope → Option Endpoint
  | .http request => firstMatch application.routes
      { request with path := pf.routing.getRoutePath (cfg.rootPath.getD "") request.path }
  | _ => none

/-- `MCPMountRootRewriteMiddleware` is only there when the MCP server is. -/
def rewrite (scope : Scope) : Scope :=
  if application.mcp.isSome then mcpMountRootRewrite scope else scope

/-- The router, around pygeoapi. -/
def router : Middleware :=
  choose (fun scope => (application.endpoint pf cfg scope).map (application.endpointLayer pf cfg m))
    pf.unmatched

/-- The application, around pygeoapi. -/
def serve : Middleware := fun pygeoapi scope =>
  pf.outside (application.router pf cfg m pygeoapi) (application.rewrite scope)

end Application
end
end FastGeoApi
