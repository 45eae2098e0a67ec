import FastGeoApi.Auth.PublicPaths
import FastGeoApi.Middleware.OpenApi

/-!
# Root paths

The root path of the application is in front of the paths that the middlewares see, and the router
takes it off. `MCPMountRootRewriteMiddleware`, the gate and the OpenAPI middleware compare the whole
path.
-/

namespace FastGeoApi

/-- `MCPMountRootRewriteMiddleware.__call__`: the scope that goes on. -/
def mcpMountRootRewrite : Scope → Scope
  | .http request =>
    if request.path = "/mcp" then .http { request with path := "/mcp/" } else .http request
  | scope => scope

/-- What the router compares. -/
def routed (routing : Starlette.Routing) (rootPath : String) : Scope → Scope
  | .http request => .http { request with path := routing.getRoutePath rootPath request.path }
  | scope => scope

/-- The request under a root path; an unset `ROOT_PATH` is an empty one. -/
def Request.under (rootPath : String) (request : Request) : Request :=
  { request with path := rootPath ++ request.path }

/-- The three decisions are the ones for the request without the root path, and so is what the
router is given. -/
structure Unaffected (routing : Starlette.Routing) (mw : Oauth2Middleware) (cfg : Configuration)
    (rootPath : String) (request : Request) : Prop where
  rewrites : mcpMountRootRewrite (.http (request.under rootPath)) ≠ .http (request.under rootPath) ↔
    mcpMountRootRewrite (.http request) ≠ .http request
  routes : routed routing rootPath (mcpMountRootRewrite (.http (request.under rootPath))) =
    routed routing "" (mcpMountRootRewrite (.http request))
  skips : shouldSkipEndpoint (request.under rootPath).path mw.skipEndpoints =
    shouldSkipEndpoint request.path mw.skipEndpoints
  augments : (request.under rootPath).path ∈ routesWithOpenapi cfg ↔
    request.path ∈ routesWithOpenapi cfg

/-- A pattern matches the path: for a plain one, the path starts with text that it fits. -/
def Re.Opens (re : Re) (pattern path : String) : Prop :=
  if isPlain pattern then fits pattern.toList path.toList = true
  else ∃ m, re.special pattern = .ok m ∧ m path = true

/-- The router takes every root path off the front of the path. -/
def Starlette.Routing.RemovesRootPaths (routing : Starlette.Routing) (path : String) : Prop :=
  ∀ rootPath, routing.getRoutePath rootPath (rootPath ++ path) = path

/-- There is no root path; or the path is special neither with nor without it, and it is public
both ways or neither way. -/
inductive Indifferent (re : Re) (cfg : Configuration) (skipEndpoints : Option (List String))
    (rootPath path : String) : Prop
  | noRootPath (h : rootPath = "")
  | rootPath (hmcp : rootPath ++ path ≠ "/mcp" ∧ path ≠ "/mcp")
      (hopenapi : rootPath ++ path ≠ cfg.fastgeoapiContext ++ "/openapi" ∧
        path ≠ cfg.fastgeoapiContext ++ "/openapi")
      (hpublic : (∃ pattern ∈ skipPatterns cfg skipEndpoints, re.Opens pattern (rootPath ++ path)) ↔
        ∃ pattern ∈ skipPatterns cfg skipEndpoints, re.Opens pattern path)

section
variable {rootPath path text : String} {request : Request}

theorem append_ne_self (h : rootPath ≠ "") : rootPath ++ path ≠ path := by
  intro heq
  apply h
  have hlist := congrArg String.toList heq
  rw [String.toList_append, List.append_left_eq_self] at hlist
  exact String.toList_eq_nil_iff.mp hlist

/-- A root path changes what is compared with a text. -/
theorem compare_iff (h : rootPath ≠ "") :
    (rootPath ++ path = text ↔ path = text) ↔ rootPath ++ path ≠ text ∧ path ≠ text := by
  refine ⟨fun hiff => ?_, fun hne => iff_of_false hne.1 hne.2⟩
  by_cases hpath : path = text
  · exact absurd ((hiff.mpr hpath).trans hpath.symm) (append_ne_self h)
  · exact ⟨fun heq => hpath (hiff.mp heq), hpath⟩

theorem mcpMountRootRewrite_ne_iff :
    mcpMountRootRewrite (.http request) ≠ .http request ↔ request.path = "/mcp" := by
  rw [mcpMountRootRewrite]
  by_cases hpath : request.path = "/mcp"
  · rw [if_pos hpath]
    refine iff_of_true (fun heq => ?_) hpath
    injection heq with heq
    have hsame : "/mcp/" = request.path := congrArg Request.path heq
    rw [hpath] at hsame
    exact absurd hsame (by decide)
  · rw [if_neg hpath]
    exact iff_of_false (fun h => h rfl) hpath

theorem routed_under {routing : Starlette.Routing} (hroutes : routing.RemovesRootPaths request.path)
    (h : (request.under rootPath).path ≠ "/mcp") (h' : request.path ≠ "/mcp") :
    routed routing rootPath (mcpMountRootRewrite (.http (request.under rootPath))) =
      routed routing "" (mcpMountRootRewrite (.http request)) := by
  rw [mcpMountRootRewrite, mcpMountRootRewrite, if_neg h, if_neg h', routed, routed]
  have hempty : routing.getRoutePath "" request.path = request.path := by
    have hunder := hroutes ""
    rwa [String.empty_append] at hunder
  rw [Request.under, hroutes, hempty]

theorem opens_iff {re : Re} {pattern : String} :
    re.Opens pattern path ↔ ∃ m, re.compile pattern = .ok m ∧ m path = true := by
  rw [Re.Opens, Re.compile]
  split
  · simp
  · rfl

theorem opens_plain {re : Re} {patterns : List String}
    (hplain : ∀ pattern ∈ patterns, isPlain pattern = true) :
    (∃ pattern ∈ patterns, re.Opens pattern path) ↔
      ∃ pattern ∈ patterns, fits pattern.toList path.toList = true := by
  refine exists_congr fun pattern => and_congr_right fun hpattern => ?_
  rw [Re.Opens, if_pos (hplain pattern hpattern)]

theorem under_noRootPath : request.under "" = request := by
  rw [Request.under, String.empty_append]

section
variable {re : Re} {cfg : Configuration} {authentication : List Authenticator}
  {skipEndpoints : Option (List String)} {mw : Oauth2Middleware} {routing : Starlette.Routing}

theorem unaffected_noRootPath : Unaffected routing mw cfg "" request where
  rewrites := by rw [under_noRootPath]
  routes := by rw [under_noRootPath]
  skips := by rw [under_noRootPath]
  augments := by rw [under_noRootPath]

theorem skips_iff (h : Oauth2Middleware.init re cfg authentication skipEndpoints = .ok mw) :
    shouldSkipEndpoint (request.under rootPath).path mw.skipEndpoints =
        shouldSkipEndpoint request.path mw.skipEndpoints ↔
      ((∃ pattern ∈ skipPatterns cfg skipEndpoints, re.Opens pattern (rootPath ++ request.path)) ↔
        ∃ pattern ∈ skipPatterns cfg skipEndpoints, re.Opens pattern request.path) := by
  rw [Bool.eq_iff_iff, shouldSkip_iff h, shouldSkip_iff h]
  simp only [opens_iff]
  rfl

theorem mem_routesWithOpenapi :
    path ∈ routesWithOpenapi cfg ↔ path = cfg.fastgeoapiContext ++ "/openapi" :=
  List.mem_singleton

/-- A root path changes none of the decisions exactly when the path is none that they are about. -/
theorem unaffected_iff_indifferent (routing : Starlette.Routing)
    (h : Oauth2Middleware.init re cfg authentication skipEndpoints = .ok mw) (rootPath : String)
    (request : Request) (hroutes : routing.RemovesRootPaths request.path) :
    Unaffected routing mw cfg rootPath request ↔
      Indifferent re cfg skipEndpoints rootPath request.path := by
  constructor
  · intro hunaffected
    by_cases hroot : rootPath = ""
    · exact .noRootPath hroot
    · refine .rootPath ((compare_iff hroot).mp ?_) ((compare_iff hroot).mp ?_)
        ((skips_iff h).mp hunaffected.skips)
      · exact mcpMountRootRewrite_ne_iff.symm.trans
          (hunaffected.rewrites.trans mcpMountRootRewrite_ne_iff)
      · exact mem_routesWithOpenapi.symm.trans
          (hunaffected.augments.trans mem_routesWithOpenapi)
  · intro hindifferent
    cases hindifferent with
    | noRootPath hroot => exact hroot ▸ unaffected_noRootPath
    | rootPath hmcp hopenapi hpublic =>
      refine ⟨?_, routed_under hroutes hmcp.1 hmcp.2, (skips_iff h).mpr hpublic, ?_⟩
      · rw [mcpMountRootRewrite_ne_iff, mcpMountRootRewrite_ne_iff]
        exact iff_of_false hmcp.1 hmcp.2
      · rw [mem_routesWithOpenapi, mem_routesWithOpenapi]
        exact iff_of_false hopenapi.1 hopenapi.2

end
end

/-! ## A deployment under a version -/

def rootPathRequest (path : String) : Request where
  method := "GET"
  path := path
  headers := []

/-- Collections are no special path. -/
theorem collectionsRequest_unaffected :
    ∃ mw, Oauth2Middleware.init literalRe geoapiConfiguration [refusing] none = .ok mw ∧
      Unaffected literalRouting mw geoapiConfiguration "/v1"
        (rootPathRequest "/geoapi/collections") := by
  refine ⟨_, rfl, ?_⟩
  have hroutes : literalRouting.RemovesRootPaths "/geoapi/collections" := fun rootPath =>
    literalRouting_lawful.removesRootPath (.inr (by decide))
  apply (@unaffected_iff_indifferent literalRe geoapiConfiguration [refusing] none _ literalRouting
    rfl "/v1" (rootPathRequest "/geoapi/collections") hroutes).mpr
  have hplain : ∀ pattern ∈ skipPatterns geoapiConfiguration none, isPlain pattern = true := by
    decide
  refine .rootPath (by decide) (by decide) ?_
  rw [opens_plain hplain, opens_plain hplain]
  decide

/-- The document of the API is not public under a root path and is not augmented, and the MCP server
is not served without the slash. -/
theorem openapiRequest_affected :
    ∃ mw, Oauth2Middleware.init literalRe geoapiConfiguration [refusing] none = .ok mw ∧
      ¬Unaffected literalRouting mw geoapiConfiguration "/v1"
        (rootPathRequest "/geoapi/openapi") ∧
      ¬Unaffected literalRouting mw geoapiConfiguration "/v1" (rootPathRequest "/mcp") := by
  refine ⟨_, rfl, fun hunaffected => ?_, fun hunaffected => ?_⟩
  · exact absurd hunaffected.skips (by decide)
  · have hrewrites := hunaffected.rewrites
    rw [mcpMountRootRewrite_ne_iff, mcpMountRootRewrite_ne_iff] at hrewrites
    exact absurd hrewrites (by decide)

end FastGeoApi
