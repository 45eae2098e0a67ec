import FastGeoApi.Startup.Access

/-!
# Routing

Which requests get to the probes and to the MCP server, in an application with any of the kinds of
authentication, any context and any discovery routes. The context is mounted first, so it takes from
the MCP server what the two have in common.
-/

namespace FastGeoApi
open Layers

/-- The pages that FastAPI serves by default. -/
def docsPages : List String := ["/docs", "/redoc", "/openapi.json"]

/-- Where the packages put their routes. -/
structure Platform.Conventional (pf : Platform) : Prop where
  wellKnownRoutes {proxy : OidcProxy} {routes : List (Route Asgi)} {route : Route Asgi} :
    pf.wellKnownRoutes proxy = .ok routes → route ∈ routes →
      Str.startsWith route.path "/.well-known/" = true
  docsRoutes {route : BaseRoute Asgi} {request : Request} : route ∈ pf.docsRoutes →
    route.isMatch request = true → ∃ page ∈ docsPages, Str.startsWith request.path page = true

/-- Some paths are in the context and in the mount of the MCP server. -/
def ServerSettings.CoversMcp (cfg : ServerSettings) : Prop :=
  mountPrefix cfg.fastgeoapiContext <+: mountPrefix "/mcp" ∨
    mountPrefix "/mcp" <+: mountPrefix cfg.fastgeoapiContext

/-! ## The discovery routes -/

/-- A prefix that does not end with the character stays. -/
theorem Str.prefix_rstrip {c x : Char} {before cs : List Char} (h : before <+: cs)
    (hlast : before.getLast? = some x) (hne : x ≠ c) : before <+: Str.rstrip c cs := by
  obtain ⟨rest, rfl⟩ := h
  by_cases hrest : ∃ y ∈ rest, y ≠ c
  · rw [Str.rstrip_append_of_exists hrest]
    exact List.prefix_append _ _
  · have hall : ∀ y ∈ rest, y = c := fun y hy => by
      by_contra hyc
      exact hrest ⟨y, hy, hyc⟩
    have hkept : Str.rstrip c before = before := by
      refine List.rdropWhile_eq_self_iff.mpr fun hnonempty => ?_
      rw [List.getLast?_eq_some_getLast hnonempty, Option.some.injEq] at hlast
      rw [hlast, decide_eq_true_iff]
      exact hne
    rw [Str.rstrip_append_of_all hall, hkept]

/-- Two prefixes of one path that part are not both there. -/
theorem not_startsWith_of_prefix {before : List Char} {text path : String}
    (h : before <+: path.toList) (h₁ : ¬before <+: text.toList) (h₂ : ¬text.toList <+: before) :
    Str.startsWith path text = false := by
  rw [Bool.eq_false_iff, Ne, Str.startsWith_iff]
  intro htext
  exact (List.prefix_or_prefix_of_prefix h htext).elim h₁ h₂

section
variable {E : Type} {routing : Starlette.Routing} {routes mounted : List (BaseRoute E)}
  {wellKnownRoutes : List (Route E)} {request : Request}

theorem isMatch_base_of_startsWith (hrouting : routing.Lawful) {r : Route E} {text : String}
    (hline : '\n' ∉ request.path.toList) (hpath : text.toList <+: r.path.toList)
    (h : Str.startsWith request.path text = false) : (r.base routing).isMatch request = false := by
  rw [Bool.eq_false_iff, Ne, Str.startsWith_iff] at h
  rw [Bool.eq_false_iff]
  intro hmatch
  rw [((Route.isMatch_base hrouting hline).mp hmatch).1] at h
  exact h hpath

theorem firstMatch_cons_of_not {route : BaseRoute E} (h : route.isMatch request = false) :
    firstMatch (route :: routes) request = firstMatch routes request := by
  rw [firstMatch, List.find?_cons, h]
  rfl

theorem firstMatch_cons_of_isMatch {route : BaseRoute E} (h : route.isMatch request = true) :
    firstMatch (route :: routes) request = some route.endpoint := by
  rw [firstMatch, List.find?_cons, h]
  rfl

theorem firstMatch_append : firstMatch (routes ++ mounted) request =
    (firstMatch routes request).or (firstMatch mounted request) := by
  rw [firstMatch, firstMatch, firstMatch, List.find?_append]
  cases routes.find? (·.isMatch request) <;> rfl

/-- The discovery routes leave all other paths alone. -/
theorem firstMatch_mountWellKnown (hrouting : routing.Lawful)
    (h : mountWellKnown routing routes wellKnownRoutes = .ok mounted)
    (hwellKnown : ∀ r ∈ wellKnownRoutes, Str.startsWith r.path "/.well-known/" = true)
    (hline : '\n' ∉ request.path.toList)
    (hpath : Str.startsWith request.path "/.well-known" = false) :
    firstMatch mounted request = firstMatch routes request := by
  have hnot : ∀ r : Route E, "/.well-known".toList <+: r.path.toList →
      (r.base routing).isMatch request = false :=
    fun r hr => isMatch_base_of_startsWith hrouting hline hr hpath
  induction wellKnownRoutes generalizing routes with
  | nil =>
    cases h
    rfl
  | cons first rest ih =>
    obtain ⟨hfirst, hrest⟩ := List.forall_mem_cons.mp hwellKnown
    rw [Str.startsWith_iff] at hfirst
    have hnamed : "/.well-known".toList <+: first.path.toList :=
      List.IsPrefix.trans (by decide) hfirst
    rw [mountWellKnown] at h
    split at h
    · obtain ⟨slashless, hslashless, h⟩ := except_bind_ok.mp h
      have hpathOf := (Route.slashlessRoute_cases hslashless).1
      have hslashlessNamed : "/.well-known".toList <+: slashless.path.toList := by
        rw [hpathOf, String.toList_ofList (l := Str.rstrip '/' first.path.toList)]
        exact Str.prefix_rstrip (c := '/') (x := 'n') hnamed (by decide) (by decide)
      rw [ih h hrest, firstMatch_cons_of_not (hnot _ hslashlessNamed),
        firstMatch_cons_of_not (hnot _ hnamed)]
    · rw [ih h hrest, firstMatch_cons_of_not (hnot _ hnamed)]

end

/-! ## The routes of the application -/

section
variable {pf : Platform} {cfg : ServerSettings} {application : Application} {m : Moment}
  {request : Request}

def Application.mcpRoutes (pf : Platform) (application : Application) :
    List (BaseRoute Endpoint) :=
  if application.mcp.isSome then [mount pf "/mcp" .mcp] else []

/-- A request for no discovery route is routed as if there were none. -/
theorem firstMatch_routes (hpf : pf.Conventional) (hrouting : pf.routing.Lawful)
    (h : start pf cfg = .ok application) (hline : '\n' ∉ request.path.toList)
    (hpath : Str.startsWith request.path "/.well-known" = false) :
    firstMatch application.routes request = (firstMatch (appRoutes pf cfg) request).or
      (firstMatch (application.mcpRoutes pf) request) := by
  obtain ⟨mcp, hmcp, h⟩ := except_bind_ok.mp h
  obtain ⟨created, hcreated, h⟩ := except_bind_ok.mp h
  cases mcp with
  | none =>
    cases h
    exact Option.or_none.symm
  | some server =>
    obtain ⟨mounted, hmounted, h⟩ := except_bind_ok.mp h
    cases h
    have hserver : createMcpServer pf.toMcpPlatform cfg = .ok (some server) := by
      unfold startMcp at hmcp
      split at hmcp
      · exact hmcp
      · cases hmcp
    rw [firstMatch_append, firstMatch_mountWellKnown hrouting hmounted ?_ hline hpath]
    · rfl
    · intro route hroute
      obtain ⟨metadata, hmetadata, rfl⟩ := List.mem_map.mp hroute
      cases (createMcpServer_cases hserver).1 with
      | closed proxy _ _ _ hroutes => exact hpf.wellKnownRoutes hroutes hmetadata
      | opened _ hroutes _ =>
        rw [hroutes] at hmetadata
        cases hmetadata

/-- The routes of `create_app` itself. -/
def ownRoutes (pf : Platform) (cfg : ServerSettings) : List (BaseRoute Endpoint) :=
  [getRoute pf "/healthz" .healthz, getRoute pf "/readyz" .readyz,
    mount pf cfg.fastgeoapiContext .context]

/-- A request for no page of FastAPI is routed by the other routes. -/
theorem firstMatch_appRoutes (hpf : pf.Conventional)
    (hpath : ∀ page ∈ docsPages, Str.startsWith request.path page = false) :
    firstMatch (appRoutes pf cfg) request = firstMatch (ownRoutes pf cfg) request := by
  have hdocs : firstMatch (pf.docsRoutes.map fun route =>
      (⟨route.isMatch, .docs route.endpoint⟩ : BaseRoute Endpoint)) request = none := by
    rw [firstMatch, Option.map_eq_none_iff, List.find?_eq_none]
    intro route hroute hmatch
    obtain ⟨docs, hmem, rfl⟩ := List.mem_map.mp hroute
    obtain ⟨page, hpage, hstarts⟩ := hpf.docsRoutes hmem hmatch
    rw [hpath page hpage] at hstarts
    cases hstarts
  rw [appRoutes, firstMatch_append, hdocs, Option.none_or]
  rfl

theorem isMatch_mount (hrouting : pf.routing.Lawful) {path : String} {endpoint : Endpoint}
    (hliteral : LiteralPath path.toList) (hline : '\n' ∉ request.path.toList) :
    (mount pf path endpoint).isMatch request = true ↔ mountPrefix path <+: request.path.toList :=
  hrouting.mountMatches hliteral hline

theorem isMatch_getRoute (hrouting : pf.routing.Lawful) {path : String} {endpoint : Endpoint}
    (hliteral : LiteralPath path.toList) (hline : '\n' ∉ request.path.toList)
    (hpath : request.path ≠ path) : (getRoute pf path endpoint).isMatch request = false := by
  rw [Bool.eq_false_iff]
  exact fun hmatch => hpath ((hrouting.getMatches hliteral hline).mp hmatch).1

/-- The MCP server is given what is under its mount and not under the context. -/
theorem firstMatch_mcp (hpf : pf.Conventional) (hrouting : pf.routing.Lawful)
    (hcontext : LiteralPath cfg.fastgeoapiContext.toList) (h : start pf cfg = .ok application)
    (hpath : mountPrefix "/mcp" <+: request.path.toList) (hline : '\n' ∉ request.path.toList) :
    firstMatch application.routes request =
      if mountPrefix cfg.fastgeoapiContext <+: request.path.toList then some .context
      else firstMatch (application.mcpRoutes pf) request := by
  have hwellKnown : Str.startsWith request.path "/.well-known" = false :=
    not_startsWith_of_prefix hpath (by decide) (by decide)
  have hdocs : ∀ page ∈ docsPages, Str.startsWith request.path page = false := by
    have hparts : ∀ page ∈ docsPages, ¬mountPrefix "/mcp" <+: page.toList ∧
        ¬page.toList <+: mountPrefix "/mcp" := by decide
    intro page hpage
    exact not_startsWith_of_prefix hpath (hparts page hpage).1 (hparts page hpage).2
  have hprobes : ∀ probe ∈ ["/healthz", "/readyz"], request.path ≠ probe := by
    have hparts : ∀ probe ∈ ["/healthz", "/readyz"], ¬mountPrefix "/mcp" <+: probe.toList := by
      decide
    intro probe hprobe heq
    exact hparts probe hprobe (heq ▸ hpath)
  obtain ⟨hhealthz, hreadyz⟩ := List.forall_mem_cons.mp hprobes
  rw [List.forall_mem_singleton] at hreadyz
  rw [firstMatch_routes hpf hrouting h hline hwellKnown, firstMatch_appRoutes hpf hdocs, ownRoutes,
    firstMatch_cons_of_not (isMatch_getRoute hrouting (by decide) hline hhealthz),
    firstMatch_cons_of_not (isMatch_getRoute hrouting (by decide) hline hreadyz)]
  have hmatch : (mount pf cfg.fastgeoapiContext .context).isMatch request = true ↔
      mountPrefix cfg.fastgeoapiContext <+: request.path.toList :=
    isMatch_mount hrouting hcontext hline
  split
  · rename_i hunder
    rw [firstMatch_cons_of_isMatch (hmatch.mpr hunder)]
    rfl
  · rename_i hunder
    rw [firstMatch_cons_of_not (Bool.eq_false_iff.mpr fun hmount => hunder (hmatch.mp hmount))]
    rfl

/-- A request for a probe gets to the first probe of its path. -/
theorem firstMatch_probe (hpf : pf.Conventional) (hrouting : pf.routing.Lawful)
    (h : start pf cfg = .ok application) (request : Request)
    (hpath : request.path = "/healthz" ∨ request.path = "/readyz")
    (hmethod : request.method = "GET") :
    firstMatch application.routes request =
      some (if request.path = "/healthz" then .healthz else .readyz) := by
  have hparts : ∀ path ∈ ["/healthz", "/readyz"], '\n' ∉ path.toList ∧
      ∀ text ∈ "/.well-known" :: docsPages, Str.startsWith path text = false := by decide
  have hmem : request.path ∈ ["/healthz", "/readyz"] := by
    rw [List.mem_cons, List.mem_singleton]
    exact hpath
  obtain ⟨hline, hstarts⟩ := hparts _ hmem
  obtain ⟨hwellKnown, hdocs⟩ := List.forall_mem_cons.mp hstarts
  have hmatch : ∀ {path : String} {endpoint : Endpoint}, LiteralPath path.toList →
      request.path = path → (getRoute pf path endpoint).isMatch request = true :=
    fun hliteral heq => (hrouting.getMatches hliteral hline).mpr ⟨heq, hmethod⟩
  rw [firstMatch_routes hpf hrouting h hline hwellKnown, firstMatch_appRoutes hpf hdocs, ownRoutes]
  rcases hpath with hpath | hpath
  · rw [firstMatch_cons_of_isMatch (hmatch (by decide) hpath), if_pos hpath]
    rfl
  · have hne : request.path ≠ "/healthz" := by
      rw [hpath]
      decide
    rw [firstMatch_cons_of_not (isMatch_getRoute hrouting (by decide) hline hne),
      firstMatch_cons_of_isMatch (hmatch (by decide) hpath), if_neg hne]
    rfl

theorem endpoint_eq {request : Request} : application.endpoint pf cfg (.http request) =
    firstMatch application.routes
      { request with path := pf.routing.getRoutePath (cfg.rootPath.getD "") request.path } := rfl

theorem endpoint_under_mcp (hpf : pf.Conventional) (hrouting : pf.routing.Lawful)
    (hcontext : LiteralPath cfg.fastgeoapiContext.toList) (h : start pf cfg = .ok application)
    (request : Request) {path : String}
    (hpath : pf.routing.getRoutePath (cfg.rootPath.getD "") request.path = path)
    (hmount : mountPrefix "/mcp" <+: path.toList) (hline : '\n' ∉ path.toList) :
    application.endpoint pf cfg (.http request) =
      if mountPrefix cfg.fastgeoapiContext <+: path.toList then some .context
      else firstMatch (application.mcpRoutes pf) { request with path := path } := by
  subst hpath
  rw [endpoint_eq]
  exact firstMatch_mcp hpf hrouting hcontext h hmount hline

/-- A request whose path is not rewritten to another one is routed as it is. -/
theorem rewrite_of_ne (h : request.path ≠ "/mcp") :
    application.rewrite (.http request) = .http request := by
  rw [Application.rewrite]
  split
  · rw [mcpMountRootRewrite, if_neg h]
  · rfl

theorem router_eq {scope : Scope} {endpoint : Endpoint} (pygeoapi : Asgi)
    (h : application.endpoint pf cfg scope = some endpoint) :
    application.router pf cfg m pygeoapi scope =
      application.endpointLayer pf cfg m endpoint pygeoapi scope := by
  rw [Application.router, choose, h]
  rfl

theorem rewrite_of_length (h : "/mcp".toList.length < request.path.toList.length) :
    application.rewrite (.http request) = .http request := by
  refine rewrite_of_ne fun hpath => ?_
  rw [hpath] at h
  exact absurd h (Nat.lt_irrefl _)

end

/-! ## The probes -/

/-- A request path for the path: with the root path in front of it, or without. -/
def ServerSettings.IsAt (cfg : ServerSettings) (path requestPath : String) : Prop :=
  requestPath = cfg.rootPath.getD "" ++ path ∨ requestPath = path ∧ cfg.rootPath.getD "" ≠ path

/-- The request is answered with these messages, but for what the middlewares of FastAPI make of
them. -/
structure Application.Answers (pf : Platform) (cfg : ServerSettings) (application : Application)
    (m : Moment) (pygeoapi : Asgi) (request : Request) (messages : List Message) : Prop where
  serve : application.serve pf cfg m pygeoapi (.http request) =
    pf.outside (fun _ => .answered messages) (.http request)
  unreached : (application.serve pf cfg m pygeoapi (.http request)).Unreached

section
variable {pf : Platform} {cfg : ServerSettings} {application : Application} {m : Moment}
  {request : Request}

theorem getRoutePath_of_isAt (hrouting : pf.routing.Lawful) {path requestPath : String}
    (hpath : path ∈ ["/healthz", "/readyz"]) (h : cfg.IsAt path requestPath) :
    pf.routing.getRoutePath (cfg.rootPath.getD "") requestPath = path := by
  have hslash : ∀ path ∈ ["/healthz", "/readyz"], Str.startsWith path "/" = true ∧
      '/' ∉ path.toList.tail := by decide
  obtain ⟨hstarts, htail⟩ := hslash path hpath
  rcases h with rfl | ⟨rfl, hne⟩
  · exact hrouting.removesRootPath (.inr hstarts)
  · by_cases hroot : cfg.rootPath.getD "" = ""
    · have hremoved : pf.routing.getRoutePath "" ("" ++ requestPath) = requestPath :=
        hrouting.removesRootPath (.inr hstarts)
      rw [String.empty_append] at hremoved
      rw [hroot, hremoved]
    · refine hrouting.keepsOther fun rest hrest heq => ?_
      rcases hrest with rfl | hrest
      · exact hne (by rw [String.append_empty] at heq; exact heq.symm)
      · -- the only slash of the path is its first character
        have hlist := congrArg String.toList heq
        rw [String.toList_append] at hlist
        cases hcs : (cfg.rootPath.getD "").toList with
        | nil => exact hroot (String.toList_eq_nil_iff.mp hcs)
        | cons c cs =>
          rw [hcs, List.cons_append] at hlist
          rw [hlist, List.tail_cons] at htail
          have hhead := Route.startsWith_slash.mp hrest
          exact htail (List.mem_append_right _ (List.mem_of_mem_head? hhead))

theorem Platform.Lawful.answers (hpf : pf.Lawful) {pygeoapi : Asgi} {messages : List Message}
    (hrewrite : application.rewrite (.http request) = .http request)
    (h : application.router pf cfg m pygeoapi (.http request) = .answered messages) :
    application.Answers pf cfg m pygeoapi request messages := by
  have hserve : application.serve pf cfg m pygeoapi (.http request) =
      pf.outside (fun _ => .answered messages) (.http request) := by
    rw [Application.serve, hrewrite]
    rcases hpf.outside_passes (.http request) with hblocks | ⟨f, hf⟩
    · exact hblocks _ _
    · rw [hf, hf, h]
  refine ⟨hserve, ?_⟩
  rw [hserve]
  exact hpf.outside _ (fun _ => Served.unreached_answered) _

theorem Application.answers_of_endpoint (hpf : pf.Lawful) {endpoint : Endpoint}
    {messages : List Message} (pygeoapi : Asgi)
    (hlength : "/mcp".toList.length < request.path.toList.length)
    (hendpoint : application.endpoint pf cfg (.http request) = some endpoint)
    (hlayer : application.endpointLayer pf cfg m endpoint pygeoapi (.http request) =
      .answered messages) : application.Answers pf cfg m pygeoapi request messages :=
  hpf.answers (rewrite_of_length hlength) ((router_eq pygeoapi hendpoint).trans hlayer)

theorem lt_length_of_isAt {path requestPath : String} (hpath : path ∈ ["/healthz", "/readyz"])
    (h : cfg.IsAt path requestPath) : "/mcp".toList.length < requestPath.toList.length := by
  have hlong : ∀ path ∈ ["/healthz", "/readyz"], "/mcp".toList.length < path.toList.length := by
    decide
  rcases h with rfl | ⟨rfl, -⟩
  · rw [String.toList_append, List.length_append]
    exact Nat.lt_add_left _ (hlong path hpath)
  · exact hlong _ hpath

end

/-- Whatever the kind of authentication, the context, the root path and the discovery routes: the
probes are answered, without credentials and without pygeoapi. -/
theorem probes_answered (pf : Platform) (hlawful : pf.Lawful) (hpf : pf.Conventional)
    (hrouting : pf.routing.Lawful) (cfg : ServerSettings) (application : Application)
    (h : start pf cfg = .ok application) (m : Moment) (request : Request)
    (hmethod : request.method = "GET") (pygeoapi : Asgi) :
    (cfg.IsAt "/healthz" request.path → application.Answers pf cfg m pygeoapi request
      (pf.jsonResponse 200 (.dict [(.str "status", .str "ok")]))) ∧
    (cfg.IsAt "/readyz" request.path → application.Answers pf cfg m pygeoapi request
      (pf.jsonResponse (readyz m.file).1 (readyz m.file).2)) := by
  have hne : "/readyz" ≠ "/healthz" := by decide
  constructor
  · intro hpath
    have hendpoint : application.endpoint pf cfg (.http request) = some .healthz := by
      rw [endpoint_eq, getRoutePath_of_isAt hrouting (by decide) hpath]
      exact (firstMatch_probe hpf hrouting h { request with path := "/healthz" } (.inl rfl)
        hmethod).trans (congrArg some (if_pos rfl))
    exact Application.answers_of_endpoint hlawful pygeoapi (lt_length_of_isAt (by decide) hpath)
      hendpoint rfl
  · intro hpath
    have hendpoint : application.endpoint pf cfg (.http request) = some .readyz := by
      rw [endpoint_eq, getRoutePath_of_isAt hrouting (by decide) hpath]
      exact (firstMatch_probe hpf hrouting h { request with path := "/readyz" } (.inr rfl)
        hmethod).trans (congrArg some (if_neg hne))
    exact Application.answers_of_endpoint hlawful pygeoapi (lt_length_of_isAt (by decide) hpath)
      hendpoint rfl

theorem lakesPlatform_conventional : lakesPlatform.Conventional where
  wellKnownRoutes h hroute := by
    cases h
    rw [List.mem_singleton.mp hroute]
    rfl
  docsRoutes h := absurd h List.not_mem_nil

theorem lakesPlatform_probes : ∃ application, start lakesPlatform lakesSettings = .ok application ∧
    ∀ pygeoapi, application.serve lakesPlatform lakesSettings lakesMoment pygeoapi
        (.http ⟨"GET", "/healthz", []⟩) =
      .answered (lakesPlatform.jsonResponse 200 (.dict [(.str "status", .str "ok")])) :=
  ⟨_, rfl, fun pygeoapi => ((probes_answered lakesPlatform lakesPlatform_lawful
    lakesPlatform_conventional literalRouting_lawful lakesSettings _ rfl lakesMoment
    ⟨"GET", "/healthz", []⟩ rfl pygeoapi).1 (.inl rfl)).serve⟩

/-! ## The MCP server -/

/-- Every request under `/mcp/` gets to the MCP server, if and only if the context has no path in
common with it. -/
theorem mcp_reached_iff (pf : Platform) (hpf : pf.Conventional) (hrouting : pf.routing.Lawful)
    (cfg : ServerSettings) (hcontext : LiteralPath cfg.fastgeoapiContext.toList)
    (application : Application) (h : start pf cfg = .ok application)
    (hmcp : application.mcp.isSome = true) :
    (∀ request rewritten, application.rewrite (.http request) = .http rewritten →
      mountPrefix "/mcp" <+:
        (pf.routing.getRoutePath (cfg.rootPath.getD "") rewritten.path).toList →
      '\n' ∉ (pf.routing.getRoutePath (cfg.rootPath.getD "") rewritten.path).toList →
        application.endpoint pf cfg (.http rewritten) = some .mcp) ↔
    ¬cfg.CoversMcp := by
  constructor
  · intro hreached hcovers
    -- a path that both mounts are in front of
    obtain ⟨path, hmount, hunder, hline⟩ : ∃ path : List Char, mountPrefix "/mcp" <+: path ∧
        mountPrefix cfg.fastgeoapiContext <+: path ∧ '\n' ∉ path := by
      rcases hcovers with hcovers | hcovers
      · exact ⟨mountPrefix "/mcp", List.prefix_rfl, hcovers, by decide⟩
      · refine ⟨mountPrefix cfg.fastgeoapiContext, hcovers, List.prefix_rfl, fun hmem => ?_⟩
        rcases List.mem_append.mp hmem with hmem | hmem
        · exact (hcontext '\n' ((List.rdropWhile_prefix _ _).subset hmem)).2 rfl
        · exact absurd hmem (by decide)
    have hlist : (String.ofList path).toList = path := String.toList_ofList
    rw [← hlist] at hmount hunder hline
    have hslash : Str.startsWith (String.ofList path) "/" = true :=
      Str.startsWith_iff.mpr (List.IsPrefix.trans (by decide) hmount)
    have hrouted : pf.routing.getRoutePath (cfg.rootPath.getD "")
        (cfg.rootPath.getD "" ++ String.ofList path) = String.ofList path :=
      hrouting.removesRootPath (.inr hslash)
    let request : Request := ⟨"GET", cfg.rootPath.getD "" ++ String.ofList path, []⟩
    have hlength : "/mcp".toList.length < request.path.toList.length := by
      rw [String.toList_append, List.length_append]
      exact Nat.lt_add_left _ hmount.length_le
    have hendpoint := hreached request request (rewrite_of_length hlength) (hrouted ▸ hmount)
      (hrouted ▸ hline)
    rw [endpoint_under_mcp hpf hrouting hcontext h request hrouted hmount hline, if_pos hunder]
      at hendpoint
    cases hendpoint
  · intro hapart request rewritten _ hmount hline
    have hnot : ¬mountPrefix cfg.fastgeoapiContext <+:
        (pf.routing.getRoutePath (cfg.rootPath.getD "") rewritten.path).toList :=
      fun hunder => hapart (List.prefix_or_prefix_of_prefix hunder hmount)
    have hmcpRoutes : application.mcpRoutes pf = [mount pf "/mcp" .mcp] := if_pos hmcp
    rw [endpoint_under_mcp hpf hrouting hcontext h rewritten rfl hmount hline, if_neg hnot,
      hmcpRoutes]
    refine firstMatch_cons_of_isMatch ((isMatch_mount hrouting (by decide) ?_).mpr ?_)
    · exact hline
    · exact hmount

theorem lakesPlatform_mcp_reached :
    ∃ application, start lakesPlatform lakesSettings = .ok application ∧
      ∀ request rewritten, application.rewrite (.http request) = .http rewritten →
        mountPrefix "/mcp" <+: (literalRouting.getRoutePath "" rewritten.path).toList →
        '\n' ∉ (literalRouting.getRoutePath "" rewritten.path).toList →
          application.endpoint lakesPlatform lakesSettings (.http rewritten) = some .mcp := by
  have hapart : ¬lakesSettings.CoversMcp := by
    rw [ServerSettings.CoversMcp]
    decide
  have hliteral : LiteralPath lakesSettings.fastgeoapiContext.toList := by decide
  exact ⟨_, rfl, (mcp_reached_iff lakesPlatform lakesPlatform_conventional literalRouting_lawful
    lakesSettings hliteral _ rfl rfl).mpr hapart⟩

end FastGeoApi
