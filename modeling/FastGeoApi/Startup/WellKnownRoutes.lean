import FastGeoApi.Starlette

/-!
# The well-known routes

The loop of `app/main.py` that puts the discovery routes of the MCP server in front of the routes of
the application, and with each path that ends with a slash an alias without it. Paths are the ones
that the router compares, that is without the root path.
-/

namespace FastGeoApi

/-- A `Route` of Starlette, for a path without parameters. `methods` is empty where it has none. -/
structure Route (E : Type) where
  path : String
  endpoint : E
  methods : List String
  literal : LiteralPath path.toList

/-- A route of `app.router`, by the requests that it is a full match of. -/
structure BaseRoute (E : Type) where
  isMatch : Request → Bool
  endpoint : E

namespace Route

section
variable {E : Type}

def serves (r : Route E) (method : String) : Bool := servesMethod r.methods method

def base (routing : Starlette.Routing) (r : Route E) : BaseRoute E where
  isMatch request := routing.routeMatches r.path r.methods request.path request.method
  endpoint := r.endpoint

theorem literalPath_rstrip (r : Route E) :
    LiteralPath (String.ofList (Str.rstrip '/' r.path.toList)).toList := by
  rw [String.toList_ofList]
  exact fun c hc => r.literal c ((List.rdropWhile_prefix _ _).subset hc)

/-- The route is what `Route(path, endpoint, methods=methods)` returns for some methods. -/
structure Made (routing : Starlette.Routing) (r : Route E) : Prop where
  checkPath : routing.checkPath r.path = .ok ()
  methods : ∃ methods, r.methods = routing.routeMethods methods

/-- The route that serves the path without its slashes at the end. -/
def slashlessRoute (routing : Starlette.Routing) (r : Route E) : Except PyError (Route E) := do
  let path := String.ofList (Str.rstrip '/' r.path.toList)
  routing.checkPath path
  return ⟨path, r.endpoint, routing.routeMethods r.methods, r.literalPath_rstrip⟩

/-- The path of the alias. -/
def slashless (r : Route E) : Option String :=
  if Str.endsWith r.path "/" then some (String.ofList (Str.rstrip '/' r.path.toList)) else none

end
end Route

section
variable {E : Type} (routing : Starlette.Routing)

/-- The mounting loop, on `app.router.routes`. All that fastmcp returns is a `Route`. -/
def mountWellKnown (routes : List (BaseRoute E)) :
    List (Route E) → Except PyError (List (BaseRoute E))
  | [] => .ok routes
  | route :: rest =>
    if Str.endsWith route.path "/" then do
      let slashlessRoute ← Route.slashlessRoute routing route
      mountWellKnown (slashlessRoute.base routing :: route.base routing :: routes) rest
    else mountWellKnown (route.base routing :: routes) rest

/-- The endpoint of the first match. -/
def firstMatch (routes : List (BaseRoute E)) (request : Request) : Option E :=
  (routes.find? (·.isMatch request)).map (·.endpoint)

/-- The paths that a route of the list is to answer: its own, and the one without the slash when no
route of the list has that. -/
def Owns (wellKnownRoutes : List (Route E)) (r : Route E) (path : String) : Prop :=
  path = r.path ∨ r.slashless = some path ∧ path ∉ wellKnownRoutes.map Route.path

/-- The loop comes to its end, and what a route of the list is to answer is answered by its own
endpoint. -/
def Undisturbed (routes : List (BaseRoute E)) (wellKnownRoutes : List (Route E)) : Prop :=
  ∃ mounted, mountWellKnown routing routes wellKnownRoutes = .ok mounted ∧
    ∀ r ∈ wellKnownRoutes, ∀ request, Owns wellKnownRoutes r request.path →
      r.serves request.method → firstMatch mounted request = some r.endpoint

/-- No path is made of slashes only, and the aliases of the later routes leave the paths of a route
alone: of those that have the path and serve the method, the last has the endpoint of the route. -/
structure Unshadowed {E : Type} (wellKnownRoutes : List (Route E)) : Prop where
  named : ∀ r ∈ wellKnownRoutes, ∃ c ∈ r.path.toList, c ≠ '/'
  last {before after : List (Route E)} {r : Route E} :
    wellKnownRoutes = before ++ r :: after →
    ∀ path, Owns wellKnownRoutes r path → ∀ method, r.serves method →
    ∀ r' ∈ (after.filter fun r' => r'.slashless = some path ∧ r'.serves method).getLast?,
      r'.endpoint = r.endpoint

end

namespace Route

section
variable {E : Type} {r : Route E} {path : String} {routing : Starlette.Routing}

theorem startsWith_slash {s : String} :
    Str.startsWith s "/" = true ↔ s.toList.head? = some '/' := by
  rw [Str.startsWith_iff]
  exact List.singleton_prefix_iff_head?_eq_some

/-- A literal path matches itself only. -/
theorem isMatch_base (hrouting : routing.Lawful) {request : Request}
    (hpath : '\n' ∉ request.path.toList) : (r.base routing).isMatch request = true ↔
      request.path = r.path ∧ r.serves request.method = true :=
  hrouting.routeMatches r.literal hpath

theorem slashlessRoute_of_named (hrouting : routing.Lawful) (hmade : r.Made routing)
    (h : ∃ c ∈ r.path.toList, c ≠ '/') :
    ∃ route, r.slashlessRoute routing = .ok route ∧
      route.path = String.ofList (Str.rstrip '/' r.path.toList) ∧
      route.endpoint = r.endpoint ∧ ∀ method, route.serves method = r.serves method := by
  have hne : Str.rstrip '/' r.path.toList ≠ [] := by
    obtain ⟨c, hc, hslash⟩ := h
    intro hnil
    exact hslash (of_decide_eq_true (List.rdropWhile_eq_nil_iff.mp hnil c hc))
  have hrooted : Str.startsWith (String.ofList (Str.rstrip '/' r.path.toList)) "/" = true := by
    rw [startsWith_slash, String.toList_ofList]
    obtain ⟨rest, hrest⟩ : Str.rstrip '/' r.path.toList <+: r.path.toList :=
      List.rdropWhile_prefix _ _
    have hhead := startsWith_slash.mp (hrouting.checkPath.mp hmade.checkPath)
    rw [← hrest, List.head?_append_of_ne_nil _ hne] at hhead
    exact hhead
  obtain ⟨methods, hmethods⟩ := hmade.methods
  refine ⟨⟨_, r.endpoint, routing.routeMethods r.methods, r.literalPath_rstrip⟩, ?_, rfl, rfl,
    fun method => ?_⟩
  · rw [slashlessRoute, hrouting.checkPath.mpr hrooted]
    rfl
  · rw [serves, serves, hmethods]
    exact hrouting.servesMethod_methods methods method

theorem slashlessRoute_of_slashes (hrouting : routing.Lawful) (h : ∀ c ∈ r.path.toList, c = '/') :
    ∃ e, r.slashlessRoute routing = .error e := by
  have hnil : Str.rstrip '/' r.path.toList = [] :=
    List.rdropWhile_eq_nil_iff.mpr fun c hc => decide_eq_true (h c hc)
  cases hcheck : routing.checkPath (String.ofList (Str.rstrip '/' r.path.toList)) with
  | error e =>
    refine ⟨e, ?_⟩
    rw [slashlessRoute, hcheck]
    rfl
  | ok _ =>
    rw [hnil] at hcheck
    exact absurd (hrouting.checkPath.mp hcheck) (by decide)

theorem slashlessRoute_cases {route : Route E} (h : r.slashlessRoute routing = .ok route) :
    route.path = String.ofList (Str.rstrip '/' r.path.toList) ∧ route.endpoint = r.endpoint := by
  obtain ⟨_, _, hroute⟩ := except_bind_ok.mp h
  cases hroute
  exact ⟨rfl, rfl⟩

/-- The requests that are a match of the route or of its alias. -/
def answers (r : Route E) (request : Request) : Bool :=
  (request.path = r.path || r.slashless = some request.path) && r.serves request.method

theorem literalPath_of_owns {wellKnownRoutes : List (Route E)} (h : Owns wellKnownRoutes r path) :
    LiteralPath path.toList := by
  rcases h with rfl | ⟨hslashless, -⟩
  · exact r.literal
  · unfold slashless at hslashless
    split at hslashless
    · cases hslashless
      exact r.literalPath_rstrip
    · cases hslashless

end
end Route

section
variable {E : Type} {routing : Starlette.Routing} {routes : List (BaseRoute E)}
  {wellKnownRoutes : List (Route E)} {request : Request}

theorem not_mem_of_literalPath {path : List Char} (h : LiteralPath path) : '\n' ∉ path :=
  fun hmem => (h _ hmem).2 rfl

theorem firstMatch_base (hrouting : routing.Lawful) {r : Route E}
    (hpath : '\n' ∉ request.path.toList) :
    firstMatch (r.base routing :: routes) request =
      if request.path = r.path ∧ r.serves request.method then some r.endpoint
      else firstMatch routes request := by
  have hmatch := Route.isMatch_base (r := r) hrouting hpath
  rw [firstMatch, List.find?_cons]
  split
  · rw [if_pos (hmatch.mp ‹_›)]
    rfl
  · rw [if_neg fun h => Bool.false_ne_true (‹_ = false›.symm.trans (hmatch.mpr h)), firstMatch]

/-- One round of the loop puts the answers of the route and of its alias in front. -/
theorem mountWellKnown_cons (hrouting : routing.Lawful) (routes : List (BaseRoute E))
    (wellKnownRoutes : List (Route E)) {r : Route E} (hmade : r.Made routing)
    (hnamed : ∃ c ∈ r.path.toList, c ≠ '/') :
    ∃ routes', mountWellKnown routing routes (r :: wellKnownRoutes) =
        mountWellKnown routing routes' wellKnownRoutes ∧
      ∀ request, '\n' ∉ request.path.toList → firstMatch routes' request =
        if r.answers request then some r.endpoint else firstMatch routes request := by
  rw [mountWellKnown]
  by_cases hslash : Str.endsWith r.path "/" = true
  · obtain ⟨route, hroute, hpath, hendpoint, hserves⟩ :=
      Route.slashlessRoute_of_named hrouting hmade hnamed
    rw [if_pos hslash, hroute]
    refine ⟨_, rfl, fun request hrequest => ?_⟩
    rw [firstMatch_base hrouting hrequest, firstMatch_base hrouting hrequest, hpath, hendpoint,
      hserves, Route.answers, Route.slashless, if_pos hslash]
    by_cases hserved : r.serves request.method = true
    · simp only [hserved, Bool.and_true, and_true, Option.some.injEq, Bool.or_eq_true,
        decide_eq_true_iff]
      by_cases hown : request.path = r.path
      · simp [hown]
      · simp [hown, eq_comm]
    · simp [hserved]
  · rw [if_neg hslash]
    refine ⟨_, rfl, fun request hrequest => ?_⟩
    rw [firstMatch_base hrouting hrequest, Route.answers, Route.slashless, if_neg hslash]
    simp

theorem mountWellKnown_of_named (hrouting : routing.Lawful) (routes : List (BaseRoute E))
    (hmade : ∀ r ∈ wellKnownRoutes, r.Made routing)
    (hnamed : ∀ r ∈ wellKnownRoutes, ∃ c ∈ r.path.toList, c ≠ '/') :
    ∃ mounted, mountWellKnown routing routes wellKnownRoutes = .ok mounted ∧
      ∀ request, '\n' ∉ request.path.toList → firstMatch mounted request =
        match (wellKnownRoutes.filter (·.answers request)).getLast? with
        | some r => some r.endpoint
        | none => firstMatch routes request := by
  induction wellKnownRoutes generalizing routes with
  | nil => exact ⟨routes, rfl, fun request _ => rfl⟩
  | cons r rest ih =>
    obtain ⟨routes', hround, hfirst⟩ := mountWellKnown_cons hrouting routes rest
      (hmade r List.mem_cons_self) (hnamed r List.mem_cons_self)
    obtain ⟨mounted, hmounted, hlast⟩ :=
      ih routes' (fun r' hr' => hmade r' (List.mem_cons_of_mem _ hr'))
        (fun r' hr' => hnamed r' (List.mem_cons_of_mem _ hr'))
    refine ⟨mounted, hround.trans hmounted, fun request hrequest => ?_⟩
    rw [hlast request hrequest, hfirst request hrequest, List.filter_cons]
    cases hanswers : r.answers request with
    | false => rfl
    | true =>
      simp only [if_true, List.getLast?_cons]
      cases (rest.filter (·.answers request)).getLast? <;> rfl

theorem mountWellKnown_of_slashes (hrouting : routing.Lawful) (routes : List (BaseRoute E))
    (wellKnownRoutes : List (Route E)) {r : Route E} (hmade : r.Made routing)
    (h : ∀ c ∈ r.path.toList, c = '/') :
    ∃ e, mountWellKnown routing routes (r :: wellKnownRoutes) = .error e := by
  have hends : Str.endsWith r.path "/" = true := by
    have hne : r.path.toList ≠ [] := by
      intro hnil
      have hhead := Route.startsWith_slash.mp (hrouting.checkPath.mp hmade.checkPath)
      rw [hnil] at hhead
      cases hhead
    rw [Str.endsWith_iff]
    refine ⟨r.path.toList.dropLast, ?_⟩
    have hlast : r.path.toList.getLast hne = '/' := h _ (List.getLast_mem hne)
    exact (congrArg (r.path.toList.dropLast ++ [·]) hlast).symm.trans
      (List.dropLast_append_getLast hne)
  obtain ⟨e, he⟩ := Route.slashlessRoute_of_slashes hrouting h
  rw [mountWellKnown, if_pos hends, he]
  exact ⟨e, rfl⟩

theorem named_of_mountWellKnown (hrouting : routing.Lawful)
    (hmade : ∀ r ∈ wellKnownRoutes, r.Made routing) {mounted : List (BaseRoute E)}
    (h : mountWellKnown routing routes wellKnownRoutes = .ok mounted) :
    ∀ r ∈ wellKnownRoutes, ∃ c ∈ r.path.toList, c ≠ '/' := by
  induction wellKnownRoutes generalizing routes with
  | nil => exact nofun
  | cons first rest ih =>
    have hfirst := hmade first List.mem_cons_self
    have hnamed : ∃ c ∈ first.path.toList, c ≠ '/' := by
      by_contra hnot
      push Not at hnot
      obtain ⟨e, he⟩ := mountWellKnown_of_slashes hrouting routes rest hfirst hnot
      rw [he] at h
      cases h
    obtain ⟨routes', hround, -⟩ := mountWellKnown_cons hrouting routes rest hfirst hnamed
    intro r hr
    rcases List.mem_cons.mp hr with rfl | hr
    · exact hnamed
    · exact ih (fun r' hr' => hmade r' (List.mem_cons_of_mem _ hr')) (hround.symm.trans h) r hr

/-- The last answer to what the route is to answer is the route's own, or an alias of a later route
has the path. -/
theorem getLast?_answers {before after : List (Route E)} {r : Route E}
    (hdistinct : (wellKnownRoutes.map Route.path).Nodup)
    (hsplit : wellKnownRoutes = before ++ r :: after)
    (howns : Owns wellKnownRoutes r request.path) (hserves : r.serves request.method) :
    (wellKnownRoutes.filter (·.answers request)).getLast? =
      (after.filter fun r' =>
        r'.slashless = some request.path ∧ r'.serves request.method).getLast?.or (some r) := by
  have hself : r.answers request = true := by
    rw [Route.answers, hserves]
    rcases howns with hpath | ⟨hslashless, -⟩
    · simp [hpath]
    · simp [hslashless]
  have hlater : ∀ r' ∈ after, r'.answers request =
      decide (r'.slashless = some request.path ∧ r'.serves request.method) := by
    intro r' hr'
    have hpath : request.path ≠ r'.path := by
      rcases howns with hpath | ⟨-, hnone⟩
      · rw [hsplit, List.map_append, List.map_cons] at hdistinct
        have hnodup := (List.nodup_append.mp hdistinct).2.1
        rw [hpath]
        exact fun heq => (List.nodup_cons.mp hnodup).1 (heq ▸ List.mem_map_of_mem hr')
      · intro heq
        apply hnone
        rw [heq, hsplit]
        exact List.mem_map_of_mem (List.mem_append_right _ (List.mem_cons_of_mem _ hr'))
    simp [Route.answers, hpath]
  rw [hsplit, List.filter_append, List.filter_cons, if_pos hself, List.filter_congr hlater,
    List.getLast?_append, List.getLast?_cons]
  cases (after.filter fun r' =>
    r'.slashless = some request.path ∧ r'.serves request.method).getLast? <;> rfl

/-- The routes are undisturbed exactly when no alias shadows one of them. -/
theorem undisturbed_iff_unshadowed (routing : Starlette.Routing) (hrouting : routing.Lawful)
    (routes : List (BaseRoute E)) (wellKnownRoutes : List (Route E))
    (hmade : ∀ r ∈ wellKnownRoutes, r.Made routing)
    (hdistinct : (wellKnownRoutes.map Route.path).Nodup) :
    Undisturbed routing routes wellKnownRoutes ↔ Unshadowed wellKnownRoutes := by
  constructor
  · rintro ⟨mounted, hmounted, hown⟩
    have hnamed := named_of_mountWellKnown hrouting hmade hmounted
    refine ⟨hnamed, fun {before after r} hsplit path howns method hserves r' hr' => ?_⟩
    obtain ⟨mounted', hmounted', hfirst⟩ := mountWellKnown_of_named hrouting routes hmade hnamed
    cases hmounted.symm.trans hmounted'
    have hr : r ∈ wellKnownRoutes := hsplit ▸ List.mem_append_right _ List.mem_cons_self
    have hanswer := hown r hr ⟨method, path, []⟩ howns hserves
    rw [hfirst _ (not_mem_of_literalPath (Route.literalPath_of_owns howns)),
      getLast?_answers hdistinct hsplit howns hserves, Option.mem_def.mp hr'] at hanswer
    exact Option.some.inj hanswer
  · rintro ⟨hnamed, hlast⟩
    obtain ⟨mounted, hmounted, hfirst⟩ := mountWellKnown_of_named hrouting routes hmade hnamed
    refine ⟨mounted, hmounted, fun r hr request howns hserves => ?_⟩
    obtain ⟨before, after, hsplit⟩ := List.append_of_mem hr
    rw [hfirst _ (not_mem_of_literalPath (Route.literalPath_of_owns howns)),
      getLast?_answers hdistinct hsplit howns hserves]
    cases hshadow : (after.filter fun r' =>
        r'.slashless = some request.path ∧ r'.serves request.method).getLast? with
    | none => rfl
    | some r' => exact congrArg some (hlast hsplit _ howns _ hserves r' hshadow)

end

/-! ## The routes of a protected resource -/

/-- A route for metadata, with a number for its endpoint. -/
def metadataRoute (path : String) (endpoint : Nat) (literal : LiteralPath path.toList) :
    Route Nat where
  path := path
  endpoint := endpoint
  methods := ["HEAD", "GET", "OPTIONS"]
  literal := literal

theorem metadataRoute_made {path : String} {endpoint : Nat} {literal : LiteralPath path.toList}
    (h : Str.startsWith path "/" = true) :
    (metadataRoute path endpoint literal).Made literalRouting :=
  ⟨literalRouting_lawful.checkPath.mpr h, ["GET", "OPTIONS"], rfl⟩

def serverRoute : Route Nat :=
  metadataRoute "/.well-known/oauth-authorization-server/mcp" 0 (by decide)

def slashRoute : Route Nat :=
  metadataRoute "/.well-known/oauth-protected-resource/mcp/" 1 (by decide)

def bareRoute : Route Nat :=
  metadataRoute "/.well-known/oauth-protected-resource/mcp" 2 (by decide)

/-- The metadata of the resource is served with and without the slash. -/
theorem metadataRoutes_undisturbed : Undisturbed literalRouting [] [serverRoute, slashRoute] := by
  have hmade : ∀ r ∈ [serverRoute, slashRoute], r.Made literalRouting := by
    intro r hr
    rcases List.mem_cons.mp hr with rfl | hr
    · exact metadataRoute_made (by decide)
    · cases List.mem_singleton.mp hr
      exact metadataRoute_made (by decide)
  refine (undisturbed_iff_unshadowed literalRouting literalRouting_lawful []
    [serverRoute, slashRoute] hmade (by decide)).mpr ⟨?_, ?_⟩
  · intro r hr
    rcases List.mem_cons.mp hr with rfl | hr
    · exact ⟨'.', by decide, by decide⟩
    · cases List.mem_singleton.mp hr
      exact ⟨'.', by decide, by decide⟩
  · intro before after r hsplit path howns method _ r' hr'
    obtain ⟨hafter, hshadow⟩ := List.mem_filter.mp (List.mem_of_getLast? hr')
    have hslashless : r'.slashless = some path := (of_decide_eq_true hshadow).1
    cases before with
    | nil =>
      -- the alias is not at the path of the first route, which has no alias
      cases hsplit
      cases List.mem_singleton.mp hafter
      rcases howns with rfl | ⟨halias, -⟩
      · exact absurd hslashless (by decide)
      · exact absurd halias (by rw [Route.slashless, if_neg (by decide)]; exact nofun)
    | cons first before =>
      have hnil : after = [] := by
        have hlength := congrArg List.length hsplit
        simp only [List.cons_append, List.length_cons, List.length_append, List.length_nil]
          at hlength
        exact List.length_eq_zero_iff.mp (by omega)
      rw [hnil] at hafter
      cases hafter

/-- The alias of the later route takes the requests of the earlier one. -/
theorem bareRoute_disturbed :
    literalRouting.Lawful ∧ (∀ r ∈ [bareRoute, slashRoute], r.Made literalRouting) ∧
      ([bareRoute, slashRoute].map Route.path).Nodup ∧
        ¬Undisturbed literalRouting [] [bareRoute, slashRoute] := by
  refine ⟨literalRouting_lawful, fun r hr => ?_, by decide, ?_⟩
  · rcases List.mem_cons.mp hr with rfl | hr
    · exact metadataRoute_made (by decide)
    · cases List.mem_singleton.mp hr
      exact metadataRoute_made (by decide)
  rintro ⟨mounted, hmounted, hown⟩
  have hwinner : ∃ mounted,
      mountWellKnown literalRouting [] [bareRoute, slashRoute] = .ok mounted ∧
      firstMatch mounted ⟨"GET", bareRoute.path, []⟩ = some slashRoute.endpoint :=
    ⟨_, rfl, by decide⟩
  obtain ⟨mounted', hmounted', hwinner⟩ := hwinner
  cases hmounted.symm.trans hmounted'
  have hanswer := hown bareRoute List.mem_cons_self ⟨"GET", bareRoute.path, []⟩ (.inl rfl)
    (by decide)
  rw [hwinner] at hanswer
  exact absurd hanswer (by decide)

end FastGeoApi
