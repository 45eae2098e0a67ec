import FastGeoApi.Auth.Gate

/-!
# Which paths are public

A skipped path is let through without credentials. The patterns are the context and an endpoint, put
together as a regular expression that only has to match at the start, so more than the
documentation pages is skipped: everything that goes on after `/openapi`, `/docs` or `/redoc`, and
what the context matches when it is read as a pattern.
-/

namespace FastGeoApi

/-- A documentation page of the context, or something below one. -/
def DocumentationPath (context path : String) : Prop :=
  ∃ page ∈ defaultSkip, ∃ below : List Char,
    path.toList = context.toList ++ page.toList ++ below ∧ (below = [] ∨ below.head? = some '/')

/-- Only documentation is let through without an authenticator having returned a dict, and each
documentation page is let through without asking any. -/
structure OnlyDocumentationPublic (context path : String) (run : List Event × Except PyError Unit) :
    Prop where
  only : Event.app ∈ run.1 → (¬∃ claims, Event.authenticated (.ok (.dict claims)) ∈ run.1) →
    DocumentationPath context path
  pages : (∃ page ∈ defaultSkip, path = context ++ page) → run = ([.app], .ok ())

/-! ## Requests that are skipped -/

section
variable {re : Re} {cfg : Configuration} {authentication : List Authenticator}
  {skipEndpoints : Option (List String)} {mw : Oauth2Middleware} {request : Request}

theorem shouldSkip_iff (h : Oauth2Middleware.init re cfg authentication skipEndpoints = .ok mw)
    {path : String} :
    shouldSkipEndpoint path mw.skipEndpoints = true ↔
      re.Matches (skipPatterns cfg skipEndpoints) path := by
  obtain ⟨compiled, hcompiled, hmw⟩ := except_bind_ok.mp h
  cases hmw
  exact any_compiled hcompiled

theorem call_skipped (hskip : shouldSkipEndpoint request.path mw.skipEndpoints = true) :
    mw.call (.http request) = ([.app], .ok ()) := by
  rw [Oauth2Middleware.call]
  simp only [hskip, if_true, ite_self]

/-- The answer of the authenticator that admits the request is among the events. -/
theorem authLoop_asked {auths : List Authenticator} {userInfo : UserInfo}
    (h : Admitted auths request) :
    ∃ claims, Event.authenticated (.ok (.dict claims)) ∈ (authLoop request auths userInfo).1 := by
  induction auths generalizing userInfo with
  | nil => exact absurd h admitted_nil
  | cons auth auths ih =>
    rw [admitted_cons, Authenticator.Admits, Authenticator.Breaks] at h
    rw [authLoop]
    cases houtcome : auth.authenticate request with
    | ok v =>
      rw [houtcome] at h
      cases v with
      | dict claims => exact ⟨claims, List.mem_singleton_self _⟩
      | _ =>
        obtain ⟨claims, hmem⟩ := ih (by simpa using h)
        exact ⟨claims, List.mem_cons_of_mem _ hmem⟩
    | error e =>
      rw [houtcome] at h
      by_cases hcls : e.cls = .oauth2Error
      · obtain ⟨claims, hmem⟩ := ih (by simpa [hcls] using h)
        simp only [hcls, if_true]
        exact ⟨claims, List.mem_cons_of_mem _ hmem⟩
      · simp [hcls] at h

/-- A request that is not skipped is let in by an authenticator, or not at all. -/
theorem asked_of_app (hguarded : Guarded mw request)
    (h : Event.app ∈ (mw.call (.http request)).1) :
    ∃ claims, Event.authenticated (.ok (.dict claims)) ∈ (mw.call (.http request)).1 := by
  obtain ⟨asked, last, hevents, hasked, _, happ⟩ := call_events hguarded
  have hadmitted : Admitted mw.authentication request := by
    rw [hevents, List.mem_append] at h
    refine happ.mp (h.resolve_left fun hin => ?_)
    obtain ⟨outcome, houtcome⟩ := hasked _ hin
    cases houtcome
  obtain ⟨claims, hmem⟩ := authLoop_asked hadmitted
  refine ⟨claims, ?_⟩
  rw [call_guarded hguarded]
  revert hmem
  rcases authLoop request mw.authentication .unbound with ⟨events, _ | left⟩
  · exact id
  · exact List.mem_append_left _

/-- What is public is what the patterns match. -/
theorem onlyDocumentation_iff_matches
    (h : Oauth2Middleware.init re cfg authentication skipEndpoints = .ok mw)
    (hmethod : request.method ≠ "OPTIONS") {context : String} :
    OnlyDocumentationPublic context request.path (mw.call (.http request)) ↔
      (re.Matches (skipPatterns cfg skipEndpoints) request.path →
        DocumentationPath context request.path) ∧
      ((∃ page ∈ defaultSkip, request.path = context ++ page) →
        re.Matches (skipPatterns cfg skipEndpoints) request.path) := by
  rw [← shouldSkip_iff h]
  by_cases hskip : shouldSkipEndpoint request.path mw.skipEndpoints = true
  · have hcall : mw.call (.http request) = ([.app], .ok ()) := call_skipped hskip
    have hnone : ¬∃ claims, Event.authenticated (.ok (.dict claims)) ∈ [Event.app] := by simp
    rw [hcall]
    refine ⟨fun hpublic => ⟨fun _ => ?_, fun _ => hskip⟩,
      fun hpublic => ⟨fun _ _ => ?_, fun _ => rfl⟩⟩
    · exact hpublic.only (List.mem_singleton_self _) hnone
    · exact hpublic.1 hskip
  · have hguarded : Guarded mw request := ⟨hmethod, Bool.not_eq_true _ ▸ hskip⟩
    refine ⟨fun hpublic => ⟨fun h => absurd h hskip, fun hpage => ?_⟩,
      fun hpublic => ⟨fun happ hnone => ?_, fun hpage => absurd (hpublic.2 hpage) hskip⟩⟩
    · have hcall := hpublic.pages hpage
      have happ : Event.app ∈ (mw.call (.http request)).1 := by simp [hcall]
      obtain ⟨claims, hmem⟩ := asked_of_app hguarded happ
      simp [hcall] at hmem
    · exact absurd (asked_of_app hguarded happ) hnone

end

/-! ## Plain contexts -/

/-- The endpoints whose patterns the others are covered by. -/
def openEndpoints : List String := ["/openapi", "/docs", "/redoc"]

/-- What may follow an endpoint in the path of a documentation page. -/
def EndsPage (endpoint : String) (rest : List Char) : Prop :=
  (rest = [] ∨ rest.head? = some '/') ∨
    endpoint = "/openapi" ∧ ∃ below, rest = ".json".toList ++ below ∧
      (below = [] ∨ below.head? = some '/')

theorem isPlain_append {p q : String} : isPlain (p ++ q) = (isPlain p && isPlain q) := by
  rw [isPlain, String.toList_append, List.all_append, isPlain, isPlain]

theorem compile_page {re : Re} {context page : String} (hplain : isPlain context = true)
    (hpage : page ∈ defaultSkip) :
    re.compile (context ++ page) = .ok fun s => fits (context ++ page).toList s.toList := by
  have hpages : ∀ page ∈ defaultSkip, isPlain page = true := by decide
  rw [Re.compile, isPlain_append, hplain, hpages page hpage, Bool.and_self, if_pos rfl]

theorem openEndpoints_subset {endpoint : String} (h : endpoint ∈ openEndpoints) :
    endpoint ∈ defaultSkip := by
  revert endpoint
  decide

/-- Every page starts with one of the endpoints. -/
theorem page_covered {page : String} (h : page ∈ defaultSkip) :
    ∃ endpoint ∈ openEndpoints, ∃ more, page.toList = endpoint.toList ++ more := by
  simp only [defaultSkip, List.mem_cons, List.not_mem_nil, or_false] at h
  rcases h with rfl | rfl | rfl | rfl
  · exact ⟨"/openapi", by decide, [], rfl⟩
  · exact ⟨"/openapi", by decide, ".json".toList, rfl⟩
  · exact ⟨"/docs", by decide, [], rfl⟩
  · exact ⟨"/redoc", by decide, [], rfl⟩

/-- Behind a plain context the patterns match what starts with text that the context fits, followed
by an endpoint. -/
theorem matches_plain {re : Re} {context path : String} (hplain : isPlain context = true) :
    re.Matches (defaultSkip.map (context ++ ·)) path ↔
      ∃ endpoint ∈ openEndpoints, ∃ start rest, path.toList = start ++ endpoint.toList ++ rest ∧
        start.length = context.toList.length ∧ fits context.toList start = true := by
  constructor
  · intro hmatches
    obtain ⟨_, hpattern, m, hm, hmatch⟩ := hmatches
    obtain ⟨page, hpage, rfl⟩ := List.mem_map.mp hpattern
    obtain rfl := Except.ok.inj ((compile_page hplain hpage).symm.trans hm)
    rw [String.toList_append] at hmatch
    obtain ⟨start, tail, hpath, hlength, hstart, htail⟩ := fits_append.mp hmatch
    obtain ⟨endpoint, hendpoint, more, hmore⟩ := page_covered hpage
    rw [hmore] at htail
    obtain ⟨first, second, rfl, _, hfirst, _⟩ := fits_append.mp htail
    have hliteral : ∀ endpoint ∈ openEndpoints, '.' ∉ endpoint.toList := by decide
    obtain ⟨rest, hrest⟩ := (fits_literal (hliteral endpoint hendpoint)).mp hfirst
    refine ⟨endpoint, hendpoint, start, rest ++ second, ?_, hlength, hstart⟩
    rw [hpath, ← hrest, List.append_assoc, List.append_assoc]
  · intro hopen
    obtain ⟨endpoint, hendpoint, start, rest, hpath, hlength, hstart⟩ := hopen
    have hpage : endpoint ∈ defaultSkip := openEndpoints_subset hendpoint
    refine ⟨_, List.mem_map_of_mem hpage, _, compile_page hplain hpage, ?_⟩
    rw [String.toList_append, hpath, List.append_assoc, fits_append]
    exact ⟨start, endpoint.toList ++ rest, rfl, hlength, hstart, fits_self _ _⟩

/-- Each page of a plain context is matched. -/
theorem matches_page {re : Re} {context page : String} (hplain : isPlain context = true)
    (hpage : page ∈ defaultSkip) :
    re.Matches (defaultSkip.map (context ++ ·)) (context ++ page) := by
  refine ⟨_, List.mem_map_of_mem hpage, _, compile_page hplain hpage, ?_⟩
  have hself := fits_self (context ++ page).toList []
  rwa [List.append_nil] at hself

theorem documentationPath_iff {context path endpoint : String} {start rest : List Char}
    (hendpoint : endpoint ∈ openEndpoints) (hpath : path.toList = start ++ endpoint.toList ++ rest)
    (hlength : start.length = context.toList.length) :
    DocumentationPath context path ↔ start = context.toList ∧ EndsPage endpoint rest := by
  rw [DocumentationPath, hpath]
  simp only [List.append_assoc]
  constructor
  · intro hdocumentation
    obtain ⟨page, hpage, below, heq, hbelow⟩ := hdocumentation
    obtain ⟨hstart, htail⟩ := List.append_inj heq hlength
    refine ⟨hstart, ?_⟩
    simp only [defaultSkip, openEndpoints, List.mem_cons, List.not_mem_nil, or_false]
      at hpage hendpoint
    rcases hpage with rfl | rfl | rfl | rfl <;> rcases hendpoint with rfl | rfl | rfl <;>
      simp at htail
    · exact .inl (htail ▸ hbelow)
    · exact .inr ⟨rfl, below, htail, hbelow⟩
    · exact .inl (htail ▸ hbelow)
    · exact .inl (htail ▸ hbelow)
  · rintro ⟨rfl, hrest | ⟨rfl, below, rfl, hbelow⟩⟩
    · exact ⟨endpoint, openEndpoints_subset hendpoint, rest, rfl, hrest⟩
    · exact ⟨"/openapi.json", by decide, below, rfl, hbelow⟩

/-! ## When only documentation is public -/

/-- What must hold of a path for the gate to treat it right. Behind a plain context, wherever text
that the context fits and an endpoint come first, that text is the context itself and the path ends
there like one of a page. A context that is one of the four endpoints is not put in front of the
patterns. With other special characters in it, it depends on what they mean. -/
def Contained (re : Re) (context path : String) : Prop :=
  if context ∈ defaultSkip then
    (∃ endpoint ∈ openEndpoints, endpoint.toList <+: path.toList) → DocumentationPath context path
  else if isPlain context then
    ∀ endpoint ∈ openEndpoints, ∀ start rest, path.toList = start ++ endpoint.toList ++ rest →
      start.length = context.toList.length → fits context.toList start = true →
      start = context.toList ∧ EndsPage endpoint rest
  else
    (re.Matches (defaultSkip.map (context ++ ·)) path → DocumentationPath context path) ∧
      ((∃ page ∈ defaultSkip, path = context ++ page) →
        re.Matches (defaultSkip.map (context ++ ·)) path)

theorem matches_bare {re : Re} {path : String} :
    re.Matches defaultSkip path ↔
      ∃ endpoint ∈ openEndpoints, endpoint.toList <+: path.toList := by
  have hplain := @matches_plain re "" path rfl
  have hmap : defaultSkip.map ("" ++ ·) = defaultSkip := by decide
  rw [hmap] at hplain
  rw [hplain]
  constructor
  · intro hopen
    obtain ⟨endpoint, hendpoint, start, rest, hpath, hlength, _⟩ := hopen
    rw [List.length_eq_zero_iff.mp hlength, List.nil_append] at hpath
    exact ⟨endpoint, hendpoint, rest, hpath.symm⟩
  · intro hopen
    obtain ⟨endpoint, hendpoint, rest, hpath⟩ := hopen
    exact ⟨endpoint, hendpoint, [], rest, hpath.symm, rfl, rfl⟩

theorem onlyDocumentation_iff_contained {re : Re} {cfg : Configuration}
    {authentication : List Authenticator} {mw : Oauth2Middleware} {request : Request}
    (h : Oauth2Middleware.init re cfg authentication none = .ok mw)
    (hmethod : request.method ≠ "OPTIONS") :
    OnlyDocumentationPublic cfg.fastgeoapiContext request.path (mw.call (.http request)) ↔
      Contained re cfg.fastgeoapiContext request.path := by
  rw [onlyDocumentation_iff_matches h hmethod, Contained, skipPatterns]
  generalize cfg.fastgeoapiContext = context
  by_cases hdefault : context ∈ defaultSkip
  · simp only [hdefault, if_true]
    rw [matches_bare, and_iff_left]
    -- the context itself is at the front of its pages
    intro hpages
    obtain ⟨page, _, hpage⟩ := hpages
    obtain ⟨endpoint, hendpoint, more, hmore⟩ := page_covered hdefault
    refine ⟨endpoint, hendpoint, more ++ page.toList, ?_⟩
    rw [hpage, String.toList_append, hmore, List.append_assoc]
  · simp only [hdefault, if_false]
    by_cases hplain : isPlain context = true
    · simp only [hplain, if_true]
      rw [and_iff_left, matches_plain hplain]
      · constructor
        · intro hdocs endpoint hendpoint start rest hpath hlength hfits
          have hpath' := hdocs ⟨endpoint, hendpoint, start, rest, hpath, hlength, hfits⟩
          exact (documentationPath_iff hendpoint hpath hlength).mp hpath'
        · rintro hall ⟨endpoint, hendpoint, start, rest, hpath, hlength, hfits⟩
          have hends := hall endpoint hendpoint start rest hpath hlength hfits
          exact (documentationPath_iff hendpoint hpath hlength).mpr hends
      · intro hpages
        obtain ⟨page, hpage, heq⟩ := hpages
        rw [heq]
        exact matches_page hplain hpage
    · simp only [hplain, if_false, Bool.false_eq_true]

/-! ## A path next to the documentation -/

def literalRe : Re where
  special _ := .error ⟨.other "re.error", ""⟩

def geoapiConfiguration : Configuration where
  fastgeoapiContext := "/geoapi"
  pygeoapiSecurityScheme := none

/-- An authenticator that lets nobody in. -/
def refusing : Authenticator where
  isCoroutine := true
  authenticate _ := .error ⟨.oauth2Error, "Authentication error"⟩

def docsetsRequest : Request where
  method := "GET"
  path := "/geoapi/docsets/items"
  headers := []

theorem docsets_iff_contained :
    ∃ mw, Oauth2Middleware.init literalRe geoapiConfiguration [refusing] none = .ok mw ∧
      (OnlyDocumentationPublic "/geoapi" "/geoapi/docsets/items" (mw.call (.http docsetsRequest)) ↔
        Contained literalRe "/geoapi" "/geoapi/docsets/items") :=
  ⟨_, rfl, @onlyDocumentation_iff_contained literalRe geoapiConfiguration [refusing] _
    docsetsRequest rfl (by decide)⟩

/-- The endpoint `/docs`, followed by something that is not below it. -/
theorem docsets_not_documentation : ¬DocumentationPath "/geoapi" "/geoapi/docsets/items" := by
  have hpath : "/geoapi/docsets/items".toList =
      "/geoapi".toList ++ "/docs".toList ++ "ets/items".toList := rfl
  rw [documentationPath_iff (by decide) hpath rfl]
  simp [EndsPage]

/-- Nobody is asked about `/geoapi/docsets/items`. -/
theorem docsets_public :
    ∃ mw, Oauth2Middleware.init literalRe geoapiConfiguration [refusing] none = .ok mw ∧
      ¬OnlyDocumentationPublic "/geoapi" "/geoapi/docsets/items"
        (mw.call (.http docsetsRequest)) := by
  refine ⟨_, rfl, fun hpublic => docsets_not_documentation (hpublic.only ?_ ?_)⟩
  · rw [call_skipped (by decide)]
    exact List.mem_singleton_self _
  · rw [call_skipped (by decide)]
    simp

end FastGeoApi
