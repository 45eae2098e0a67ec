import FastGeoApi.Resolver.Sessions

/-!
# The resolver without a memory

`naiveResolveObject` is the resolver as it would be without its caches: it fetches the document at
every external reference. Where the remote side answers each URL the same way, the caching resolver
refines it: from sessions in relation (`Coherent`) the two do the same, step by step, and stay in
relation, whether they return or raise.
-/

namespace FastGeoApi

namespace Run

/-- From related sessions, both computations run out of fuel, or they end the same way and the
sessions are related again. -/
def Sim (R : Session → Session → Prop) (x y : Run α) : Prop :=
  ∀ s t, R s t → (x s = none ∧ y t = none) ∨
    ∃ r s' t', x s = some (r, s') ∧ y t = some (r, t') ∧ R s' t'

section
variable {R : Session → Session → Prop}

theorem Sim.pure {a : α} : Sim R (Pure.pure a : Run α) (Pure.pure a) :=
  fun s t h => .inr ⟨.ok a, s, t, rfl, rfl, h⟩

theorem Sim.lift {a : Except PyError α} : Sim R (Run.lift a) (Run.lift a) :=
  fun s t h => .inr ⟨a, s, t, rfl, rfl, h⟩

theorem Sim.outOfFuel : Sim R (Run.outOfFuel : Run α) Run.outOfFuel :=
  fun _ _ _ => .inl ⟨rfl, rfl⟩

theorem Sim.bind {x y : Run α} {f g : α → Run β} (h : Sim R x y) (hf : ∀ a, Sim R (f a) (g a)) :
    Sim R (x >>= f) (y >>= g) := by
  intro s t hst
  rw [bind_apply, bind_apply]
  rcases h s t hst with ⟨hx, hy⟩ | ⟨r, s', t', hx, hy, hst'⟩
  · rw [hx, hy]
    exact .inl ⟨rfl, rfl⟩
  · rw [hx, hy]
    cases r with
    | error e => exact .inr ⟨.error e, s', t', rfl, rfl, hst'⟩
    | ok a => exact hf a s' t' hst'

theorem Sim.mapVals {f g : PyVal → Run PyVal} (h : ∀ v, Sim R (f v) (g v))
    (items : List (PyKey × PyVal)) : Sim R (Run.mapVals f items) (Run.mapVals g items) := by
  induction items with
  | nil => exact .pure
  | cons kv items ih => exact (h kv.2).bind fun _ => ih.bind fun _ => .pure

theorem Sim.mapList {f g : PyVal → Run PyVal} (h : ∀ v, Sim R (f v) (g v)) (items : List PyVal) :
    Sim R (Run.mapList f items) (Run.mapList g items) := by
  induction items with
  | nil => exact .pure
  | cons v items ih => exact (h v).bind fun _ => ih.bind fun _ => .pure

end
end Run

/-! ## The naive resolver -/

def naiveResolveRef (w : World) (ref : String) (baseUrl : Option String) :
    Run (PyVal × String) := do
  let (absoluteUrl, fragment) ← Run.lift (splitRef ref baseUrl)
  let doc ← (if absoluteUrl ≠ "" then fetchRemoteDocument w absoluteUrl else pure (.dict []))
  let result ← Run.lift (navigateToFragment doc fragment)
  return (result, absoluteUrl)

def naiveResolveObject (w : World) : Nat → Option String → PyVal → Run PyVal
  | 0, _, _ => Run.outOfFuel
  | fuel + 1, baseUrl, .dict items =>
    match soleRef? items with
    | some (.str ref) =>
      if isExternal ref then do
        let (resolved, newBaseUrl) ← naiveResolveRef w ref baseUrl
        naiveResolveObject w fuel (some newBaseUrl) resolved
      else return .dict items
    | some _ => return .dict items
    | none => do
      return .dict (← Run.mapVals (naiveResolveObject w fuel baseUrl) items)
  | fuel + 1, baseUrl, .list items => do
    return .list (← Run.mapList (naiveResolveObject w fuel baseUrl) items)
  | _ + 1, _, obj => return obj

def naiveResolveExternalRefs (w : World) (fuel : Nat) (spec : PyVal) : Run PyVal :=
  naiveResolveObject w fuel none spec

/-! ## Answers of the remote side -/

/-- From the `n`-th request on, each URL is answered as `docs` has it. -/
def World.AnswersFrom (w : World) (n : Nat) (docs : Documents) : Prop :=
  ∀ m, n ≤ m → ∀ url, w.fetched m url = docs url

theorem World.AnswersFrom.request {w : World} {docs : Documents} {s : Session} {url : String}
    (h : w.AnswersFrom s.requests.length docs) :
    w.AnswersFrom (s.request url).requests.length docs := by
  intro m hm
  apply h
  rw [Session.request, List.length_append] at hm
  omega

/-- The memory of the first session holds what the remote side answers from now on to both. -/
structure Coherent (w : World) (docs : Documents) (s t : Session) : Prop where
  cache : CacheOf docs s
  answers : w.AnswersFrom s.requests.length docs
  answersNaive : w.AnswersFrom t.requests.length docs

/-! ## Refinement -/

section
variable {w : World} {docs : Documents} {ttl : Int}

theorem getDocument_sim (url : String) :
    Run.Sim (Coherent w docs) (getDocument w url none ttl) (fetchRemoteDocument w url) := by
  intro s t h
  have hnaive : fetchRemoteDocument w url t = some (docs url, t.request url) := by
    rw [fetchRemoteDocument_apply, h.answersNaive _ (Nat.le_refl _)]
  refine .inr ⟨docs url, ?_⟩
  unfold getDocument
  simp only [Run.bind_apply, Run.session]
  cases hmem : s.documentCache url with
  | some doc =>
    rw [h.cache url doc hmem] at hnaive ⊢
    exact ⟨s, t.request url, rfl, hnaive, h.cache, h.answers, h.answersNaive.request⟩
  | none =>
    have hmiss : PyVal.none.isNone = true := rfl
    have hfetch : fetchRemoteDocument w url s = some (docs url, s.request url) := by
      rw [fetchRemoteDocument_apply, h.answers _ (Nat.le_refl _)]
    simp only [Run.bind_apply, getDocument.cached, Run.pure_apply]
    rw [if_pos hmiss, Run.bind_apply, hfetch, hnaive]
    cases hdoc : docs url with
    | error e =>
      exact ⟨_, _, rfl, rfl, h.cache, h.answers.request, h.answersNaive.request⟩
    | ok doc =>
      have hcache : CacheOf docs (s.request url) := h.cache
      exact ⟨(s.request url).remember url doc, _, rfl, rfl, hcache.remember hdoc,
        h.answers.request, h.answersNaive.request⟩

theorem resolveRef_sim (ref : String) (base : Option String) :
    Run.Sim (Coherent w docs) (resolveRef w ref base none ttl) (naiveResolveRef w ref base) := by
  refine Run.Sim.lift.bind fun p => Run.Sim.bind ?_ fun doc => Run.Sim.lift.bind fun _ => .pure
  split
  · exact getDocument_sim _
  · exact .pure

theorem resolveObject_sim (fuel : Nat) (base : Option String) (v : PyVal) :
    Run.Sim (Coherent w docs) (resolveObject w none ttl fuel base v)
      (naiveResolveObject w fuel base v) := by
  induction fuel generalizing base v with
  | zero => exact .outOfFuel
  | succ fuel ih =>
    cases v with
    | dict items =>
      rw [resolveObject, naiveResolveObject]
      cases dictCase items with
      | external ref sole isExt =>
        simp only [sole, isExt, if_true]
        exact (resolveRef_sim ref base).bind fun p => ih (some p.2) p.1
      | keep v sole keep =>
        cases v with
        | str ref =>
          simp only [sole, keep ref rfl]
          exact .pure
        | _ =>
          simp only [sole]
          exact .pure
      | descend sole =>
        simp only [sole]
        exact (Run.Sim.mapVals (ih base) items).bind fun _ => .pure
    | list xs => exact (Run.Sim.mapList (ih base) xs).bind fun _ => .pure
    | _ => exact .pure

end

/-- Both computations run out of fuel, or they return the same value or raise the same exception and
the first one's cache still holds what the remote side answers. -/
def SameOutcome (docs : Documents) (x y : Option (Except PyError PyVal × Session)) : Prop :=
  (x = none ∧ y = none) ∨ ∃ r s' t', x = some (r, s') ∧ y = some (r, t') ∧ CacheOf docs s'

theorem resolver_refines_naive (w : World) (docs : Documents) (s : Session)
    (hw : w.AnswersFrom s.requests.length docs) (hcache : CacheOf docs s) (ttl : Int)
    (fuel : Nat) :
    (∀ base v, SameOutcome docs (resolveObject w none ttl fuel base v s)
      (naiveResolveObject w fuel base v s)) ∧
    ∀ spec, SameOutcome docs (resolveExternalRefs w fuel spec none ttl s)
      (naiveResolveExternalRefs w fuel spec s) := by
  have hsame : ∀ s', CacheOf docs s' → w.AnswersFrom s'.requests.length docs → ∀ base v,
      SameOutcome docs (resolveObject w none ttl fuel base v s')
        (naiveResolveObject w fuel base v s) := by
    intro s' hs' hw' base v
    rcases resolveObject_sim fuel base v s' s ⟨hs', hw', hw⟩ with hnone | ⟨r, s₁, t₁, hx, hy, h⟩
    · exact .inl hnone
    · exact .inr ⟨r, s₁, t₁, hx, hy, h.cache⟩
  refine ⟨hsame s hcache hw, fun spec => ?_⟩
  exact hsame { s with documentCache := fun _ => none } (fun _ _ h => nomatch h) hw none spec

def pointUrl : String := "https://example.com/point.yaml"

def pointStore : Store := [(pointUrl, .dict [(.str "type", .str "Point")])]

theorem pointStore_answersFrom (n : Nat) : pointStore.world.AnswersFrom n pointStore.documents := by
  intro m _ url
  exact congrFun pointStore.world_document url

/-- A session that has the document in memory already. -/
def pointSession : Session :=
  Session.start.remember pointUrl (.dict [(.str "type", .str "Point")])

theorem pointSession_cacheOf : CacheOf pointStore.documents pointSession := by
  have hstart : CacheOf pointStore.documents Session.start := fun _ _ h => nomatch h
  exact hstart.remember rfl

/-- The same document twice, and a URL that is not there. -/
def pointsSpec : PyVal :=
  .list [.dict [(.str "$ref", .str pointUrl)], .dict [(.str "$ref", .str pointUrl)],
    .dict [(.str "$ref", .str "https://example.com/line.yaml")]]

theorem pointsSpec_refines_naive :
    SameOutcome pointStore.documents
      (resolveObject pointStore.world none 86400 4 none pointsSpec pointSession)
      (naiveResolveObject pointStore.world 4 none pointsSpec pointSession) ∧
    SameOutcome pointStore.documents
      (resolveExternalRefs pointStore.world 4 pointsSpec none 86400 pointSession)
      (naiveResolveExternalRefs pointStore.world 4 pointsSpec pointSession) := by
  have h := resolver_refines_naive pointStore.world pointStore.documents pointSession
    (pointStore_answersFrom _) pointSession_cacheOf 86400 4
  exact ⟨h.1 none pointsSpec, h.2 pointsSpec⟩

/-- The naive resolver asks for the document twice, the other one once. -/
example :
    (resolveExternalRefs pointStore.world 4 pointsSpec none 86400 Session.start).map
        (fun x => x.2.requests) = some [pointUrl, "https://example.com/line.yaml"] ∧
      (naiveResolveExternalRefs pointStore.world 4 pointsSpec Session.start).map
        (fun x => x.2.requests) = some [pointUrl, pointUrl, "https://example.com/line.yaml"] :=
  ⟨rfl, rfl⟩

end FastGeoApi
