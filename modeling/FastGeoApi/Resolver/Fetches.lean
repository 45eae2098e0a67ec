import FastGeoApi.Resolver.Sessions
import Mathlib.Data.List.Chain

/-!
# One fetch for each document

`tracedResolveObject` is the resolver with a record of the calls of `_get_document` that it makes;
without the record it is the resolver. From one call to the next the in-memory cache only grows, so
a document that was fetched once is in memory whenever it is used again.
-/

namespace FastGeoApi

/-- A call of `_get_document`, and the sessions around it. -/
structure DocumentUse where
  url : String
  before : Session
  answer : Except PyError PyVal
  after : Session

/-- A computation with a record of the documents it uses. The record of a computation that runs out
of fuel goes as far as it came. -/
def Traced (α : Type) : Type := Session → List DocumentUse × Option (Except PyError α × Session)

namespace Traced

def silent (x : Run α) : Traced α := fun s => ([], x s)

instance : Monad Traced where
  pure a := silent (pure a)
  bind x f := fun s =>
    match x s with
    | (uses, none) => (uses, none)
    | (uses, some (.error e, s')) => (uses, some (.error e, s'))
    | (uses, some (.ok a, s')) => (uses ++ (f a s').1, (f a s').2)

def mapVals (f : PyVal → Traced PyVal) : List (PyKey × PyVal) → Traced (List (PyKey × PyVal))
  | [] => pure []
  | (k, v) :: kvs => do
    let v' ← f v
    let rest ← mapVals f kvs
    return (k, v') :: rest

def mapList (f : PyVal → Traced PyVal) : List PyVal → Traced (List PyVal)
  | [] => pure []
  | x :: xs => do
    let x' ← f x
    let rest ← mapList f xs
    return x' :: rest

/-- The computation without its record. -/
def run (x : Traced α) : Run α := fun s => (x s).2

@[simp] theorem run_silent (x : Run α) : (silent x).run = x := rfl

@[simp] theorem run_pure (a : α) : (pure a : Traced α).run = pure a := rfl

theorem bind_apply (x : Traced α) (f : α → Traced β) (s : Session) :
    (x >>= f) s = match x s with
      | (uses, none) => (uses, none)
      | (uses, some (.error e, s')) => (uses, some (.error e, s'))
      | (uses, some (.ok a, s')) => (uses ++ (f a s').1, (f a s').2) := rfl

@[simp] theorem run_bind (x : Traced α) (f : α → Traced β) :
    (x >>= f).run = x.run >>= fun a => (f a).run := by
  funext s
  rw [run, bind_apply, Run.bind_apply, run]
  match x s with
  | (uses, none) | (uses, some (.error e, s')) | (uses, some (.ok a, s')) => rfl

theorem run_mapVals {f : PyVal → Traced PyVal} (items : List (PyKey × PyVal)) :
    (mapVals f items).run = Run.mapVals (fun v => (f v).run) items := by
  induction items with
  | nil => rfl
  | cons kv items ih => simp only [mapVals, Run.mapVals, run_bind, run_pure, ih]

theorem run_mapList {f : PyVal → Traced PyVal} (items : List PyVal) :
    (mapList f items).run = Run.mapList (fun v => (f v).run) items := by
  induction items with
  | nil => rfl
  | cons v items ih => simp only [mapList, Run.mapList, run_bind, run_pure, ih]

end Traced

/-! ## The resolver with a record -/

def tracedGetDocument (w : World) (url : String) (diskCacheDir : Option String)
    (cacheTtlSeconds : Int) : Traced PyVal := fun s =>
  match getDocument w url diskCacheDir cacheTtlSeconds s with
  | none => ([], none)
  | some (answer, s') => ([⟨url, s, answer, s'⟩], some (answer, s'))

def tracedResolveRef (w : World) (ref : String) (baseUrl diskCacheDir : Option String)
    (cacheTtlSeconds : Int) : Traced (PyVal × String) := do
  let (absoluteUrl, fragment) ← Traced.silent (Run.lift (splitRef ref baseUrl))
  let doc ←
    (if absoluteUrl ≠ "" then tracedGetDocument w absoluteUrl diskCacheDir cacheTtlSeconds
    else pure (.dict []))
  let result ← Traced.silent (Run.lift (navigateToFragment doc fragment))
  return (result, absoluteUrl)

def tracedResolveObject (w : World) (diskCacheDir : Option String) (cacheTtlSeconds : Int) :
    Nat → Option String → PyVal → Traced PyVal
  | 0, _, _ => Traced.silent Run.outOfFuel
  | fuel + 1, baseUrl, .dict items =>
    match soleRef? items with
    | some (.str ref) =>
      if isExternal ref then do
        let (resolved, newBaseUrl) ← tracedResolveRef w ref baseUrl diskCacheDir cacheTtlSeconds
        tracedResolveObject w diskCacheDir cacheTtlSeconds fuel (some newBaseUrl) resolved
      else return .dict items
    | some _ => return .dict items
    | none => do
      let resolve := tracedResolveObject w diskCacheDir cacheTtlSeconds fuel baseUrl
      return .dict (← Traced.mapVals resolve items)
  | fuel + 1, baseUrl, .list items => do
    let resolve := tracedResolveObject w diskCacheDir cacheTtlSeconds fuel baseUrl
    return .list (← Traced.mapList resolve items)
  | _ + 1, _, obj => return obj

def tracedResolveExternalRefs (w : World) (fuel : Nat) (spec : PyVal) (cacheDir : Option String)
    (cacheTtlSeconds : Int) : Traced PyVal := do
  Traced.silent (Run.update fun s => { s with documentCache := fun _ => none })
  tracedResolveObject w cacheDir cacheTtlSeconds fuel none spec

section
variable {w : World} {dir : Option String} {ttl : Int}

theorem tracedGetDocument_run (url : String) :
    (tracedGetDocument w url dir ttl).run = getDocument w url dir ttl := by
  funext s
  rw [Traced.run, tracedGetDocument]
  match getDocument w url dir ttl s with
  | none | some (answer, s') => rfl

theorem tracedResolveRef_run (ref : String) (base : Option String) :
    (tracedResolveRef w ref base dir ttl).run = resolveRef w ref base dir ttl := by
  unfold tracedResolveRef resolveRef
  simp only [Traced.run_bind, Traced.run_silent, Traced.run_pure]
  congr 1
  funext p
  congr 1
  split
  · exact tracedGetDocument_run p.1
  · rfl

theorem tracedResolveObject_run (fuel : Nat) (base : Option String) (v : PyVal) :
    (tracedResolveObject w dir ttl fuel base v).run = resolveObject w dir ttl fuel base v := by
  induction fuel generalizing base v with
  | zero => rfl
  | succ fuel ih =>
    have hvals : (fun v => (tracedResolveObject w dir ttl fuel base v).run) =
        resolveObject w dir ttl fuel base := funext (ih base)
    cases v with
    | dict items =>
      rw [tracedResolveObject, resolveObject]
      cases dictCase items with
      | external ref sole isExt =>
        simp only [sole, isExt, if_true, Traced.run_bind, tracedResolveRef_run, ih]
      | keep v sole keep =>
        cases v with
        | str ref => simp only [sole, keep ref rfl, Bool.false_eq_true, if_false, Traced.run_pure]
        | _ => simp only [sole, Traced.run_pure]
      | descend sole =>
        simp only [sole, Traced.run_bind, Traced.run_mapVals, Traced.run_pure, hvals]
    | list xs =>
      rw [tracedResolveObject, resolveObject]
      simp only [Traced.run_bind, Traced.run_mapList, Traced.run_pure, hvals]
    | _ => rfl

theorem tracedResolveExternalRefs_run (fuel : Nat) (spec : PyVal) :
    (tracedResolveExternalRefs w fuel spec dir ttl).run =
      resolveExternalRefs w fuel spec dir ttl := by
  unfold tracedResolveExternalRefs resolveExternalRefs
  rw [Traced.run_bind, Traced.run_silent]
  simp only [tracedResolveObject_run]

end

/-! ## The record of a run -/

/-- The calls, one after the other, lead from session `s` to session `t`. -/
inductive Consecutive (w : World) (dir : Option String) (ttl : Int) :
    Session → List DocumentUse → Session → Prop where
  | nil : Consecutive w dir ttl s [] s
  | cons (hcall : getDocument w url dir ttl s = some (r, s'))
      (hrest : Consecutive w dir ttl s' uses t) :
    Consecutive w dir ttl s (⟨url, s, r, s'⟩ :: uses) t

theorem Consecutive.append (h : Consecutive w dir ttl s uses s')
    (h' : Consecutive w dir ttl s' uses' t) :
    Consecutive w dir ttl s (uses ++ uses') t := by
  induction h with
  | nil => exact h'
  | cons hcall _ ih => exact .cons hcall (ih h')

/-- The session changes in the recorded calls only. -/
def Traced.Recorded (w : World) (dir : Option String) (ttl : Int) (x : Traced α) : Prop :=
  ∀ s, ∃ t, Consecutive w dir ttl s (x s).1 t ∧ ∀ r s', (x s).2 = some (r, s') → s' = t

section
variable {w : World} {dir : Option String} {ttl : Int}

namespace Traced

theorem Recorded.pure {a : α} : Recorded w dir ttl (pure a : Traced α) := by
  intro s
  refine ⟨s, .nil, fun r s' h => ?_⟩
  cases h
  rfl

theorem Recorded.lift {a : Except PyError α} : Recorded w dir ttl (silent (Run.lift a)) := by
  intro s
  refine ⟨s, .nil, fun r s' h => ?_⟩
  cases h
  rfl

theorem Recorded.bind {x : Traced α} {f : α → Traced β} (hx : Recorded w dir ttl x)
    (hf : ∀ a, Recorded w dir ttl (f a)) : Recorded w dir ttl (x >>= f) := by
  intro s
  rw [bind_apply]
  obtain ⟨t, hconsec, hend⟩ := hx s
  match hxs : x s with
  | (uses, none) =>
    rw [hxs] at hconsec
    exact ⟨t, hconsec, fun _ _ h => nomatch h⟩
  | (uses, some (.error e, s₁)) =>
    rw [hxs] at hconsec hend
    refine ⟨t, hconsec, fun r s' h => ?_⟩
    cases h
    exact hend _ _ rfl
  | (uses, some (.ok a, s₁)) =>
    rw [hxs] at hconsec hend
    obtain ⟨t', hrest, hend'⟩ := hf a s₁
    rw [← hend _ _ rfl] at hconsec
    exact ⟨t', hconsec.append hrest, hend'⟩

theorem Recorded.mapVals {f : PyVal → Traced PyVal} (hf : ∀ v, Recorded w dir ttl (f v))
    (items : List (PyKey × PyVal)) : Recorded w dir ttl (mapVals f items) := by
  induction items with
  | nil => exact .pure
  | cons kv items ih => exact (hf kv.2).bind fun _ => ih.bind fun _ => .pure

theorem Recorded.mapList {f : PyVal → Traced PyVal} (hf : ∀ v, Recorded w dir ttl (f v))
    (items : List PyVal) : Recorded w dir ttl (mapList f items) := by
  induction items with
  | nil => exact .pure
  | cons v items ih => exact (hf v).bind fun _ => ih.bind fun _ => .pure

end Traced

theorem tracedGetDocument_recorded (url : String) :
    (tracedGetDocument w url dir ttl).Recorded w dir ttl := by
  intro s
  unfold tracedGetDocument
  match hcall : getDocument w url dir ttl s with
  | none => exact ⟨s, .nil, fun _ _ h => nomatch h⟩
  | some (answer, s') =>
    refine ⟨s', .cons hcall .nil, fun r s'' h => ?_⟩
    cases h
    rfl

theorem tracedResolveRef_recorded (ref : String) (base : Option String) :
    (tracedResolveRef w ref base dir ttl).Recorded w dir ttl := by
  refine Traced.Recorded.lift.bind fun p => Traced.Recorded.bind ?_ fun doc =>
    Traced.Recorded.lift.bind fun _ => .pure
  split
  · exact tracedGetDocument_recorded _
  · exact .pure

theorem tracedResolveObject_recorded (fuel : Nat) (base : Option String) (v : PyVal) :
    (tracedResolveObject w dir ttl fuel base v).Recorded w dir ttl := by
  induction fuel generalizing base v with
  | zero => exact fun s => ⟨s, .nil, fun _ _ h => nomatch h⟩
  | succ fuel ih =>
    cases v with
    | dict items =>
      rw [tracedResolveObject]
      split
      · split
        · exact (tracedResolveRef_recorded _ _).bind fun p => ih _ _
        · exact .pure
      · exact .pure
      · exact (Traced.Recorded.mapVals (ih base) items).bind fun _ => .pure
    | list xs => exact (Traced.Recorded.mapList (ih base) xs).bind fun _ => .pure
    | _ => exact .pure

end

theorem tracedResolveExternalRefs_consecutive {w : World} {dir : Option String} {ttl : Int}
    (fuel : Nat) (spec : PyVal) (s : Session) :
    ∃ t, Consecutive w dir ttl { s with documentCache := fun _ => none }
        (tracedResolveExternalRefs w fuel spec dir ttl s).1 t ∧
      ∀ r s', (tracedResolveExternalRefs w fuel spec dir ttl s).2 = some (r, s') → s' = t := by
  have hrecorded : (tracedResolveObject w dir ttl fuel none spec).Recorded w dir ttl :=
    tracedResolveObject_recorded fuel none spec
  exact hrecorded _

/-! ## What a call may do -/

/-- The effect of `_get_document` on the in-memory cache and on the requests: the document is there,
it cannot be had from the disk cache, it is had from there, it cannot be fetched, it is fetched. -/
inductive DocumentEffect (w : World) (url : String) (s : Session) :
    Except PyError PyVal → Session → Prop where
  | memory (hmem : s.documentCache url = some doc) : DocumentEffect w url s (.ok doc) s
  | broken (hmem : s.documentCache url = none) (hcache : s'.documentCache = s.documentCache)
      (hreq : s'.requests = s.requests) : DocumentEffect w url s (.error e) s'
  | disk (hmem : s.documentCache url = none)
      (hcache : s'.documentCache = (s.remember url doc).documentCache)
      (hreq : s'.requests = s.requests) : DocumentEffect w url s (.ok doc) s'
  | failed (hmem : s.documentCache url = none)
      (hdoc : w.fetched s.requests.length url = .error e)
      (hcache : s'.documentCache = s.documentCache) (hreq : s'.requests = s.requests ++ [url]) :
      DocumentEffect w url s (.error e) s'
  | fetched (hmem : s.documentCache url = none) (hdoc : w.fetched s.requests.length url = .ok doc)
      (hcache : s'.documentCache = (s.remember url doc).documentCache)
      (hreq : s'.requests = s.requests ++ [url]) (hanswer : ∀ doc', r = .ok doc' → doc' = doc) :
      DocumentEffect w url s r s'

theorem DocumentCall.effect {w : World} {url dir : String} {ttl : Int} {s s' : Session}
    {r : Except PyError PyVal} (h : DocumentCall w url dir ttl s r s') :
    DocumentEffect w url s r s' := by
  have hclock : ∀ {a s₁}, readFromCache w url dir ttl s = some (a, s₁) → OnlyClock s s₁ :=
    fun hread => readFromCache_within w url dir ttl s _ _ hread
  cases h with
  | memory hmem => exact .memory hmem
  | broken hmem hread =>
    obtain ⟨n, rfl⟩ := hclock hread
    exact .broken hmem rfl rfl
  | disk hmem hread hdoc =>
    obtain ⟨n, rfl⟩ := hclock hread
    exact .disk hmem rfl rfl
  | failed hmem hread hmiss hdoc =>
    obtain ⟨n, rfl⟩ := hclock hread
    exact .failed hmem hdoc rfl rfl
  | @fetched _ _ doc r _ hmem hread hmiss hdoc hwrite =>
    obtain ⟨n, rfl⟩ := hclock hread
    have hframe := hwrite.frame
    refine .fetched hmem hdoc hframe.documentCache hframe.requests fun doc' h => ?_
    cases r with
    | error e => cases h
    | ok => exact (Except.ok.inj h).symm

theorem getDocument_effect_of_memory (w : World) (url : String) (ttl : Int) (s : Session) :
    ∃ r s', getDocument w url none ttl s = some (r, s') ∧ DocumentEffect w url s r s' := by
  unfold getDocument
  simp only [Run.bind_apply, Run.session]
  cases hmem : s.documentCache url with
  | some doc => exact ⟨_, _, rfl, .memory hmem⟩
  | none =>
    have hmiss : PyVal.none.isNone = true := rfl
    simp only [Run.bind_apply, getDocument.cached, Run.pure_apply]
    rw [if_pos hmiss, Run.bind_apply, fetchRemoteDocument_apply]
    cases hfetch : w.fetched s.requests.length url with
    | error e => exact ⟨_, _, rfl, .failed hmem hfetch rfl rfl⟩
    | ok doc =>
      refine ⟨.ok doc, _, rfl, .fetched hmem hfetch rfl rfl fun doc' h => ?_⟩
      cases h
      rfl

theorem getDocument_effect {w : World} {url : String} {dir : Option String} {ttl : Int}
    {s s' : Session} {r : Except PyError PyVal} (h : getDocument w url dir ttl s = some (r, s')) :
    DocumentEffect w url s r s' := by
  cases dir with
  | none =>
    obtain ⟨_, _, hcall, heffect⟩ := getDocument_effect_of_memory w url ttl s
    cases hcall.symm.trans h
    exact heffect
  | some dir =>
    obtain ⟨_, _, hcall, hstep⟩ := getDocument_call w url dir ttl s
    cases hcall.symm.trans h
    exact hstep.effect

/-! ## Each document once -/

/-- What is in memory in the first session is there, the same, in the second. -/
def CacheKept (s t : Session) : Prop :=
  ∀ url doc, s.documentCache url = some doc → t.documentCache url = some doc

theorem CacheKept.refl (s : Session) : CacheKept s s := fun _ _ h => h

theorem CacheKept.trans {s s' s'' : Session} (h : CacheKept s s') (h' : CacheKept s' s'') :
    CacheKept s s'' :=
  fun url doc hmem => h' url doc (h url doc hmem)

instance : Trans CacheKept CacheKept CacheKept := ⟨CacheKept.trans⟩

theorem CacheKept.of_eq {s t : Session} (h : t.documentCache = s.documentCache) : CacheKept s t :=
  fun _ _ hmem => h ▸ hmem

theorem CacheKept.remember {s t : Session} (hmem : s.documentCache url = none)
    (h : t.documentCache = (s.remember url doc).documentCache) : CacheKept s t := by
  intro other doc' hother
  have hne : other ≠ url := by
    rintro rfl
    rw [hmem] at hother
    cases hother
  rw [h, Session.remember_other hne]
  exact hother

namespace DocumentUse

/-- The call made a request, and the fetch succeeded. -/
def Fetched (w : World) (u : DocumentUse) : Prop :=
  u.after.requests ≠ u.before.requests ∧
    ∃ doc, w.fetched u.before.requests.length u.url = .ok doc

/-- The sessions that the call leads from and to. -/
def sessions (u : DocumentUse) : List Session := [u.before, u.after]

end DocumentUse

/-- The law of the in-memory cache for a call that starts in session `s`, makes these uses of
documents and ends in session `t`. -/
structure FetchedOnce (w : World) (s : Session) (uses : List DocumentUse) (t : Session) : Prop where
  /-- Nothing is requested but the document that is used. -/
  requests : ∀ u ∈ uses,
    u.after.requests = u.before.requests ∨ u.after.requests = u.before.requests ++ [u.url]
  /-- After a successful fetch of a document there is no request of it. -/
  once : uses.Pairwise fun u v =>
    v.url = u.url → u.Fetched w → v.after.requests = v.before.requests
  /-- An entry of the cache stays in all later sessions. -/
  kept : (s :: uses.flatMap DocumentUse.sessions ++ [t]).Pairwise CacheKept
  /-- A document that is used is the entry of its URL. -/
  stored : ∀ u ∈ uses, ∀ doc, u.answer = .ok doc → t.documentCache u.url = some doc

namespace DocumentEffect
variable {w : World} {url : String} {s s' : Session} {r : Except PyError PyVal}

theorem requests (h : DocumentEffect w url s r s') :
    s'.requests = s.requests ∨ s'.requests = s.requests ++ [url] := by
  cases h with
  | memory => exact .inl rfl
  | broken _ _ hreq => exact .inl hreq
  | disk _ _ hreq => exact .inl hreq
  | failed _ _ _ hreq => exact .inr hreq
  | fetched _ _ _ hreq => exact .inr hreq

theorem kept (h : DocumentEffect w url s r s') : CacheKept s s' := by
  cases h with
  | memory => exact .refl s
  | broken _ hcache => exact .of_eq hcache
  | disk hmem hcache => exact .remember hmem hcache
  | failed _ _ hcache => exact .of_eq hcache
  | fetched hmem _ hcache => exact .remember hmem hcache

theorem stored (h : DocumentEffect w url s r s') (hr : r = .ok doc) :
    s'.documentCache url = some doc := by
  cases h with
  | memory hmem =>
    cases hr
    exact hmem
  | broken => cases hr
  | disk _ hcache =>
    cases hr
    rw [hcache, Session.remember_self]
  | failed => cases hr
  | fetched _ _ hcache _ hanswer => rw [hcache, Session.remember_self, hanswer doc hr]

/-- A document that is in memory is not requested. -/
theorem silent (h : DocumentEffect w url s r s') (hmem : s.documentCache url = some doc) :
    s'.requests = s.requests := by
  cases h with
  | memory => rfl
  | broken hnone | disk hnone | failed hnone | fetched hnone =>
    rw [hnone] at hmem
    cases hmem

/-- A document that was fetched is in memory. -/
theorem remembered (h : DocumentEffect w url s r s') (hreq : s'.requests ≠ s.requests)
    (hdoc : w.fetched s.requests.length url = .ok doc) : s'.documentCache url = some doc := by
  cases h with
  | memory => exact absurd rfl hreq
  | broken _ _ heq => exact absurd heq hreq
  | disk _ _ heq => exact absurd heq hreq
  | failed _ herr =>
    rw [herr] at hdoc
    cases hdoc
  | fetched _ hdoc' hcache =>
    rw [hdoc'] at hdoc
    cases hdoc
    rw [hcache, Session.remember_self]

end DocumentEffect

section
variable {w : World} {dir : Option String} {ttl : Int} {s t : Session} {uses : List DocumentUse}

theorem Consecutive.effect (h : Consecutive w dir ttl s uses t) :
    ∀ u ∈ uses, DocumentEffect w u.url u.before u.answer u.after := by
  induction h with
  | nil => exact fun u hu => absurd hu List.not_mem_nil
  | cons hcall _ ih =>
    intro u hu
    rcases List.mem_cons.mp hu with rfl | hu
    · exact getDocument_effect hcall
    · exact ih u hu

theorem Consecutive.kept (h : Consecutive w dir ttl s uses t) :
    (s :: uses.flatMap DocumentUse.sessions ++ [t]).Pairwise CacheKept := by
  rw [← List.isChain_iff_pairwise]
  induction h with
  | nil => exact .cons_cons (.refl _) (.singleton _)
  | cons hcall _ ih => exact .cons_cons (.refl _) (.cons_cons (getDocument_effect hcall).kept ih)

/-- The document in memory after a use is the one in memory at each later use, and at the end. -/
theorem Consecutive.mem_kept (h : Consecutive w dir ttl s uses t)
    (hmem : s.documentCache url = some doc) :
    (∀ u ∈ uses, u.before.documentCache url = some doc) ∧ t.documentCache url = some doc := by
  have hkept := List.pairwise_cons.mp h.kept
  refine ⟨fun u hu => hkept.1 u.before ?_ url doc hmem, hkept.1 t (by simp) url doc hmem⟩
  have hsession : u.before ∈ uses.flatMap DocumentUse.sessions :=
    List.mem_flatMap.mpr ⟨u, hu, List.mem_cons_self⟩
  exact List.mem_append_left _ hsession

theorem Consecutive.once (h : Consecutive w dir ttl s uses t) : uses.Pairwise fun u v =>
    v.url = u.url → u.Fetched w → v.after.requests = v.before.requests := by
  induction h with
  | nil => exact .nil
  | cons hcall hrest ih =>
    refine .cons (fun v hv hurl ⟨hreq, doc, hdoc⟩ => ?_) ih
    have hmem := (getDocument_effect hcall).remembered hreq hdoc
    have hbefore : v.before.documentCache v.url = some doc := by
      rw [hurl]
      exact (hrest.mem_kept hmem).1 v hv
    exact (hrest.effect v hv).silent hbefore

theorem Consecutive.stored (h : Consecutive w dir ttl s uses t) :
    ∀ u ∈ uses, ∀ doc, u.answer = .ok doc → t.documentCache u.url = some doc := by
  induction h with
  | nil => exact fun u hu => absurd hu List.not_mem_nil
  | cons hcall hrest ih =>
    intro u hu doc hanswer
    rcases List.mem_cons.mp hu with rfl | hu
    · exact (hrest.mem_kept ((getDocument_effect hcall).stored hanswer)).2
    · exact ih u hu doc hanswer

theorem Consecutive.fetchedOnce (h : Consecutive w dir ttl s uses t) : FetchedOnce w s uses t where
  requests u hu := (h.effect u hu).requests
  once := h.once
  kept := h.kept
  stored := h.stored

end

/-- During one call no document is requested after a successful fetch of it, and the document that
a reference is resolved in is the one entry that the call has for its URL. -/
theorem resolveExternalRefs_fetchedOnce (w : World) (dir : Option String) (ttl : Int) (fuel : Nat)
    (spec : PyVal) (s : Session) :
    let call := tracedResolveExternalRefs w fuel spec dir ttl s
    let start := { s with documentCache := fun _ => none }
    call.2 = resolveExternalRefs w fuel spec dir ttl s ∧
      ∃ t, Consecutive w dir ttl start call.1 t ∧ (∀ r s', call.2 = some (r, s') → s' = t) ∧
        FetchedOnce w start call.1 t := by
  intro call start
  obtain ⟨t, hconsec, hend⟩ := tracedResolveExternalRefs_consecutive fuel spec s
  exact ⟨congrFun (tracedResolveExternalRefs_run fuel spec) s, t, hconsec, hend,
    hconsec.fetchedOnce⟩

end FastGeoApi
