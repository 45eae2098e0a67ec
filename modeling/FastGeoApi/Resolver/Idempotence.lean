import FastGeoApi.Resolver.Inlining
import FastGeoApi.Resolver.Sessions

/-!
# Resolving a result again

What a run returns is settled: wherever the resolver comes by on it, it finds nothing to look up.
A settled value is returned as it is, without a request, whatever the remote side is by then.
-/

namespace FastGeoApi

inductive Settled : PyVal → Prop where
  | leaf (h : v.isLeaf = true) : Settled v
  | keep (sole : soleRef? items = some v)
      (keep : ∀ ref, v = .str ref → isExternal ref = false) : Settled (.dict items)
  | descend (sole : soleRef? items = none) (h : ∀ kv ∈ items, Settled kv.2) :
    Settled (.dict items)
  | list (h : ∀ x ∈ xs, Settled x) : Settled (.list xs)

/-! ## Runs that return -/

section
variable {w : World} {dir : Option String} {ttl : Int} {base : Option String} {v o : PyVal}
  {s s' : Session} {k : Nat}

theorem mapVals_itemwise {P : PyVal → PyVal → Prop} {f : PyVal → Run PyVal}
    (hf : ∀ v s o s', f v s = some (.ok o, s') → P v o) {items items' : List (PyKey × PyVal)}
    (h : Run.mapVals f items s = some (.ok items', s')) : Itemwise P items items' := by
  induction items generalizing items' s with
  | nil =>
    cases h
    exact .nil
  | cons kv items ih =>
    obtain ⟨o, s₁, ho, h⟩ := Run.bind_eq_ok.mp h
    obtain ⟨rest, s₂, hrest, h⟩ := Run.bind_eq_ok.mp h
    obtain ⟨rfl, rfl⟩ := Run.pure_eq_ok.mp h
    exact .cons ⟨rfl, hf _ _ _ _ ho⟩ (ih hrest)

theorem mapList_forall₂ {P : PyVal → PyVal → Prop} {f : PyVal → Run PyVal}
    (hf : ∀ v s o s', f v s = some (.ok o, s') → P v o) {xs ys : List PyVal}
    (h : Run.mapList f xs s = some (.ok ys, s')) : List.Forall₂ P xs ys := by
  induction xs generalizing ys s with
  | nil =>
    cases h
    exact .nil
  | cons x xs ih =>
    obtain ⟨o, s₁, ho, h⟩ := Run.bind_eq_ok.mp h
    obtain ⟨rest, s₂, hrest, h⟩ := Run.bind_eq_ok.mp h
    obtain ⟨rfl, rfl⟩ := Run.pure_eq_ok.mp h
    exact .cons (hf _ _ _ _ ho) (ih hrest)

/-- Rule induction for the runs that return, over whatever the remote side answers. -/
theorem resolveObject_induction {P : PyVal → PyVal → Prop}
    (leaf : ∀ {v}, v.isLeaf = true → P v v)
    (keep : ∀ {items v}, soleRef? items = some v →
      (∀ ref, v = .str ref → isExternal ref = false) → P (.dict items) (.dict items))
    (external : ∀ {items ref v o}, soleRef? items = some (.str ref) → isExternal ref = true →
      P v o → P (.dict items) o)
    (descend : ∀ {items items'}, soleRef? items = none → Itemwise P items items' →
      P (.dict items) (.dict items'))
    (list : ∀ {xs ys}, List.Forall₂ P xs ys → P (.list xs) (.list ys))
    (h : resolveObject w dir ttl k base v s = some (.ok o, s')) : P v o := by
  induction k generalizing base v s o s' with
  | zero => cases h
  | succ k ih =>
    have hrest : ∀ base v s o s', resolveObject w dir ttl k base v s = some (.ok o, s') → P v o :=
      fun base v s o s' h => ih h
    cases v with
    | dict items =>
      cases dictCase items with
      | external ref sole isExt =>
        simp only [resolveObject, sole, isExt, if_true] at h
        obtain ⟨p, s₁, _, h⟩ := Run.bind_eq_ok.mp h
        exact external sole isExt (hrest _ _ _ _ _ h)
      | keep v sole hkeep =>
        obtain ⟨rfl, _⟩ := resolveObject_keep sole hkeep h
        exact keep sole hkeep
      | descend sole =>
        simp only [resolveObject, sole] at h
        obtain ⟨items', s₁, hvals, h⟩ := Run.bind_eq_ok.mp h
        obtain ⟨rfl, _⟩ := Run.pure_eq_ok.mp h
        exact descend sole (mapVals_itemwise (hrest base) hvals)
    | list xs =>
      simp only [resolveObject] at h
      obtain ⟨ys, s₁, hvals, h⟩ := Run.bind_eq_ok.mp h
      obtain ⟨rfl, _⟩ := Run.pure_eq_ok.mp h
      exact list (mapList_forall₂ (hrest base) hvals)
    | _ =>
      cases h
      exact leaf rfl

theorem Itemwise.soleRef? {P : PyVal → PyVal → Prop} {items items' : List (PyKey × PyVal)}
    (h : Itemwise P items items') (sole : FastGeoApi.soleRef? items = none) :
    FastGeoApi.soleRef? items' = none := by
  cases hsole : FastGeoApi.soleRef? items' with
  | none => rfl
  | some v =>
    rw [soleRef?_eq_some.mp hsole] at h
    cases h with
    | @cons kv kv' _ _ hkv hnil =>
      obtain ⟨k, u⟩ := kv
      obtain ⟨hkey, _⟩ := hkv
      cases hnil
      cases hkey
      rw [soleRef?_eq_some.mpr rfl] at sole
      cases sole

/-- What a run returns is settled. -/
theorem settled_of_returned (h : resolveObject w dir ttl k base v s = some (.ok o, s')) :
    Settled o := by
  refine resolveObject_induction (P := fun _ o => Settled o) .leaf .keep ?_ ?_ ?_ h
  · intro items ref v o _ _ ho
    exact ho
  · intro items items' sole hitems
    refine .descend (hitems.soleRef? sole) fun kv' hkv' => ?_
    obtain ⟨v, _, hsettled⟩ := hitems.exists_mem_right hkv'
    exact hsettled
  · intro xs ys hys
    refine .list fun y hy => ?_
    obtain ⟨x, _, hsettled⟩ := exists_of_mem_forall₂ hys.flip hy
    exact hsettled

/-! ## Runs on settled values -/

end

/-- The computation returns the value and leaves the session alone; only where `short` holds may its
fuel run out. -/
def Run.Yields (short : Prop) (x : Run α) (a : α) : Prop :=
  ∀ s, short ∧ x s = none ∨ x s = some (.ok a, s)

section
variable {short short' : Prop}

theorem Run.Yields.pure (a : α) : Run.Yields short (Pure.pure a) a := fun _ => .inr rfl

theorem Run.Yields.imp {x : Run α} {a : α} (h : Run.Yields short x a) (himp : short → short') :
    Run.Yields short' x a :=
  fun s => (h s).imp_left (And.imp_left himp)

theorem Run.Yields.bind {x : Run α} {f : α → Run β} {a : α} {b : β} (hx : Run.Yields short x a)
    (hf : Run.Yields short (f a) b) : Run.Yields short (x >>= f) b := by
  intro s
  rw [Run.bind_apply]
  rcases hx s with ⟨hshort, hx⟩ | hx
  · rw [hx]
    exact .inl ⟨hshort, rfl⟩
  · rw [hx]
    exact hf s

theorem Run.Yields.mapVals {f : PyVal → Run PyVal} {items : List (PyKey × PyVal)}
    (hf : ∀ kv ∈ items, Run.Yields short (f kv.2) kv.2) :
    Run.Yields short (Run.mapVals f items) items := by
  induction items with
  | nil => exact .pure []
  | cons kv items ih =>
    refine (hf kv List.mem_cons_self).bind (.bind ?_ (.pure _))
    exact ih fun kv' hkv' => hf kv' (List.mem_cons_of_mem _ hkv')

theorem Run.Yields.mapList {f : PyVal → Run PyVal} {xs : List PyVal}
    (hf : ∀ x ∈ xs, Run.Yields short (f x) x) : Run.Yields short (Run.mapList f xs) xs := by
  induction xs with
  | nil => exact .pure []
  | cons x xs ih =>
    refine (hf x List.mem_cons_self).bind (.bind ?_ (.pure _))
    exact ih fun x' hx' => hf x' (List.mem_cons_of_mem _ hx')

end

/-- Resolving the value gives the value, as soon as the fuel is `depth`. -/
def SettledWithin (v : PyVal) (depth : Nat) : Prop :=
  ∀ w dir ttl k base, Run.Yields (k < depth) (resolveObject w dir ttl k base v) v

theorem SettledWithin.mono (v : PyVal) (m n : Nat) (hle : m ≤ n) (h : SettledWithin v m) :
    SettledWithin v n :=
  fun w dir ttl k base => (h w dir ttl k base).imp fun hk => Nat.lt_of_lt_of_le hk hle

/-- A step deeper. -/
theorem SettledWithin.step {v : PyVal} {depth : Nat}
    (h : ∀ w dir ttl k base, Run.Yields (k < depth) (resolveObject w dir ttl (k + 1) base v) v) :
    SettledWithin v (depth + 1) := by
  intro w dir ttl k base
  cases k with
  | zero => exact fun s => .inl ⟨Nat.zero_lt_succ depth, rfl⟩
  | succ k => exact (h w dir ttl k base).imp Nat.succ_lt_succ

theorem Settled.within {v : PyVal} (h : Settled v) : ∃ depth, SettledWithin v depth := by
  induction h with
  | @leaf v hleaf =>
    refine ⟨1, .step fun w dir ttl k base => ?_⟩
    cases v with
    | dict | list => cases hleaf
    | _ => exact .pure _
  | @keep items v sole keep =>
    refine ⟨1, .step fun w dir ttl k base => ?_⟩
    cases v with
    | str ref =>
      simp only [resolveObject, sole, keep ref rfl]
      exact .pure _
    | _ =>
      simp only [resolveObject, sole]
      exact .pure _
  | @descend items sole _ ih =>
    obtain ⟨depth, hdepth⟩ := exists_common_bound
      (fun kv : PyKey × PyVal => SettledWithin.mono kv.2) ih
    refine ⟨depth + 1, .step fun w dir ttl k base => ?_⟩
    simp only [resolveObject, sole]
    exact .bind (.mapVals fun kv hkv => hdepth kv hkv w dir ttl k base) (.pure _)
  | @list xs _ ih =>
    obtain ⟨depth, hdepth⟩ := exists_common_bound SettledWithin.mono ih
    refine ⟨depth + 1, .step fun w dir ttl k base => ?_⟩
    exact .bind (.mapList fun x hx => hdepth x hx w dir ttl k base) (.pure _)

/-- Resolving the result comes to an end, and whenever it does, it has given the result back and
left the requests and the files as they were, whatever the remote side and the disk cache hold. -/
theorem resolve_idempotent (w : World) (dir : Option String) (ttl : Int) (s : Session)
    (spec R : PyVal) (h : Returns w dir ttl s spec R)
    (w' : World) (dir' : Option String) (ttl' : Int) (s' : Session) :
    Terminates w' dir' ttl' s' R ∧
      ∀ fuel r t, resolveExternalRefs w' fuel R dir' ttl' s' = some (r, t) →
        r = .ok R ∧ t.requests = s'.requests ∧ t.disk = s'.disk := by
  obtain ⟨fuel, t, hrun⟩ := h
  obtain ⟨depth, hdepth⟩ := (settled_of_returned hrun).within
  refine ⟨⟨depth, fun hnone => ?_⟩, fun fuel r t hrun' => ?_⟩
  · rcases hdepth w' dir' ttl' depth none { s' with documentCache := fun _ => none } with
      ⟨hshort, _⟩ | hsome
    · exact Nat.lt_irrefl _ hshort
    · cases hsome.symm.trans hnone
  · rcases hdepth w' dir' ttl' fuel none { s' with documentCache := fun _ => none } with
      ⟨_, hnone⟩ | hsome
    · cases hnone.symm.trans hrun'
    · cases hsome.symm.trans hrun'
      exact ⟨rfl, rfl, rfl⟩

def linkUrl : String := "https://example.com/link.yaml"

def linkStore : Store := [(linkUrl, .dict [(.str "type", .str "object")])]

/-- A reference alone, and one with a sibling key. -/
def linksSpec : PyVal :=
  .dict [(.str "link", .dict [(.str "$ref", .str linkUrl)]),
    (.str "titled", .dict [(.str "$ref", .str linkUrl), (.str "title", .str "Link")])]

def linksResult : PyVal :=
  .dict [(.str "link", .dict [(.str "type", .str "object")]),
    (.str "titled", .dict [(.str "$ref", .str linkUrl), (.str "title", .str "Link")])]

theorem linksSpec_returns :
    Returns linkStore.world none 86400 Session.start linksSpec linksResult := ⟨4, _, rfl⟩

/-- The second time there is no document any more. -/
theorem linksSpec_idempotent :
    Terminates (Store.world []) none 86400 Session.start linksResult ∧
      ∀ fuel r t, resolveExternalRefs (Store.world []) fuel linksResult none 86400 Session.start =
        some (r, t) → r = .ok linksResult ∧ t.requests = [] ∧ t.disk = Session.start.disk :=
  resolve_idempotent linkStore.world none 86400 Session.start linksSpec linksResult
    linksSpec_returns (Store.world []) none 86400 Session.start

end FastGeoApi
