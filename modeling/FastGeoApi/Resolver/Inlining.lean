import FastGeoApi.Resolver.Documents

/-!
# Inlining as a relation

`Resolves docs base v o`: the value `v`, written in the document at `base`, becomes `o`. The rules
(`Resolves.induction`) and the inversion lemmas say once what the resolver does with each form of
value; the results about its output are proved from them.
-/

namespace FastGeoApi
open Unfolding

/-- Two lists of items have the same keys in the same order, and related values. -/
def Itemwise (R : PyVal → PyVal → Prop) (items items' : List (PyKey × PyVal)) : Prop :=
  List.Forall₂ (fun kv kv' => kv'.1 = kv.1 ∧ R kv.2 kv'.2) items items'

namespace Itemwise
variable {R S : PyVal → PyVal → Prop} {items items' : List (PyKey × PyVal)}

theorem imp (hRS : ∀ v v', R v v' → S v v') (h : Itemwise R items items') :
    Itemwise S items items' :=
  List.Forall₂.imp (fun _ _ hkv => ⟨hkv.1, hRS _ _ hkv.2⟩) h

theorem length_eq (h : Itemwise R items items') : items'.length = items.length :=
  (List.Forall₂.length_eq h).symm

/-- Looking up a key succeeds on both sides, with related values, or on none. -/
theorem lookup (h : Itemwise R items items') (key : PyKey) :
    (items.lookup key = none ∧ items'.lookup key = none) ∨
      ∃ v v', items.lookup key = some v ∧ items'.lookup key = some v' ∧ R v v' := by
  induction h with
  | nil => exact .inl ⟨rfl, rfl⟩
  | @cons kv kv' items items' hkv _ ih =>
    obtain ⟨k, v⟩ := kv
    obtain ⟨k', v'⟩ := kv'
    obtain ⟨rfl, hv⟩ := hkv
    rw [List.lookup_cons, List.lookup_cons]
    by_cases hkey : (key == k') = true
    · simp only [hkey]
      exact .inr ⟨v, v', rfl, rfl, hv⟩
    · simp only [Bool.not_eq_true] at hkey
      simp only [hkey]
      exact ih

theorem get (h : Itemwise R items items') (key : String) :
    (PyVal.get items key = none ∧ PyVal.get items' key = none) ∨
      ∃ v v', PyVal.get items key = some v ∧ PyVal.get items' key = some v' ∧ R v v' :=
  h.lookup (.str key)

theorem exists_mem (h : Itemwise R items items') (hkv : kv ∈ items) :
    ∃ v', (kv.1, v') ∈ items' ∧ R kv.2 v' := by
  obtain ⟨kv', hkv', hkey, hR⟩ := exists_of_mem_forall₂ h hkv
  exact ⟨kv'.2, hkey ▸ hkv', hR⟩

theorem exists_mem_right (h : Itemwise R items items') (hkv : kv' ∈ items') :
    ∃ v, (kv'.1, v) ∈ items ∧ R v kv'.2 := by
  obtain ⟨kv, hkv, hkey, hR⟩ := exists_of_mem_forall₂ (List.Forall₂.flip h) hkv
  exact ⟨kv.2, hkey ▸ hkv, hR⟩

end Itemwise

theorem forall₂_children {R : Node → PyVal → Prop} {items : List (PyKey × PyVal)}
    {os : List PyVal} : List.Forall₂ R (children base items) os →
      Itemwise (fun v o => R (base, v) o) items ((items.map Prod.fst).zip os) := by
  intro h
  induction items generalizing os with
  | nil => exact .nil
  | cons kv items ih =>
    cases h with
    | cons hkv hrest => exact .cons ⟨rfl, hkv⟩ (ih hrest)

theorem Itemwise.children {R : Node → PyVal → Prop} {items items' : List (PyKey × PyVal)}
    (h : Itemwise (fun v o => R (base, v) o) items items') :
    List.Forall₂ R (children base items) (items'.map Prod.snd) ∧
      (items.map Prod.fst).zip (items'.map Prod.snd) = items' := by
  induction h with
  | nil => exact ⟨.nil, rfl⟩
  | cons hkv _ ih =>
    obtain ⟨hkey, hR⟩ := hkv
    exact ⟨.cons hR ih.1, by simp [ih.2, ← hkey]⟩

/-! ## The relation -/

/-- The value `v` written at `base` is resolved to `o`. -/
def Resolves (docs : Documents) (base : Option String) (v o : PyVal) : Prop :=
  Yields (expand docs) (base, v) (.ok o)

section
variable {docs : Documents} {base : Option String} {items : List (PyKey × PyVal)}

theorem Resolves.unique {v o o' : PyVal} (h : Resolves docs base v o)
    (h' : Resolves docs base v o') : o = o' :=
  Except.ok.inj (Yields.unique h h')

theorem resolves_done {v w o : PyVal} (hs : expand docs (base, v) = .done w) :
    Resolves docs base v o ↔ o = w := by
  refine ⟨fun h => ?_, fun h => h ▸ Yields.of_done hs⟩
  exact h.unique (Yields.of_done hs : Yields (expand docs) (base, v) (.ok w))

theorem resolves_leaf {v o : PyVal} (h : v.isLeaf = true) : Resolves docs base v o ↔ o = v :=
  resolves_done (expand_leaf h)

theorem resolves_keep {v o : PyVal} (sole : soleRef? items = some v)
    (keep : ∀ ref, v = .str ref → isExternal ref = false) :
    Resolves docs base (.dict items) o ↔ o = .dict items :=
  resolves_done (expand_keep sole keep)

theorem resolves_external {o : PyVal} (sole : soleRef? items = some (.str ref))
    (isExt : isExternal ref = true) :
    Resolves docs base (.dict items) o ↔
      ∃ v url, lookupRef docs ref base = .ok (v, url) ∧ Resolves docs (some url) v o := by
  have hs : expand docs (base, .dict items) = _ := expand_external sole isExt
  cases hl : lookupRef docs ref base with
  | error e =>
    rw [hl] at hs
    apply iff_of_false (not_yields_ok_of_fail hs)
    simp
  | ok p =>
    obtain ⟨v, url⟩ := p
    rw [hl] at hs
    unfold Resolves
    rw [yields_jump hs]
    simp

theorem resolves_descend {o : PyVal} (sole : soleRef? items = none) :
    Resolves docs base (.dict items) o ↔
      ∃ items', Itemwise (Resolves docs base) items items' ∧ o = .dict items' := by
  unfold Resolves
  rw [yields_fork (expand_descend sole)]
  refine ⟨fun ⟨os, hos, ho⟩ => ⟨_, forall₂_children hos, ho⟩, fun ⟨items', h, ho⟩ => ?_⟩
  obtain ⟨hos, hzip⟩ := Itemwise.children (R := fun m o => Yields (expand docs) m (.ok o)) h
  exact ⟨_, hos, by rw [ho, withValues, hzip]⟩

theorem resolves_list {xs : List PyVal} {o : PyVal} :
    Resolves docs base (.list xs) o ↔
      ∃ ys, List.Forall₂ (Resolves docs base) xs ys ∧ o = .list ys := by
  unfold Resolves
  rw [yields_fork expand_list]
  simp only [List.forall₂_map_left_iff]

/-- Rule induction for `Resolves`. -/
theorem Resolves.induction {P : Option String → PyVal → PyVal → Prop}
    (leaf : ∀ {base v}, v.isLeaf = true → P base v v)
    (keep : ∀ {base items v}, soleRef? items = some v →
      (∀ ref, v = .str ref → isExternal ref = false) → P base (.dict items) (.dict items))
    (external : ∀ {base items ref v url o}, soleRef? items = some (.str ref) →
      isExternal ref = true → lookupRef docs ref base = .ok (v, url) →
      Resolves docs (some url) v o → P (some url) v o → P base (.dict items) o)
    (descend : ∀ {base items items'}, soleRef? items = none →
      Itemwise (fun v o => Resolves docs base v o ∧ P base v o) items items' →
      P base (.dict items) (.dict items'))
    (list : ∀ {base xs ys}, List.Forall₂ (fun v o => Resolves docs base v o ∧ P base v o) xs ys →
      P base (.list xs) (.list ys))
    {base : Option String} {v o : PyVal} (h : Resolves docs base v o) : P base v o := by
  refine Yields.ok_induction (P := fun n o => P n.1 n.2 o) (fun {n o} hs => ?_)
    (fun {n m o} hs hm ih => ?_) (fun {n ns build os} hs hos => ?_) h
  · have hcase := expands docs n
    rw [hs] at hcase
    cases hcase with
    | leaf hleaf => exact leaf hleaf
    | keep sole hkeep => exact keep sole hkeep
  · have hcase := expands docs n
    rw [hs] at hcase
    cases hcase with
    | external sole isExt hl => exact external sole isExt hl hm ih
  · have hcase := expands docs n
    rw [hs] at hcase
    cases hcase with
    | descend sole => exact descend sole (forall₂_children hos)
    | list => exact list (List.forall₂_map_left_iff.mp hos)

end

end FastGeoApi
