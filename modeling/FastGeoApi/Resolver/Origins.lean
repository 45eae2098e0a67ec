import FastGeoApi.Resolver.Inlining

/-!
# References in the result and where they come from

A `$ref` string in the result was written somewhere: in a dict with sibling keys, which is descended
into, in a dict that is kept as it is, or inside a tuple, which the resolver does not look into
(`Writes`). `Copies` adds the document that the string was written in; `Resolves.refIn_iff` says
that the references in the result are exactly the copied ones.
-/

namespace FastGeoApi
open Unfolding

/-- A dict somewhere inside the value has `ref` under its `$ref` key. -/
def RefIn (ref : String) (v : PyVal) : Prop :=
  ∃ items, PyVal.Sub (.dict items) v ∧ PyVal.get items "$ref" = some (.str ref)

section
variable {ref : String}

theorem refIn_dict {items : List (PyKey × PyVal)} :
    RefIn ref (.dict items) ↔
      PyVal.get items "$ref" = some (.str ref) ∨ ∃ kv ∈ items, RefIn ref kv.2 := by
  refine ⟨fun ⟨found, hsub, hget⟩ => ?_, fun h => ?_⟩
  · cases hsub with
    | refl => exact .inl hget
    | dict hx hsub => exact .inr ⟨_, hx, found, hsub, hget⟩
  · rcases h with hget | ⟨kv, hkv, found, hsub, hget⟩
    · exact ⟨items, .refl, hget⟩
    · exact ⟨found, .dict hkv hsub, hget⟩

theorem refIn_list {xs : List PyVal} : RefIn ref (.list xs) ↔ ∃ x ∈ xs, RefIn ref x := by
  refine ⟨fun ⟨found, hsub, hget⟩ => ?_, fun ⟨x, hx, found, hsub, hget⟩ => ?_⟩
  · cases hsub with
    | list hx hsub => exact ⟨_, hx, found, hsub, hget⟩
  · exact ⟨found, .list hx hsub, hget⟩

end

/-! ## Origins -/

section
variable (docs : Documents)

/-- The second node is the first after some external references have been followed. -/
def StandsFor : Node → Node → Prop :=
  Relation.ReflTransGen fun n m => expand docs n = .jump m

/-- Resolving the node puts the reference, written in the document at `base`, into the result. -/
inductive Writes : Node → Option String → String → Prop where
  | sibling (sole : soleRef? items = none) (hget : PyVal.get items "$ref" = some v)
      (stands : StandsFor docs (base, v) (base', .str ref)) : Writes (base, .dict items) base' ref
  | kept (sole : soleRef? items = some v) (keep : ∀ ref, v = .str ref → isExternal ref = false)
      (h : RefIn ref (.dict items)) : Writes (base, .dict items) base ref
  | tuple (h : RefIn ref (.tuple xs)) : Writes (base, .tuple xs) base ref

/-- A node that resolving `n` asks for writes the reference. -/
def Copies (n : Node) (base : Option String) (ref : String) : Prop :=
  ∃ m, Relation.ReflTransGen (Succ (expand docs)) n m ∧ Writes docs m base ref

end

section
variable {docs : Documents} {base base' : Option String} {items : List (PyKey × PyVal)}
  {ref : String}

theorem StandsFor.yields_iff {n m : Node} (h : StandsFor docs n m) {r : Except PyError PyVal} :
    Yields (expand docs) n r ↔ Yields (expand docs) m r := by
  induction h with
  | refl => rfl
  | tail _ hjump ih => exact ih.trans (yields_jump hjump)

/-- A value becomes a string exactly when it stands for it. -/
theorem resolves_str {v : PyVal} {str : String} :
    Resolves docs base v (.str str) ↔ ∃ base', StandsFor docs (base, v) (base', .str str) := by
  refine ⟨fun h => ?_, fun ⟨base', h⟩ => h.yields_iff.mpr ((resolves_leaf rfl).mpr rfl)⟩
  refine Resolves.induction (P := fun base v o => o = .str str →
    ∃ base', StandsFor docs (base, v) (base', .str str)) ?_ ?_ ?_ ?_ ?_ h rfl
  · intro base v _ hv
    exact ⟨base, hv ▸ .refl⟩
  · intro base items v _ _ ho
    cases ho
  · intro base items ref v url o sole isExt hl _ ih ho
    obtain ⟨base', hstands⟩ := ih ho
    have hjump : expand docs (base, .dict items) = .jump (some url, v) := by
      rw [expand_external sole isExt, hl]
    exact ⟨base', .head hjump hstands⟩
  · intro base items items' _ _ ho
    cases ho
  · intro base xs ys _ ho
    cases ho

theorem copies_iff {n : Node} :
    Copies docs n base' ref ↔
      Writes docs n base' ref ∨ ∃ m, Succ (expand docs) n m ∧ Copies docs m base' ref := by
  refine ⟨fun ⟨m, hm, h⟩ => ?_, fun h => ?_⟩
  · rcases Relation.ReflTransGen.cases_head hm with rfl | ⟨m', hm', hrest⟩
    · exact .inl h
    · exact .inr ⟨m', hm', m, hrest, h⟩
  · rcases h with h | ⟨m', hm', m, hrest, h⟩
    · exact ⟨n, .refl, h⟩
    · exact ⟨m, .head hm' hrest, h⟩

theorem copies_leaf {v : PyVal} (hleaf : v.isLeaf = true) :
    Copies docs (base, v) base' ref ↔ base' = base ∧ RefIn ref v := by
  rw [copies_iff]
  refine ⟨fun h => ?_, fun ⟨hbase, h⟩ => .inl ?_⟩
  · rcases h with h | ⟨m, hm, _⟩
    · cases h with
      | tuple h => exact ⟨rfl, h⟩
      | _ => cases hleaf
    · exact absurd hm (succ_leaf hleaf)
  · subst hbase
    cases v with
    | tuple xs => exact .tuple h
    | list | dict => cases hleaf
    | _ =>
      obtain ⟨items, hsub, _⟩ := h
      cases hsub

theorem copies_keep {v : PyVal} (sole : soleRef? items = some v)
    (keep : ∀ ref, v = .str ref → isExternal ref = false) :
    Copies docs (base, .dict items) base' ref ↔ base' = base ∧ RefIn ref (.dict items) := by
  rw [copies_iff]
  refine ⟨fun h => ?_, fun ⟨hbase, h⟩ => .inl (hbase ▸ .kept sole keep h)⟩
  rcases h with h | ⟨m, hm, _⟩
  · cases h with
    | sibling sole' => simp [sole] at sole'
    | kept _ _ h => exact ⟨rfl, h⟩
  · exact absurd hm (succ_keep sole keep)

theorem copies_external {url : String} {extRef : String} {v : PyVal}
    (sole : soleRef? items = some (.str extRef)) (isExt : isExternal extRef = true)
    (hl : lookupRef docs extRef base = .ok (v, url)) :
    Copies docs (base, .dict items) base' ref ↔ Copies docs (some url, v) base' ref := by
  rw [copies_iff]
  simp only [succ_external sole isExt, hl, Except.ok.injEq, Prod.mk.injEq]
  refine ⟨fun h => ?_, fun h => .inr ⟨_, ⟨v, url, ⟨rfl, rfl⟩, rfl⟩, h⟩⟩
  rcases h with h | ⟨_, ⟨_, _, ⟨rfl, rfl⟩, rfl⟩, h⟩
  · cases h with
    | sibling sole' => simp [sole] at sole'
    | kept sole' keep =>
      rw [sole, Option.some.injEq] at sole'
      rw [keep extRef sole'.symm] at isExt
      cases isExt
  · exact h

theorem copies_descend (sole : soleRef? items = none) :
    Copies docs (base, .dict items) base' ref ↔
      (∃ v, PyVal.get items "$ref" = some v ∧ StandsFor docs (base, v) (base', .str ref)) ∨
      ∃ kv ∈ items, Copies docs (base, kv.2) base' ref := by
  rw [copies_iff]
  simp only [succ_descend sole]
  refine or_congr ⟨fun h => ?_, fun ⟨v, hget, stands⟩ => .sibling sole hget stands⟩
    ⟨fun ⟨_, ⟨kv, hkv, hm⟩, h⟩ => ⟨kv, hkv, hm ▸ h⟩, fun ⟨kv, hkv, h⟩ => ⟨_, ⟨kv, hkv, rfl⟩, h⟩⟩
  cases h with
  | sibling _ hget stands => exact ⟨_, hget, stands⟩
  | kept sole' => simp [sole] at sole'

theorem copies_list {xs : List PyVal} :
    Copies docs (base, .list xs) base' ref ↔ ∃ x ∈ xs, Copies docs (base, x) base' ref := by
  rw [copies_iff]
  simp only [succ_list]
  refine ⟨fun h => ?_, fun ⟨x, hx, h⟩ => .inr ⟨_, ⟨x, hx, rfl⟩, h⟩⟩
  rcases h with h | ⟨_, ⟨x, hx, rfl⟩, h⟩
  · cases h
  · exact ⟨x, hx, h⟩

/-- The references in the result are the copied ones. -/
theorem Resolves.refIn_iff {v o : PyVal} (h : Resolves docs base v o) :
    RefIn ref o ↔ ∃ base', Copies docs (base, v) base' ref := by
  refine Resolves.induction
    (P := fun base v o => RefIn ref o ↔ ∃ base', Copies docs (base, v) base' ref)
    ?_ ?_ ?_ ?_ ?_ h
  · intro base v hleaf
    simp only [copies_leaf hleaf, exists_eq_left]
  · intro base items v sole keep
    simp only [copies_keep sole keep, exists_eq_left]
  · intro base items extRef v url o sole isExt hl _ ih
    simp only [copies_external sole isExt hl]
    exact ih
  · intro base items items' sole hitems
    simp only [copies_descend sole, refIn_dict, exists_or]
    refine or_congr ⟨fun hget' => ?_, fun ⟨base', v, hget, stands⟩ => ?_⟩
      ⟨fun ⟨kv', hkv', h⟩ => ?_, fun ⟨base', kv, hkv, h⟩ => ?_⟩
    · rcases hitems.get "$ref" with ⟨_, hnone⟩ | ⟨v, o, hget, hget'', hv, _⟩
      · simp [hget'] at hnone
      · rw [hget', Option.some.injEq] at hget''
        obtain ⟨base', stands⟩ := resolves_str.mp (hget'' ▸ hv)
        exact ⟨base', v, hget, stands⟩
    · rcases hitems.get "$ref" with ⟨hnone, _⟩ | ⟨v', o, hget'', hget', hv, _⟩
      · simp [hget] at hnone
      · rw [hget, Option.some.injEq] at hget''
        exact hv.unique (resolves_str.mpr ⟨base', hget'' ▸ stands⟩) ▸ hget'
    · obtain ⟨v, hkv, _, hiff⟩ := hitems.exists_mem_right hkv'
      obtain ⟨base', h⟩ := hiff.mp h
      exact ⟨base', _, hkv, h⟩
    · obtain ⟨o, hkv', _, hiff⟩ := hitems.exists_mem hkv
      exact ⟨_, hkv', hiff.mpr ⟨base', h⟩⟩
  · intro base xs ys hxs
    simp only [copies_list, refIn_list]
    refine ⟨fun ⟨y, hy, h⟩ => ?_, fun ⟨base', x, hx, h⟩ => ?_⟩
    · obtain ⟨x, hx, _, hiff⟩ := exists_of_mem_forall₂ hxs.flip hy
      obtain ⟨base', h⟩ := hiff.mp h
      exact ⟨base', x, hx, h⟩
    · obtain ⟨y, hy, _, hiff⟩ := exists_of_mem_forall₂ hxs hx
      exact ⟨y, hy, hiff.mpr ⟨base', h⟩⟩

end
end FastGeoApi
