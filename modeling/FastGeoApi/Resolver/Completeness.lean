import FastGeoApi.Resolver.Origins

/-!
# What the resolver leaves behind

The resolver replaces a dict whose only key is `$ref`; the detector `has_external_refs` looks at
every dict that has the key. A result is complete exactly when no copied reference is external, and
`Writes` names the three ways in which a reference is copied.
-/

namespace FastGeoApi
open Unfolding

/-- A dict somewhere inside the value holds an external reference. -/
def HoldsExternalRef (v : PyVal) : Prop := ∃ ref, RefIn ref v ∧ isExternal ref = true

theorem HoldsExternalRef.mem {u v : PyVal} (hu : HoldsExternalRef u)
    (h : ∀ ref, RefIn ref u → RefIn ref v) : HoldsExternalRef v := by
  obtain ⟨ref, href, hext⟩ := hu
  exact ⟨ref, h ref href, hext⟩

theorem externalRef?_isSome {items : List (PyKey × PyVal)}
    (h : (externalRef? items).isSome = true) : HoldsExternalRef (.dict items) := by
  unfold externalRef? at h
  split at h
  · rename_i ref hget
    by_cases hext : isExternal ref = true
    · exact ⟨ref, ⟨items, .refl, hget⟩, hext⟩
    · simp [hext] at h
  · cases h

mutual
/-- The detector finds only what is there. -/
theorem HoldsExternalRef.of_has {v : PyVal} (h : hasExternalRefs v = true) :
    HoldsExternalRef v := by
  cases v with
  | dict items =>
    rw [hasExternalRefs, Bool.or_eq_true] at h
    rcases h with hext | hitems
    · exact externalRef?_isSome hext
    · obtain ⟨kv, hkv, h⟩ := HoldsExternalRef.of_hasItems hitems
      exact h.mem fun ref href => refIn_dict.mpr (.inr ⟨kv, hkv, href⟩)
  | list xs =>
    obtain ⟨x, hx, h⟩ := HoldsExternalRef.of_hasList h
    exact h.mem fun ref href => refIn_list.mpr ⟨x, hx, href⟩
  | _ => simp [hasExternalRefs] at h

theorem HoldsExternalRef.of_hasItems {items : List (PyKey × PyVal)}
    (h : hasExternalRefsItems items = true) : ∃ kv ∈ items, HoldsExternalRef kv.2 := by
  cases items with
  | nil => simp [hasExternalRefsItems] at h
  | cons kv items =>
    rw [hasExternalRefsItems, Bool.or_eq_true] at h
    rcases h with hv | hitems
    · exact ⟨kv, List.mem_cons_self, HoldsExternalRef.of_has hv⟩
    · obtain ⟨kv', hkv', h'⟩ := HoldsExternalRef.of_hasItems hitems
      exact ⟨kv', List.mem_cons_of_mem _ hkv', h'⟩

theorem HoldsExternalRef.of_hasList {xs : List PyVal} (h : hasExternalRefsList xs = true) :
    ∃ x ∈ xs, HoldsExternalRef x := by
  cases xs with
  | nil => simp [hasExternalRefsList] at h
  | cons x xs =>
    rw [hasExternalRefsList, Bool.or_eq_true] at h
    rcases h with hx | hxs
    · exact ⟨x, List.mem_cons_self, HoldsExternalRef.of_has hx⟩
    · obtain ⟨x', hx', h'⟩ := HoldsExternalRef.of_hasList hxs
      exact ⟨x', List.mem_cons_of_mem _ hx', h'⟩
end

/-- The detector finds nothing, and no dict at any depth holds an external reference. -/
def Complete (v : PyVal) : Prop := hasExternalRefs v = false ∧ ¬HoldsExternalRef v

theorem complete_iff {v : PyVal} : Complete v ↔ ¬HoldsExternalRef v := by
  refine ⟨And.right, fun h => ⟨?_, h⟩⟩
  exact Bool.eq_false_iff.mpr fun hhas => h (.of_has hhas)

/-- A returned specification holds no external reference if and only if none is copied into it. -/
theorem complete_iff_copies_no_external (w : World) (hw : w.Steady) (ttl : Int) (s : Session)
    (spec R : PyVal) (h : Returns w none ttl s spec R) :
    Complete R ↔
      ∀ base ref, Copies w.document (none, spec) base ref → isExternal ref = false := by
  have hres : Resolves w.document none spec R := (returns_iff hw).mp h
  rw [complete_iff, HoldsExternalRef]
  simp only [hres.refIn_iff, not_exists, not_and, Bool.not_eq_true, forall_exists_index]
  exact ⟨fun h base ref hcopy => h ref base hcopy, fun h ref base hcopy => h base ref hcopy⟩

/-- A reference with a sibling key. -/
def siblingSpec : PyVal :=
  .dict [(.str "a", .dict [(.str "$ref", .str "https://example.com/d.json#/x"),
    (.str "description", .str "described here")])]

theorem siblingSpec_returns :
    Returns (Store.world []) none 86400 Session.start siblingSpec siblingSpec :=
  ⟨3, _, rfl⟩

theorem siblingSpec_complete_iff :
    Complete siblingSpec ↔ ∀ base ref,
      Copies (Store.world []).document (none, siblingSpec) base ref → isExternal ref = false :=
  complete_iff_copies_no_external (Store.world []) (Store.world_steady []) 86400 Session.start
    siblingSpec siblingSpec siblingSpec_returns

/-- The reference is still there in what the resolver returns. -/
theorem siblingSpec_not_complete :
    (Store.world []).Steady ∧
      Returns (Store.world []) none 86400 Session.start siblingSpec siblingSpec ∧
      hasExternalRefs siblingSpec = true :=
  ⟨Store.world_steady [], siblingSpec_returns, rfl⟩

end FastGeoApi
