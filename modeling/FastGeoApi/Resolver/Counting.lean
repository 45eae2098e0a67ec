import FastGeoApi.Resolver.Idempotence

/-!
# Detecting, counting and resolving

`has_external_refs` stops at the first external reference that `count_external_refs` counts. The
resolver looks at fewer dicts than they do, so where they find nothing it finds nothing either.
-/

namespace FastGeoApi

/-- What one dict adds to the count, apart from its values. -/
def countOwn (items : List (PyKey × PyVal)) : Nat := if (externalRef? items).isSome then 1 else 0

mutual
/-- `count_external_refs`. -/
def countExternalRefs : PyVal → Nat
  | .dict items => countOwn items + countExternalRefsItems items
  | .list items => countExternalRefsList items
  | _ => 0

def countExternalRefsItems : List (PyKey × PyVal) → Nat
  | [] => 0
  | (_, v) :: items => countExternalRefs v + countExternalRefsItems items

def countExternalRefsList : List PyVal → Nat
  | [] => 0
  | v :: items => countExternalRefs v + countExternalRefsList items
end

theorem countOwn_pos {items : List (PyKey × PyVal)} :
    0 < countOwn items ↔ (externalRef? items).isSome = true := by
  rw [countOwn]
  cases (externalRef? items).isSome <;> simp

mutual
theorem countExternalRefs_pos {v : PyVal} :
    0 < countExternalRefs v ↔ hasExternalRefs v = true := by
  cases v with
  | dict items =>
    rw [countExternalRefs, hasExternalRefs, Nat.add_pos_iff_pos_or_pos, Bool.or_eq_true,
      countOwn_pos, countExternalRefsItems_pos]
  | list xs => rw [countExternalRefs, hasExternalRefs, countExternalRefsList_pos]
  | _ => simp [countExternalRefs, hasExternalRefs]

theorem countExternalRefsItems_pos {items : List (PyKey × PyVal)} :
    0 < countExternalRefsItems items ↔ hasExternalRefsItems items = true := by
  cases items with
  | nil => simp [countExternalRefsItems, hasExternalRefsItems]
  | cons kv items =>
    rw [countExternalRefsItems, hasExternalRefsItems, Nat.add_pos_iff_pos_or_pos, Bool.or_eq_true,
      countExternalRefs_pos, countExternalRefsItems_pos]

theorem countExternalRefsList_pos {xs : List PyVal} :
    0 < countExternalRefsList xs ↔ hasExternalRefsList xs = true := by
  cases xs with
  | nil => simp [countExternalRefsList, hasExternalRefsList]
  | cons x xs =>
    rw [countExternalRefsList, hasExternalRefsList, Nat.add_pos_iff_pos_or_pos, Bool.or_eq_true,
      countExternalRefs_pos, countExternalRefsList_pos]
end

/-! ## Nothing found -/

theorem hasExternalRefsItems_false {items : List (PyKey × PyVal)} :
    hasExternalRefsItems items = false ↔ ∀ kv ∈ items, hasExternalRefs kv.2 = false := by
  induction items with
  | nil => simp [hasExternalRefsItems]
  | cons kv items ih => rw [hasExternalRefsItems, Bool.or_eq_false_iff, ih, List.forall_mem_cons]

theorem hasExternalRefsList_false {xs : List PyVal} :
    hasExternalRefsList xs = false ↔ ∀ x ∈ xs, hasExternalRefs x = false := by
  induction xs with
  | nil => simp [hasExternalRefsList]
  | cons x xs ih => rw [hasExternalRefsList, Bool.or_eq_false_iff, ih, List.forall_mem_cons]

/-- A dict that the resolver would replace is one that is counted. -/
theorem externalRef?_of_sole {items : List (PyKey × PyVal)} {ref : String}
    (sole : soleRef? items = some (.str ref)) (isExt : isExternal ref = true) :
    externalRef? items = some ref := by
  rw [soleRef?_eq_some.mp sole, externalRef?, PyVal.get_cons, if_pos rfl]
  exact if_pos isExt

theorem settled_of_notFound {v : PyVal} (h : hasExternalRefs v = false) : Settled v := by
  match v with
  | .dict items =>
    rw [hasExternalRefs, Bool.or_eq_false_iff, hasExternalRefsItems_false] at h
    obtain ⟨hown, hvalues⟩ := h
    cases dictCase items with
    | external ref sole isExt =>
      rw [externalRef?_of_sole sole isExt] at hown
      cases hown
    | keep v sole keep => exact .keep sole keep
    | descend sole => exact .descend sole fun kv hkv => settled_of_notFound (hvalues kv hkv)
  | .list xs =>
    rw [hasExternalRefs, hasExternalRefsList_false] at h
    exact .list fun x hx => settled_of_notFound (h x hx)
  | .none | .bool _ | .int _ | .float _ | .str _ | .other _ | .set _ | .tuple _ => exact .leaf rfl
termination_by sizeOf v
decreasing_by
  · obtain ⟨k, v⟩ := kv
    have hlt := List.sizeOf_lt_of_mem hkv
    simp at hlt ⊢
    omega
  · have hlt := List.sizeOf_lt_of_mem hx
    simp
    omega

/-- The detector and the counter agree. Where they find nothing, the resolver gives the tree back,
and leaves the session as it is: nothing is requested, no file is touched. -/
theorem detection_agrees (v : PyVal) :
    (hasExternalRefs v = true ↔ 0 < countExternalRefs v) ∧
      (hasExternalRefs v = false → ∃ depth, ∀ w dir ttl fuel base s,
        (depth ≤ fuel → resolveObject w dir ttl fuel base v s = some (.ok v, s)) ∧
          ∀ r s', resolveObject w dir ttl fuel base v s = some (r, s') → r = .ok v ∧ s' = s) := by
  refine ⟨countExternalRefs_pos.symm, fun hnone => ?_⟩
  obtain ⟨depth, hdepth⟩ := (settled_of_notFound hnone).within
  refine ⟨depth, fun w dir ttl fuel base s => ?_⟩
  rcases hdepth w dir ttl fuel base s with ⟨hshort, hnone⟩ | hsome
  · refine ⟨fun hle => absurd hle (Nat.not_le_of_lt hshort), fun r s' hrun => ?_⟩
    rw [hnone] at hrun
    cases hrun
  · refine ⟨fun _ => hsome, fun r s' hrun => ?_⟩
    cases hsome.symm.trans hrun
    exact ⟨rfl, rfl⟩

end FastGeoApi
