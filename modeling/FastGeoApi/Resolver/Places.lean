import FastGeoApi.Python.Path
import FastGeoApi.Resolver.Counting

/-!
# What resolving leaves in its place

A path that goes through no external reference leads to the same before and after, whatever the
remote side answers.
-/

namespace FastGeoApi
open PyVal

/-- The value is resolved as an external reference. -/
def PyVal.IsExternal (v : PyVal) : Prop :=
  ∃ items ref, v = .dict items ∧ soleRef? items = some (.str ref) ∧ isExternal ref = true

/-- The path goes through no external reference. -/
def PyVal.Plain (v : PyVal) (path : List Step) : Prop :=
  ∀ p u, p <+: path → v.at? p = some u → ¬u.IsExternal

/-- A path that goes through no external reference leads to the same, and what has none is the
same. -/
structure InPlace (v o : PyVal) : Prop where
  settled : Settled v → o = v
  look : ∀ path, v.Plain path → o.look path = v.look path
  at? : ∀ path u, v.Plain path → v.at? path = some u → Settled u → o.at? path = some u

section
variable {items : List (PyKey × PyVal)} {v o u : PyVal} {step : Step} {path : List Step}

theorem PyVal.Plain.head (h : v.Plain path) : ¬v.IsExternal := h [] v List.nil_prefix rfl

theorem PyVal.Plain.tail (h : v.Plain (step :: path)) (hu : v.step? step = some u) :
    u.Plain path := by
  intro p w hp hw
  refine h (step :: p) w (List.cons_prefix_cons.mpr ⟨rfl, hp⟩) ?_
  rw [at?_cons, hu, Option.bind_some, hw]

theorem InPlace.refl : InPlace v v := ⟨fun _ => rfl, fun _ _ => rfl, fun _ _ _ h _ => h⟩

theorem Settled.not_isExternal (hv : Settled v) : ¬v.IsExternal := by
  rintro ⟨items, ref, rfl, sole, isExt⟩
  cases hv with
  | leaf hleaf => cases hleaf
  | keep sole' keep =>
    rw [sole] at sole'
    cases sole'
    cases (keep ref rfl).symm.trans isExt
  | descend sole' _ => cases sole'.symm.trans sole

theorem InPlace.of_external (h : v.IsExternal) : InPlace v o where
  settled hv := absurd h hv.not_isExternal
  look _ hplain := absurd h hplain.head
  at? _ _ hplain := absurd h hplain.head

/-- A value is in place when what its steps lead to is. -/
theorem InPlace.of_steps (hsettled : Settled v → o = v) (hshape : o.shape = v.shape)
    (hsteps : ∀ step, (v.step? step = Option.none ∧ o.step? step = Option.none) ∨
      ∃ u u', v.step? step = some u ∧ o.step? step = some u' ∧ InPlace u u') : InPlace v o where
  settled := hsettled
  look := by
    intro path hplain
    cases path with
    | nil => rw [look_nil, look_nil, hshape]
    | cons step path =>
      rw [PyVal.look, PyVal.look, at?_cons, at?_cons]
      rcases hsteps step with ⟨hu, hu'⟩ | ⟨u, u', hu, hu', hinPlace⟩
      · rw [hu, hu']
      · rw [hu, hu']
        exact hinPlace.look path (hplain.tail hu)
  at? := by
    intro path w hplain hw hwSettled
    cases path with
    | nil =>
      cases hw
      rw [hsettled hwSettled]
      rfl
    | cons step path =>
      rw [at?_cons] at hw ⊢
      rcases hsteps step with ⟨hu, _⟩ | ⟨u, u', hu, hu', hinPlace⟩
      · rw [hu] at hw
        cases hw
      · rw [hu] at hw
        rw [hu']
        exact hinPlace.at? path w (hplain.tail hu) hw hwSettled

theorem Itemwise.eq_of_settled {items' : List (PyKey × PyVal)} (h : Itemwise InPlace items items')
    (hall : ∀ kv ∈ items, Settled kv.2) : items' = items := by
  induction h with
  | nil => rfl
  | @cons kv kv' items items' hkv _ ih =>
    obtain ⟨hkey, hvalue⟩ := hkv
    obtain ⟨hhead, htail⟩ := List.forall_mem_cons.mp hall
    rw [ih htail, Prod.ext hkey (hvalue.settled hhead)]

theorem InPlace.dict {items' : List (PyKey × PyVal)} (sole : soleRef? items = Option.none)
    (h : Itemwise InPlace items items') : InPlace (.dict items) (.dict items') := by
  refine .of_steps (fun hsettled => ?_) ?_ fun step => ?_
  · cases hsettled with
    | leaf hleaf => cases hleaf
    | keep sole' _ => cases sole'.symm.trans sole
    | descend _ hall => rw [h.eq_of_settled hall]
  · rw [shape, shape]
    cases h with
    | nil => rfl
    | cons _ _ => rfl
  · cases step with
    | index i => exact .inl ⟨rfl, rfl⟩
    | key key => exact h.lookup key

theorem InPlace.list {xs ys : List PyVal} (h : List.Forall₂ InPlace xs ys) :
    InPlace (.list xs) (.list ys) := by
  refine .of_steps (fun hsettled => ?_) rfl fun step => ?_
  · cases hsettled with
    | leaf hleaf => cases hleaf
    | list hall =>
      congr 1
      induction h with
      | nil => rfl
      | cons hx _ ih =>
        obtain ⟨hhead, htail⟩ := List.forall_mem_cons.mp hall
        rw [ih htail, hx.settled hhead]
  · cases step with
    | key key => exact .inl ⟨rfl, rfl⟩
    | index i =>
      by_cases hi : i < xs.length
      · have hi' : i < ys.length := h.length_eq ▸ hi
        exact .inr ⟨xs[i], ys[i], List.getElem?_eq_getElem hi, List.getElem?_eq_getElem hi',
          h.get hi hi'⟩
      · have hi' : ¬i < ys.length := h.length_eq ▸ hi
        exact .inl ⟨List.getElem?_eq_none (Nat.le_of_not_lt hi),
          List.getElem?_eq_none (Nat.le_of_not_lt hi')⟩

/-- Whatever the remote side answers, what returns is in place. -/
theorem inPlace_of_returned {w : World} {dir : Option String} {ttl : Int} {base : Option String}
    {s s' : Session} {k : Nat} (h : resolveObject w dir ttl k base v s = some (.ok o, s')) :
    InPlace v o := by
  refine resolveObject_induction (P := InPlace) ?_ ?_ ?_ .dict .list h
  · intro v _
    exact .refl
  · intro items v _ _
    exact .refl
  · intro items ref v o sole isExt _
    exact .of_external ⟨items, ref, rfl, sole, isExt⟩

end

end FastGeoApi
