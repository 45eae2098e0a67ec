import Mathlib.Data.List.Infix

/-!
# Substitution in a text

Every occurrence of one text in another is replaced, scanning from the left and going on behind each
occurrence. The empty text occurs in front of each character and at the end.
-/

namespace FastGeoApi.Substitution

variable {α : Type} [DecidableEq α]

/-- The scan; `skip` characters still belong to the last occurrence. -/
def replaceFrom (old new : List α) : Nat → List α → List α
  | _, [] => []
  | skip + 1, _ :: cs => replaceFrom old new skip cs
  | 0, c :: cs =>
    if old.isPrefixOf (c :: cs) then new ++ replaceFrom old new (old.length - 1) cs
    else c :: replaceFrom old new 0 cs

def replaceAll (old new cs : List α) : List α :=
  if old = [] then new ++ cs.flatMap (· :: new) else replaceFrom old new 0 cs

variable {old new cs xs ys : List α} {c : α}

/-! ## The scan -/

theorem replaceFrom_append :
    replaceFrom old new xs.length (xs ++ cs) = replaceFrom old new 0 cs := by
  induction xs with
  | nil => rfl
  | cons x xs ih => exact ih

theorem replaceAll_nil (hold : old ≠ []) : replaceAll old new [] = [] := by
  rw [replaceAll, if_neg hold, replaceFrom]

theorem replaceAll_hit (hold : old ≠ []) :
    replaceAll old new (old ++ cs) = new ++ replaceAll old new cs := by
  rw [replaceAll, if_neg hold, replaceAll, if_neg hold]
  cases old with
  | nil => exact absurd rfl hold
  | cons o old =>
    have hprefix : (o :: old).isPrefixOf (o :: (old ++ cs)) = true :=
      List.isPrefixOf_iff_prefix.mpr (List.prefix_append (o :: old) cs)
    rw [List.cons_append, replaceFrom, if_pos hprefix, List.length_cons, Nat.add_sub_cancel,
      replaceFrom_append]

theorem replaceAll_miss (h : ¬old <+: c :: cs) :
    replaceAll old new (c :: cs) = c :: replaceAll old new cs := by
  have hold : old ≠ [] := by
    intro hnil
    apply h
    rw [hnil]
    exact List.nil_prefix
  have hprefix : ¬old.isPrefixOf (c :: cs) = true := fun h' => h (List.isPrefixOf_iff_prefix.mp h')
  rw [replaceAll, if_neg hold, replaceAll, if_neg hold, replaceFrom, if_neg hprefix]

/-- The induction rule of the scan. -/
theorem scan_induction {P : List α → Prop} (hold : old ≠ []) (nil : P [])
    (hit : ∀ rest, P rest → P (old ++ rest))
    (miss : ∀ c cs, ¬old <+: c :: cs → P cs → P (c :: cs)) (cs : List α) : P cs := by
  induction hn : cs.length using Nat.strongRecOn generalizing cs with
  | ind n ih =>
    cases cs with
    | nil => exact nil
    | cons c cs =>
      by_cases hprefix : old <+: c :: cs
      · obtain ⟨rest, hrest⟩ := hprefix
        rw [← hrest]
        apply hit
        apply ih rest.length _ rest rfl
        have hlength := congrArg List.length hrest
        have hpos := List.length_pos_iff.mpr hold
        rw [List.length_append, hn] at hlength
        omega
      · apply miss c cs hprefix
        apply ih cs.length _ cs rfl
        rw [List.length_cons] at hn
        omega

/-! ## What the scan leaves alone -/

theorem replaceAll_of_not_infix (h : ¬old <:+: cs) : replaceAll old new cs = cs := by
  have hold : old ≠ [] := by
    intro hnil
    apply h
    rw [hnil]
    exact List.nil_infix
  induction cs with
  | nil => exact replaceAll_nil hold
  | cons c cs ih =>
    rw [replaceAll_miss fun hprefix => h hprefix.isInfix,
      ih fun hoccurs => h (hoccurs.trans (List.suffix_cons c cs).isInfix)]

theorem replaceAll_self (hold : old ≠ []) : replaceAll old old cs = cs := by
  induction cs using scan_induction hold with
  | nil => exact replaceAll_nil hold
  | hit rest ih => rw [replaceAll_hit hold, ih]
  | miss c cs hmiss ih => rw [replaceAll_miss hmiss, ih]

/-- Each occurrence changes the length by the same amount. -/
theorem length_replaceAll (hold : old ≠ []) :
    ∃ n, (replaceAll old new cs).length + n * old.length = cs.length + n * new.length := by
  induction cs using scan_induction hold with
  | nil => exact ⟨0, by rw [replaceAll_nil hold, Nat.zero_mul, Nat.zero_mul]⟩
  | hit rest ih =>
    obtain ⟨n, hn⟩ := ih
    refine ⟨n + 1, ?_⟩
    rw [replaceAll_hit hold, List.length_append, List.length_append, Nat.succ_mul, Nat.succ_mul]
    omega
  | miss c cs hmiss ih =>
    obtain ⟨n, hn⟩ := ih
    refine ⟨n, ?_⟩
    rw [replaceAll_miss hmiss, List.length_cons, List.length_cons]
    omega

/-- Where a text that begins with an occurrence stays as it is, the occurrence does. -/
theorem eq_of_replaceAll_hit (hold : old ≠ []) (h : new ++ replaceAll old new cs = old ++ cs) :
    old = new := by
  obtain ⟨n, hn⟩ : ∃ n, (replaceAll old new cs).length + n * old.length =
      cs.length + n * new.length := length_replaceAll hold
  have hlength := congrArg List.length h
  rw [List.length_append, List.length_append] at hlength
  have hsame : new.length = old.length := by
    rcases Nat.lt_trichotomy new.length old.length with hlt | heq | hgt
    · have := Nat.mul_le_mul_left n hlt.le
      omega
    · exact heq
    · have := Nat.mul_le_mul_left n hgt.le
      omega
  exact (List.append_inj_left h hsame).symm

theorem replaceAll_eq_self_iff : replaceAll old new cs = cs ↔ ¬old <:+: cs ∨ old = new := by
  by_cases hold : old = []
  · subst hold
    have hlength : (cs.flatMap (· :: new)).length = cs.length * (new.length + 1) := by
      rw [List.length_flatMap]
      simp
    refine ⟨fun h => .inr ?_, fun h => ?_⟩
    · have hl := congrArg List.length h
      rw [replaceAll, if_pos rfl, List.length_append, hlength, Nat.mul_succ] at hl
      exact (List.length_eq_zero_iff.mp (by omega)).symm
    · rcases h with hnot | rfl
      · exact absurd List.nil_infix hnot
      · rw [replaceAll, if_pos rfl, List.nil_append, List.flatMap_singleton']
  · refine ⟨fun h => ?_, fun h => ?_⟩
    · by_contra hboth
      rw [not_or, not_not] at hboth
      obtain ⟨hoccurs, hne⟩ := hboth
      induction cs using scan_induction hold with
      | nil => exact hold (List.infix_nil.mp hoccurs)
      | hit rest ih =>
        rw [replaceAll_hit hold] at h
        exact hne (eq_of_replaceAll_hit hold h)
      | miss c cs hmiss ih =>
        rw [replaceAll_miss hmiss] at h
        rcases List.infix_cons_iff.mp hoccurs with hprefix | hoccurs
        · exact hmiss hprefix
        · exact ih (List.cons.inj h).2 hoccurs
    · rcases h with hnot | rfl
      · exact replaceAll_of_not_infix hnot
      · exact replaceAll_self hold

/-- The scan passes over a text in which no occurrence begins. -/
theorem replaceAll_pass (h : ∀ t, t ≠ [] → t <:+ xs → ¬old <+: t ++ ys) :
    replaceAll old new (xs ++ ys) = xs ++ replaceAll old new ys := by
  induction xs with
  | nil => rfl
  | cons x xs ih =>
    have hmiss : ¬old <+: x :: (xs ++ ys) := h (x :: xs) (List.cons_ne_nil x xs) List.suffix_rfl
    rw [List.cons_append, replaceAll_miss hmiss,
      ih fun t hne ht => h t hne (ht.trans (List.suffix_cons x xs)), List.cons_append]

/-! ## Two texts in a row -/

/-- No occurrence begins in the first text and ends in the second. -/
def Apart (old xs ys : List α) : Prop :=
  ∀ front back, old = front ++ back → front ≠ [] → back ≠ [] → front <:+ xs → ¬back <+: ys

omit [DecidableEq α] in
theorem Apart.of_suffix (h : Apart old xs ys) (hxs : cs <:+ xs) : Apart old cs ys :=
  fun front back hsplit hfront hback hsuffix => h front back hsplit hfront hback (hsuffix.trans hxs)

theorem replaceAll_append (hold : old ≠ []) (h : Apart old xs ys) :
    replaceAll old new (xs ++ ys) = replaceAll old new xs ++ replaceAll old new ys := by
  induction xs using scan_induction hold with
  | nil => rw [replaceAll_nil hold, List.nil_append, List.nil_append]
  | hit rest ih =>
    rw [List.append_assoc, replaceAll_hit hold, replaceAll_hit hold,
      ih (h.of_suffix (List.suffix_append old rest)), List.append_assoc]
  | miss c cs hmiss ih =>
    have hmiss' : ¬old <+: c :: (cs ++ ys) := by
      intro hprefix
      rcases List.prefix_or_prefix_of_prefix hprefix (List.prefix_append (c :: cs) ys) with
        hprefix | ⟨back, hsplit⟩
      · exact hmiss hprefix
      · by_cases hnil : back = []
        · rw [hnil, List.append_nil] at hsplit
          exact hmiss (hsplit ▸ List.prefix_rfl)
        · rw [← hsplit, ← List.cons_append, List.prefix_append_right_inj] at hprefix
          exact h (c :: cs) back hsplit.symm (List.cons_ne_nil c cs) hnil List.suffix_rfl hprefix
    rw [List.cons_append, replaceAll_miss hmiss', replaceAll_miss hmiss,
      ih (h.of_suffix (List.suffix_cons c cs)), List.cons_append]

omit [DecidableEq α] in
/-- An occurrence consists of characters of a kind, so it does not go on behind one that is not. -/
theorem apart_of_end {kind : α → Bool} (hkind : ∀ c ∈ old, kind c = true)
    (h : ∀ c ∈ xs.getLast?, kind c = false) : Apart old xs ys := by
  intro front back hsplit hfront _ hsuffix _
  obtain ⟨before, hbefore⟩ := hsuffix
  have hlast : xs.getLast? = some (front.getLast hfront) := by
    rw [← hbefore, List.getLast?_append_of_ne_nil before hfront, List.getLast?_eq_some_getLast]
  have hmem : front.getLast hfront ∈ old :=
    hsplit ▸ List.mem_append_left back (List.getLast_mem hfront)
  have hfalse := h _ (Option.mem_def.mpr hlast)
  rw [hkind _ hmem] at hfalse
  cases hfalse

omit [DecidableEq α] in
theorem apart_of_begin {kind : α → Bool} (hkind : ∀ c ∈ old, kind c = true)
    (h : ∀ c ∈ ys.head?, kind c = false) : Apart old xs ys := by
  intro front back hsplit _ hback _ hprefix
  obtain ⟨after, hafter⟩ := hprefix
  have hhead : ys.head? = some (back.head hback) := by
    rw [← hafter, List.head?_append_of_ne_nil back hback, List.head?_eq_some_head]
  have hmem : back.head hback ∈ old := hsplit ▸ List.mem_append_right front (List.head_mem hback)
  have hfalse := h _ (Option.mem_def.mpr hhead)
  rw [hkind _ hmem] at hfalse
  cases hfalse

/-! ## Collapsing a doubled character -/

theorem head?_collapse : (replaceAll [c, c] [c] cs).head? = cs.head? := by
  cases cs using scan_induction (List.cons_ne_nil c [c]) with
  | nil => rw [replaceAll_nil (List.cons_ne_nil c [c])]
  | hit rest => rw [replaceAll_hit (List.cons_ne_nil c [c])]; rfl
  | miss x cs hmiss => rw [replaceAll_miss hmiss]; rfl

omit [DecidableEq α] in
theorem doubled_infix_cons : [c, c] <:+: c :: cs ↔ cs.head? = some c ∨ [c, c] <:+: cs := by
  rw [List.infix_cons_iff, List.cons_prefix_cons, List.singleton_prefix_iff_head?_eq_some,
    and_iff_right rfl]

omit [DecidableEq α] in
theorem tripled_infix_cons_cons :
    [c, c, c] <:+: c :: c :: cs ↔ cs.head? = some c ∨ [c, c, c] <:+: cs := by
  have hhead : [c, c] <+: cs → cs.head? = some c := fun h =>
    List.singleton_prefix_iff_head?_eq_some.mp ((List.prefix_append [c] [c]).trans h)
  rw [List.infix_cons_iff, List.infix_cons_iff, List.cons_prefix_cons, List.cons_prefix_cons,
    List.cons_prefix_cons, List.singleton_prefix_iff_head?_eq_some]
  tauto

/-- A run of three leaves a doubled character behind, and shorter runs do not. -/
theorem doubled_infix_collapse_iff :
    [c, c] <:+: replaceAll [c, c] [c] cs ↔ [c, c, c] <:+: cs := by
  have hne : [c, c] ≠ [] := List.cons_ne_nil c [c]
  induction cs using scan_induction hne with
  | nil =>
    rw [replaceAll_nil hne, List.infix_nil, List.infix_nil]
    exact iff_of_false (List.cons_ne_nil _ _) (List.cons_ne_nil _ _)
  | hit rest ih =>
    have hfollow : (replaceAll [c, c] [c] rest).head? = some c ∨
          [c, c] <:+: replaceAll [c, c] [c] rest ↔
        rest.head? = some c ∨ [c, c, c] <:+: rest := by
      rw [head?_collapse]
      exact or_congr_right ih
    rw [replaceAll_hit hne]
    exact doubled_infix_cons.trans (hfollow.trans tripled_infix_cons_cons.symm)
  | miss x cs hmiss ih =>
    have hleft : ¬[c, c] <+: x :: replaceAll [c, c] [c] cs := by
      rw [List.cons_prefix_cons, List.singleton_prefix_iff_head?_eq_some, head?_collapse,
        ← List.singleton_prefix_iff_head?_eq_some, ← List.cons_prefix_cons]
      exact hmiss
    have hright : ¬[c, c, c] <+: x :: cs :=
      fun h => hmiss ((List.prefix_append [c, c] [c]).trans h)
    rw [replaceAll_miss hmiss, List.infix_cons_iff, List.infix_cons_iff, or_iff_right hleft,
      or_iff_right hright]
    exact ih

/-- Collapsing a second time changes nothing exactly when there is no run of three. -/
theorem collapse_collapse_iff :
    replaceAll [c, c] [c] (replaceAll [c, c] [c] cs) = replaceAll [c, c] [c] cs ↔
      ¬[c, c, c] <:+: cs := by
  rw [replaceAll_eq_self_iff, doubled_infix_collapse_iff]
  exact or_iff_left (by simp)

end FastGeoApi.Substitution
