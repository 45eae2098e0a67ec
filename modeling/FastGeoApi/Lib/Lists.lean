import Mathlib.Data.List.Forall2

/-!
# Lists related element by element, prefixes, common bounds, and folds that do not fail
-/

namespace FastGeoApi

theorem exists_of_mem_forall₂ {R : α → β → Prop} {as : List α} {bs : List β}
    (h : List.Forall₂ R as bs) {a : α} (ha : a ∈ as) : ∃ b ∈ bs, R a b := by
  induction h with
  | nil => simp at ha
  | cons hab _ ih =>
    rcases List.mem_cons.mp ha with rfl | ha
    · exact ⟨_, List.mem_cons_self, hab⟩
    · obtain ⟨b, hb, hR⟩ := ih ha
      exact ⟨b, List.mem_cons_of_mem _ hb, hR⟩

theorem exists_forall₂_of_forall_mem {R : α → β → Prop} {as : List α}
    (h : ∀ a ∈ as, ∃ b, R a b) : ∃ bs, List.Forall₂ R as bs := by
  induction as with
  | nil => exact ⟨[], .nil⟩
  | cons a as ih =>
    obtain ⟨b, hb⟩ := h a List.mem_cons_self
    obtain ⟨bs, hbs⟩ := ih fun x hx => h x (List.mem_cons_of_mem _ hx)
    exact ⟨b :: bs, .cons hb hbs⟩

theorem forall₂_getElem? {R : α → β → Prop} {as : List α} {bs : List β}
    (h : List.Forall₂ R as bs) (i : Nat) :
    (as[i]? = none ∧ bs[i]? = none) ∨ ∃ a b, as[i]? = some a ∧ bs[i]? = some b ∧ R a b := by
  induction h generalizing i with
  | nil => exact .inl ⟨rfl, rfl⟩
  | cons hab _ ih =>
    cases i with
    | zero => exact .inr ⟨_, _, rfl, rfl, hab⟩
    | succ i => exact ih i

theorem exists_common {R S : α → β → Prop} {as bs : List α} (hlen : as.length = bs.length)
    (h : ∀ (i : Nat) a b, as[i]? = some a → bs[i]? = some b → ∃ c, R a c ∧ S b c) :
    ∃ cs, List.Forall₂ R as cs ∧ List.Forall₂ S bs cs := by
  induction as generalizing bs with
  | nil =>
    cases bs with
    | nil => exact ⟨[], .nil, .nil⟩
    | cons b bs => simp at hlen
  | cons a as ih =>
    cases bs with
    | nil => simp at hlen
    | cons b bs =>
      obtain ⟨c, hac, hbc⟩ := h 0 a b rfl rfl
      have hrest : ∀ (i : Nat) a' b', as[i]? = some a' → bs[i]? = some b' → ∃ c, R a' c ∧ S b' c :=
        fun i a' b' ha hb => h (i + 1) a' b' ha hb
      obtain ⟨cs, has, hbs⟩ := ih (by simpa using hlen) hrest
      exact ⟨c :: cs, .cons hac has, .cons hbc hbs⟩

theorem getElem?_of_isPrefix {as bs : List α} {i : Nat} {a : α} (h : as <+: bs)
    (ha : as[i]? = some a) : bs[i]? = some a := by
  obtain ⟨cs, rfl⟩ := h
  obtain ⟨hi, _⟩ := List.getElem?_eq_some_iff.mp ha
  rw [List.getElem?_append_left hi, ha]

theorem exists_common_bound {P : α → Nat → Prop} (hmono : ∀ a m n, m ≤ n → P a m → P a n)
    {as : List α} (h : ∀ a ∈ as, ∃ n, P a n) : ∃ n, ∀ a ∈ as, P a n := by
  induction as with
  | nil => exact ⟨0, fun a ha => absurd ha List.not_mem_nil⟩
  | cons a as ih =>
    obtain ⟨m, hm⟩ := h a List.mem_cons_self
    obtain ⟨n, hn⟩ := ih fun a' ha' => h a' (List.mem_cons_of_mem _ ha')
    refine ⟨max m n, fun a' ha' => ?_⟩
    rcases List.mem_cons.mp ha' with rfl | ha'
    · exact hmono _ _ _ (Nat.le_max_left m n) hm
    · exact hmono _ _ _ (Nat.le_max_right m n) (hn a' ha')

theorem foldlM_eq_ok {f : β → α → Except ε β} {g : β → α → β} {as : List α} {b : β}
    (h : ∀ a ∈ as, ∀ b, f b a = .ok (g b a)) : as.foldlM f b = .ok (as.foldl g b) := by
  induction as generalizing b with
  | nil => rfl
  | cons a as ih =>
    rw [List.foldlM_cons, List.foldl_cons, h a List.mem_cons_self]
    exact ih fun a' ha' => h a' (List.mem_cons_of_mem a ha')

end FastGeoApi
