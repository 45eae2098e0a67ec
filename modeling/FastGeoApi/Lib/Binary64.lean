import Mathlib.Algebra.Order.Field.Power
import Mathlib.Algebra.Order.Field.Rat
import Mathlib.Data.Rat.Floor

/-!
# Rounding to binary64

A rational is rounded to a multiple of the unit in the last place of its binade, the nearest one
and the even one of two. What a float can hold is its own rounding (`roundBinary64_of_float`).
-/

namespace FastGeoApi

/-- `q` is a finite binary64 float: 53 bits, and the least exponent of a subnormal one. -/
def IsBinary64 (q : Rat) : Prop :=
  ∃ m k : Int, m.natAbs < 2 ^ 53 ∧ -1074 ≤ k ∧ k ≤ 971 ∧ q = m * 2 ^ k

/-- The exponent of the largest power of two that is at most `|q|`. -/
def binade (q : Rat) : Int :=
  let e : Int := q.num.natAbs.log2 - q.den.log2
  if (2 : Rat) ^ e ≤ |q| then e else e - 1

/-- The exponent of the unit in the last place. -/
def lastPlace (q : Rat) : Int := max (binade q - 52) (-1074)

/-- The nearest integer, the even one of two. -/
def roundHalfEven (q : Rat) : Int :=
  let rest := q - q.floor
  if rest < 1 / 2 ∨ rest = 1 / 2 ∧ q.floor % 2 = 0 then q.floor else q.floor + 1

/-- The nearest binary64 float, where there is no overflow. -/
def roundBinary64 (q : Rat) : Rat := roundHalfEven (q / 2 ^ lastPlace q) * 2 ^ lastPlace q

theorem roundHalfEven_intCast (z : Int) : roundHalfEven z = z := by
  simp [roundHalfEven]

theorem abs_eq_div (q : Rat) : |q| = (q.num.natAbs : Rat) / q.den := by
  conv_lhs => rw [← Rat.num_div_den q, abs_div, Nat.abs_cast]
  rw [Nat.cast_natAbs, Int.cast_abs]

/-- The binade of a rational is not above it. -/
theorem two_zpow_binade_le {q : Rat} (hq : q ≠ 0) : (2 : Rat) ^ binade q ≤ |q| := by
  simp only [binade]
  split
  · assumption
  · have hnum : (2 : Rat) ^ q.num.natAbs.log2 ≤ q.num.natAbs := by
      have hpos : q.num.natAbs ≠ 0 := Int.natAbs_ne_zero.mpr (Rat.num_ne_zero.mpr hq)
      exact_mod_cast Nat.log2_self_le hpos
    have hden : (q.den : Rat) ≤ 2 ^ (q.den.log2 + 1) := by
      exact_mod_cast Nat.le_of_lt Nat.lt_log2_self
    have hpos : (0 : Rat) < q.den := by exact_mod_cast q.den_pos
    rw [abs_eq_div, le_div_iff₀ hpos]
    calc (2 : Rat) ^ ((q.num.natAbs.log2 : Int) - q.den.log2 - 1) * q.den
        ≤ 2 ^ ((q.num.natAbs.log2 : Int) - q.den.log2 - 1) * 2 ^ (q.den.log2 + 1) :=
          mul_le_mul_of_nonneg_left hden (by positivity)
      _ = 2 ^ q.num.natAbs.log2 := by
          rw [← zpow_natCast, ← zpow_natCast, ← zpow_add₀ two_ne_zero]
          congr 1
          push_cast
          omega
      _ ≤ q.num.natAbs := hnum

/-- The last place of a float is not above the one that it is written with. -/
theorem lastPlace_le {m k : Int} (hm : m.natAbs < 2 ^ 53) (hk : -1074 ≤ k)
    (hne : (m * 2 ^ k : Rat) ≠ 0) : lastPlace (m * 2 ^ k) ≤ k := by
  have habs : |(m * 2 ^ k : Rat)| < 2 ^ (53 + k) := by
    have hm' : |(m : Rat)| < 2 ^ (53 : Int) := by
      rw [← Int.cast_abs, ← Int.natCast_natAbs]
      exact_mod_cast hm
    rw [abs_mul, zpow_add₀ two_ne_zero, abs_of_pos (by positivity : (0 : Rat) < 2 ^ k)]
    exact mul_lt_mul_of_pos_right hm' (by positivity)
  have hlt : (2 : Rat) ^ binade (m * 2 ^ k) < 2 ^ (53 + k) :=
    (two_zpow_binade_le hne).trans_lt habs
  have hbinade := (zpow_lt_zpow_iff_right₀ one_lt_two).mp hlt
  unfold lastPlace
  omega

/-- A float is its own rounding. -/
theorem roundBinary64_of_float {q : Rat} (h : IsBinary64 q) : roundBinary64 q = q := by
  obtain ⟨m, k, hm, hk, _, rfl⟩ := h
  by_cases hne : (m * 2 ^ k : Rat) = 0
  · have hzero : roundHalfEven 0 = 0 := by simpa using roundHalfEven_intCast 0
    simp [hne, roundBinary64, hzero]
  · have hle := lastPlace_le hm hk hne
    obtain ⟨n, hn⟩ := Int.eq_ofNat_of_zero_le (Int.sub_nonneg.mpr hle)
    have hshift : (m * 2 ^ k : Rat) / 2 ^ lastPlace (m * 2 ^ k) = ((m * 2 ^ n : Int) : Rat) := by
      rw [mul_div_assoc, ← zpow_sub₀ two_ne_zero, hn]
      push_cast
      rfl
    rw [roundBinary64, hshift, roundHalfEven_intCast, ← hshift]
    exact div_mul_cancel₀ _ (by positivity)

/-- A whole number of less than 53 bits is a float. -/
theorem isBinary64_intCast {z : Int} (h : z.natAbs < 2 ^ 53) : IsBinary64 z :=
  ⟨z, 0, h, by decide, by decide, by simp⟩

theorem IsBinary64.abs_lt {q : Rat} (h : IsBinary64 q) : |q| < (2 ^ 54 - 1) * 2 ^ 970 := by
  obtain ⟨m, k, hm, _, hk, rfl⟩ := h
  have hm' : |(m : Rat)| ≤ 2 ^ 53 - 1 := by
    have habs : |m| ≤ 2 ^ 53 - 1 := by
      rw [← Int.natCast_natAbs]
      omega
    exact_mod_cast habs
  have hk' : (2 : Rat) ^ k ≤ 2 * 2 ^ 970 := by
    have hle : (2 : Rat) ^ k ≤ 2 ^ (971 : Int) := zpow_le_zpow_right₀ one_le_two hk
    rwa [show (971 : Int) = ((1 + 970 : Nat) : Int) from rfl, zpow_natCast, pow_add, pow_one] at hle
  calc |(m * 2 ^ k : Rat)| = |(m : Rat)| * 2 ^ k := by
        rw [abs_mul, abs_of_pos (by positivity : (0 : Rat) < 2 ^ k)]
    _ ≤ (2 ^ 53 - 1) * (2 * 2 ^ 970) := by gcongr
    _ = (2 ^ 54 - 2) * 2 ^ 970 := by rw [← mul_assoc]; congr 1; norm_num
    _ < (2 ^ 54 - 1) * 2 ^ 970 := mul_lt_mul_of_pos_right (by norm_num) (by positivity)

end FastGeoApi
