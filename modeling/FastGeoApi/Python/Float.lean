import FastGeoApi.Lib.Binary64
import FastGeoApi.Python.Value

/-!
# Arithmetic of floats

What the interpreter does with numbers of which one is a float: the exact result is rounded to
binary64, and comparisons are exact.
-/

namespace FastGeoApi

/-- Numbers from here on are rounded to no float. -/
def floatBound : Nat := 2 ^ 1024 - 2 ^ 970

namespace PyFloat

/-- The float that an exact result is rounded to. -/
def ofRat (q : Rat) : PyFloat :=
  if floatBound ≤ |q| then .inf (q < 0) else .finite (roundBinary64 q)

/-- `x - y`. -/
def sub : PyFloat → PyFloat → PyFloat
  | .finite a, .finite b => ofRat (a - b)
  | .finite _, .inf negative => .inf !negative
  | .inf negative, .finite _ => .inf negative
  | .inf negative, .inf negative' => if negative = negative' then .nan else .inf negative
  | .nan, _ | _, .nan => .nan

/-- `x > i`. -/
def exceeds : PyFloat → Int → Bool
  | .finite q, i => q > i
  | .inf negative, _ => !negative
  | .nan, _ => false

theorem floatBound_cast : (floatBound : Rat) = (2 ^ 54 - 1) * 2 ^ 970 := by
  have hnat : floatBound = (2 ^ 54 - 1) * 2 ^ 970 := by decide +kernel
  have hcast : ∀ k : Nat, (((2 ^ 54 - 1) * 2 ^ k : Nat) : Rat) = (2 ^ 54 - 1) * 2 ^ k := by
    intro k
    push_cast
    norm_num
  exact (congrArg Nat.cast hnat).trans (hcast 970)

theorem ofRat_of_float {q : Rat} (h : IsBinary64 q) : ofRat q = .finite q := by
  rw [ofRat, if_neg (by rw [floatBound_cast]; exact h.abs_lt.not_ge), roundBinary64_of_float h]

theorem exceeds_ofRat {q : Rat} {i : Int} (h : IsBinary64 q) :
    (ofRat q).exceeds i = true ↔ q > i := by
  rw [ofRat_of_float h, exceeds, decide_eq_true_eq]

end PyFloat
end FastGeoApi
