import FastGeoApi.Python.Str
import Mathlib.Data.Rat.Defs

/-!
# Python values

The values that `yaml.safe_load` and `json.loads` build, as trees. A dict is the list of its items
in insertion order; its keys are scalars, since the safe loaders build no other hashable key. A
float key is kept by the text that JSON has for it. Recursive YAML aliases are left out.
-/

namespace FastGeoApi

/-- `1.5`, `-2e-07`, `Infinity`, `NaN`. -/
structure FloatText where
  text : String
  chars : text.toList.all (fun c => c.isDigit || c ∈ ".+-eInfityNa".toList) = true
  deriving DecidableEq

inductive PyKey where
  | none
  | bool (b : Bool)
  | int (i : Int)
  | float (x : FloatText)
  | str (s : String)
  /-- A date, a datetime or a bytes object. -/
  | other (repr : String)
  deriving DecidableEq

inductive PyFloat where
  | finite (q : Rat)
  | inf (negative : Bool)
  | nan
  deriving DecidableEq

inductive PyVal where
  | none
  | bool (b : Bool)
  | int (i : Int)
  | float (x : PyFloat)
  | str (s : String)
  /-- A date, a datetime or a bytes object. -/
  | other (repr : String)
  | set (elems : List PyKey)
  | tuple (items : List PyVal)
  | list (items : List PyVal)
  | dict (items : List (PyKey × PyVal))

namespace PyVal

/-- `d.get(key)` for a string key, on the items of a dict. -/
def get (items : List (PyKey × PyVal)) (key : String) : Option PyVal :=
  items.lookup (.str key)

@[simp] theorem get_nil {key : String} : get [] key = Option.none := rfl

@[simp] theorem get_cons {k : PyKey} {v : PyVal} {items : List (PyKey × PyVal)} {key : String} :
    get ((k, v) :: items) key = if k = .str key then some v else get items key := by
  unfold get
  rw [List.lookup_cons]
  by_cases hk : k = .str key
  · simp [hk]
  · have hbeq : (PyKey.str key == k) = false := beq_eq_false_iff_ne.mpr (Ne.symm hk)
    simp [hk, hbeq]

theorem mem_of_get {items : List (PyKey × PyVal)} {key : String} {v : PyVal}
    (h : get items key = some v) : (.str key, v) ∈ items := by
  obtain ⟨l₁, l₂, rfl, _⟩ := List.lookup_eq_some_iff.mp h
  simp

def isNone : PyVal → Bool
  | .none => true
  | _ => false

/-- `bool(v)`. -/
def truthy : PyVal → Bool
  | .none => false
  | .bool b => b
  | .int i => i ≠ 0
  | .float (.finite q) => q ≠ 0
  | .float _ => true
  | .str s => s ≠ ""
  | .other _ => true
  | .set elems => !elems.isEmpty
  | .tuple items => !items.isEmpty
  | .list items => !items.isEmpty
  | .dict items => !items.isEmpty

/-- `v == s` for a string `s`. -/
def eqStr : PyVal → String → Bool
  | .str s, t => s = t
  | _, _ => false

/-- The number that a value stands for in arithmetic; `bool` is a subclass of `int`. -/
def number? : PyVal → Option PyFloat
  | .bool b => some (.finite (if b then 1 else 0))
  | .int i => some (.finite i)
  | .float x => some x
  | _ => Option.none

theorem eqStr_iff {v : PyVal} {t : String} : v.eqStr t = true ↔ v = .str t := by
  cases v <;> simp [eqStr]

/-- A value and everything inside it, keys apart. -/
inductive Sub : PyVal → PyVal → Prop where
  | refl : Sub v v
  | tuple : x ∈ xs → Sub v x → Sub v (.tuple xs)
  | list : x ∈ xs → Sub v x → Sub v (.list xs)
  | dict : (k, x) ∈ kvs → Sub v x → Sub v (.dict kvs)

theorem Sub.trans {u v w : PyVal} (huv : Sub u v) (hvw : Sub v w) : Sub u w := by
  induction hvw with
  | refl => exact huv
  | tuple hx _ ih => exact .tuple hx (ih huv)
  | list hx _ ih => exact .list hx (ih huv)
  | dict hx _ ih => exact .dict hx (ih huv)

mutual
/-- The values `u` with `Sub u v`. -/
def subs : PyVal → List PyVal
  | .tuple xs => .tuple xs :: subsList xs
  | .list xs => .list xs :: subsList xs
  | .dict kvs => .dict kvs :: subsItems kvs
  | v => [v]

def subsList : List PyVal → List PyVal
  | [] => []
  | x :: xs => subs x ++ subsList xs

def subsItems : List (PyKey × PyVal) → List PyVal
  | [] => []
  | (_, x) :: kvs => subs x ++ subsItems kvs
end

end PyVal

/-- The exception classes that the code raises, catches or lets through. -/
inductive ExcClass where
  | keyError
  | indexError
  | typeError
  | valueError
  | attributeError
  | unboundLocalError
  | unicodeDecodeError
  | jsonDecodeError
  | osError
  | validationError
  | oauth2Error
  | expiredTokenError
  | joseError
  | other (name : String)
  deriving DecidableEq

structure PyError where
  cls : ExcClass
  msg : String := ""
  deriving DecidableEq

theorem except_bind_ok {x : Except PyError α} {f : α → Except PyError β} {b : β} :
    (x >>= f) = .ok b ↔ ∃ a, x = .ok a ∧ f a = .ok b := by
  cases x <;> simp [bind, Except.bind]

/-- `s in v` for a string `s`. -/
def PyVal.isIn (s : String) : PyVal → Except PyError Bool
  | .str t => .ok (Str.isIn s t)
  | .tuple items | .list items => .ok (items.any (·.eqStr s))
  | .set elems => .ok (elems.contains (.str s))
  | .dict items => .ok (items.any (·.1 = .str s))
  | _ => .error ⟨.typeError, "argument is not iterable"⟩

end FastGeoApi
