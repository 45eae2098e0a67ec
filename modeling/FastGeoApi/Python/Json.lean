import FastGeoApi.Lib.Lists
import FastGeoApi.Python.Dict
import FastGeoApi.Python.Value
import Mathlib.Algebra.Group.Nat.Defs

/-!
# `json.dump` and `json.load`

A file is represented by what `json.load` makes of its text. `jsonDump` gives the file that
`json.dump` leaves behind: a key that is not a string is written as one, a tuple is written as an
array, and of two items written under one key the later value is read back. Dates, bytes and sets
are not serialisable, nor are integers of more than 4300 digits.
-/

namespace FastGeoApi

/-- What reading a file comes to: what `json.load` makes of it, or the exception that is raised. An
`OSError` of `open` or of a read is `.osError`. -/
abbrev CacheFile := Except PyError PyVal

/-- `int.__repr__`. -/
def intRepr (i : Int) : Except PyError String :=
  if i.natAbs < 10 ^ 4300 then .ok (toString i)
  else .error ⟨.valueError, "Exceeds the limit (4300 digits) for integer string conversion"⟩

/-- The text that a dict key is written as. -/
def jsonKey : PyKey → Except PyError String
  | .none => .ok "null"
  | .bool b => .ok (if b then "true" else "false")
  | .int i => intRepr i
  | .float x => .ok x.text
  | .str s => .ok s
  | .other _ => .error ⟨.typeError, "keys must be str, int, float, bool or None"⟩

/-- `dict(pairs)`. -/
def dictOf (pairs : List (PyKey × PyVal)) : List (PyKey × PyVal) :=
  pairs.foldl (fun items kv => setItem items kv.1 kv.2) []

mutual
/-- `json.loads(json.dumps(v))`. -/
def jsonRoundTrip : PyVal → Except PyError PyVal
  | .int i => do
    let _ ← intRepr i
    return .int i
  | .tuple items | .list items => do return .list (← jsonRoundTripList items)
  | .dict items => do return .dict (dictOf (← jsonRoundTripItems items))
  | .set _ | .other _ => .error ⟨.typeError, "Object is not JSON serializable"⟩
  | v => .ok v

def jsonRoundTripList : List PyVal → Except PyError (List PyVal)
  | [] => .ok []
  | v :: items => do
    let v' ← jsonRoundTrip v
    let rest ← jsonRoundTripList items
    return v' :: rest

def jsonRoundTripItems : List (PyKey × PyVal) → Except PyError (List (PyKey × PyVal))
  | [] => .ok []
  | (k, v) :: items => do
    let k' ← jsonKey k
    let v' ← jsonRoundTrip v
    let rest ← jsonRoundTripItems items
    return (.str k', v') :: rest
end

/-- `json.dump(v, f)`: the file left behind, and the exception raised. -/
def jsonDump (v : PyVal) : CacheFile × Option PyError :=
  match jsonRoundTrip v with
  | .ok v' => (.ok v', none)
  | .error e => (.error ⟨.jsonDecodeError, "partial text"⟩, some e)

/-! ## Values that survive -/

/-- The items that `json.load` reads for written items: the same number, keys turned into text. -/
def WrittenAs (kv kv' : PyKey × PyVal) : Prop :=
  ∃ key, jsonKey kv.1 = .ok key ∧ kv'.1 = .str key ∧ jsonRoundTrip kv.2 = .ok kv'.2

theorem jsonRoundTripList_iff {xs ys : List PyVal} :
    jsonRoundTripList xs = .ok ys ↔ List.Forall₂ (fun x y => jsonRoundTrip x = .ok y) xs ys := by
  induction xs generalizing ys with
  | nil => rw [jsonRoundTripList, Except.ok.injEq, List.forall₂_nil_left_iff, eq_comm]
  | cons x xs ih =>
    rw [jsonRoundTripList, List.forall₂_cons_left_iff]
    simp only [except_bind_ok, ih, pure, Except.pure, Except.ok.injEq, eq_comm (b := ys),
      exists_and_left]

theorem jsonRoundTripItems_iff {items items' : List (PyKey × PyVal)} :
    jsonRoundTripItems items = .ok items' ↔ List.Forall₂ WrittenAs items items' := by
  induction items generalizing items' with
  | nil => rw [jsonRoundTripItems, Except.ok.injEq, List.forall₂_nil_left_iff, eq_comm]
  | cons kv items ih =>
    obtain ⟨k, v⟩ := kv
    rw [jsonRoundTripItems, List.forall₂_cons_left_iff]
    simp only [except_bind_ok, ih, pure, Except.pure, Except.ok.injEq]
    refine ⟨?_, ?_⟩
    · intro hwritten
      obtain ⟨key, hkey, v', hv, rest, hrest, rfl⟩ := hwritten
      exact ⟨_, _, ⟨key, hkey, rfl, hv⟩, hrest, rfl⟩
    · intro hwritten
      obtain ⟨⟨_, v'⟩, rest, ⟨key, hkey, rfl, hv⟩, hrest, rfl⟩ := hwritten
      exact ⟨key, hkey, v', hv, rest, hrest, rfl⟩

theorem jsonRoundTrip_dict {items : List (PyKey × PyVal)} {v : PyVal} :
    jsonRoundTrip (.dict items) = .ok v ↔
      ∃ pairs, List.Forall₂ WrittenAs items pairs ∧ v = .dict (dictOf pairs) := by
  rw [jsonRoundTrip]
  simp only [except_bind_ok, jsonRoundTripItems_iff, pure, Except.pure, Except.ok.injEq,
    eq_comm (b := v)]

theorem jsonRoundTrip_list {xs : List PyVal} {v : PyVal} :
    jsonRoundTrip (.list xs) = .ok v ↔
      ∃ ys, List.Forall₂ (fun x y => jsonRoundTrip x = .ok y) xs ys ∧ v = .list ys := by
  rw [jsonRoundTrip]
  simp only [except_bind_ok, jsonRoundTripList_iff, pure, Except.pure, Except.ok.injEq,
    eq_comm (b := v)]

theorem jsonRoundTrip_tuple {xs : List PyVal} {v : PyVal} :
    jsonRoundTrip (.tuple xs) = .ok v ↔
      ∃ ys, List.Forall₂ (fun x y => jsonRoundTrip x = .ok y) xs ys ∧ v = .list ys := by
  rw [jsonRoundTrip]
  simp only [except_bind_ok, jsonRoundTripList_iff, pure, Except.pure, Except.ok.injEq,
    eq_comm (b := v)]

/-! ## Keys that do not clash -/

def SameJsonKey (kv kv' : PyKey × PyVal) : Prop :=
  ∃ key, jsonKey kv.1 = .ok key ∧ jsonKey kv'.1 = .ok key

/-- No two keys of a dict inside the value are written as the same text. -/
def NoClash (v : PyVal) : Prop :=
  ∀ items, PyVal.Sub (.dict items) v → items.Pairwise fun kv kv' => ¬SameJsonKey kv kv'

theorem foldl_setItem {pairs acc : List (PyKey × PyVal)}
    (h : (acc ++ pairs).Pairwise fun kv kv' => kv.1 ≠ kv'.1) :
    pairs.foldl (fun items kv => setItem items kv.1 kv.2) acc = acc ++ pairs := by
  induction pairs generalizing acc with
  | nil => simp
  | cons kv pairs ih =>
    have hkv : ∀ kv' ∈ acc, kv'.1 ≠ kv.1 := fun kv' hkv' =>
      (List.pairwise_append.mp h).2.2 kv' hkv' kv List.mem_cons_self
    rw [List.foldl_cons, setItem_of_not_mem hkv, ih (by simpa using h)]
    simp

theorem dictOf_eq_self {pairs : List (PyKey × PyVal)}
    (h : pairs.Pairwise fun kv kv' => kv.1 ≠ kv'.1) : dictOf pairs = pairs :=
  foldl_setItem (by simpa using h)

section
variable {items pairs : List (PyKey × PyVal)}

theorem pairwise_of_written (h : List.Forall₂ WrittenAs items pairs)
    (hno : items.Pairwise fun kv kv' => ¬SameJsonKey kv kv') :
    pairs.Pairwise fun kv kv' => kv.1 ≠ kv'.1 := by
  induction h with
  | nil => exact .nil
  | cons hkv hrest ih =>
    obtain ⟨hhead, htail⟩ := List.pairwise_cons.mp hno
    refine List.pairwise_cons.mpr ⟨fun other' hother' heq => ?_, ih htail⟩
    obtain ⟨other, hother, key', hkey', hother', _⟩ := exists_of_mem_forall₂ hrest.flip hother'
    obtain ⟨key, hkey, hkv', _⟩ := hkv
    rw [hkv', hother', PyKey.str.injEq] at heq
    exact hhead other hother ⟨key, hkey, heq ▸ hkey'⟩

theorem dictOf_of_written (h : List.Forall₂ WrittenAs items pairs)
    (hno : items.Pairwise fun kv kv' => ¬SameJsonKey kv kv') : dictOf pairs = pairs :=
  dictOf_eq_self (pairwise_of_written h hno)

/-- A string key is found again, with the value read back. -/
theorem get_written (h : List.Forall₂ WrittenAs items pairs)
    (hno : items.Pairwise fun kv kv' => ¬SameJsonKey kv kv') {key : String} {v : PyVal}
    (hget : PyVal.get items key = some v) :
    ∃ v', PyVal.get pairs key = some v' ∧ jsonRoundTrip v = .ok v' := by
  induction h with
  | nil => simp at hget
  | @cons kv kv' items pairs hkv hrest ih =>
    obtain ⟨k, u⟩ := kv
    obtain ⟨k', u'⟩ := kv'
    obtain ⟨text, hk, hk', hu⟩ := hkv
    obtain ⟨hhead, htail⟩ := List.pairwise_cons.mp hno
    rw [PyVal.get_cons] at hget ⊢
    simp only at hk'
    subst hk'
    by_cases hkey : k = .str key
    · rw [if_pos hkey, Option.some.injEq] at hget
      rw [hkey] at hk
      cases hk
      exact ⟨u', if_pos rfl, hget ▸ hu⟩
    · rw [if_neg hkey] at hget
      -- the key is further on, so this one is written differently
      have hmem : (PyKey.str key, v) ∈ items := PyVal.mem_of_get hget
      have hne : PyKey.str text ≠ .str key := by
        intro heq
        cases heq
        exact hhead _ hmem ⟨_, hk, rfl⟩
      rw [if_neg hne]
      exact ih htail hget

theorem toString_int_ne_ref {i : Int} : toString i ≠ "$ref" := by
  intro h
  cases i with
  | ofNat m =>
    have hlist : Nat.toDigits 10 m = "$ref".toList := by
      rw [← h]
      exact Nat.toList_repr.symm
    have hdigit : '$'.isDigit = true :=
      Nat.isDigit_of_mem_toDigits (b := 10) (n := m) (by decide) (by decide) (by rw [hlist]; decide)
    cases hdigit
  | negSucc m =>
    have hlist : "$ref".toList = '-' :: (Nat.repr (m + 1)).toList := by
      rw [← h]
      exact String.toList_append
    cases hlist

theorem FloatText.ne_ref (x : FloatText) : x.text ≠ "$ref" := by
  intro h
  have hchars := x.chars
  rw [h] at hchars
  revert hchars
  decide

/-- Only the key itself is written as `$ref`. -/
theorem jsonKey_eq_ref {k : PyKey} : jsonKey k = .ok "$ref" ↔ k = .str "$ref" := by
  refine ⟨fun h => ?_, fun h => h ▸ rfl⟩
  cases k with
  | none => exact absurd (Except.ok.inj h) (by decide)
  | bool b => exact absurd (Except.ok.inj h) (by cases b <;> decide)
  | int i =>
    rw [jsonKey, intRepr] at h
    split at h
    · exact absurd (Except.ok.inj h) toString_int_ne_ref
    · cases h
  | float x => exact absurd (Except.ok.inj h) x.ne_ref
  | str s => exact congrArg _ (Except.ok.inj h)
  | other repr => cases h

end
end FastGeoApi
