import FastGeoApi.Python.Value

/-!
# Paths in a value

A path is the keys and indices that lead from a value to one inside it.
-/

namespace FastGeoApi

instance : Coe String PyKey := ⟨.str⟩

inductive Step where
  | key (key : PyKey)
  | index (i : Nat)
  deriving DecidableEq

namespace PyVal

def step? : PyVal → Step → Option PyVal
  | .dict items, .key key => items.lookup key
  | .list xs, .index i => xs[i]?
  | _, _ => Option.none

/-- The value at a path. -/
def at? (v : PyVal) (path : List Step) : Option PyVal := path.foldlM step? v

@[simp] theorem at?_nil {v : PyVal} : v.at? [] = some v := rfl

theorem at?_cons {v : PyVal} {step : Step} {path : List Step} :
    v.at? (step :: path) = (v.step? step).bind (·.at? path) := rfl

/-- A value that has nothing but `leaf` at the end of the path. -/
def along (leaf : PyVal) : List Step → PyVal
  | [] => leaf
  | .key key :: path => .dict [(key, along leaf path)]
  | .index i :: path => .list (List.replicate i .none ++ [along leaf path])

theorem at?_along (leaf : PyVal) (path : List Step) : (along leaf path).at? path = some leaf := by
  induction path with
  | nil => rfl
  | cons step path ih =>
    rw [at?_cons]
    cases step with
    | key key => rw [along, step?, List.lookup_cons_self, Option.bind_some, ih]
    | index i => simp [along, step?, ih]

/-! ## What is seen along a path -/

/-- What a value is at its top; the inside of dicts and lists is seen at longer paths. -/
inductive Shape where
  | dict (isEmpty : Bool)
  | list
  | leaf (v : PyVal)

def shape : PyVal → Shape
  | .dict items => .dict items.isEmpty
  | .list _ => .list
  | v => .leaf v

def look (v : PyVal) (path : List Step) : Option Shape := (v.at? path).map shape

/-- `u == v`: the order of the items of a dict is not seen. -/
def Same (u v : PyVal) : Prop := ∀ path, u.look path = v.look path

section
variable {items : List (PyKey × PyVal)} {key : PyKey} {path : List Step} {u v w : PyVal}

theorem Same.refl (v : PyVal) : Same v v := fun _ => rfl

theorem Same.symm (h : Same u v) : Same v u := fun path => (h path).symm

theorem Same.trans (h : Same u v) (h' : Same v w) : Same u w :=
  fun path => (h path).trans (h' path)

theorem look_nil : v.look [] = some v.shape := rfl

theorem look_lookup :
    (dict items).look (.key key :: path) = (items.lookup key).bind (·.look path) := by
  rw [look, at?_cons, step?, Option.map_bind]
  rfl

theorem look_key {key : String} :
    (dict items).look (.key key :: path) = (get items key).bind (·.look path) := look_lookup

theorem look_key_of_get {key : String} (h : get items key = some v) :
    (dict items).look (.key key :: path) = v.look path := by
  rw [look_key, h, Option.bind_some]

theorem look_key_isSome {key : String} :
    ((dict items).look [.key key]).isSome = (get items key).isSome := by
  rw [look_key]
  cases get items key <;> rfl

/-- A dict is told by its shape. -/
theorem exists_dict_of_shape {isEmpty : Bool} (h : v.shape = .dict isEmpty) :
    ∃ items, v = .dict items ∧ items.isEmpty = isEmpty := by
  cases v with
  | dict items => exact ⟨items, rfl, Shape.dict.inj h⟩
  | _ => cases h

end
end PyVal
end FastGeoApi
