import Mathlib.Data.List.Induction
import Mathlib.Data.List.Nodup

/-!
# Dicts with string keys

A dict is its items in insertion order, no key twice. `setItem` is `d[key] = value`: the item keeps
its place when the key is there, and comes last when it is not.
-/

namespace FastGeoApi

/-- `d[key] = value`, on the items of a dict. -/
def setItem [DecidableEq κ] (items : List (κ × α)) (key : κ) (value : α) : List (κ × α) :=
  match items with
  | [] => [(key, value)]
  | (k, v) :: rest => if k = key then (k, value) :: rest else (k, v) :: setItem rest key value

theorem setItem_keys [DecidableEq κ] {items : List (κ × α)} {key : κ} {value : α} :
    (setItem items key value).map Prod.fst =
      if key ∈ items.map Prod.fst then items.map Prod.fst else items.map Prod.fst ++ [key] := by
  induction items with
  | nil => rfl
  | cons kv items ih =>
    obtain ⟨k, v⟩ := kv
    rw [setItem]
    by_cases hk : k = key
    · simp [hk]
    · have hne : key ≠ k := Ne.symm hk
      rw [if_neg hk, List.map_cons, ih]
      by_cases hmem : key ∈ items.map Prod.fst
      · simp only [hmem, if_true, List.map_cons, List.mem_cons, or_true]
      · simp only [hmem, hne, if_false, List.map_cons, List.mem_cons, or_self, List.cons_append]

theorem setItem_nodup [DecidableEq κ] {items : List (κ × α)} (h : (items.map Prod.fst).Nodup)
    (key : κ) (value : α) : ((setItem items key value).map Prod.fst).Nodup := by
  rw [setItem_keys]
  split
  · exact h
  · rename_i hmem
    rw [List.nodup_append]
    refine ⟨h, List.nodup_singleton key, fun a ha b hb => ?_⟩
    rw [List.mem_singleton.mp hb]
    exact fun heq => hmem (heq ▸ ha)

theorem setItem_of_not_mem [DecidableEq κ] {items : List (κ × α)} {key : κ} {value : α}
    (h : ∀ kv ∈ items, kv.1 ≠ key) : setItem items key value = items ++ [(key, value)] := by
  induction items with
  | nil => rfl
  | cons kv items ih =>
    rw [setItem, if_neg (h kv List.mem_cons_self)]
    rw [ih fun kv' hkv' => h kv' (List.mem_cons_of_mem _ hkv'), List.cons_append]

theorem lookup_setItem [DecidableEq κ] {items : List (κ × α)} {key other : κ} {value : α} :
    (setItem items key value).lookup other =
      if other = key then some value else items.lookup other := by
  induction items with
  | nil =>
    by_cases h : other = key
    · simp [setItem, h]
    · have hbeq : (other == key) = false := beq_eq_false_iff_ne.mpr h
      simp [setItem, h, List.lookup_cons, hbeq]
  | cons kv items ih =>
    obtain ⟨k, v⟩ := kv
    rw [setItem]
    by_cases hk : k = key
    · subst hk
      by_cases h : other = k
      · simp [h]
      · have hbeq : (other == k) = false := beq_eq_false_iff_ne.mpr h
        simp [h, List.lookup_cons, hbeq]
    · rw [if_neg hk, List.lookup_cons, List.lookup_cons, ih]
      by_cases h : other = k
      · simp [h, hk]
      · have hbeq : (other == k) = false := beq_eq_false_iff_ne.mpr h
        simp [hbeq]

/-- Assigning the value that is there already changes nothing. -/
theorem setItem_of_lookup [DecidableEq κ] {items : List (κ × α)} {key : κ} {value : α}
    (h : items.lookup key = some value) : setItem items key value = items := by
  induction items with
  | nil => cases h
  | cons kv items ih =>
    obtain ⟨k, v⟩ := kv
    rw [setItem]
    by_cases hk : k = key
    · subst hk
      rw [List.lookup_cons_self] at h
      rw [if_pos rfl, Option.some.inj h]
    · rw [List.lookup_cons, beq_eq_false_iff_ne.mpr (Ne.symm hk)] at h
      rw [if_neg hk, ih h]

theorem lookup_of_mem [DecidableEq κ] {items : List (κ × α)} (h : (items.map Prod.fst).Nodup)
    {kv : κ × α} (hkv : kv ∈ items) : items.lookup kv.1 = some kv.2 := by
  induction items with
  | nil => exact absurd hkv List.not_mem_nil
  | cons first items ih =>
    rw [List.map_cons, List.nodup_cons] at h
    rcases List.mem_cons.mp hkv with rfl | hkv
    · exact List.lookup_cons_self
    · have hne : kv.1 ≠ first.1 := fun heq => h.1 (heq ▸ List.mem_map_of_mem hkv)
      rw [List.lookup_cons, beq_eq_false_iff_ne.mpr hne]
      exact ih h.2 hkv

/-- `dict(pairs)`: a repeated key has its last value. -/
def pyDict [DecidableEq κ] (pairs : List (κ × α)) : List (κ × α) :=
  pairs.foldl (fun items kv => setItem items kv.1 kv.2) []

/-- `dict(mapping)`, for a mapping with these keys, which may be repeated. -/
def dictFromKeys [DecidableEq κ] (value : κ → α) (keys : List κ) : List (κ × α) :=
  keys.foldl (fun items key => setItem items key (value key)) []

section
variable [DecidableEq κ] {value : κ → α} {keys : List κ}

theorem dictFromKeys_append {key : κ} :
    dictFromKeys value (keys ++ [key]) = setItem (dictFromKeys value keys) key (value key) := by
  rw [dictFromKeys, List.foldl_append, List.foldl_cons, List.foldl_nil, ← dictFromKeys]

theorem dictFromKeys_nodup : ((dictFromKeys value keys).map Prod.fst).Nodup := by
  induction keys using List.reverseRecOn with
  | nil => exact List.nodup_nil
  | append_singleton keys key ih =>
    rw [dictFromKeys_append]
    exact setItem_nodup ih key _

theorem mem_keys_dictFromKeys {key : κ} :
    key ∈ (dictFromKeys value keys).map Prod.fst ↔ key ∈ keys := by
  induction keys using List.reverseRecOn with
  | nil => exact Iff.rfl
  | append_singleton keys last ih =>
    rw [dictFromKeys_append, setItem_keys, List.mem_append, List.mem_singleton]
    split
    · rename_i hlast
      refine ⟨fun h => .inl (ih.mp h), fun h => ?_⟩
      rcases h with h | rfl
      · exact ih.mpr h
      · exact hlast
    · rw [List.mem_append, List.mem_singleton, ih]

theorem dictFromKeys_of_nodup (h : keys.Nodup) :
    dictFromKeys value keys = keys.map fun key => (key, value key) := by
  induction keys using List.reverseRecOn with
  | nil => rfl
  | append_singleton keys key ih =>
    rw [List.nodup_append] at h
    rw [dictFromKeys_append, ih h.1, setItem_of_not_mem, List.map_append, List.map_singleton]
    intro kv hkv
    obtain ⟨key', hkey', rfl⟩ := List.mem_map.mp hkv
    exact h.2.2 key' hkey' key (List.mem_singleton_self key)

theorem filter_setItem {p : κ → Bool} {items : List (κ × α)} {key : κ} {v : α} :
    (setItem items key v).filter (p ·.1) =
      if p key then setItem (items.filter (p ·.1)) key v else items.filter (p ·.1) := by
  induction items with
  | nil =>
    rw [setItem, List.filter_cons]
    rfl
  | cons kv items ih =>
    obtain ⟨k, w⟩ := kv
    rw [setItem]
    by_cases hk : k = key
    · subst hk
      rw [if_pos rfl, List.filter_cons, List.filter_cons]
      cases hp : p k with
      | true => simp [setItem]
      | false => simp
    · rw [if_neg hk, List.filter_cons, ih, List.filter_cons]
      cases p k with
      | true => cases p key <;> simp [setItem, hk]
      | false => simp

theorem filter_dictFromKeys {p : κ → Bool} :
    (dictFromKeys value keys).filter (p ·.1) = dictFromKeys value (keys.filter p) := by
  induction keys using List.reverseRecOn with
  | nil => rfl
  | append_singleton keys key ih =>
    rw [dictFromKeys_append, filter_setItem, ih, List.filter_append, List.filter_singleton]
    cases p key with
    | true => rw [if_pos rfl, cond_true, dictFromKeys_append]
    | false => rw [if_neg Bool.false_ne_true, cond_false, List.append_nil]

end

/-- `items.get(key)`. -/
def pyGet [DecidableEq κ] (items : List (κ × α)) (key : κ) : Option α := items.lookup key

theorem pyGet_pyDict [DecidableEq κ] {pairs : List (κ × α)} {key : κ} :
    pyGet (pyDict pairs) key = pyGet pairs.reverse key := by
  induction pairs using List.reverseRecOn with
  | nil => rfl
  | append_singleton pairs kv ih =>
    rw [pyGet, pyDict, List.foldl_append, List.foldl_cons, List.foldl_nil, lookup_setItem, ← pyDict,
      ← pyGet, ih, pyGet, pyGet, List.reverse_append, List.reverse_singleton,
      List.singleton_append, List.lookup_cons]
    by_cases h : key = kv.1
    · rw [if_pos h, h, beq_self_eq_true]
    · rw [if_neg h, beq_eq_false_iff_ne.mpr h]

theorem mem_of_pyGet_pyDict [DecidableEq κ] {pairs : List (κ × α)} {key : κ} {value : α}
    (h : pyGet (pyDict pairs) key = some value) : (key, value) ∈ pairs := by
  rw [pyGet_pyDict, pyGet] at h
  obtain ⟨before, after, hpairs, _⟩ := List.lookup_eq_some_iff.mp h
  rw [← List.mem_reverse, hpairs]
  simp

structure Dict (α : Type) where
  items : List (String × α)
  nodup : (items.map Prod.fst).Nodup

namespace Dict

def empty : Dict α := ⟨[], List.nodup_nil⟩

def single (key : String) (value : α) : Dict α := ⟨[(key, value)], List.nodup_singleton key⟩

def isEmpty (d : Dict α) : Bool := d.items.isEmpty

/-- `d.get(key)`. -/
def get? (d : Dict α) (key : String) : Option α := d.items.lookup key

/-- `d[key] = value`. -/
def set (d : Dict α) (key : String) (value : α) : Dict α :=
  ⟨setItem d.items key value, setItem_nodup d.nodup key value⟩

/-- `d.update(e)`. -/
def update (d e : Dict α) : Dict α := e.items.foldl (fun d kv => d.set kv.1 kv.2) d

/-- A new dict with the values that `f` gives for the items of `d`, in their order. -/
def collect (f : String → α → Option β) (d : Dict α) : Dict β :=
  d.items.foldl (fun e kv => match f kv.1 kv.2 with
    | some value => e.set kv.1 value
    | none => e) empty

@[simp] theorem get?_empty {key : String} : (empty : Dict α).get? key = none := rfl

theorem get?_set {d : Dict α} {key other : String} {value : α} :
    (d.set key value).get? other = if other = key then some value else d.get? other :=
  lookup_setItem

@[simp] theorem update_single {d : Dict α} {key : String} {value : α} :
    d.update (single key value) = d.set key value := rfl

@[simp] theorem get?_single {key : String} {value : α} : (single key value).get? key = some value :=
  List.lookup_cons_self

theorem isEmpty_iff {d : Dict α} : d.isEmpty = true ↔ ∀ key, d.get? key = none := by
  obtain ⟨items, hnodup⟩ := d
  cases items with
  | nil => simp [isEmpty, get?]
  | cons kv items =>
    refine ⟨(nomatch ·), fun h => ?_⟩
    have hfirst := h kv.1
    rw [get?, List.lookup_cons_self] at hfirst
    cases hfirst

theorem items_foldl_collect {f : String → α → Option β} {items : List (String × α)}
    (hnodup : (items.map Prod.fst).Nodup) {e : Dict β}
    (hfresh : ∀ kv ∈ items, ∀ kv' ∈ e.items, kv'.1 ≠ kv.1) :
    (items.foldl (fun e kv => match f kv.1 kv.2 with
      | some value => e.set kv.1 value
      | none => e) e).items =
        e.items ++ items.filterMap fun kv => (f kv.1 kv.2).map (Prod.mk kv.1) := by
  induction items generalizing e with
  | nil => exact (List.append_nil _).symm
  | cons kv items ih =>
    rw [List.map_cons, List.nodup_cons] at hnodup
    have hrest : ∀ kv' ∈ items, kv.1 ≠ kv'.1 := fun kv' hkv' heq =>
      hnodup.1 (List.mem_map.mpr ⟨kv', hkv', heq.symm⟩)
    have htail := fun kv' hkv' => hfresh kv' (List.mem_cons_of_mem _ hkv')
    rw [List.foldl_cons, List.filterMap_cons]
    cases hf : f kv.1 kv.2 with
    | none => exact ih hnodup.2 htail
    | some value =>
      have hset : (e.set kv.1 value).items = e.items ++ [(kv.1, value)] :=
        setItem_of_not_mem (hfresh kv List.mem_cons_self)
      have h := ih (e := e.set kv.1 value) hnodup.2 fun kv' hkv' kv'' hkv'' => ?_
      · rw [hset, List.append_assoc, List.singleton_append] at h
        exact h
      · rw [hset] at hkv''
        rcases List.mem_append.mp hkv'' with hkv'' | hkv''
        · exact htail kv' hkv' kv'' hkv''
        · rw [List.mem_singleton.mp hkv'']
          exact hrest kv' hkv'

/-- The collected items, in their order. -/
theorem items_collect {f : String → α → Option β} {d : Dict α} :
    (d.collect f).items = d.items.filterMap fun kv => (f kv.1 kv.2).map (Prod.mk kv.1) := by
  rw [collect, items_foldl_collect d.nodup fun _ _ _ hkv => absurd hkv List.not_mem_nil]
  rfl

theorem get?_foldl_collect {f : String → α → Option β} {items : List (String × α)}
    (hnodup : (items.map Prod.fst).Nodup) {e : Dict β} {key : String} :
    (items.foldl (fun e kv => match f kv.1 kv.2 with
      | some value => e.set kv.1 value
      | none => e) e).get? key = ((items.lookup key).bind (f key)).or (e.get? key) := by
  induction items generalizing e with
  | nil => rfl
  | cons kv items ih =>
    obtain ⟨k, v⟩ := kv
    rw [List.map_cons, List.nodup_cons] at hnodup
    rw [List.foldl_cons, ih hnodup.2, List.lookup_cons]
    by_cases hk : key = k
    · subst hk
      -- the key comes once, so the rest of the items leaves its value alone
      have hrest : items.lookup key = none := by
        rw [List.lookup_eq_none_iff]
        intro kv' hkv'
        exact bne_iff_ne.mpr fun heq => hnodup.1 (List.mem_map.mpr ⟨kv', hkv', heq.symm⟩)
      rw [hrest, beq_self_eq_true]
      cases hf : f key v with
      | none => simp [hf]
      | some value => simp [hf, get?_set]
    · rw [beq_eq_false_iff_ne.mpr hk]
      cases hf : f k v with
      | none => rfl
      | some value => simp only [get?_set, hk, if_false]

theorem get?_collect {f : String → α → Option β} {d : Dict α} {key : String} :
    (d.collect f).get? key = (d.get? key).bind (f key) := by
  rw [collect, get?_foldl_collect d.nodup, get?_empty, Option.or_none, get?]

end Dict
end FastGeoApi
