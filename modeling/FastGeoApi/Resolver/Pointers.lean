import FastGeoApi.Resolver.Inlining

/-!
# Pointers followed in the result

Following a pointer in the result of the resolver is following it in the sources: the external
references that are met on the way are entered, and what is kept is taken as it is
(`follow_resolves`). A `Place` is where such a walk ends.
-/

namespace FastGeoApi
open Unfolding

/-! ## Readings of a fragment -/

/-- A way to read the fragment of a `#/…` reference: its tokens, and the index into a list that a
token stands for. -/
structure PointerReading where
  tokens : String → List String
  index : String → Option Nat

namespace PyVal

def child (index : String → Option Nat) : PyVal → String → Option PyVal
  | .dict items, token => get items token
  | .list xs, token => (index token).bind (xs[·]?)
  | _, _ => Option.none

def follow (index : String → Option Nat) (v : PyVal) (tokens : List String) : Option PyVal :=
  tokens.foldlM (child index) v

theorem follow_cons {index : String → Option Nat} {v : PyVal} {token : String}
    {tokens : List String} :
    v.follow index (token :: tokens) = (v.child index token).bind (·.follow index tokens) := rfl

end PyVal

/-- What follows the `#` of a local reference. -/
def fragmentOf (ref : String) : String := String.ofList (ref.toList.drop 1)

namespace PointerReading

def read (rd : PointerReading) (doc : PyVal) (ref : String) : Option PyVal :=
  doc.follow rd.index (rd.tokens (fragmentOf ref))

/-- The reading of `_navigate_to_fragment`. -/
def navigation : PointerReading where
  tokens fragment := if fragment = "" ∨ fragment = "/" then [] else fragmentParts fragment
  index _ := none

def unescape : List Char → List Char
  | '~' :: '1' :: cs => '/' :: unescape cs
  | '~' :: '0' :: cs => '~' :: unescape cs
  | c :: cs => c :: unescape cs
  | [] => []

def decimal? (token : String) : Option Nat :=
  let cs := token.toList
  if cs ≠ [] ∧ cs.all Char.isDigit ∧ (cs.head? = some '0' → cs.length = 1) then
    some (cs.foldl (fun n c => 10 * n + (c.toNat - '0'.toNat)) 0)
  else none

/-- The reading of a JSON pointer. -/
def jsonPointer : PointerReading where
  tokens fragment := ((Str.split '/' fragment.toList).drop 1).map fun cs =>
    String.ofList (unescape cs)
  index := decimal?

theorem child_navigation (v : PyVal) (token : String) :
    v.child navigation.index token = (getItem v token).toOption := by
  cases v with
  | dict items =>
    rw [PyVal.child, getItem]
    cases PyVal.get items token <;> rfl
  | _ => rfl

theorem follow_navigation (tokens : List String) (v : PyVal) :
    v.follow navigation.index tokens = (tokens.foldlM getItem v).toOption := by
  induction tokens generalizing v with
  | nil => rfl
  | cons token tokens ih =>
    rw [List.foldlM_cons, PyVal.follow_cons, child_navigation]
    cases getItem v token with
    | error e => rfl
    | ok u => exact ih u

theorem read_navigation (doc : PyVal) (ref : String) :
    navigation.read doc ref = (navigateToFragment doc (fragmentOf ref)).toOption := by
  unfold read navigateToFragment
  rw [follow_navigation]
  simp only [navigation]
  split <;> rfl

end PointerReading

/-! ## Places -/

/-- A value at a base, still to be resolved, or one that was taken over as it is. -/
inductive Place where
  | live (base : Option String) (v : PyVal)
  | raw (v : PyVal)

def look (docs : Documents) : Place → Expansion Place PyError PyVal
  | .live base (.dict items) =>
    match soleRef? items with
    | some (.str ref) =>
      if isExternal ref then
        match lookupRef docs ref base with
        | .ok (v, url) => .jump (.live (some url) v)
        | .error e => .fail e
      else .fork (items.map fun kv => .raw kv.2) (withValues items)
    | some _ => .fork (items.map fun kv => .raw kv.2) (withValues items)
    | none => .fork (items.map fun kv => .live base kv.2) (withValues items)
  | .live base (.list xs) => .fork (xs.map (.live base)) .list
  | .live _ v => .done v
  | .raw (.dict items) => .fork (items.map fun kv => .raw kv.2) (withValues items)
  | .raw (.list xs) => .fork (xs.map .raw) .list
  | .raw v => .done v

section
variable {docs : Documents} {base : Option String} {items : List (PyKey × PyVal)}

theorem look_leaf {v : PyVal} (hleaf : v.isLeaf = true) : look docs (.live base v) = .done v := by
  cases v <;> first | rfl | simp [PyVal.isLeaf] at hleaf

theorem look_keep {v : PyVal} (sole : soleRef? items = some v)
    (keep : ∀ ref, v = .str ref → isExternal ref = false) :
    look docs (.live base (.dict items)) =
      .fork (items.map fun kv => .raw kv.2) (withValues items) := by
  cases v with
  | str ref => simp [look, sole, keep ref rfl]
  | _ => simp [look, sole]

theorem look_external (sole : soleRef? items = some (.str ref)) (isExt : isExternal ref = true) :
    look docs (.live base (.dict items)) = match lookupRef docs ref base with
      | .ok (v, url) => .jump (.live (some url) v)
      | .error e => .fail e := by
  simp [look, sole, isExt]

theorem look_descend (sole : soleRef? items = none) :
    look docs (.live base (.dict items)) =
      .fork (items.map fun kv => .live base kv.2) (withValues items) := by
  simp [look, sole]

end

/-- What looking at a value that is still to be resolved comes to. -/
inductive Looks (docs : Documents) (base : Option String) :
    PyVal → Expansion Place PyError PyVal → Prop where
  | leaf (hleaf : v.isLeaf = true) : Looks docs base v (.done v)
  | keep (sole : soleRef? items = some v) (keep : ∀ ref, v = .str ref → isExternal ref = false) :
    Looks docs base (.dict items) (.fork (items.map fun kv => .raw kv.2) (withValues items))
  | external (sole : soleRef? items = some (.str ref)) (isExt : isExternal ref = true)
      (hl : lookupRef docs ref base = .ok (v, url)) :
    Looks docs base (.dict items) (.jump (.live (some url) v))
  | broken (sole : soleRef? items = some (.str ref)) (isExt : isExternal ref = true)
      (hl : lookupRef docs ref base = .error e) : Looks docs base (.dict items) (.fail e)
  | descend (sole : soleRef? items = none) :
    Looks docs base (.dict items) (.fork (items.map fun kv => .live base kv.2) (withValues items))
  | list : Looks docs base (.list xs) (.fork (xs.map (.live base)) .list)

theorem looks (docs : Documents) (base : Option String) (v : PyVal) :
    Looks docs base v (look docs (.live base v)) := by
  cases v with
  | dict items =>
    cases dictCase items with
    | external ref sole isExt =>
      rw [look_external sole isExt]
      cases hl : lookupRef docs ref base with
      | error e => exact .broken sole isExt hl
      | ok p => exact .external sole isExt hl
    | keep v sole keep =>
      rw [look_keep sole keep]
      exact .keep sole keep
    | descend sole =>
      rw [look_descend sole]
      exact .descend sole
  | list xs => exact .list
  | _ => exact .leaf rfl

/-! ## What a place is worth -/

theorem withValues_self {items : List (PyKey × PyVal)} :
    withValues items (items.map Prod.snd) = .dict items := by
  have hzip := List.zip_unzip items
  rw [List.unzip_eq_map] at hzip
  rw [withValues, hzip]

mutual
theorem yields_raw (docs : Documents) (v : PyVal) : Yields (look docs) (.raw v) (.ok v) := by
  cases v with
  | dict items =>
    have hs : look docs (.raw (.dict items)) = .fork _ (withValues items) := rfl
    exact (yields_fork hs).mpr ⟨_, forall₂_raw_items docs items, withValues_self.symm⟩
  | list xs =>
    have hs : look docs (.raw (.list xs)) = .fork (xs.map .raw) .list := rfl
    exact (yields_fork hs).mpr ⟨xs, forall₂_raw_list docs xs, rfl⟩
  | _ => exact .of_done rfl

theorem forall₂_raw_items (docs : Documents) (items : List (PyKey × PyVal)) :
    List.Forall₂ (fun p o => Yields (look docs) p (.ok o)) (items.map fun kv => .raw kv.2)
      (items.map Prod.snd) := by
  cases items with
  | nil => exact .nil
  | cons kv items => exact .cons (yields_raw docs kv.2) (forall₂_raw_items docs items)

theorem forall₂_raw_list (docs : Documents) (xs : List PyVal) :
    List.Forall₂ (fun p o => Yields (look docs) p (.ok o)) (xs.map .raw) xs := by
  cases xs with
  | nil => exact .nil
  | cons x xs => exact .cons (yields_raw docs x) (forall₂_raw_list docs xs)
end

variable {docs : Documents}

theorem yields_keep {base : Option String} {items : List (PyKey × PyVal)} {v : PyVal}
    (sole : soleRef? items = some v) (keep : ∀ ref, v = .str ref → isExternal ref = false) :
    Yields (look docs) (.live base (.dict items)) (.ok (.dict items)) :=
  (yields_fork (look_keep sole keep)).mpr
    ⟨_, forall₂_raw_items docs items, withValues_self.symm⟩

theorem Resolves.yields_live {base : Option String} {v o : PyVal} (h : Resolves docs base v o) :
    Yields (look docs) (.live base v) (.ok o) := by
  refine Resolves.induction (P := fun base v o => Yields (look docs) (.live base v) (.ok o))
    ?_ ?_ ?_ ?_ ?_ h
  · intro base v hleaf
    exact .of_done (look_leaf hleaf)
  · intro base items v sole keep
    exact yields_keep sole keep
  · intro base items ref v url o sole isExt hl _ ih
    have hs : look docs (.live base (.dict items)) = .jump (.live (some url) v) := by
      rw [look_external sole isExt, hl]
    exact (yields_jump hs).mpr ih
  · intro base items items' sole hitems
    have hplaces : Itemwise (fun v o => Yields (look docs) (.live base v) (.ok o)) items items' :=
      hitems.imp fun _ _ h => h.2
    obtain ⟨hos, hzip⟩ := Itemwise.children
      (R := fun n o => Yields (look docs) (.live n.1 n.2) (.ok o)) hplaces
    rw [children, List.forall₂_map_left_iff] at hos
    refine (yields_fork (look_descend sole)).mpr ⟨_, List.forall₂_map_left_iff.mpr hos, ?_⟩
    rw [withValues, hzip]
  · intro base xs ys hxs
    have hs : look docs (.live base (.list xs)) = .fork (xs.map (.live base)) .list := rfl
    refine (yields_fork hs).mpr ⟨ys, List.forall₂_map_left_iff.mpr ?_, rfl⟩
    exact hxs.imp fun _ _ h => h.2

theorem yields_live_iff {base : Option String} {v o : PyVal} :
    Yields (look docs) (.live base v) (.ok o) ↔ Resolves docs base v o := by
  refine ⟨fun h => ?_, Resolves.yields_live⟩
  refine h.ok_induction (P := fun p o => ∀ base v, p = .live base v → Resolves docs base v o)
    ?_ ?_ ?_ base v rfl
  · rintro _ o hs base v rfl
    have hcase := looks docs base v
    rw [hs] at hcase
    cases hcase with
    | leaf hleaf => exact (resolves_leaf hleaf).mpr rfl
  · rintro _ q o hs _ ih base v rfl
    have hcase := looks docs base v
    rw [hs] at hcase
    cases hcase with
    | external sole isExt hl => exact (resolves_external sole isExt).mpr ⟨_, _, hl, ih _ _ rfl⟩
  · rintro _ ps build os hs hos base v rfl
    have hcase := looks docs base v
    rw [hs] at hcase
    cases hcase with
    | keep sole keep =>
      have h : Yields (look docs) (.live base (.dict _)) (.ok (withValues _ os)) :=
        (yields_fork hs).mpr ⟨os, hos.imp fun _ _ h => h.1, rfl⟩
      exact (resolves_keep sole keep).mpr (Except.ok.inj (h.unique (yields_keep sole keep)))
    | @descend items sole =>
      have hitems : List.Forall₂ (fun n o => Resolves docs n.1 n.2 o) (children base items) os := by
        rw [children, List.forall₂_map_left_iff]
        rw [List.forall₂_map_left_iff] at hos
        exact hos.imp fun _ _ h => h.2 _ _ rfl
      exact (resolves_descend sole).mpr ⟨_, forall₂_children hitems, rfl⟩
    | list =>
      rw [List.forall₂_map_left_iff] at hos
      exact resolves_list.mpr ⟨os, hos.imp fun _ _ h => h.2 _ _ rfl, rfl⟩

theorem yields_raw_iff {v o : PyVal} : Yields (look docs) (.raw v) (.ok o) ↔ o = v := by
  refine ⟨fun h => Except.ok.inj (h.unique (yields_raw docs v)), fun h => h ▸ yields_raw docs v⟩

/-- The forks of `look` build a dict with given keys, or a list. -/
theorem look_fork {p : Place} {ps : List Place} {build : List PyVal → PyVal}
    (hs : look docs p = .fork ps build) :
    (∃ items, items.length = ps.length ∧ build = withValues items) ∨ build = .list := by
  cases p with
  | live base v =>
    have hcase := looks docs base v
    rw [hs] at hcase
    cases hcase with
    | keep | descend => exact .inl ⟨_, (List.length_map _).symm, rfl⟩
    | list => exact .inr rfl
  | raw v =>
    cases v with
    | dict items =>
      cases hs
      exact .inl ⟨_, (List.length_map _).symm, rfl⟩
    | list xs =>
      cases hs
      exact .inr rfl
    | _ => cases hs

theorem look_done {p : Place} {o : PyVal} (hs : look docs p = .done o) : o.isLeaf = true := by
  cases p with
  | live base v =>
    have hcase := looks docs base v
    rw [hs] at hcase
    cases hcase with
    | leaf hleaf => exact hleaf
  | raw v =>
    cases v with
    | dict | list => cases hs
    | _ =>
      cases hs
      rfl

theorem withValues_inj {items items' : List (PyKey × PyVal)} {os os' : List PyVal}
    (hlen : os.length = items.length) (hlen' : os'.length = items'.length)
    (h : withValues items os = withValues items' os') :
    withValues items = withValues items' ∧ os = os' := by
  have hzip : (items.map Prod.fst).zip os = (items'.map Prod.fst).zip os' := PyVal.dict.inj h
  have hkeys := congrArg (List.map Prod.fst) hzip
  have hos := congrArg (List.map Prod.snd) hzip
  rw [List.map_fst_zip (by simp [hlen]), List.map_fst_zip (by simp [hlen'])] at hkeys
  rw [List.map_snd_zip (by simp [hlen]), List.map_snd_zip (by simp [hlen'])] at hos
  refine ⟨?_, hos⟩
  unfold withValues
  rw [hkeys]

theorem look_readable (docs : Documents) : Readable (look docs) where
  fork := by
    intro _ _ _ _ _ _ _ _ hs hs' hlen hlen' ho
    rcases look_fork hs with ⟨items, hitems, rfl⟩ | rfl
    · rcases look_fork hs' with ⟨items', hitems', rfl⟩ | rfl
      · exact withValues_inj (hlen.trans hitems.symm) (hlen'.trans hitems'.symm) ho
      · cases ho
    · rcases look_fork hs' with ⟨items', hitems', rfl⟩ | rfl
      · cases ho
      · exact ⟨rfl, PyVal.list.inj ho⟩
  done := by
    intro _ _ _ _ _ _ hs hs' _ ho
    have hleaf := look_done hs
    rcases look_fork hs' with ⟨items', _, rfl⟩ | rfl
    · rw [ho] at hleaf
      cases hleaf
    · rw [ho] at hleaf
      cases hleaf

/-! ## Pointers and inlining -/

/-- Where a pointer leads from a node. -/
inductive Walk (docs : Documents) (index : String → Option Nat) : Node → List String → Place → Prop
  | here : Walk docs index (base, v) [] (.live base v)
  | enter (sole : soleRef? items = some (.str ref)) (isExt : isExternal ref = true)
      (hl : lookupRef docs ref base = .ok (v, url)) (h : Walk docs index (some url, v) tokens p) :
      Walk docs index (base, .dict items) tokens p
  | key (sole : soleRef? items = none) (hget : PyVal.get items token = some v)
      (h : Walk docs index (base, v) tokens p) :
      Walk docs index (base, .dict items) (token :: tokens) p
  | item (hi : index token = some i) (hx : xs[i]? = some v)
      (h : Walk docs index (base, v) tokens p) :
      Walk docs index (base, .list xs) (token :: tokens) p
  | kept (sole : soleRef? items = some v) (keep : ∀ ref, v = .str ref → isExternal ref = false)
      (h : PyVal.follow index (.dict items) (token :: tokens) = some u) :
      Walk docs index (base, .dict items) (token :: tokens) (.raw u)

section
variable {docs : Documents} {index : String → Option Nat} {base : Option String}
  {items : List (PyKey × PyVal)} {token : String} {tokens : List String} {p : Place}

theorem walk_leaf {v : PyVal} (hleaf : v.isLeaf = true) :
    ¬Walk docs index (base, v) (token :: tokens) p := by
  intro h
  cases h <;> cases hleaf

theorem walk_keep {v : PyVal} (sole : soleRef? items = some v)
    (keep : ∀ ref, v = .str ref → isExternal ref = false) :
    Walk docs index (base, .dict items) (token :: tokens) p ↔
      ∃ u, PyVal.follow index (.dict items) (token :: tokens) = some u ∧ p = .raw u := by
  refine ⟨fun h => ?_, fun ⟨u, hu, hp⟩ => hp ▸ .kept sole keep hu⟩
  cases h with
  | enter sole' isExt =>
    rw [sole, Option.some.injEq] at sole'
    rw [keep _ sole'] at isExt
    cases isExt
  | key sole' => simp [sole] at sole'
  | kept _ _ hu => exact ⟨_, hu, rfl⟩

theorem walk_external {ref url : String} {v : PyVal} (sole : soleRef? items = some (.str ref))
    (isExt : isExternal ref = true) (hl : lookupRef docs ref base = .ok (v, url)) :
    Walk docs index (base, .dict items) (token :: tokens) p ↔
      Walk docs index (some url, v) (token :: tokens) p := by
  refine ⟨fun h => ?_, .enter sole isExt hl⟩
  cases h with
  | enter sole' _ hl' h =>
    rw [sole, Option.some.injEq, PyVal.str.injEq] at sole'
    subst sole'
    rw [hl] at hl'
    cases hl'
    exact h
  | key sole' => simp [sole] at sole'
  | kept sole' keep =>
    rw [sole, Option.some.injEq] at sole'
    rw [keep ref sole'.symm] at isExt
    cases isExt

theorem walk_descend (sole : soleRef? items = none) :
    Walk docs index (base, .dict items) (token :: tokens) p ↔
      ∃ v, PyVal.get items token = some v ∧ Walk docs index (base, v) tokens p := by
  refine ⟨fun h => ?_, fun ⟨v, hget, h⟩ => .key sole hget h⟩
  cases h with
  | enter sole' => simp [sole] at sole'
  | key _ hget h => exact ⟨_, hget, h⟩
  | kept sole' => simp [sole] at sole'

theorem walk_list {xs : List PyVal} :
    Walk docs index (base, .list xs) (token :: tokens) p ↔
      ∃ i v, index token = some i ∧ xs[i]? = some v ∧ Walk docs index (base, v) tokens p := by
  refine ⟨fun h => ?_, fun ⟨i, v, hi, hx, h⟩ => .item hi hx h⟩
  cases h with
  | item hi hx h => exact ⟨_, _, hi, hx, h⟩

end

section
variable {index : String → Option Nat} {base : Option String}

theorem Walk.nil_yields {n : Node} {p : Place} (h : Walk docs index n [] p)
    {r : Except PyError PyVal} :
    Yields (look docs) p r ↔ Yields (look docs) (.live n.1 n.2) r := by
  generalize htokens : [] = tokens at h
  induction h with
  | here => rfl
  | enter sole isExt hl _ ih =>
    rw [ih htokens]
    refine (yields_jump ?_).symm
    rw [look_external sole isExt, hl]
  | _ => cases htokens

theorem walk_nil {v o w : PyVal} (h : Resolves docs base v o) :
    (∃ p, Walk docs index (base, v) [] p ∧ Yields (look docs) p (.ok w)) ↔ some o = some w := by
  refine ⟨fun ⟨p, hp, hw⟩ => ?_, fun ho => ⟨_, .here, Option.some.inj ho ▸ h.yields_live⟩⟩
  exact congrArg some (h.unique (yields_live_iff.mp (hp.nil_yields.mp hw)))

theorem follow_leaf {v : PyVal} (hleaf : v.isLeaf = true) {token : String} {tokens : List String} :
    v.follow index (token :: tokens) = none := by
  cases v <;> first | rfl | cases hleaf

/-- A pointer leads to a value of the result exactly when it leads to a place that is worth it. -/
theorem follow_resolves {v o : PyVal} (h : Resolves docs base v o) {tokens : List String}
    {w : PyVal} :
    o.follow index tokens = some w ↔
      ∃ p, Walk docs index (base, v) tokens p ∧ Yields (look docs) p (.ok w) := by
  refine Resolves.induction (P := fun base v o => Resolves docs base v o → ∀ tokens w,
      o.follow index tokens = some w ↔
        ∃ p, Walk docs index (base, v) tokens p ∧ Yields (look docs) p (.ok w))
    ?_ ?_ ?_ ?_ ?_ h h tokens w
  · intro base v hleaf h tokens w
    cases tokens with
    | nil => exact (walk_nil h).symm
    | cons token tokens =>
      simp [walk_leaf hleaf, follow_leaf hleaf]
  · intro base items v sole keep h tokens w
    cases tokens with
    | nil => exact (walk_nil h).symm
    | cons token tokens =>
      simp only [walk_keep sole keep]
      refine ⟨fun hw => ⟨_, ⟨w, hw, rfl⟩, yields_raw docs w⟩, ?_⟩
      rintro ⟨_, ⟨u, hu, rfl⟩, hw⟩
      rw [hu, yields_raw_iff.mp hw]
  · intro base items ref v url o sole isExt hl hres ih h tokens w
    cases tokens with
    | nil => exact (walk_nil h).symm
    | cons token tokens =>
      simp only [walk_external sole isExt hl]
      exact ih hres _ _
  · intro base items items' sole hitems h tokens w
    cases tokens with
    | nil => exact (walk_nil h).symm
    | cons token tokens =>
      simp only [walk_descend sole, PyVal.follow_cons, PyVal.child]
      rcases hitems.get token with ⟨hnone, hnone'⟩ | ⟨v, o, hget, hget', hv, ih⟩
      · simp [hnone, hnone']
      · simp [hget, hget', ih hv]
  · intro base xs ys hxs h tokens w
    cases tokens with
    | nil => exact (walk_nil h).symm
    | cons token tokens =>
      simp only [walk_list, PyVal.follow_cons, PyVal.child]
      cases hi : index token with
      | none => simp
      | some i =>
        rcases forall₂_getElem? hxs i with ⟨hx, hy⟩ | ⟨x, y, hx, hy, hxy, ih⟩
        · simp [hx, hy]
        · simp [hx, hy, ih hxy]

end
end FastGeoApi
