import FastGeoApi.Lib.Unfolding
import FastGeoApi.Resolver.Basic

/-!
# The resolver over a fixed set of documents

When the remote side answers every URL the same way, the caches do not matter: a call of
`resolveObject` is the unfolding (`Unfolding.eval`) of a graph whose nodes are pairs of a base URL
and a value. A dict that is an external reference stands for the value it names (`expand`); other
dicts and lists have their values as children. `resolveObject_agrees` is the simulation, for any way
of serving documents that keeps an invariant of the session; `memory_serves` is the case without a
disk cache.
-/

namespace FastGeoApi
open Unfolding

/-- What each URL answers. -/
abbrev Documents := String → Except PyError PyVal

/-- A value together with the URL of the document it was written in. -/
abbrev Node := Option String × PyVal

/-- The document that a reference is looked up in; the empty URL stands for `{}`. -/
def Documents.get (docs : Documents) (url : String) : Except PyError PyVal :=
  if url ≠ "" then docs url else .ok (.dict [])

/-- The value that an external reference names, and the URL of its document. -/
def lookupRef (docs : Documents) (ref : String) (base : Option String) :
    Except PyError (PyVal × String) := do
  let (url, fragment) ← splitRef ref base
  let doc ← docs.get url
  let result ← navigateToFragment doc fragment
  return (result, url)

/-- A successful lookup, taken apart. -/
theorem lookupRef_eq_ok {docs : Documents} {ref : String} {base : Option String} {v : PyVal}
    {url : String} : lookupRef docs ref base = .ok (v, url) ↔
      ∃ fragment doc, splitRef ref base = .ok (url, fragment) ∧ docs.get url = .ok doc ∧
        navigateToFragment doc fragment = .ok v := by
  unfold lookupRef
  cases hsplit : splitRef ref base with
  | error e => simp [bind, Except.bind]
  | ok p =>
    obtain ⟨url', fragment⟩ := p
    cases hdoc : docs.get url' with
    | error e =>
      simp only [bind, Except.bind, hdoc]
      apply iff_of_false (by simp)
      rintro ⟨_, doc, hp, hget, _⟩
      cases hp
      simp [hdoc] at hget
    | ok doc =>
      cases hnav : navigateToFragment doc fragment with
      | error e =>
        simp only [bind, Except.bind, hdoc, hnav]
        apply iff_of_false (by simp)
        rintro ⟨_, _, hp, hget, hv⟩
        cases hp
        rw [hdoc] at hget
        cases hget
        simp [hnav] at hv
      | ok v' =>
        simp only [bind, Except.bind, hdoc, hnav, pure, Except.pure, Except.ok.injEq,
          Prod.mk.injEq]
        refine ⟨fun ⟨hv, hurl⟩ => ⟨fragment, doc, ⟨hurl, rfl⟩, hurl ▸ hdoc, hv ▸ hnav⟩, ?_⟩
        rintro ⟨_, _, ⟨hurl, rfl⟩, hget, hv⟩
        subst hurl
        rw [hdoc] at hget
        cases hget
        rw [hnav] at hv
        exact ⟨Except.ok.inj hv, rfl⟩

def children (base : Option String) (items : List (PyKey × PyVal)) : List Node :=
  items.map fun kv => (base, kv.2)

/-- The dict with the keys of `items` and new values. -/
def withValues (items : List (PyKey × PyVal)) (values : List PyVal) : PyVal :=
  .dict ((items.map Prod.fst).zip values)

def expand (docs : Documents) : Node → Expansion Node PyError PyVal
  | (base, .dict items) =>
    match soleRef? items with
    | some (.str ref) =>
      if isExternal ref then
        match lookupRef docs ref base with
        | .ok (v, url) => .jump (some url, v)
        | .error e => .fail e
      else .done (.dict items)
    | some _ => .done (.dict items)
    | none => .fork (children base items) (withValues items)
  | (base, .list items) => .fork (items.map (base, ·)) .list
  | (_, v) => .done v

/-- Values that have nothing inside: neither dicts nor lists. -/
def PyVal.isLeaf : PyVal → Bool
  | .dict _ | .list _ => false
  | _ => true

theorem soleRef?_eq_some {items : List (PyKey × PyVal)} {v : PyVal} :
    soleRef? items = some v ↔ items = [(.str "$ref", v)] := by
  refine ⟨fun sole => ?_, fun h => h ▸ rfl⟩
  unfold soleRef? at sole
  split at sole
  · rename_i hlen
    obtain ⟨kv, rfl⟩ := List.length_eq_one_iff.mp hlen
    obtain ⟨k, u⟩ := kv
    rw [PyVal.get_cons] at sole
    split at sole
    · rename_i hk
      rw [hk, Option.some.inj sole]
    · cases sole
  · cases sole

section
variable {docs : Documents} {base : Option String} {items : List (PyKey × PyVal)}

/-- What becomes of a dict: it is an external reference, it is kept as it is, or its values are
resolved one by one. -/
inductive DictCase (items : List (PyKey × PyVal)) : Prop where
  | external (ref : String) (sole : soleRef? items = some (.str ref))
      (isExt : isExternal ref = true)
  | keep (v : PyVal) (sole : soleRef? items = some v)
      (keep : ∀ ref, v = .str ref → isExternal ref = false)
  | descend (sole : soleRef? items = none)

theorem dictCase (items : List (PyKey × PyVal)) : DictCase items := by
  cases hsole : soleRef? items with
  | none => exact .descend hsole
  | some v =>
    by_cases hext : ∃ ref, v = .str ref ∧ isExternal ref = true
    · obtain ⟨ref, rfl, hext⟩ := hext
      exact .external ref hsole hext
    · refine .keep v hsole fun ref hv => ?_
      exact Bool.eq_false_iff.mpr fun h => hext ⟨ref, hv, h⟩

theorem expand_leaf {v : PyVal} (h : v.isLeaf = true) : expand docs (base, v) = .done v := by
  cases v <;> first | rfl | simp [PyVal.isLeaf] at h

theorem expand_list {xs : List PyVal} :
    expand docs (base, .list xs) = .fork (xs.map (base, ·)) .list := rfl

theorem expand_external (sole : soleRef? items = some (.str ref)) (isExt : isExternal ref = true) :
    expand docs (base, .dict items) = match lookupRef docs ref base with
      | .ok (v, url) => .jump (some url, v)
      | .error e => .fail e := by
  simp [expand, sole, isExt]

theorem expand_keep (sole : soleRef? items = some v)
    (keep : ∀ ref, v = .str ref → isExternal ref = false) :
    expand docs (base, .dict items) = .done (.dict items) := by
  cases v with
  | str ref => simp [expand, sole, keep ref rfl]
  | _ => simp [expand, sole]

theorem expand_descend (sole : soleRef? items = none) :
    expand docs (base, .dict items) = .fork (children base items) (withValues items) := by
  simp [expand, sole]

/-! ## Steps of the unfolding -/

variable {m : Node}

theorem succ_leaf {v : PyVal} (h : v.isLeaf = true) : ¬Succ (expand docs) (base, v) m := by
  simp [Succ, expand_leaf h]

theorem succ_keep {v : PyVal} (sole : soleRef? items = some v)
    (keep : ∀ ref, v = .str ref → isExternal ref = false) :
    ¬Succ (expand docs) (base, .dict items) m := by
  simp [Succ, expand_keep sole keep]

theorem succ_external (sole : soleRef? items = some (.str ref)) (isExt : isExternal ref = true) :
    Succ (expand docs) (base, .dict items) m ↔
      ∃ v url, lookupRef docs ref base = .ok (v, url) ∧ m = (some url, v) := by
  rw [Succ, expand_external sole isExt]
  cases hl : lookupRef docs ref base with
  | error e => simp
  | ok p =>
    obtain ⟨v, url⟩ := p
    simp [eq_comm]

theorem succ_descend (sole : soleRef? items = none) :
    Succ (expand docs) (base, .dict items) m ↔ ∃ kv ∈ items, m = (base, kv.2) := by
  simp only [Succ, expand_descend sole, reduceCtorEq, Expansion.fork.injEq, false_or]
  refine ⟨fun ⟨_, _, ⟨hns, _⟩, hm⟩ => ?_, fun ⟨kv, hkv, hm⟩ => ⟨_, _, ⟨rfl, rfl⟩, ?_⟩⟩
  · obtain ⟨kv, hkv, hm⟩ := List.mem_map.mp (hns ▸ hm : m ∈ children base items)
    exact ⟨kv, hkv, hm.symm⟩
  · exact List.mem_map.mpr ⟨kv, hkv, hm.symm⟩

theorem succ_list {xs : List PyVal} :
    Succ (expand docs) (base, .list xs) m ↔ ∃ x ∈ xs, m = (base, x) := by
  simp only [Succ, expand, reduceCtorEq, Expansion.fork.injEq, false_or]
  refine ⟨fun ⟨_, _, ⟨hns, _⟩, hm⟩ => ?_, fun ⟨x, hx, hm⟩ => ⟨_, _, ⟨rfl, rfl⟩, ?_⟩⟩
  · obtain ⟨x, hx, hm⟩ := List.mem_map.mp (hns ▸ hm : m ∈ xs.map (base, ·))
    exact ⟨x, hx, hm.symm⟩
  · exact List.mem_map.mpr ⟨x, hx, hm.symm⟩

theorem visits_external {v : PyVal} {url : String} (sole : soleRef? items = some (.str ref))
    (isExt : isExternal ref = true) (hl : lookupRef docs ref base = .ok (v, url)) :
    Visits (expand docs) (base, .dict items) (some url, v) := by
  left
  rw [expand_external sole isExt, hl]

theorem visits_descend {pre post : List (PyKey × PyVal)} {kv : PyKey × PyVal}
    (sole : soleRef? (pre ++ kv :: post) = none)
    (hpre : ∀ x ∈ pre, Clean (expand docs) (base, x.2)) :
    Visits (expand docs) (base, .dict (pre ++ kv :: post)) (base, kv.2) := by
  refine .inr ⟨children base pre, children base post, withValues (pre ++ kv :: post), ?_,
    fun n hn => ?_⟩
  · rw [expand_descend sole, children, List.map_append, List.map_cons]
    rfl
  · obtain ⟨x, hx, rfl⟩ := List.mem_map.mp hn
    exact hpre x hx

theorem visits_list {pre post : List PyVal} {x : PyVal}
    (hpre : ∀ y ∈ pre, Clean (expand docs) (base, y)) :
    Visits (expand docs) (base, .list (pre ++ x :: post)) (base, x) := by
  refine .inr ⟨pre.map (base, ·), post.map (base, ·), .list, ?_, fun n hn => ?_⟩
  · rw [expand_list, List.map_append, List.map_cons]
  · obtain ⟨y, hy, rfl⟩ := List.mem_map.mp hn
    exact hpre y hy

end

/-- What expanding a node comes to. -/
inductive Expands (docs : Documents) : Node → Expansion Node PyError PyVal → Prop where
  | leaf (hleaf : v.isLeaf = true) : Expands docs (base, v) (.done v)
  | keep (sole : soleRef? items = some v) (keep : ∀ ref, v = .str ref → isExternal ref = false) :
    Expands docs (base, .dict items) (.done (.dict items))
  | external (sole : soleRef? items = some (.str ref)) (isExt : isExternal ref = true)
      (hl : lookupRef docs ref base = .ok (v, url)) :
    Expands docs (base, .dict items) (.jump (some url, v))
  | broken (sole : soleRef? items = some (.str ref)) (isExt : isExternal ref = true)
      (hl : lookupRef docs ref base = .error e) : Expands docs (base, .dict items) (.fail e)
  | descend (sole : soleRef? items = none) :
    Expands docs (base, .dict items) (.fork (children base items) (withValues items))
  | list : Expands docs (base, .list xs) (.fork (xs.map (base, ·)) .list)

theorem expands (docs : Documents) (n : Node) : Expands docs n (expand docs n) := by
  obtain ⟨base, v⟩ := n
  cases v with
  | dict items =>
    cases dictCase items with
    | external ref sole isExt =>
      rw [expand_external sole isExt]
      cases hl : lookupRef docs ref base with
      | error e => exact .broken sole isExt hl
      | ok p => exact .external sole isExt hl
    | keep v sole keep =>
      rw [expand_keep sole keep]
      exact .keep sole keep
    | descend sole =>
      rw [expand_descend sole]
      exact .descend sole
  | list xs => exact .list
  | _ => exact .leaf rfl

/-- Resolving the node looks up the reference, written at `base`. -/
def LooksUp (docs : Documents) (n : Node) (base : Option String) (ref : String) : Prop :=
  ∃ items, Relation.ReflTransGen (Visits (expand docs)) n (base, .dict items) ∧
    soleRef? items = some (.str ref) ∧ isExternal ref = true

theorem LooksUp.head {docs : Documents} {n m : Node} (hv : Visits (expand docs) n m)
    (h : LooksUp docs m base ref) : LooksUp docs n base ref := by
  obtain ⟨items, hreach, hitems⟩ := h
  exact ⟨items, .head hv hreach, hitems⟩

/-! ## Simulation -/

/-- A run has the given outcome (none when the fuel runs out), and a session that returns satisfies
the invariant. -/
def Agrees (Inv : Session → Prop) (r : Option (Except PyError α))
    (x : Option (Except PyError α × Session)) : Prop :=
  match r with
  | none => x = none
  | some r => ∃ s, x = some (r, s) ∧ ∀ a, r = .ok a → Inv s

/-- From a session with the invariant, `getDocument` answers as `docs` does. -/
def Serves (w : World) (dir : Option String) (ttl : Int) (Inv : Session → Prop)
    (docs : Documents) : Prop :=
  ∀ url s, Inv s → Agrees Inv (some (docs url)) (getDocument w url dir ttl s)

/-- The same of `resolveRef`, for the references that resolving the node looks up. -/
def ServesFrom (w : World) (dir : Option String) (ttl : Int) (Inv : Session → Prop)
    (docs : Documents) (n : Node) : Prop :=
  ∀ base ref s, LooksUp docs n base ref → Inv s →
    Agrees Inv (some (lookupRef docs ref base)) (resolveRef w ref base dir ttl s)

section
variable {Inv : Session → Prop} {docs : Documents}

theorem Agrees.pure {a : α} {s : Session} (hs : Inv s) :
    Agrees Inv (some (.ok a)) ((Pure.pure a : Run α) s) :=
  ⟨s, rfl, fun _ _ => hs⟩

theorem Agrees.lift {x : Except PyError α} {s : Session} (hs : Inv s) :
    Agrees Inv (some x) (Run.lift x s) :=
  ⟨s, rfl, fun _ _ => hs⟩

theorem Agrees.bind {r : Except PyError α} {x : Run α} {s : Session} {f : α → Run β}
    {g : α → Except PyError β} (h : Agrees Inv (some r) (x s))
    (hf : ∀ a s', r = .ok a → Inv s' → Agrees Inv (some (g a)) (f a s')) :
    Agrees Inv (some (r >>= g)) ((x >>= f) s) := by
  obtain ⟨s', hx, hs'⟩ := h
  rw [Run.bind_apply, hx]
  cases r with
  | error e => exact ⟨s', rfl, fun _ ha => nomatch ha⟩
  | ok a => exact hf a s' rfl (hs' a rfl)

theorem Serves.servesFrom (hserve : Serves w dir ttl Inv docs) (n : Node) :
    ServesFrom w dir ttl Inv docs n := by
  intro base ref s _ hs
  refine Agrees.bind (.lift hs) fun p s _ hs => Agrees.bind ?_ fun doc s _ hs =>
    Agrees.bind (.lift hs) fun result s _ hs => .pure hs
  unfold Documents.get
  split
  · exact hserve _ s hs
  · exact .pure hs

theorem ServesFrom.visits {n m : Node} (hserve : ServesFrom w dir ttl Inv docs n)
    (hv : Visits (expand docs) n m) : ServesFrom w dir ttl Inv docs m :=
  fun base ref s hl => hserve base ref s (hl.head hv)

/-- The same step for outcomes that may need more fuel. -/
theorem Agrees.andThen {r : Option (Except PyError α)} {x : Run α} {s : Session} {f : α → Run β}
    {g : α → Option (Except PyError β)} (h : Agrees Inv r (x s))
    (hf : ∀ a s', r = some (.ok a) → Inv s' → Agrees Inv (g a) (f a s')) :
    Agrees Inv (andThen r g) ((x >>= f) s) := by
  rw [Run.bind_apply]
  match r, h with
  | none, h =>
    have hx : x s = none := h
    rw [hx]
    exact rfl
  | some (.error e), ⟨s', hx, _⟩ =>
    rw [hx]
    exact ⟨s', rfl, fun _ ha => nomatch ha⟩
  | some (.ok a), ⟨s', hx, hs'⟩ =>
    rw [hx]
    exact hf a s' rfl (hs' a rfl)

theorem mapVals_agrees {f : PyVal → Run PyVal} {ev : Node → Option (Except PyError PyVal)}
    (items : List (PyKey × PyVal))
    (hf : ∀ pre kv post, items = pre ++ kv :: post →
      (∀ x ∈ pre, ∃ o, ev (base, x.2) = some (.ok o)) →
      ∀ s, Inv s → Agrees Inv (ev (base, kv.2)) (f kv.2 s))
    {s : Session} (hs : Inv s) :
    Agrees Inv
      (andThen (evalAll ev (children base items)) fun vs =>
        some (.ok ((items.map Prod.fst).zip vs)))
      (Run.mapVals f items s) := by
  induction items generalizing s with
  | nil => exact .pure hs
  | cons kv items ih =>
    have hrest : ∀ o s', ev (base, kv.2) = some (.ok o) → Inv s' → Agrees Inv
        (andThen (evalAll ev (children base items)) fun vs =>
          some (.ok ((kv.1, o) :: (items.map Prod.fst).zip vs)))
        ((Run.mapVals f items >>= fun rest => return (kv.1, o) :: rest) s') := by
      intro o s' ho hs'
      have hrest := ih (fun pre kv' post hitems hpre => hf (kv :: pre) kv' post
        (congrArg _ hitems) (List.forall_mem_cons.mpr ⟨⟨o, ho⟩, hpre⟩)) hs'
      have h := hrest.andThen (g := fun rest => some (.ok ((kv.1, o) :: rest)))
        (f := fun rest => return (kv.1, o) :: rest) fun rest s'' _ hs'' => .pure hs''
      rwa [andThen_assoc] at h
    have h := (hf [] kv items rfl (by simp) s hs).andThen fun o s' ho => hrest o s' ho
    rw [children, List.map_cons, evalAll]
    simp only [andThen_assoc]
    exact h

theorem mapList_agrees {f : PyVal → Run PyVal} {ev : Node → Option (Except PyError PyVal)}
    (items : List PyVal)
    (hf : ∀ pre v post, items = pre ++ v :: post →
      (∀ x ∈ pre, ∃ o, ev (base, x) = some (.ok o)) →
      ∀ s, Inv s → Agrees Inv (ev (base, v)) (f v s))
    {s : Session} (hs : Inv s) :
    Agrees Inv (evalAll ev (items.map (base, ·))) (Run.mapList f items s) := by
  induction items generalizing s with
  | nil => exact .pure hs
  | cons v items ih =>
    refine (hf [] v items rfl (by simp) s hs).andThen fun o s' ho hs' => ?_
    have hrest := ih (fun pre v' post hitems hpre => hf (v :: pre) v' post (congrArg _ hitems)
      (List.forall_mem_cons.mpr ⟨⟨o, ho⟩, hpre⟩)) hs'
    exact hrest.andThen fun rest s'' _ hs'' => .pure hs''

/-- Over `docs`, the resolver is the unfolding of `expand docs`, fuel by fuel. -/
theorem resolveObject_agrees (k : Nat) (base : Option String) (v : PyVal)
    (hserve : ServesFrom w dir ttl Inv docs (base, v)) {s : Session} (hs : Inv s) :
    Agrees Inv (eval (expand docs) k (base, v)) (resolveObject w dir ttl k base v s) := by
  induction k generalizing base v s with
  | zero => exact rfl
  | succ k ih =>
    cases v with
    | dict items =>
      cases dictCase items with
      | external ref sole isExt =>
        have href := hserve base ref s ⟨items, .refl, sole, isExt⟩ hs
        have h := href.andThen (g := fun p => eval (expand docs) k (some p.2, p.1))
          (f := fun p => resolveObject w dir ttl k (some p.2) p.1) fun p s' hp hs' =>
            ih _ _ (hserve.visits (visits_external sole isExt (Option.some.inj hp))) hs'
        rw [eval, expand_external sole isExt]
        simp only [resolveObject, sole, isExt, if_true]
        cases hl : lookupRef docs ref base with
        | error e => rwa [hl] at h
        | ok p => rwa [hl] at h
      | keep v sole keep =>
        rw [eval, expand_keep sole keep]
        cases v with
        | str ref =>
          simp only [resolveObject, sole, keep ref rfl]
          exact .pure hs
        | _ =>
          simp only [resolveObject, sole]
          exact .pure hs
      | descend sole =>
        have hvals : ∀ pre kv post, items = pre ++ kv :: post →
            (∀ x ∈ pre, ∃ o, eval (expand docs) k (base, x.2) = some (.ok o)) →
            ∀ s, Inv s → Agrees Inv (eval (expand docs) k (base, kv.2))
              (resolveObject w dir ttl k base kv.2 s) := by
          rintro pre kv post rfl hpre s hs
          refine ih base kv.2 (hserve.visits (visits_descend sole fun x hx => ?_)) hs
          obtain ⟨o, ho⟩ := hpre x hx
          exact Yields.clean ⟨k, ho⟩
        have h := (mapVals_agrees items hvals hs).andThen
          (g := fun kvs => some (.ok (PyVal.dict kvs)))
          (f := fun kvs => return PyVal.dict kvs) fun kvs s' _ hs' => .pure hs'
        rw [andThen_assoc] at h
        rw [eval, expand_descend sole]
        simp only [resolveObject, sole]
        exact h
    | list xs =>
      have hvals : ∀ pre x post, xs = pre ++ x :: post →
          (∀ y ∈ pre, ∃ o, eval (expand docs) k (base, y) = some (.ok o)) →
          ∀ s, Inv s → Agrees Inv (eval (expand docs) k (base, x))
            (resolveObject w dir ttl k base x s) := by
        rintro pre x post rfl hpre s hs
        refine ih base x (hserve.visits (visits_list fun y hy => ?_)) hs
        obtain ⟨o, ho⟩ := hpre y hy
        exact Yields.clean ⟨k, ho⟩
      exact (mapList_agrees xs hvals hs).andThen fun _ _ _ hs => .pure hs
    | _ => exact .pure hs

end

/-! ## Runs without a disk cache -/

/-- Every URL is answered the same way each time. -/
def World.Steady (w : World) : Prop := ∀ n url, w.get n url = w.get 0 url

/-- What `_fetch_remote_document` gives for a URL in a steady world. -/
def World.document (w : World) : Documents := fun url => do
  let content ← w.get 0 url
  if Str.endsWith url ".yaml" || Str.endsWith url ".yml" then content.yaml else content.json

/-- `resolve_external_refs` returns or raises `r`. -/
def Outcome (w : World) (dir : Option String) (ttl : Int) (s : Session) (spec : PyVal)
    (r : Except PyError PyVal) : Prop :=
  ∃ fuel s', resolveExternalRefs w fuel spec dir ttl s = some (r, s')

def Returns (w : World) (dir : Option String) (ttl : Int) (s : Session) (spec result : PyVal) :
    Prop :=
  Outcome w dir ttl s spec (.ok result)

/-- `resolve_external_refs` comes to an end: some depth of recursion is enough. -/
def Terminates (w : World) (dir : Option String) (ttl : Int) (s : Session) (spec : PyVal) : Prop :=
  ∃ fuel, resolveExternalRefs w fuel spec dir ttl s ≠ none

/-- The in-memory cache holds what the remote side answers. -/
def CacheOf (docs : Documents) (s : Session) : Prop :=
  ∀ url doc, s.documentCache url = some doc → docs url = .ok doc

theorem CacheOf.remember (h : CacheOf docs s) (hdoc : docs url = .ok doc) :
    CacheOf docs { s with documentCache := Function.update s.documentCache url (some doc) } := by
  intro url' doc' hlookup
  by_cases heq : url' = url
  · subst heq
    simp only [Function.update_self, Option.some.injEq] at hlookup
    rw [hdoc, hlookup]
  · simp only [Function.update_of_ne heq] at hlookup
    exact h url' doc' hlookup

theorem fetchRemoteDocument_eq (hw : w.Steady) (url : String) (s : Session) :
    fetchRemoteDocument w url s =
      some (w.document url, { s with requests := s.requests ++ [url] }) := by
  unfold fetchRemoteDocument World.document
  simp only [Run.bind_apply, Run.session, Run.update, Run.lift]
  rw [hw s.requests.length url]
  cases w.get 0 url with
  | error e => rfl
  | ok content =>
    simp only [bind, Except.bind]
    split <;> rfl

theorem memory_serves (hw : w.Steady) : Serves w none ttl (CacheOf w.document) w.document := by
  intro url s hs
  unfold getDocument
  simp only [Run.bind_apply, Run.session]
  cases hlookup : s.documentCache url with
  | some doc =>
    rw [hs url doc hlookup]
    exact .pure hs
  | none =>
    have hmiss : PyVal.none.isNone = true := rfl
    simp only [Run.bind_apply, getDocument.cached, Run.pure_apply]
    rw [if_pos hmiss, Run.bind_apply, fetchRemoteDocument_eq hw]
    cases hdoc : w.document url with
    | error e => exact ⟨_, rfl, fun _ ha => nomatch ha⟩
    | ok doc =>
      have hcache : CacheOf w.document { s with requests := s.requests ++ [url] } := hs
      exact ⟨_, rfl, fun _ _ => hcache.remember hdoc⟩

theorem resolveExternalRefs_agrees {Inv : Session → Prop}
    (hserve : ServesFrom w dir ttl Inv docs (none, spec)) {s : Session}
    (hs : Inv { s with documentCache := fun _ => none }) (k : Nat) :
    Agrees Inv (eval (expand docs) k (none, spec)) (resolveExternalRefs w k spec dir ttl s) :=
  resolveObject_agrees k none spec hserve hs

theorem outcome_iff_of_serves {Inv : Session → Prop}
    (hserve : ServesFrom w dir ttl Inv docs (none, spec)) {s : Session}
    (hs : Inv { s with documentCache := fun _ => none }) {r : Except PyError PyVal} :
    Outcome w dir ttl s spec r ↔ Yields (expand docs) (none, spec) r := by
  refine exists_congr fun k => ?_
  have h := resolveExternalRefs_agrees hserve hs k
  match he : eval (expand docs) k (none, spec), h with
  | none, h =>
    rw [show resolveExternalRefs w k spec dir ttl s = none from h]
    simp
  | some r, ⟨s', hx, _⟩ =>
    rw [hx]
    simp

theorem terminates_iff_outcome {s : Session} :
    Terminates w dir ttl s spec ↔ ∃ r, Outcome w dir ttl s spec r := by
  refine ⟨fun ⟨k, hk⟩ => ?_, fun ⟨r, k, s', hk⟩ => ⟨k, by simp [hk]⟩⟩
  obtain ⟨⟨r, s'⟩, hx⟩ := Option.ne_none_iff_exists'.mp hk
  exact ⟨r, k, s', hx⟩

theorem outcome_iff (hw : w.Steady) {ttl : Int} {s : Session} {spec : PyVal}
    {r : Except PyError PyVal} :
    Outcome w none ttl s spec r ↔ Yields (expand w.document) (none, spec) r :=
  outcome_iff_of_serves ((memory_serves hw).servesFrom _) fun _ _ h => nomatch h

theorem returns_iff (hw : w.Steady) {ttl : Int} {s : Session} {spec result : PyVal} :
    Returns w none ttl s spec result ↔
      Yields (expand w.document) (none, spec) (.ok result) :=
  outcome_iff hw

theorem terminates_iff (hw : w.Steady) {ttl : Int} {s : Session} {spec : PyVal} :
    Terminates w none ttl s spec ↔ Halts (expand w.document) (none, spec) :=
  terminates_iff_outcome.trans (exists_congr fun _ => outcome_iff hw)

/-! ## Finite stores -/

/-- Finitely many documents by URL. -/
abbrev Store := List (String × PyVal)

namespace Store

def documents (store : Store) : Documents := fun url =>
  match store.lookup url with
  | some doc => .ok doc
  | none => .error ⟨.other "HTTPStatusError", url⟩

/-- A world in which the remote side serves the store, whichever parser is used. -/
def world (store : Store) : World where
  get _ url := (store.documents url).map fun doc => ⟨.ok doc, .ok doc⟩
  time _ := 0
  sha256 url := url

theorem world_steady (store : Store) : store.world.Steady := fun _ _ => rfl

theorem world_document (store : Store) : store.world.document = store.documents := by
  funext url
  cases h : store.documents url with
  | error e => simp [World.document, world, h, Except.map, bind, Except.bind]
  | ok doc => simp [World.document, world, h, Except.map, bind, Except.bind]

theorem world_finite (store : Store) :
    {url | ∃ doc, store.world.document url = .ok doc}.Finite := by
  refine (store.map Prod.fst).finite_toSet.subset fun url ⟨doc, hdoc⟩ => ?_
  rw [world_document, documents] at hdoc
  cases h : store.lookup url with
  | none => simp [h] at hdoc
  | some doc =>
    obtain ⟨_, _, rfl, _⟩ := List.lookup_eq_some_iff.mp h
    simp

end Store

/-- A process that has made no request and has no cache file. -/
def Session.start : Session where
  documentCache _ := none
  disk _ := none
  requests := []
  readings := 0

end FastGeoApi
