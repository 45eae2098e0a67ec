import FastGeoApi.Resolver.Inlining
import Mathlib.Data.Set.Finite.Lattice
import Mathlib.Data.Set.Finite.Lemmas
import Mathlib.Data.Finite.Prod

/-!
# Termination of the resolver

Over finitely many documents only finitely many nodes can be met: a base URL is one of the
documents, and a value is part of a document or of the specification (`finite_reachable`). The
resolver comes to an end exactly when no node that it visits leads back to itself. The visiting
order matters, because a reference that fails ends the run before a cycle behind it is entered.
-/

namespace FastGeoApi
open Unfolding

namespace PyVal

theorem mem_subsList {u x : PyVal} {xs : List PyVal} (hx : x ∈ xs) (h : u ∈ subs x) :
    u ∈ subsList xs := by
  induction xs with
  | nil => simp at hx
  | cons y xs ih =>
    rw [subsList, List.mem_append]
    rcases List.mem_cons.mp hx with rfl | hx
    · exact .inl h
    · exact .inr (ih hx)

theorem mem_subsItems {u x : PyVal} {k : PyKey} {kvs : List (PyKey × PyVal)} (hx : (k, x) ∈ kvs)
    (h : u ∈ subs x) : u ∈ subsItems kvs := by
  induction kvs with
  | nil => simp at hx
  | cons kv kvs ih =>
    rw [subsItems, List.mem_append]
    rcases List.mem_cons.mp hx with rfl | hx
    · exact .inl h
    · exact .inr (ih hx)

theorem Sub.mem_subs {u v : PyVal} (h : Sub u v) : u ∈ subs v := by
  induction h with
  | @refl v => cases v <;> simp [subs]
  | tuple hx _ ih => exact List.mem_cons_of_mem _ (mem_subsList hx ih)
  | list hx _ ih => exact List.mem_cons_of_mem _ (mem_subsList hx ih)
  | dict hx _ ih => exact List.mem_cons_of_mem _ (mem_subsItems hx ih)

theorem finite_sub (v : PyVal) : {u | Sub u v}.Finite :=
  (List.finite_toSet (subs v)).subset fun _ h => h.mem_subs

end PyVal

/-! ## The nodes that can be met -/

theorem getItem_sub {v u : PyVal} {part : String} (h : getItem v part = .ok u) : u.Sub v := by
  cases v with
  | dict items =>
    rw [getItem] at h
    cases hget : PyVal.get items part with
    | none => simp [hget] at h
    | some x =>
      simp only [hget, Except.ok.injEq] at h
      exact h ▸ .dict (PyVal.mem_of_get hget) .refl
  | _ => simp [getItem] at h

theorem foldlM_getItem_sub {parts : List String} {v u : PyVal}
    (h : parts.foldlM getItem v = .ok u) : u.Sub v := by
  induction parts generalizing v with
  | nil =>
    cases h
    exact .refl
  | cons part parts ih =>
    rw [List.foldlM_cons] at h
    cases hx : getItem v part with
    | error e => simp [hx, bind, Except.bind] at h
    | ok x =>
      simp only [hx, bind, Except.bind] at h
      exact (ih h).trans (getItem_sub hx)

theorem navigateToFragment_sub {doc v : PyVal} {fragment : String}
    (h : navigateToFragment doc fragment = .ok v) : v.Sub doc := by
  unfold navigateToFragment at h
  split at h
  · cases h
    exact .refl
  · exact foldlM_getItem_sub h

section
variable (docs : Documents) (spec : PyVal)

/-- The URLs that relative references can be resolved against. -/
def bases : Set (Option String) :=
  insert none (some '' insert "" {url | ∃ doc, docs url = .ok doc})

/-- The values that a run can meet. -/
def values : Set PyVal :=
  {v | v.Sub spec} ∪ {v | v.Sub (.dict [])} ∪
    ⋃ url ∈ {url | ∃ doc, docs url = .ok doc}, {v | ∃ doc, docs url = .ok doc ∧ v.Sub doc}

end

variable {docs : Documents} {spec : PyVal}

theorem sub_mem_values {u v : PyVal} (hv : v ∈ values docs spec) (h : u.Sub v) :
    u ∈ values docs spec := by
  rcases hv with (hv | hv) | hv
  · exact .inl (.inl (h.trans hv))
  · exact .inl (.inr (h.trans hv))
  · obtain ⟨_, ⟨url, rfl⟩, hv⟩ := hv
    obtain ⟨_, ⟨hurl, rfl⟩, doc, hdoc, hv⟩ := hv
    exact .inr (Set.mem_biUnion hurl ⟨doc, hdoc, h.trans hv⟩)

theorem lookupRef_mem {ref url : String} {base : Option String} {v : PyVal}
    (h : lookupRef docs ref base = .ok (v, url)) :
    some url ∈ bases docs ∧ v ∈ values docs spec := by
  obtain ⟨fragment, doc, _, hdoc, hnav⟩ := lookupRef_eq_ok.mp h
  have hsub := navigateToFragment_sub hnav
  unfold Documents.get at hdoc
  split at hdoc
  · refine ⟨.inr ⟨url, .inr ⟨doc, hdoc⟩, rfl⟩, .inr ?_⟩
    exact Set.mem_biUnion ⟨doc, hdoc⟩ ⟨doc, hdoc, hsub⟩
  · rename_i hurl
    cases hdoc
    refine ⟨.inr ⟨url, .inl ?_, rfl⟩, .inl (.inr hsub)⟩
    exact not_not.mp hurl

theorem succ_mem {n m : Node} (hn : n ∈ bases docs ×ˢ values docs spec)
    (h : Succ (expand docs) n m) : m ∈ bases docs ×ˢ values docs spec := by
  obtain ⟨base, v⟩ := n
  obtain ⟨hbase, hv⟩ := hn
  cases v with
  | dict items =>
    cases dictCase items with
    | external ref sole isExt =>
      obtain ⟨v, url, hl, rfl⟩ := (succ_external sole isExt).mp h
      exact lookupRef_mem hl
    | keep v sole keep => exact absurd h (succ_keep sole keep)
    | descend sole =>
      obtain ⟨kv, hkv, rfl⟩ := (succ_descend sole).mp h
      exact ⟨hbase, sub_mem_values hv (.dict hkv .refl)⟩
  | list xs =>
    obtain ⟨x, hx, rfl⟩ := succ_list.mp h
    exact ⟨hbase, sub_mem_values hv (.list hx .refl)⟩
  | _ => exact absurd h (succ_leaf rfl)

/-- Finitely many documents: finitely many nodes are reachable. -/
theorem finite_reachable (hfin : {url | ∃ doc, docs url = .ok doc}.Finite) :
    {m | Relation.ReflTransGen (Succ (expand docs)) (none, spec) m}.Finite := by
  have hbases : (bases docs).Finite := ((hfin.insert "").image some).insert none
  have hdoc : ∀ url, {v : PyVal | ∃ doc, docs url = .ok doc ∧ v.Sub doc}.Finite := by
    intro url
    cases h : docs url with
    | error e => simp
    | ok doc => simpa using PyVal.finite_sub doc
  have hvalues : (values docs spec).Finite :=
    ((PyVal.finite_sub spec).union (PyVal.finite_sub _)).union (hfin.biUnion fun url _ => hdoc url)
  refine (hbases.prod hvalues).subset fun m hm => ?_
  induction hm with
  | refl => exact ⟨.inl rfl, .inl (.inl .refl)⟩
  | tail _ h ih => exact succ_mem ih h

/-! ## Termination -/

/-- A node that the resolver visits leads back to itself. -/
def ReferenceCycle (docs : Documents) (spec : PyVal) : Prop :=
  Cyclic (expand docs) (none, spec)

/-- Over finitely many documents, a call of `resolve_external_refs` comes to an end if and only if
no cycle of references is visited. -/
theorem terminates_iff_no_referenceCycle (w : World) (hw : w.Steady)
    (hfin : {url | ∃ doc, w.document url = .ok doc}.Finite) (spec : PyVal) (ttl : Int)
    (s : Session) : Terminates w none ttl s spec ↔ ¬ReferenceCycle w.document spec := by
  rw [terminates_iff hw]
  exact halts_iff_no_cycle (finite_reachable hfin)

/-- A schema that refers to itself by its own URL. -/
def treeStore : Store :=
  [("https://example.com/tree.json",
    .dict [(.str "child", .dict [(.str "$ref", .str "https://example.com/tree.json")])])]

def treeSpec : PyVal := .dict [(.str "$ref", .str "https://example.com/tree.json")]

theorem treeSpec_terminates_iff :
    Terminates treeStore.world none 86400 Session.start treeSpec ↔
      ¬ReferenceCycle treeStore.world.document treeSpec :=
  terminates_iff_no_referenceCycle treeStore.world treeStore.world_steady treeStore.world_finite
    treeSpec 86400 Session.start

theorem treeStore_cycle : ReferenceCycle treeStore.documents treeSpec := by
  let doc : Node := (some "https://example.com/tree.json",
    .dict [(.str "child", treeSpec)])
  let ref : Node := (some "https://example.com/tree.json", treeSpec)
  have henter : Visits (expand treeStore.documents) (none, treeSpec) doc := .inl rfl
  have hchild : Visits (expand treeStore.documents) doc ref :=
    .inr ⟨[], [], _, rfl, by simp⟩
  have hback : Visits (expand treeStore.documents) ref doc := .inl rfl
  exact ⟨doc, .single henter, .tail (.single hchild) hback⟩

/-- The resolver does not come to an end on a document that refers to itself. -/
theorem treeSpec_not_terminates :
    treeStore.world.Steady ∧ {url | ∃ doc, treeStore.world.document url = .ok doc}.Finite ∧
      ¬Terminates treeStore.world none 86400 Session.start treeSpec := by
  refine ⟨treeStore.world_steady, treeStore.world_finite, fun h => ?_⟩
  rw [terminates_iff treeStore.world_steady, treeStore.world_document] at h
  exact treeStore_cycle.not_halts h

end FastGeoApi
