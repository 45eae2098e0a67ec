import FastGeoApi.Lib.Lists
import Mathlib.Logic.Relation
import Mathlib.Order.WellFounded
import Mathlib.Data.Fintype.Card
import Mathlib.Data.Set.Finite.Basic

/-!
# Ordered unfolding of a graph into a tree

A node of a graph is looked at once (`Expansion`): it is finished, it fails, it stands for another
node, or it has an ordered list of children whose outcomes are put together. `eval` unfolds a node
with fuel, children from left to right, and stops at the first failure.

* `Yields` is the outcome at some fuel; it is unique (`Yields.unique`).
* `Clean` nodes reach no failure and no infinite path; they are the nodes with a successful outcome
  (`clean_iff_yields`).
* `Visits` is one step of the evaluation order: a child is visited when all the children before it
  are clean. Only visited nodes matter (`eval_congr`); one that fails makes the whole fail
  (`yields_error_iff`).
* A node halts exactly when no infinite path of visits leaves it (`halts_iff_acc`), which on a
  finite graph means that no visited node leads back to itself (`halts_iff_no_cycle`).
* `Same` compares two nodes child by child; it is having a common outcome (`same_iff`).
-/

namespace FastGeoApi

/-- What one look at a node of the graph says. -/
inductive Expansion (N E O : Type) where
  | done (out : O)
  | fail (err : E)
  | jump (next : N)
  | fork (children : List N) (build : List O → O)

namespace Unfolding

variable {N E O : Type}

/-- Go on with a successful outcome; `none` is an outcome that needs more fuel. -/
def andThen (r : Option (Except E α)) (f : α → Option (Except E β)) : Option (Except E β) :=
  match r with
  | none => none
  | some (.error e) => some (.error e)
  | some (.ok a) => f a

/-- Outcomes of a list of nodes from left to right, up to the first failure. -/
def evalAll (f : N → Option (Except E O)) : List N → Option (Except E (List O))
  | [] => some (.ok [])
  | n :: ns => andThen (f n) fun o => andThen (evalAll f ns) fun os => some (.ok (o :: os))

/-- Unfold a node; `none` means that the fuel ran out. -/
def eval (step : N → Expansion N E O) : Nat → N → Option (Except E O)
  | 0, _ => none
  | k + 1, n =>
    match step n with
    | .done o => some (.ok o)
    | .fail e => some (.error e)
    | .jump m => eval step k m
    | .fork ns build => andThen (evalAll (eval step k) ns) fun os => some (.ok (build os))

theorem andThen_eq_some {r : Option (Except E α)} {f : α → Option (Except E β)} {out} :
    andThen r f = some out ↔
      (∃ e, r = some (.error e) ∧ out = .error e) ∨ ∃ a, r = some (.ok a) ∧ f a = some out := by
  match r with
  | none => simp [andThen]
  | some (.error e) => simp [andThen, eq_comm]
  | some (.ok a) => simp [andThen]

theorem andThen_eq_ok {r : Option (Except E α)} {f : α → Option (Except E β)} {b : β} :
    andThen r f = some (.ok b) ↔ ∃ a, r = some (.ok a) ∧ f a = some (.ok b) := by
  rw [andThen_eq_some]
  simp

theorem andThen_assoc {r : Option (Except E α)} {f : α → Option (Except E β)}
    {g : β → Option (Except E γ)} :
    andThen (andThen r f) g = andThen r fun a => andThen (f a) g := by
  match r with
  | none | some (.error e) | some (.ok a) => rfl

theorem andThen_mono {r r' : Option (Except E α)} {f f' : α → Option (Except E β)}
    (hr : ∀ out, r = some out → r' = some out) (hf : ∀ a out, f a = some out → f' a = some out)
    {out} (h : andThen r f = some out) : andThen r' f' = some out := by
  rw [andThen_eq_some] at h ⊢
  rcases h with ⟨e, he, hout⟩ | ⟨a, ha, hout⟩
  · exact .inl ⟨e, hr _ he, hout⟩
  · exact .inr ⟨a, hr _ ha, hf _ _ hout⟩

/-! ## Lists of nodes -/

section
variable {f g : N → Option (Except E O)}

theorem evalAll_mono (hfg : ∀ n r, f n = some r → g n = some r) {ns : List N} {r}
    (h : evalAll f ns = some r) : evalAll g ns = some r := by
  induction ns generalizing r with
  | nil => exact h
  | cons n ns ih =>
    exact andThen_mono (hfg n) (fun o _ h => andThen_mono (fun _ => ih) (by simp) h) h

theorem evalAll_eq_ok {ns : List N} {os : List O} :
    evalAll f ns = some (.ok os) ↔ List.Forall₂ (fun n o => f n = some (.ok o)) ns os := by
  induction ns generalizing os with
  | nil => simp [evalAll, eq_comm]
  | cons n ns ih =>
    rw [List.forall₂_cons_left_iff, evalAll, andThen_eq_ok]
    simp only [andThen_eq_ok, ih, Option.some.injEq, Except.ok.injEq, eq_comm (b := os),
      exists_and_left]

theorem evalAll_eq_error {ns : List N} {e : E} :
    evalAll f ns = some (.error e) ↔ ∃ pre m post, ns = pre ++ m :: post ∧
      (∀ x ∈ pre, ∃ o, f x = some (.ok o)) ∧ f m = some (.error e) := by
  refine ⟨fun h => ?_, ?_⟩
  · induction ns with
    | nil => cases h
    | cons n ns ih =>
      rcases andThen_eq_some.mp h with ⟨_, hn, he⟩ | ⟨o, hn, hrest⟩
      · cases he
        exact ⟨[], n, ns, rfl, by simp, hn⟩
      · rcases andThen_eq_some.mp hrest with ⟨_, hns, he⟩ | ⟨_, _, hok⟩
        · cases he
          obtain ⟨pre, m, post, rfl, hpre, hm⟩ := ih hns
          exact ⟨n :: pre, m, post, rfl, List.forall_mem_cons.mpr ⟨⟨o, hn⟩, hpre⟩, hm⟩
        · cases hok
  · rintro ⟨pre, m, post, rfl, hpre, hm⟩
    induction pre with
    | nil => simp [evalAll, hm, andThen]
    | cons n pre ih =>
      obtain ⟨⟨o, hn⟩, hpre⟩ := List.forall_mem_cons.mp hpre
      rw [List.cons_append, evalAll, hn, ih hpre]
      rfl

/-- Only the nodes up to the first that does not succeed matter. -/
theorem evalAll_congr {ns : List N}
    (h : ∀ pre m post, ns = pre ++ m :: post → (∀ x ∈ pre, ∃ o, g x = some (.ok o)) →
      f m = g m) : evalAll f ns = evalAll g ns := by
  induction ns with
  | nil => rfl
  | cons n ns ih =>
    rw [evalAll, evalAll, h [] n ns rfl (by simp)]
    match hn : g n with
    | none | some (.error e) => rfl
    | some (.ok o) =>
      rw [ih fun pre m post hns hpre => h (n :: pre) m post (congrArg _ hns)
        (List.forall_mem_cons.mpr ⟨⟨o, hn⟩, hpre⟩)]

/-- Evaluation gets past a prefix whose nodes all succeed. -/
theorem isSome_of_evalAll_append {pre post : List N} {n : N} {r}
    (h : evalAll f (pre ++ n :: post) = some r)
    (hpre : ∀ x ∈ pre, ∀ out, f x = some out → ∃ o, out = .ok o) : ∃ out, f n = some out := by
  induction pre generalizing r with
  | nil =>
    rcases andThen_eq_some.mp h with ⟨e, he, _⟩ | ⟨o, ho, _⟩
    · exact ⟨_, he⟩
    · exact ⟨_, ho⟩
  | cons x pre ih =>
    rcases andThen_eq_some.mp h with ⟨e, he, _⟩ | ⟨o, _, hrest⟩
    · obtain ⟨o, ho⟩ := hpre x List.mem_cons_self _ he
      cases ho
    · have hsub : ∀ y ∈ pre, ∀ out, f y = some out → ∃ o, out = .ok o :=
        fun y hy => hpre y (List.mem_cons_of_mem _ hy)
      rcases andThen_eq_some.mp hrest with ⟨e, he, _⟩ | ⟨os, hos, _⟩
      · exact ih he hsub
      · exact ih hos hsub

end

/-! ## Outcomes -/

section
variable (step : N → Expansion N E O)

/-- The outcome of unfolding a node with enough fuel. -/
def Yields (n : N) (r : Except E O) : Prop := ∃ k, eval step k n = some r

/-- Unfolding the node comes to an end. -/
def Halts (n : N) : Prop := ∃ r, Yields step n r

/-- The nodes that unfolding a node may ask for. -/
def Succ (n m : N) : Prop :=
  step n = .jump m ∨ ∃ ns build, step n = .fork ns build ∧ m ∈ ns

/-- No failure and no infinite path is reachable from the node. -/
inductive Clean : N → Prop where
  | intro (ok : ∀ e, step n ≠ .fail e) (next : ∀ m, Succ step n m → Clean m) : Clean n

/-- The nodes that unfolding a node does ask for: the children before are clean. -/
def Visits (n m : N) : Prop :=
  step n = .jump m ∨
    ∃ pre post build, step n = .fork (pre ++ m :: post) build ∧ ∀ x ∈ pre, Clean step x

/-- A visited node leads back to itself. -/
def Cyclic (n : N) : Prop :=
  ∃ m, Relation.ReflTransGen (Visits step) n m ∧ Relation.TransGen (Visits step) m m

end

variable {step : N → Expansion N E O}

theorem eval_succ_mono {k : Nat} {n : N} {r} (h : eval step k n = some r) :
    eval step (k + 1) n = some r := by
  induction k generalizing n r with
  | zero => simp [eval] at h
  | succ k ih =>
    rw [eval] at h ⊢
    cases hs : step n with
    | done o | fail e => simpa [hs] using h
    | jump m =>
      simp only [hs] at h ⊢
      exact ih h
    | fork ns build =>
      simp only [hs] at h ⊢
      exact andThen_mono (fun _ => evalAll_mono fun _ _ => ih) (by simp) h

theorem eval_mono {k k' : Nat} (hk : k ≤ k') {n : N} {r} (h : eval step k n = some r) :
    eval step k' n = some r := by
  induction hk with
  | refl => exact h
  | step _ ih => exact eval_succ_mono ih

theorem Yields.unique {n : N} {r r'} (h : Yields step n r) (h' : Yields step n r') : r = r' := by
  obtain ⟨k, hk⟩ := h
  obtain ⟨k', hk'⟩ := h'
  have h1 := eval_mono (Nat.le_max_left k k') hk
  have h2 := eval_mono (Nat.le_max_right k k') hk'
  exact Option.some.inj (h1.symm.trans h2)

theorem Yields.of_done {n : N} {o : O} (hs : step n = .done o) : Yields step n (.ok o) :=
  ⟨1, by rw [eval, hs]⟩

theorem Yields.of_fail {n : N} {e : E} (hs : step n = .fail e) : Yields step n (.error e) :=
  ⟨1, by rw [eval, hs]⟩

theorem not_yields_ok_of_fail {n : N} {e : E} (hs : step n = .fail e) {o : O} :
    ¬Yields step n (.ok o) := fun h => by
  cases h.unique (.of_fail hs)

theorem yields_jump {n m : N} (hs : step n = .jump m) {r} :
    Yields step n r ↔ Yields step m r := by
  refine ⟨fun ⟨k, hk⟩ => ?_, fun ⟨k, hk⟩ => ⟨k + 1, by simpa [eval, hs] using hk⟩⟩
  cases k with
  | zero => simp [eval] at hk
  | succ k => exact ⟨k, by simpa [eval, hs] using hk⟩

/-- One fuel serves a whole list of successful children. -/
theorem exists_fuel {ns : List N} {os : List O}
    (h : List.Forall₂ (fun n o => Yields step n (.ok o)) ns os) :
    ∃ k, List.Forall₂ (fun n o => eval step k n = some (.ok o)) ns os := by
  induction h with
  | nil => exact ⟨0, .nil⟩
  | cons hn _ ih =>
    obtain ⟨k, hk⟩ := hn
    obtain ⟨k', hk'⟩ := ih
    refine ⟨max k k', .cons (eval_mono (Nat.le_max_left k k') hk) ?_⟩
    exact hk'.imp fun _ _ h => eval_mono (Nat.le_max_right k k') h

theorem eval_fork_eq_ok {k : Nat} {n : N} {ns : List N} {build : List O → O}
    (hs : step n = .fork ns build) {o : O} :
    eval step (k + 1) n = some (.ok o) ↔
      ∃ os, List.Forall₂ (fun m o => eval step k m = some (.ok o)) ns os ∧ o = build os := by
  rw [eval, hs, andThen_eq_ok]
  simp only [evalAll_eq_ok, Option.some.injEq, Except.ok.injEq, eq_comm (b := o)]

theorem yields_fork {n : N} {ns : List N} {build : List O → O} (hs : step n = .fork ns build)
    {o : O} : Yields step n (.ok o) ↔
      ∃ os, List.Forall₂ (fun m o => Yields step m (.ok o)) ns os ∧ o = build os := by
  refine ⟨fun ⟨k, hk⟩ => ?_, fun ⟨os, hos, ho⟩ => ?_⟩
  · cases k with
    | zero => simp [eval] at hk
    | succ k =>
      obtain ⟨os, hos, ho⟩ := (eval_fork_eq_ok hs).mp hk
      exact ⟨os, hos.imp fun _ _ h => ⟨k, h⟩, ho⟩
  · obtain ⟨k, hk⟩ := exists_fuel hos
    exact ⟨k + 1, (eval_fork_eq_ok hs).mpr ⟨os, hk, ho⟩⟩

/-- Rule induction for successful outcomes. -/
theorem Yields.ok_induction {P : N → O → Prop}
    (done : ∀ {n o}, step n = .done o → P n o)
    (jump : ∀ {n m o}, step n = .jump m → Yields step m (.ok o) → P m o → P n o)
    (fork : ∀ {n ns build os}, step n = .fork ns build →
      List.Forall₂ (fun m o => Yields step m (.ok o) ∧ P m o) ns os → P n (build os))
    {n : N} {o : O} (h : Yields step n (.ok o)) : P n o := by
  obtain ⟨k, hk⟩ := h
  induction k generalizing n o with
  | zero => simp [eval] at hk
  | succ k ih =>
    cases hs : step n with
    | done o' =>
      simp only [eval, hs, Option.some.injEq, Except.ok.injEq] at hk
      exact hk ▸ done hs
    | fail e => simp [eval, hs] at hk
    | jump m =>
      simp only [eval, hs] at hk
      exact jump hs ⟨k, hk⟩ (ih hk)
    | fork ns build =>
      obtain ⟨os, hos, rfl⟩ := (eval_fork_eq_ok hs).mp hk
      exact fork hs (hos.imp fun _ _ h => ⟨⟨k, h⟩, ih h⟩)

theorem Clean.yields {n : N} (h : Clean step n) : ∃ o, Yields step n (.ok o) := by
  induction h with
  | @intro n hok _ ih =>
    cases hs : step n with
    | done o => exact ⟨o, .of_done hs⟩
    | fail e => exact absurd hs (hok e)
    | jump m =>
      obtain ⟨o, ho⟩ := ih m (.inl hs)
      exact ⟨o, (yields_jump hs).mpr ho⟩
    | fork ns build =>
      have hall : ∀ m ∈ ns, ∃ o, Yields step m (.ok o) := fun m hm =>
        ih m (.inr ⟨ns, build, hs, hm⟩)
      obtain ⟨os, hos⟩ := exists_forall₂_of_forall_mem hall
      exact ⟨build os, (yields_fork hs).mpr ⟨os, hos, rfl⟩⟩

theorem Yields.clean {n : N} {o : O} (h : Yields step n (.ok o)) : Clean step n := by
  refine h.ok_induction (P := fun n _ => Clean step n) (fun hs => ?_) (fun hs _ ih => ?_)
    (fun hs hos => ?_)
  · refine .intro (fun e he => by simp [hs] at he) fun m hm => ?_
    rcases hm with hm | ⟨_, _, hm, _⟩ <;> simp [hs] at hm
  · refine .intro (fun e he => by simp [hs] at he) fun m hm => ?_
    rcases hm with hm | ⟨_, _, hm, _⟩
    · simp only [hs, Expansion.jump.injEq] at hm
      exact hm ▸ ih
    · simp [hs] at hm
  · refine .intro (fun e he => by simp [hs] at he) fun m hm => ?_
    rcases hm with hm | ⟨_, _, hm, hmem⟩
    · simp [hs] at hm
    · simp only [hs, Expansion.fork.injEq] at hm
      obtain ⟨rfl, rfl⟩ := hm
      obtain ⟨_, _, hclean⟩ := exists_of_mem_forall₂ hos hmem
      exact hclean.2

theorem clean_iff_yields {n : N} : Clean step n ↔ ∃ o, Yields step n (.ok o) :=
  ⟨Clean.yields, fun ⟨_, h⟩ => h.clean⟩

/-! ## What is visited -/

/-- Two graphs that agree on the visited nodes give the same outcomes. -/
theorem eval_congr {step' : N → Expansion N E O} {n : N}
    (h : ∀ m, Relation.ReflTransGen (Visits step) n m → step' m = step m) (k : Nat) :
    eval step' k n = eval step k n := by
  induction k generalizing n with
  | zero => rfl
  | succ k ih =>
    rw [eval, eval, h n .refl]
    cases hs : step n with
    | done o | fail e => rfl
    | jump m => exact ih fun m' hm' => h m' (.head (.inl hs) hm')
    | fork ns build =>
      have hns : evalAll (eval step' k) ns = evalAll (eval step k) ns := by
        refine evalAll_congr fun pre m post hns hpre => ih fun m' hm' => h m' (.head ?_ hm')
        refine .inr ⟨pre, post, build, hns ▸ hs, fun x hx => ?_⟩
        obtain ⟨o, ho⟩ := hpre x hx
        exact Yields.clean ⟨k, ho⟩
      simp only [hns]

theorem yields_congr {step' : N → Expansion N E O} {n : N}
    (h : ∀ m, Relation.ReflTransGen (Visits step) n m → step' m = step m) {r : Except E O} :
    Yields step' n r ↔ Yields step n r :=
  exists_congr fun k => by rw [eval_congr h k]

/-- A failure of a visited node is a failure of the node that visits it. -/
theorem Visits.yields_error {n m : N} {e : E} (h : Visits step n m)
    (hm : Yields step m (.error e)) : Yields step n (.error e) := by
  rcases h with hs | ⟨pre, post, build, hs, hpre⟩
  · exact (yields_jump hs).mpr hm
  · obtain ⟨os, hos⟩ := exists_forall₂_of_forall_mem fun x hx => (hpre x hx).yields
    obtain ⟨k, hk⟩ := exists_fuel hos
    obtain ⟨k', hk'⟩ := hm
    have hall : evalAll (eval step (max k k')) (pre ++ m :: post) = some (.error e) := by
      refine evalAll_eq_error.mpr ⟨pre, m, post, rfl, fun x hx => ?_, ?_⟩
      · obtain ⟨o, _, ho⟩ := exists_of_mem_forall₂ hk hx
        exact ⟨o, eval_mono (Nat.le_max_left k k') ho⟩
      · exact eval_mono (Nat.le_max_right k k') hk'
    exact ⟨max k k' + 1, by simp [eval, hs, hall, andThen]⟩

theorem exists_visited_of_eval {k : Nat} {n : N} {e : E} (h : eval step k n = some (.error e)) :
    ∃ m, Relation.ReflTransGen (Visits step) n m ∧ step m = .fail e := by
  induction k generalizing n with
  | zero => cases h
  | succ k ih =>
    cases hs : step n with
    | done o => simp [eval, hs] at h
    | fail e' =>
      simp only [eval, hs, Option.some.injEq, Except.error.injEq] at h
      exact ⟨n, .refl, h ▸ hs⟩
    | jump m =>
      simp only [eval, hs] at h
      obtain ⟨m', hvisits, hfail⟩ := ih h
      exact ⟨m', .head (.inl hs) hvisits, hfail⟩
    | fork ns build =>
      simp only [eval, hs] at h
      rcases andThen_eq_some.mp h with ⟨_, hns, he⟩ | ⟨_, _, hok⟩
      · cases he
        obtain ⟨pre, m, post, hsplit, hpre, hm⟩ := evalAll_eq_error.mp hns
        obtain ⟨m', hvisits, hfail⟩ := ih hm
        refine ⟨m', .head (.inr ⟨pre, post, build, hsplit ▸ hs, fun x hx => ?_⟩) hvisits, hfail⟩
        obtain ⟨o, ho⟩ := hpre x hx
        exact Yields.clean ⟨k, ho⟩
      · cases hok

/-- A node fails exactly when it visits one that does. -/
theorem yields_error_iff {n : N} {e : E} : Yields step n (.error e) ↔
    ∃ m, Relation.ReflTransGen (Visits step) n m ∧ step m = .fail e := by
  refine ⟨fun ⟨k, hk⟩ => exists_visited_of_eval hk, ?_⟩
  rintro ⟨m, hvisits, hfail⟩
  induction hvisits using Relation.ReflTransGen.head_induction_on with
  | refl => exact .of_fail hfail
  | head hv _ ih => exact hv.yields_error ih

/-! ## Halting -/

theorem Visits.succ {n m : N} (h : Visits step n m) : Succ step n m := by
  rcases h with h | ⟨pre, post, build, h, _⟩
  · exact .inl h
  · exact .inr ⟨_, build, h, by simp⟩

/-- Whatever a node visits is evaluated with one unit of fuel less. -/
theorem eval_of_visits {k : Nat} {n m : N} {r} (h : eval step (k + 1) n = some r)
    (hv : Visits step n m) : ∃ out, eval step k m = some out := by
  rcases hv with hs | ⟨pre, post, build, hs, hpre⟩
  · exact ⟨r, by simpa [eval, hs] using h⟩
  · have hok : ∀ x ∈ pre, ∀ out, eval step k x = some out → ∃ o, out = .ok o := by
      intro x hx out hout
      obtain ⟨o, ho⟩ := (hpre x hx).yields
      exact ⟨o, Yields.unique ⟨k, hout⟩ ho⟩
    rw [eval, hs] at h
    rcases andThen_eq_some.mp h with ⟨e, he, _⟩ | ⟨os, hos, _⟩
    · exact isSome_of_evalAll_append he hok
    · exact isSome_of_evalAll_append hos hok

theorem Halts.acc {n : N} (h : Halts step n) : Acc (fun m n => Visits step n m) n := by
  obtain ⟨r, k, hk⟩ := h
  induction k generalizing n r with
  | zero => simp [eval] at hk
  | succ k ih =>
    refine ⟨_, fun m hm => ?_⟩
    obtain ⟨out, hout⟩ := eval_of_visits hk hm
    exact ih out hout

/-- A list of children comes to an end when every child does that comes after clean ones only. -/
theorem exists_evalAll {ns : List N}
    (h : ∀ pre m post, ns = pre ++ m :: post → (∀ x ∈ pre, Clean step x) → Halts step m) :
    ∃ k r, evalAll (eval step k) ns = some r := by
  induction ns with
  | nil => exact ⟨0, .ok [], rfl⟩
  | cons n ns ih =>
    obtain ⟨out, k, hk⟩ := h [] n ns rfl (by simp)
    cases out with
    | error e => exact ⟨k, .error e, by simp [evalAll, hk, andThen]⟩
    | ok o =>
      have htail : ∀ pre m post, ns = pre ++ m :: post → (∀ x ∈ pre, Clean step x) →
          Halts step m := by
        intro pre m post hns hpre
        apply h (n :: pre) m post (by simp [hns])
        intro x hx
        rcases List.mem_cons.mp hx with rfl | hx
        · exact Yields.clean ⟨k, hk⟩
        · exact hpre x hx
      obtain ⟨k', r, hr⟩ := ih htail
      have hn := eval_mono (Nat.le_max_left k k') hk
      have hns := evalAll_mono (fun _ _ => eval_mono (Nat.le_max_right k k')) hr
      cases r with
      | error e => exact ⟨max k k', .error e, by simp [evalAll, hn, hns, andThen]⟩
      | ok os => exact ⟨max k k', .ok (o :: os), by simp [evalAll, hn, hns, andThen]⟩

/-- A node halts exactly when no infinite path of visits leaves it. -/
theorem halts_iff_acc {n : N} : Halts step n ↔ Acc (fun m n => Visits step n m) n := by
  refine ⟨Halts.acc, fun h => ?_⟩
  induction h with
  | intro n _ ih =>
    cases hs : step n with
    | done o => exact ⟨_, .of_done hs⟩
    | fail e => exact ⟨_, .of_fail hs⟩
    | jump m =>
      obtain ⟨r, hr⟩ := ih m (.inl hs)
      exact ⟨r, (yields_jump hs).mpr hr⟩
    | fork ns build =>
      have hns : ∀ pre m post, ns = pre ++ m :: post → (∀ x ∈ pre, Clean step x) →
          Halts step m := fun pre m post hns hpre =>
        ih m (.inr ⟨pre, post, build, hns ▸ hs, hpre⟩)
      obtain ⟨k, r, hr⟩ := exists_evalAll hns
      cases r with
      | error e => exact ⟨.error e, k + 1, by simp [eval, hs, hr, andThen]⟩
      | ok os => exact ⟨.ok (build os), k + 1, by simp [eval, hs, hr, andThen]⟩

/-- A node that does not halt begins an endless path of visits. -/
theorem not_halts_iff {n : N} :
    ¬Halts step n ↔ ∃ path : Nat → N, path 0 = n ∧ ∀ i, Visits step (path i) (path (i + 1)) := by
  rw [halts_iff_acc]
  exact not_acc_iff_exists_descending_chain

theorem not_rel_self_of_acc {r : N → N → Prop} {a : N} (h : Acc r a) : ¬r a a := by
  induction h with
  | intro a _ ih => exact fun haa => ih a haa haa

theorem Cyclic.not_halts {n : N} (h : Cyclic step n) : ¬Halts step n := by
  obtain ⟨m, hnm, hmm⟩ := h
  intro hn
  have hm : Acc (fun m n => Visits step n m) m := by
    have hacc := hn.acc
    clear hn hmm
    induction hnm with
    | refl => exact hacc
    | tail _ hv ih => exact ih.inv hv
  exact not_rel_self_of_acc hm.transGen (Relation.transGen_swap.mp hmm)

/-- Over a finite part of the graph, halting means that no visited node leads back to itself. -/
theorem halts_iff_no_cycle {n : N} (hfin : {m | Relation.ReflTransGen (Succ step) n m}.Finite) :
    Halts step n ↔ ¬Cyclic step n := by
  refine ⟨fun h hc => hc.not_halts h, fun hc => halts_iff_acc.mpr ?_⟩
  have hvis : ∀ m, Relation.ReflTransGen (Visits step) n m →
      Relation.ReflTransGen (Succ step) n m := fun m h => h.lift id fun _ _ => Visits.succ
  let V := {m // Relation.ReflTransGen (Visits step) n m}
  have : Finite V := (hfin.subset hvis).to_subtype
  let R : V → V → Prop := fun a b => Relation.TransGen (Visits step) b.1 a.1
  have : IsTrans V R := ⟨fun _ _ _ hab hbc => hbc.trans hab⟩
  have : Std.Irrefl R := ⟨fun a ha => hc ⟨a.1, a.2, ha⟩⟩
  have hwf : WellFounded R := Finite.wellFounded_of_trans_of_irrefl R
  have hacc : ∀ a : V, Acc (fun m n => Visits step n m) a.1 := fun a => by
    induction hwf.apply a with
    | intro a _ ih =>
      refine ⟨_, fun m hm => ?_⟩
      exact ih ⟨m, a.2.tail hm⟩ (.single hm)
  exact hacc ⟨n, .refl⟩

/-! ## Nodes with the same unfolding -/

/-- The two nodes unfold in the same way, jumps apart. -/
inductive Same (step : N → Expansion N E O) : N → N → Prop where
  | left (hs : step n = .jump n') (h : Same step n' m) : Same step n m
  | right (hs : step m = .jump m') (h : Same step n m') : Same step n m
  | done (hn : step n = .done o) (hm : step m = .done o) : Same step n m
  | fork (hn : step n = .fork ns build) (hm : step m = .fork ms build)
      (hlen : ns.length = ms.length)
      (h : ∀ (i : Nat) n' m', ns[i]? = some n' → ms[i]? = some m' → Same step n' m') : Same step n m

/-- An outcome says how it was put together, and from what. -/
structure Readable (step : N → Expansion N E O) : Prop where
  fork : step n = .fork ns build → step m = .fork ms build' → os.length = ns.length →
    os'.length = ms.length → build os = build' os' → build = build' ∧ os = os'
  done : step n = .done o → step m = .fork ms build → os.length = ms.length → o ≠ build os

theorem Same.exists_yields {n m : N} (h : Same step n m) :
    ∃ o, Yields step n (.ok o) ∧ Yields step m (.ok o) := by
  induction h with
  | left hs _ ih =>
    obtain ⟨o, hn, hm⟩ := ih
    exact ⟨o, (yields_jump hs).mpr hn, hm⟩
  | right hs _ ih =>
    obtain ⟨o, hn, hm⟩ := ih
    exact ⟨o, hn, (yields_jump hs).mpr hm⟩
  | done hn hm => exact ⟨_, .of_done hn, .of_done hm⟩
  | fork hn hm hlen _ ih =>
    obtain ⟨os, hns, hms⟩ := exists_common hlen ih
    exact ⟨_, (yields_fork hn).mpr ⟨os, hns, rfl⟩, (yields_fork hm).mpr ⟨os, hms, rfl⟩⟩

theorem same_of_done (hr : Readable step) {n m : N} {o o' : O} (hn : step n = .done o)
    (hm : Yields step m (.ok o')) (ho : o = o') : Same step n m := by
  refine hm.ok_induction (P := fun m o' => o = o' → Same step n m) (fun hs ho => ?_)
    (fun hs _ ih ho => ?_) (fun hs hos ho => ?_) ho
  · exact .done hn (ho ▸ hs)
  · exact .right hs (ih ho)
  · exact absurd ho (hr.done hn hs hos.length_eq.symm)

theorem same_of_fork (hr : Readable step) {n m : N} {ns : List N} {build : List O → O}
    {os : List O} {o : O} (hn : step n = .fork ns build)
    (hos : List.Forall₂ (fun m o => ∀ m', Yields step m' (.ok o) → Same step m m') ns os)
    (hm : Yields step m (.ok o)) (ho : build os = o) : Same step n m := by
  refine hm.ok_induction (P := fun m o => build os = o → Same step n m) (fun hs ho => ?_)
    (fun hs _ ih ho => ?_) (fun {m ms build' os'} hs hos' ho => ?_) ho
  · exact absurd ho.symm (hr.done hs hn hos.length_eq.symm)
  · exact .right hs (ih ho)
  · obtain ⟨rfl, rfl⟩ := hr.fork hn hs hos.length_eq.symm hos'.length_eq.symm ho
    have hlen : ns.length = ms.length := hos.length_eq.trans hos'.length_eq.symm
    refine .fork hn hs hlen fun i n' m' hn' hm' => ?_
    obtain ⟨hi, rfl⟩ := List.getElem?_eq_some_iff.mp hn'
    obtain ⟨hi', rfl⟩ := List.getElem?_eq_some_iff.mp hm'
    exact hos.get hi (by rw [← hos.length_eq]; exact hi) _ (hos'.get hi' _).1

/-- Where outcomes can be read, two nodes have the same unfolding exactly when they have a common
outcome. -/
theorem same_iff (hr : Readable step) {n m : N} :
    Same step n m ↔ ∃ o, Yields step n (.ok o) ∧ Yields step m (.ok o) := by
  refine ⟨Same.exists_yields, fun ⟨o, hn, hm⟩ => ?_⟩
  refine hn.ok_induction (P := fun n o => ∀ m, Yields step m (.ok o) → Same step n m)
    (fun hs m hm => same_of_done hr hs hm rfl) (fun hs _ ih m hm => .left hs (ih m hm))
    (fun hs hos m hm => same_of_fork hr hs (hos.imp fun _ _ h => h.2) hm rfl) m hm

end Unfolding
end FastGeoApi
