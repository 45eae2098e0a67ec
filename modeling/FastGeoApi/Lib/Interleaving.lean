import Mathlib.Logic.Function.Basic
import Mathlib.Logic.Relation

/-!
# Interleaved processes

Processes with a local state each take steps on one shared state, in any order. A run may be limited
to steps that meet a condition on the process and the state before the step. An invariant that every
such step keeps holds all along such a run.
-/

namespace FastGeoApi.Interleaving

structure State (ι σ τ : Type) where
  shared : σ
  locals : ι → τ

variable {ι σ τ : Type} [DecidableEq ι]

/-- The state after process `i` has moved. -/
def State.moved (s : State ι σ τ) (i : ι) (shared : σ) (local' : τ) : State ι σ τ where
  shared := shared
  locals := Function.update s.locals i local'

section
variable {s : State ι σ τ} {i j : ι} {shared : σ} {local' : τ}

@[simp] theorem moved_shared : (s.moved i shared local').shared = shared := rfl

@[simp] theorem moved_self : (s.moved i shared local').locals i = local' :=
  Function.update_self ..

theorem moved_other (h : j ≠ i) : (s.moved i shared local').locals j = s.locals j :=
  Function.update_of_ne h ..

@[simp] theorem moved_moved {shared' : σ} {local'' : τ} :
    (s.moved i shared local').moved i shared' local'' = s.moved i shared' local'' := by
  rw [State.moved, State.moved, State.moved, Function.update_idem]

/-- What holds of the new local state and of the local states of the others holds of all. -/
theorem forall_moved {P : ι → τ → Prop} (hself : P i local')
    (hothers : ∀ j, j ≠ i → P j (s.locals j)) :
    ∀ j, P j ((s.moved i shared local').locals j) := by
  intro j
  by_cases h : j = i
  · subst h
    rwa [moved_self]
  · rw [moved_other h]
    exact hothers j h

end

/-- `step i` says what process `i` may do: its local state and the shared one, before and after. -/
inductive Step (step : ι → σ × τ → σ × τ → Prop) (i : ι) (s : State ι σ τ) :
    State ι σ τ → Prop where
  | move (h : step i (s.shared, s.locals i) (shared, local')) :
    Step step i s (s.moved i shared local')

/-- A run whose steps all meet the condition. -/
def Reaches (step : ι → σ × τ → σ × τ → Prop) (allowed : ι → State ι σ τ → Prop) :
    State ι σ τ → State ι σ τ → Prop :=
  Relation.ReflTransGen fun s s' => ∃ i, allowed i s ∧ Step step i s s'

section
variable {step : ι → σ × τ → σ × τ → Prop} {allowed : ι → State ι σ τ → Prop}
  {s s' : State ι σ τ}

/-- The invariant rule. -/
theorem Reaches.invariant {P : State ι σ τ → Prop}
    (hstep : ∀ i s shared local', P s → allowed i s →
      step i (s.shared, s.locals i) (shared, local') → P (s.moved i shared local'))
    (h : Reaches step allowed s s') (hs : P s) : P s' := by
  induction h with
  | refl => exact hs
  | tail _ hlast ih =>
    obtain ⟨i, hi, hmove⟩ := hlast
    cases hmove with
    | move hmove => exact hstep i _ _ _ ih hi hmove

theorem Reaches.refl : Reaches step allowed s s := Relation.ReflTransGen.refl

theorem Reaches.next {i : ι} {shared : σ} {local' : τ} (h : Reaches step allowed s s')
    (hi : allowed i s') (hmove : step i (s'.shared, s'.locals i) (shared, local')) :
    Reaches step allowed s (s'.moved i shared local') :=
  h.tail ⟨i, hi, .move hmove⟩

end
end FastGeoApi.Interleaving
