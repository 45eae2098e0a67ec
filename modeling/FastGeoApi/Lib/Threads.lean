import FastGeoApi.Lib.Interleaving

/-!
# Threads on a memory of objects

Programs that make, read and change objects one operation at a time, so that other threads may
operate in between. An object is known by its address, and addresses are given out one after the
other. A program owns the objects that it has made. One that reads only these and the objects that
were there at the start, and changes only its own, cannot tell whether others run.
-/

namespace FastGeoApi
open Interleaving

abbrev Address := Nat

/-- A computation on objects `ω`, with what it does next for each answer of the memory. -/
inductive Prog (ω ε α : Type) where
  | done (result : Except ε α)
  | alloc (object : ω) (next : Address → Prog ω ε α)
  | read (a : Address) (next : Option ω → Prog ω ε α)
  | change (a : Address) (f : ω → ω) (next : Prog ω ε α)

namespace Prog

variable {ω ε α β : Type}

def bind : Prog ω ε α → (α → Prog ω ε β) → Prog ω ε β
  | .done (.ok a), f => f a
  | .done (.error e), _ => .done (.error e)
  | .alloc object next, f => .alloc object fun a => (next a).bind f
  | .read a next, f => .read a fun object => (next object).bind f
  | .change a g next, f => .change a g (next.bind f)

instance : Monad (Prog ω ε) where
  pure a := .done (.ok a)
  bind := Prog.bind

def lift (x : Except ε α) : Prog ω ε α := .done x

def make (object : ω) : Prog ω ε Address := .alloc object pure

def look (a : Address) : Prog ω ε (Option ω) := .read a pure

def alter (a : Address) (f : ω → ω) : Prog ω ε Unit := .change a f (pure ())

/-- The next operation. -/
def step (m : List ω) : Prog ω ε α → Option (List ω × Prog ω ε α)
  | .done _ => none
  | .alloc object next => some (m ++ [object], next m.length)
  | .read a next => some (m, next m[a]?)
  | .change a f next => some (m.modify a f, next)

/-- The whole computation, with no other operations in between. -/
def run : Prog ω ε α → List ω → Except ε α × List ω
  | .done result, m => (result, m)
  | .alloc object next, m => (next m.length).run (m ++ [object])
  | .read a next, m => (next m[a]?).run m
  | .change a f next, m => next.run (m.modify a f)

theorem bind_assoc {γ : Type} {x : Prog ω ε α} {f : α → Prog ω ε β} {g : β → Prog ω ε γ} :
    (x >>= f) >>= g = x >>= fun a => f a >>= g := by
  change (x.bind f).bind g = x.bind fun a => (f a).bind g
  induction x with
  | done result => cases result <;> rfl
  | alloc object next ih => exact congrArg _ (funext fun a => ih a)
  | read a next ih => exact congrArg _ (funext fun object => ih object)
  | change a h next ih => exact congrArg _ ih

end Prog

/-! ## Ownership -/

/-- The objects that a program has made, as they are now. -/
abbrev Own (ω : Type) := Address → Option ω

namespace Prog

variable {ω ε α β : Type} (objects : List ω)

/-- Where a program owns these objects, it uses no others than these and the ones of the start, and
ends as `Q` says. -/
def Wp (Q : Except ε α → Own ω → Prop) : Prog ω ε α → Own ω → Prop
  | .done result, own => Q result own
  | .alloc object next, own =>
    ∀ a, objects.length ≤ a → own a = none → (next a).Wp Q (Function.update own a (some object))
  | .read a next, own =>
    (a < objects.length ∧ (next objects[a]?).Wp Q own) ∨
      ∃ object, own a = some object ∧ (next (some object)).Wp Q own
  | .change a f next, own =>
    ∃ object, own a = some object ∧ next.Wp Q (Function.update own a (some (f object)))

/-- What holds after `x` for `x >>= f` to end as `Q` says. -/
def Before (f : α → Prog ω ε β) (Q : Except ε β → Own ω → Prop) : Except ε α → Own ω → Prop
  | .ok a, own => (f a).Wp objects Q own
  | .error e, own => Q (.error e) own

/-- Whatever it owns at first, the program ends with this result. -/
def Yields (x : Prog ω ε α) (r : Except ε α) : Prop :=
  ∀ own, x.Wp objects (fun r' _ => r' = r) own

section
variable {objects} {x : Prog ω ε α} {f : α → Prog ω ε β} {own : Own ω}

theorem Wp.mono {Q Q' : Except ε α → Own ω → Prop} (h : x.Wp objects Q own)
    (hQ : ∀ r own, Q r own → Q' r own) : x.Wp objects Q' own := by
  induction x generalizing own with
  | done result => exact hQ result own h
  | alloc object next ih => exact fun a ha hown => ih a (h a ha hown)
  | read a next ih =>
    rcases h with ⟨hlt, h⟩ | ⟨object, hown, h⟩
    · exact .inl ⟨hlt, ih _ h⟩
    · exact .inr ⟨object, hown, ih _ h⟩
  | change a g next ih =>
    obtain ⟨object, hown, h⟩ := h
    exact ⟨object, hown, ih h⟩

theorem Wp.bind {Q : Except ε β → Own ω → Prop} (h : x.Wp objects (Before objects f Q) own) :
    (x >>= f).Wp objects Q own := by
  change (x.bind f).Wp objects Q own
  induction x generalizing own with
  | done result =>
    cases result with
    | ok a => exact h
    | error e => exact h
  | alloc object next ih => exact fun a ha hown => ih a (h a ha hown)
  | read a next ih =>
    rcases h with ⟨hlt, h⟩ | ⟨object, hown, h⟩
    · exact .inl ⟨hlt, ih _ h⟩
    · exact .inr ⟨object, hown, ih _ h⟩
  | change a g next ih =>
    obtain ⟨object, hown, h⟩ := h
    exact ⟨object, hown, ih h⟩

theorem Yields.pure (a : α) : Yields objects (Pure.pure a : Prog ω ε α) (.ok a) := fun _ => rfl

theorem Yields.lift (r : Except ε α) : Yields objects (Prog.lift r : Prog ω ε α) r := fun _ => rfl

/-- An object of the start is read as it was. -/
theorem Yields.look {a : Address} (h : a < objects.length) :
    Yields objects (Prog.look a : Prog ω ε (Option ω)) (.ok objects[a]?) :=
  fun _ => .inl ⟨h, rfl⟩

theorem Yields.bind {r : Except ε α} {g : α → Except ε β} (hx : Yields objects x r)
    (hf : ∀ a, r = .ok a → Yields objects (f a) (g a)) :
    Yields objects (x >>= f) (r >>= g) := by
  intro own
  refine Wp.bind ((hx own).mono fun r' own' hr => ?_)
  subst hr
  cases r' with
  | ok a => exact hf a rfl own'
  | error e => rfl

end
end Prog

/-! ## Threads -/

/-- Threads that run programs on one memory. -/
abbrev Threads (ι ω ε α : Type) := State ι (List ω) (Prog ω ε α)

section
variable {ι ω ε α : Type} [DecidableEq ι]

/-- What a thread may do: the next operation of its program. -/
def ThreadMoves (_ : ι) (before after : List ω × Prog ω ε α) : Prop :=
  before.2.step before.1 = some after

/-- The states that threads may be in together after operations in any order. -/
def ThreadsReach (s s' : Threads ι ω ε α) : Prop := Reaches ThreadMoves (fun _ _ => True) s s'

/-- What the threads own is in the memory, past the objects of the start, and no two of them own
the same. -/
structure Separate (objects : List ω) (own : ι → Own ω) (m : List ω) : Prop where
  kept : objects <+: m
  present : ∀ i a object, own i a = some object → m[a]? = some object
  made : ∀ i a object, own i a = some object → objects.length ≤ a
  apart : ∀ i j a object object', own i a = some object → own j a = some object' → i = j

variable {objects m m' : List ω} {own : ι → Own ω} {i : ι}

omit [DecidableEq ι] in
theorem Separate.nothing (hm : objects <+: m) : Separate objects (fun (_ : ι) _ => none) m where
  kept := hm
  present _ _ _ h := by cases h
  made _ _ _ h := by cases h
  apart _ _ _ _ _ h := by cases h

omit [DecidableEq ι] in
theorem Separate.fresh (h : Separate objects own m) (j : ι) : own j m.length = none := by
  cases hown : own j m.length with
  | none => rfl
  | some object =>
    have hget := h.present j _ _ hown
    rw [List.getElem?_eq_none (Nat.le_refl m.length)] at hget
    cases hget

/-- What is owned after thread `i` has got an object that no other one owns. -/
theorem own_cases {a b : Address} {j : ι} {object object' : ω}
    (hown : ∀ j, j ≠ i → own j a = none)
    (h : Function.update own i (Function.update (own i) a (some object)) j b = some object') :
    j = i ∧ b = a ∧ object' = object ∨ b ≠ a ∧ own j b = some object' := by
  by_cases hji : j = i
  · subst hji
    rw [Function.update_self] at h
    by_cases hba : b = a
    · subst hba
      rw [Function.update_self] at h
      exact .inl ⟨rfl, rfl, (Option.some.inj h).symm⟩
    · rw [Function.update_of_ne hba] at h
      exact .inr ⟨hba, h⟩
  · rw [Function.update_of_ne hji] at h
    refine .inr ⟨?_, h⟩
    rintro rfl
    rw [hown j hji] at h
    cases h

/-- Where thread `i` gets a new object or changes one of its own, the memory changes there only. -/
theorem Separate.update (h : Separate objects own m) {a : Address} {object : ω}
    (hkept : objects <+: m') (ha : objects.length ≤ a) (hself : m'[a]? = some object)
    (hothers : ∀ b, b ≠ a → ∀ object, m[b]? = some object → m'[b]? = some object)
    (hown : ∀ j, j ≠ i → own j a = none) :
    Separate objects (Function.update own i (Function.update (own i) a (some object))) m' := by
  refine ⟨hkept, ?_, ?_, ?_⟩
  · intro j b object' hj
    rcases own_cases hown hj with ⟨_, rfl, rfl⟩ | ⟨hba, hj⟩
    · exact hself
    · exact hothers b hba object' (h.present j b object' hj)
  · intro j b object' hj
    rcases own_cases hown hj with ⟨_, rfl, _⟩ | ⟨_, hj⟩
    · exact ha
    · exact h.made j b object' hj
  · intro j k b object' object'' hj hk
    rcases own_cases hown hj with ⟨rfl, rfl, _⟩ | ⟨hba, hj⟩
    · rcases own_cases hown hk with ⟨rfl, _, _⟩ | ⟨hba, _⟩
      · rfl
      · exact absurd rfl hba
    · rcases own_cases hown hk with ⟨_, rfl, _⟩ | ⟨_, hk⟩
      · exact absurd rfl hba
      · exact h.apart j k b object' object'' hj hk

/-- One operation of thread `i`. -/
theorem Separate.step {x x' : Prog ω ε α} {Q : Except ε α → Own ω → Prop}
    (h : Separate objects own m) (hx : x.Wp objects Q (own i)) (hstep : x.step m = some (m', x')) :
    ∃ own', Separate objects (Function.update own i own') m' ∧ x'.Wp objects Q own' := by
  cases x with
  | done result => cases hstep
  | alloc object next =>
    cases hstep
    have hlength : objects.length ≤ m.length := h.kept.length_le
    refine ⟨_, h.update (h.kept.trans (List.prefix_append m _)) hlength
      List.getElem?_concat_length (fun b _ object' hb => ?_) (fun j _ => h.fresh j),
      hx m.length hlength (h.fresh i)⟩
    rw [List.getElem?_append_left (List.getElem?_eq_some_iff.mp hb).1]
    exact hb
  | read a next =>
    cases hstep
    refine ⟨own i, by rwa [Function.update_eq_self], ?_⟩
    rcases hx with ⟨hlt, hx⟩ | ⟨object, hown, hx⟩
    · obtain ⟨rest, rfl⟩ := h.kept
      rwa [List.getElem?_append_left hlt]
    · rwa [h.present i a object hown]
  | change a f next =>
    cases hstep
    obtain ⟨object, hown, hx⟩ := hx
    have hget := h.present i a object hown
    have hmade := h.made i a object hown
    refine ⟨_, h.update ?_ hmade ?_ (fun b hba object' hb => ?_) (fun j hj => ?_), hx⟩
    · obtain ⟨rest, rfl⟩ := h.kept
      obtain ⟨k, rfl⟩ := Nat.exists_eq_add_of_le hmade
      refine ⟨rest.modify k f, ?_⟩
      exact (List.modifyTailIdx_add (List.modifyHead f) k objects rest).symm
    · rw [List.getElem?_modify_eq, hget]
      rfl
    · rwa [List.getElem?_modify_ne f m (Ne.symm hba)]
    · cases hj' : own j a with
      | none => rfl
      | some object' => exact absurd (h.apart j i a object' object hj' hown) hj

variable {programs : ι → Prog ω ε α} {Q : ι → Except ε α → Own ω → Prop} {s : Threads ι ω ε α}

/-- The threads stay separate, and each of them goes on as it does alone. -/
theorem ThreadsReach.separate (hreach : ThreadsReach ⟨m, programs⟩ s) (hm : objects <+: m)
    (h : ∀ i, (programs i).Wp objects (Q i) fun _ => none) :
    ∃ own, Separate objects own s.shared ∧ ∀ i, (s.locals i).Wp objects (Q i) (own i) := by
  refine hreach.invariant (P := fun s => ∃ own, Separate objects own s.shared ∧
    ∀ i, (s.locals i).Wp objects (Q i) (own i)) ?_
    ⟨fun _ _ => none, .nothing hm, h⟩
  rintro i s m' x' ⟨own, hseparate, hwp⟩ - hmove
  obtain ⟨own', hseparate', hx'⟩ := hseparate.step (hwp i) hmove
  refine ⟨Function.update own i own', hseparate', fun j => ?_⟩
  by_cases hj : j = i
  · subst hj
    rwa [moved_self, Function.update_self]
  · rw [moved_other hj, Function.update_of_ne hj]
    exact hwp j

/-- However the threads alternate, the objects of the start stay as they are, and a thread that has
finished has the result that its program yields. -/
theorem ThreadsReach.yields {results : ι → Except ε α}
    (hreach : ThreadsReach ⟨m, programs⟩ s) (hm : objects <+: m)
    (h : ∀ i, (programs i).Yields objects (results i)) :
    objects <+: s.shared ∧ ∀ i r, s.locals i = .done r → r = results i := by
  obtain ⟨own, hseparate, hwp⟩ := hreach.separate hm fun i => h i fun _ => none
  refine ⟨hseparate.kept, fun i r hdone => ?_⟩
  have hwp := hwp i
  rwa [hdone] at hwp

theorem ThreadsReach.operation {s₀ : Threads ι ω ε α} {x x' : Prog ω ε α}
    (h : ThreadsReach s₀ (s.moved i m x)) (hstep : x.step m = some (m', x')) :
    ThreadsReach s₀ (s.moved i m' x') := by
  have hnext : ThreadsReach s₀ ((s.moved i m x).moved i m' x') :=
    h.next trivial (by rwa [ThreadMoves, moved_self])
  rwa [moved_moved] at hnext

/-- A thread is never blocked: it may go on to its end. -/
theorem ThreadsReach.finishes (s : Threads ι ω ε α) (i : ι) :
    ThreadsReach s (s.moved i ((s.locals i).run s.shared).2
      (.done ((s.locals i).run s.shared).1)) := by
  have hall : ∀ (x : Prog ω ε α) (m : List ω), ThreadsReach s (s.moved i m x) →
      ThreadsReach s (s.moved i (x.run m).2 (.done (x.run m).1)) := by
    intro x
    induction x with
    | done result => exact fun m h => h
    | alloc object next ih => exact fun m h => ih m.length _ (h.operation rfl)
    | read a next ih => exact fun m h => ih m[a]? m (h.operation rfl)
    | change a f next ih => exact fun m h => ih _ (h.operation rfl)
  refine hall (s.locals i) s.shared ?_
  have hself : s.moved i s.shared (s.locals i) = s := by
    rw [State.moved, Function.update_eq_self]
  rw [hself]
  exact .refl

/-- Alone, a program has the result that it yields, on every memory that begins with the objects,
and leaves these as they are. -/
theorem Prog.Yields.run {x : Prog ω ε α} {r : Except ε α} (h : x.Yields objects r)
    (hm : objects <+: m) : (x.run m).1 = r ∧ objects <+: (x.run m).2 := by
  have hreach := ThreadsReach.finishes (⟨m, fun _ => x⟩ : Threads Unit ω ε α) ()
  obtain ⟨hkept, hresult⟩ := hreach.yields hm fun _ => h
  exact ⟨hresult () _ moved_self, hkept⟩

end
end FastGeoApi
