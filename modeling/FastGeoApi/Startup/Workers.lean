import FastGeoApi.Lib.Interleaving
import FastGeoApi.Startup.OpenapiFile

/-!
# Workers that start together

Each worker of `fastgeoapi run --workers N` imports `app.main`: it calls
`ensure_openapi_file_exists` and then reads the file in `create_mcp_server`. The operations of all
the workers interleave in any order on the one file.
-/

namespace FastGeoApi
open Interleaving

/-- A worker is in `ensure_openapi_file_exists`, or it has got past the reading of the file in
`create_mcp_server`, which finds no file or reads its content. -/
inductive Worker where
  | ensuring (state : GeneratorState)
  | loaded (content : OpenapiFile)

/-- The next operation of a worker; `flushed` is as in `ensureStep`. -/
def workerStep (cfg : GeneratorSettings) (generated : Except PyError (List UInt8)) (flushed : Nat)
    (file : OpenapiFile) : Worker → Option (OpenapiFile × Worker)
  | .ensuring .returned => some (file, .loaded file)
  | .ensuring state =>
    (ensureStep cfg generated flushed file state).map fun p => (p.1, .ensuring p.2)
  | .loaded _ => none

/-- The workers and their file. -/
abbrev Workers := State Nat OpenapiFile Worker

/-- Any number of workers on an empty directory. -/
def Workers.start : Workers where
  shared := none
  locals _ := .ensuring .start

section
variable (cfg : GeneratorSettings) (generated : Nat → Except PyError (List UInt8))

/-- What worker `i` may do. -/
def WorkerMoves (i : Nat) (before after : OpenapiFile × Worker) : Prop :=
  ∃ flushed, workerStep cfg (generated i) flushed before.1 before.2 = some after

/-- The states that the workers may be in together after steps in any order, each of which meets the
condition. -/
def WorkersReach (allowed : Nat → Workers → Prop) (s : Workers) : Prop :=
  Reaches (WorkerMoves cfg generated) allowed Workers.start s

/-- A worker that has read the file has read a complete generated document. -/
def LoadsComplete (s : Workers) : Prop :=
  ∀ i content, s.locals i = .loaded content → ∃ j text, generated j = .ok text ∧ content = some text

end

/-- The call has created the file and has not closed it yet. -/
def GeneratorState.Making : GeneratorState → Prop
  | .created | .opened | .writing _ _ => True
  | _ => False

/-- The call does not have to do with the file yet, or not any more. -/
def GeneratorState.Waiting : GeneratorState → Prop
  | .start | .missing | .failed _ => True
  | _ => False

/-- No worker looks for the file while another one is making it, and none creates it once it is
there. -/
def Orderly (i : Nat) (s : Workers) : Prop :=
  (s.locals i = .ensuring .start → ∀ j state, s.locals j = .ensuring state → ¬state.Making) ∧
    (s.locals i = .ensuring .missing → s.shared = none)

/-! ## One operation -/

/-- The operations of a worker, one by one. -/
inductive WorkerCase (generated : Except PyError (List UInt8)) :
    OpenapiFile → Worker → OpenapiFile → Worker → Prop where
  | refused : WorkerCase generated file (.ensuring .start) file (.ensuring (.failed e))
  | looks : WorkerCase generated none (.ensuring .start) none (.ensuring .missing)
  | finds : WorkerCase generated (some content) (.ensuring .start) (some content)
      (.ensuring .returned)
  | creates : WorkerCase generated file (.ensuring .missing) (some []) (.ensuring .created)
  | opens : WorkerCase generated file (.ensuring .created) (some []) (.ensuring .opened)
  | generates (h : generated = .ok text) :
    WorkerCase generated file (.ensuring .opened) file (.ensuring (.writing [] text))
  | raises (h : generated = .error e) :
    WorkerCase generated file (.ensuring .opened) file (.ensuring (.failed e))
  | writes : WorkerCase generated file (.ensuring (.writing written (bytes ++ rest)))
      (some (writeAt (file.getD []) written.length bytes))
      (.ensuring (.writing (written ++ bytes) rest))
  | closes : WorkerCase generated file (.ensuring (.writing written [])) file (.ensuring .returned)
  | loads : WorkerCase generated file (.ensuring .returned) file (.loaded file)

section
variable {cfg : GeneratorSettings} {flushed : Nat} {file file' : OpenapiFile} {w w' : Worker}

theorem workerStep_cases {generated : Except PyError (List UInt8)}
    (h : workerStep cfg generated flushed file w = some (file', w')) :
    WorkerCase generated file w file' w' := by
  cases w with
  | loaded content => cases h
  | ensuring state =>
    cases state with
    | start =>
      cases hcfg : cfg.configured with
      | false =>
        simp only [workerStep, ensureStep, hcfg] at h
        cases h
        exact .refused
      | true =>
        simp only [workerStep, ensureStep, hcfg] at h
        cases file with
        | none =>
          cases h
          exact .looks
        | some content =>
          cases h
          exact .finds
    | missing =>
      cases h
      exact .creates
    | created =>
      cases h
      exact .opens
    | opened =>
      cases hgenerated : generated with
      | ok text =>
        simp only [workerStep, ensureStep, hgenerated] at h
        cases h
        exact .generates rfl
      | error e =>
        simp only [workerStep, ensureStep, hgenerated] at h
        cases h
        exact .raises rfl
    | writing written rest =>
      cases rest with
      | nil =>
        cases h
        exact .closes
      | cons byte rest =>
        cases h
        have hcase : WorkerCase generated file
            (.ensuring (.writing written
              ((byte :: rest).take flushed ++ (byte :: rest).drop flushed))) _ _ := .writes
        rwa [List.take_append_drop] at hcase
    | returned =>
      cases h
      exact .loads
    | failed e => cases h

end

/-! ## The invariant -/

/-- How far the worker that makes the file has got with it. -/
inductive Makes (generated : Except PyError (List UInt8)) :
    OpenapiFile → GeneratorState → Prop where
  | created : Makes generated (some []) .created
  | opened : Makes generated (some []) .opened
  | writing (h : generated = .ok (written ++ rest)) :
    Makes generated (some written) (.writing written rest)

def Worker.Idle (w : Worker) : Prop := ∃ state, w = .ensuring state ∧ state.Waiting

/-- The worker is not making the file, or it has read this text. -/
def Worker.Settled (text : List UInt8) (w : Worker) : Prop :=
  (∃ state, w = .ensuring state ∧ ¬state.Making) ∨ w = .loaded (some text)

/-- The file is not there, or one worker is making it, or it is complete. -/
inductive Ordered (generated : Nat → Except PyError (List UInt8)) (s : Workers) : Prop where
  | absent (hfile : s.shared = none) (hall : ∀ i, (s.locals i).Idle)
  | making (k : Nat) (state : GeneratorState) (hstate : s.locals k = .ensuring state)
    (hfile : Makes (generated k) s.shared state) (hothers : ∀ i, i ≠ k → (s.locals i).Idle)
  | complete (j : Nat) (text : List UInt8) (hfile : s.shared = some text)
    (htext : generated j = .ok text)
    (hall : ∀ i, (s.locals i).Settled text)

section
variable {cfg : GeneratorSettings} {generated : Nat → Except PyError (List UInt8)} {s : Workers}
  {i : Nat} {file' : OpenapiFile} {w' : Worker}

theorem Makes.making {generated : Except PyError (List UInt8)} {file : OpenapiFile}
    {state : GeneratorState} (h : Makes generated file state) : state.Making ∧ file ≠ none := by
  cases h <;> exact ⟨trivial, nofun⟩

theorem Worker.Idle.not_making (h : (s.locals i).Idle) :
    ∃ state, s.locals i = .ensuring state ∧ ¬state.Making := by
  obtain ⟨state, hstate, hwaiting⟩ := h
  refine ⟨state, hstate, ?_⟩
  cases state <;> first | exact fun h => h | exact hwaiting.elim

/-- While there is no file, a worker goes on waiting or creates it. -/
theorem Ordered.next_absent (hfile : s.shared = none) (hall : ∀ i, (s.locals i).Idle)
    (hcase : WorkerCase (generated i) s.shared (s.locals i) file' w') :
    Ordered generated (s.moved i file' w') := by
  obtain ⟨state, hstate, hwaiting⟩ := hall i
  have hothers : ∀ j, j ≠ i → (s.locals j).Idle := fun j _ => hall j
  rw [hstate, hfile] at hcase
  cases hcase with
  | refused | looks => exact .absent rfl (forall_moved ⟨_, rfl, trivial⟩ hothers)
  | creates =>
    refine .making i .created moved_self .created fun j hj => ?_
    rw [moved_other hj]
    exact hall j
  | opens | generates | raises | writes | closes | loads => exact hwaiting.elim

/-- The worker that makes the file goes on with it. -/
theorem Ordered.next_maker {state : GeneratorState}
    (hgenerated : ∀ i, ∃ text, generated i = .ok text) (hstate : s.locals i = .ensuring state)
    (hfile : Makes (generated i) s.shared state) (hothers : ∀ j, j ≠ i → (s.locals j).Idle)
    (hcase : WorkerCase (generated i) s.shared (s.locals i) file' w') :
    Ordered generated (s.moved i file' w') := by
  have hrest : ∀ j, j ≠ i → ((s.moved i file' w').locals j).Idle := by
    intro j hj
    rw [moved_other hj]
    exact hothers j hj
  rw [hstate] at hcase
  generalize hshared : s.shared = file at hfile hcase
  cases hfile with
  | created =>
    cases hcase
    exact .making i .opened moved_self .opened hrest
  | opened =>
    cases hcase with
    | generates htext => exact .making i _ moved_self (.writing htext) hrest
    | raises herror =>
      obtain ⟨text, htext⟩ := hgenerated i
      rw [herror] at htext
      cases htext
  | @writing written _ htext =>
    cases hcase with
    | @writes _ _ bytes rest =>
      rw [Option.getD_some, writeAt_end]
      refine .making i _ moved_self (.writing ?_) hrest
      rw [htext, List.append_assoc]
    | closes =>
      rw [List.append_nil] at htext
      refine .complete i written rfl htext fun j => ?_
      by_cases hj : j = i
      · subst hj
        exact .inl ⟨.returned, moved_self, fun h => h⟩
      · exact .inl (hrest j hj).not_making

/-- While a worker makes the file, the others keep waiting. -/
theorem Ordered.next_making {k : Nat} {state : GeneratorState}
    (hgenerated : ∀ i, ∃ text, generated i = .ok text) (hstate : s.locals k = .ensuring state)
    (hfile : Makes (generated k) s.shared state) (hothers : ∀ i, i ≠ k → (s.locals i).Idle)
    (hi : Orderly i s) (hcase : WorkerCase (generated i) s.shared (s.locals i) file' w') :
    Ordered generated (s.moved i file' w') := by
  by_cases hik : i = k
  · subst hik
    exact .next_maker hgenerated hstate hfile hothers hcase
  · obtain ⟨hmaking, hthere⟩ := hfile.making
    obtain ⟨other, hother, hwaiting⟩ := hothers i hik
    cases other with
    | start => exact absurd hmaking (hi.1 hother k state hstate)
    | missing => exact absurd (hi.2 hother) hthere
    | failed e =>
      rw [hother] at hcase
      generalize s.shared = file at hcase
      cases hcase
    | created | opened | writing | returned => exact hwaiting.elim

/-- A complete file stays complete: workers find it and read it. -/
theorem Ordered.next_complete {j : Nat} {text : List UInt8} (hfile : s.shared = some text)
    (htext : generated j = .ok text) (hall : ∀ i, (s.locals i).Settled text)
    (hi : Orderly i s) (hcase : WorkerCase (generated i) s.shared (s.locals i) file' w') :
    Ordered generated (s.moved i file' w') := by
  have hmoved (hfile' : file' = some text) (hself : w'.Settled text) :
      Ordered generated (s.moved i file' w') :=
    .complete j text hfile' htext
      (forall_moved (P := fun _ => Worker.Settled text) hself fun k _ => hall k)
  rcases hall i with ⟨state, hstate, hmaking⟩ | hloaded
  · rw [hstate, hfile] at hcase
    cases hcase with
    | refused | finds => exact hmoved rfl (.inl ⟨_, rfl, fun h => h⟩)
    | creates =>
      rw [hi.2 hstate] at hfile
      cases hfile
    | loads => exact hmoved rfl (.inr rfl)
    | opens | generates | raises | writes | closes => exact absurd trivial hmaking
  · rw [hloaded] at hcase
    generalize s.shared = file at hcase
    cases hcase

theorem Ordered.next (h : Ordered generated s) (hgenerated : ∀ i, ∃ text, generated i = .ok text)
    (hi : Orderly i s) (hmove : WorkerMoves cfg generated i (s.shared, s.locals i) (file', w')) :
    Ordered generated (s.moved i file' w') := by
  obtain ⟨flushed, hstep⟩ := hmove
  have hcase := workerStep_cases hstep
  cases h with
  | absent hfile hall => exact .next_absent hfile hall hcase
  | making k state hstate hfile hothers =>
    exact .next_making hgenerated hstate hfile hothers hi hcase
  | complete j text hfile htext hall => exact .next_complete hfile htext hall hi hcase

theorem Ordered.start : Ordered generated Workers.start :=
  .absent rfl fun _ => ⟨.start, rfl, trivial⟩

theorem Ordered.loadsComplete (h : Ordered generated s) : LoadsComplete generated s := by
  intro i content hloaded
  cases h with
  | absent _ hall =>
    obtain ⟨state, hstate, _⟩ := hall i
    rw [hloaded] at hstate
    cases hstate
  | making k state hstate _ hothers =>
    by_cases hik : i = k
    · rw [← hik, hloaded] at hstate
      cases hstate
    · obtain ⟨other, hother, _⟩ := hothers i hik
      rw [hloaded] at hother
      cases hother
  | complete j text _ htext hall =>
    rcases hall i with ⟨state, hstate, _⟩ | hsame
    · rw [hloaded] at hstate
      cases hstate
    · rw [hloaded] at hsame
      cases hsame
      exact ⟨j, text, htext, rfl⟩

end

/-- Where no worker looks for the file while another one makes it and none creates it once it is
there, whatever a worker reads is complete. -/
theorem loadsComplete_of_orderly (cfg : GeneratorSettings)
    (generated : Nat → Except PyError (List UInt8))
    (hgenerated : ∀ i, ∃ text, generated i = .ok text) (s : Workers)
    (h : WorkersReach cfg generated Orderly s) : LoadsComplete generated s := by
  have hordered : Ordered generated s := Reaches.invariant
    (fun i s _ _ hs hi hmove => hs.next hgenerated hi hmove) h .start
  exact hordered.loadsComplete

theorem WorkersReach.next {cfg : GeneratorSettings}
    {generated : Nat → Except PyError (List UInt8)} {allowed : Nat → Workers → Prop} {s : Workers}
    {p : OpenapiFile × Worker} (h : WorkersReach cfg generated allowed s) (i flushed : Nat)
    (hi : allowed i s)
    (hstep : workerStep cfg (generated i) flushed s.shared (s.locals i) = some p) :
    WorkersReach cfg generated allowed (s.moved i p.1 p.2) :=
  Reaches.next h hi ⟨flushed, hstep⟩

/-- A generation that gives every worker the same document. -/
def documents (_ : Nat) : Except PyError (List UInt8) := .ok [123, 125, 10]

theorem orderly_of_past {i : Nat} {s : Workers} {state : GeneratorState}
    (h : s.locals i = .ensuring state) (hstart : state ≠ .start) (hmissing : state ≠ .missing) :
    Orderly i s := by
  refine ⟨fun h' => ?_, fun h' => ?_⟩
  · rw [h] at h'
    cases h'
    contradiction
  · rw [h] at h'
    cases h'
    contradiction

/-- Two workers have the document. -/
def twoLoaded : Workers :=
  (Workers.start.moved 0 (some [123, 125, 10]) (.loaded (some [123, 125, 10]))).moved 1
    (some [123, 125, 10]) (.loaded (some [123, 125, 10]))

/-- One worker makes the file, while the others wait, and reads it; another one finds it closed, and
reads it too. -/
theorem documents_reached : WorkersReach pygeoapiSettings documents Orderly twoLoaded := by
  have hstart : Orderly 0 Workers.start := by
    refine ⟨fun _ _ _ h => ?_, fun _ => rfl⟩
    cases h
    exact fun h => h
  have hmissing : Orderly 0 (Workers.start.moved 0 none (.ensuring .missing)) := by
    refine ⟨fun h => ?_, fun _ => rfl⟩
    rw [moved_self] at h
    cases h
  have hmade : Orderly 1
      (Workers.start.moved 0 (some [123, 125, 10]) (.loaded (some [123, 125, 10]))) := by
    refine ⟨fun _ j state h => ?_, fun h => ?_⟩
    · by_cases hj : j = 0
      · rw [hj, moved_self] at h
        cases h
      · rw [moved_other hj] at h
        cases h
        exact fun h => h
    · cases h
  have hlooked : WorkersReach pygeoapiSettings documents Orderly Workers.start := .refl
  have hlooked := hlooked.next 0 0 hstart rfl
  have hcreated := hlooked.next 0 0 hmissing rfl
  have hopened := hcreated.next 0 0 (orderly_of_past rfl nofun nofun) rfl
  have hgenerated := hopened.next 0 0 (orderly_of_past rfl nofun nofun) rfl
  have hwritten := hgenerated.next 0 3 (orderly_of_past rfl nofun nofun) rfl
  have hclosed := hwritten.next 0 0 (orderly_of_past rfl nofun nofun) rfl
  have hloaded := hclosed.next 0 0 (orderly_of_past rfl nofun nofun) rfl
  simp only [List.length_nil, List.take_succ_cons, moved_moved] at hloaded
  have hfound := hloaded.next 1 0 hmade rfl
  have hboth := hfound.next 1 0 (orderly_of_past rfl nofun nofun) rfl
  rw [moved_moved] at hboth
  exact hboth

theorem documents_loadsComplete : LoadsComplete documents twoLoaded :=
  loadsComplete_of_orderly pygeoapiSettings documents (fun _ => ⟨_, rfl⟩) _ documents_reached

/-- Another worker finds the file that the first one has just created, and reads nothing; the first
one goes on and returns with the document. -/
theorem documents_not_loadsComplete :
    ∃ s, WorkersReach pygeoapiSettings documents (fun _ _ => True) s ∧
      s.shared = some [123, 125, 10] ∧ s.locals 0 = .ensuring .returned ∧
      s.locals 1 = .loaded (some []) ∧ ¬LoadsComplete documents s := by
  have hstart : WorkersReach pygeoapiSettings documents (fun _ _ => True) Workers.start := .refl
  have hlooked := hstart.next 0 0 trivial rfl
  have hcreated := hlooked.next 0 0 trivial rfl
  have hfound := hcreated.next 1 0 trivial rfl
  have hloaded := hfound.next 1 0 trivial rfl
  have hopened := hloaded.next 0 0 trivial rfl
  have hgenerated := hopened.next 0 0 trivial rfl
  have hwritten := hgenerated.next 0 3 trivial rfl
  have hclosed := hwritten.next 0 0 trivial rfl
  refine ⟨_, hclosed, rfl, rfl, rfl, fun h => ?_⟩
  obtain ⟨j, text, htext, hcontent⟩ := h 1 (some []) rfl
  cases htext
  cases hcontent

end FastGeoApi
