import FastGeoApi.Auth.Rfc6750
import FastGeoApi.Lib.Interleaving

/-!
# Requests that share one middleware

One `RFC6750CompliantAuthMiddleware` serves all requests, and keeps `_token_was_provided` in a field
of its own. A request is a task of the event loop: it runs on its own until it comes to an `await`.
Between the write of the field and its reading there is none, so no request reads what another one
has written.
-/

namespace FastGeoApi
open Interleaving

/-- Where the task of a request is in `__call__`. -/
inductive AuthTask where
  | arrived
  /-- `_token_was_provided` is written. -/
  | headersRead
  /-- The user is authenticated, and these scopes are still to be checked. -/
  | checking (requiredScopes : List String)
  /-- At an `await` of the answer, with the messages that are still to be sent. -/
  | answering (answer : AuthAnswer) (messages : List Message)
  | answered (answer : AuthAnswer)
  | raised (e : PyError)

/-- The task can only be in the middle of these while no other one runs. -/
def AuthTask.Midway : AuthTask → Prop
  | .headersRead | .checking _ => True
  | _ => False

/-- What the tasks share: the field, and which task the event loop is in, between two `await`s. -/
structure EventLoop where
  tokenWasProvided : Bool
  running : Option Nat

section
variable (sendAuthError : Nat → String → String → List Message) (mw : McpAuthMiddleware)
  (scopes : Nat → McpScope)

/-- The next piece of `__call__` for request `i`. -/
def authStep (i : Nat) (loop : EventLoop) : AuthTask → Option (EventLoop × AuthTask)
  | .arrived =>
    if (scopes i).type = "http" then
      match tokenWasProvided (scopes i) with
      | .error e => some ({ loop with running := none }, .raised e)
      | .ok provided => some (⟨provided, some i⟩, .headersRead)
    else some ({ loop with running := some i }, .headersRead)
  | .headersRead =>
    if (scopes i).userAuthenticated then
      some ({ loop with running := some i }, .checking mw.requiredScopes)
    else if loop.tokenWasProvided then await loop .invalidToken
    else await loop .missingToken
  | .checking [] => await loop .app
  | .checking (requiredScope :: requiredScopes) =>
    match (scopes i).auth with
    | none => await loop (.insufficientScope requiredScope)
    | some held =>
      if requiredScope ∈ held then some ({ loop with running := some i }, .checking requiredScopes)
      else await loop (.insufficientScope requiredScope)
  | .answering answer [] => some ({ loop with running := none }, .answered answer)
  | .answering answer (_ :: messages) =>
    some ({ loop with running := none }, .answering answer messages)
  | .answered _ | .raised _ => none
where
  await (loop : EventLoop) (answer : AuthAnswer) : Option (EventLoop × AuthTask) :=
    some ({ loop with running := none }, .answering answer (answerMessages sendAuthError mw answer))

/-- All the requests of an instance. -/
abbrev AuthTasks := State Nat EventLoop AuthTask

def AuthTasks.start : AuthTasks where
  shared := ⟨false, none⟩
  locals _ := .arrived

/-- The event loop goes on with the task that it is in, or with any task when it is in none. -/
def Scheduled (i : Nat) (s : AuthTasks) : Prop :=
  s.shared.running = none ∨ s.shared.running = some i

/-- The states that the requests may be in together. -/
def AuthTasksReach (s : AuthTasks) : Prop :=
  Reaches (fun i before after => authStep sendAuthError mw scopes i before.1 before.2 = some after)
    Scheduled AuthTasks.start s

end

/-- What a request gets that is the only one of its instance. -/
def McpAuthMiddleware.alone (mw : McpAuthMiddleware) (scope : McpScope) :
    Except PyError AuthAnswer :=
  (mw.call false scope).2

section
variable {sendAuthError : Nat → String → String → List Message} {mw : McpAuthMiddleware}
  {scopes : Nat → McpScope}

/-- What is known of a task: the field is its own as long as it is to be read, and the answer that
it is on its way to is the one that it gets alone. -/
def TaskKnown (mw : McpAuthMiddleware) (scope : McpScope) (provided : Bool) : AuthTask → Prop
  | .arrived => True
  | .headersRead => tokenWasProvided scope = .ok provided
  | .checking requiredScopes => mw.alone scope = .ok (checkScopes scope.auth requiredScopes)
  | .answering answer _ | .answered answer => mw.alone scope = .ok answer
  | .raised e => mw.alone scope = .error e

structure TasksKnown (mw : McpAuthMiddleware) (scopes : Nat → McpScope) (s : AuthTasks) : Prop where
  known : ∀ i, TaskKnown mw (scopes i) s.shared.tokenWasProvided (s.locals i)
  midway : ∀ i, (s.locals i).Midway → s.shared.running = some i

theorem alone_of_provided {scope : McpScope} {provided : Bool} (hhttp : scope.type = "http")
    (h : tokenWasProvided scope = .ok provided) :
    mw.alone scope = .ok (McpAuthMiddleware.call.answer mw scope provided) :=
  congrArg Prod.snd (call_http hhttp h)

/-- A task that does not read the field any more does not mind it. -/
theorem TaskKnown.of_not_headersRead {scope : McpScope} {provided provided' : Bool}
    {task : AuthTask} (h : TaskKnown mw scope provided task) (hread : task ≠ .headersRead) :
    TaskKnown mw scope provided' task := by
  cases task with
  | headersRead => exact absurd rfl hread
  | _ => exact h

/-- Where the loop is in no other task, the others are not midway. -/
theorem TasksKnown.others (h : TasksKnown mw scopes s) (hi : Scheduled i s) {j : Nat} (hj : j ≠ i) :
    ¬(s.locals j).Midway := by
  intro hmidway
  have hrunning := h.midway j hmidway
  rcases hi with hnone | hsame
  · rw [hnone] at hrunning
    cases hrunning
  · rw [hsame] at hrunning
    exact hj (Option.some.inj hrunning).symm

/-- A step is as good as known when the task that moved is. -/
theorem TasksKnown.moved {s : AuthTasks} {i : Nat} {loop : EventLoop} {task : AuthTask}
    (h : TasksKnown mw scopes s) (hi : Scheduled i s)
    (htask : TaskKnown mw (scopes i) loop.tokenWasProvided task)
    (hmidway : task.Midway → loop.running = some i) :
    TasksKnown mw scopes (s.moved i loop task) := by
  refine ⟨?_, ?_⟩
  · refine forall_moved (P := fun j task => TaskKnown mw (scopes j) loop.tokenWasProvided task)
      htask fun j hj => (h.known j).of_not_headersRead fun hread => ?_
    refine h.others hi hj ?_
    rw [hread]
    trivial
  · refine forall_moved (P := fun j task => AuthTask.Midway task → loop.running = some j) hmidway
      fun j hj hj' => ?_
    exact absurd hj' (h.others hi hj)

/-! ### The steps of a task -/

theorem TasksKnown.await {s : AuthTasks} {i : Nat} {loop : EventLoop} {task : AuthTask}
    (h : TasksKnown mw scopes s) (hi : Scheduled i s) {answer : AuthAnswer}
    (halone : mw.alone (scopes i) = .ok answer)
    (hstep : authStep.await sendAuthError mw s.shared answer = some (loop, task)) :
    TasksKnown mw scopes (s.moved i loop task) := by
  cases hstep
  exact h.moved hi halone fun hmidway => False.elim hmidway

theorem TasksKnown.step_arrived {s : AuthTasks} {i : Nat} {loop : EventLoop} {task : AuthTask}
    (hhttp : (scopes i).type = "http") (h : TasksKnown mw scopes s) (hi : Scheduled i s)
    (hstep : authStep sendAuthError mw scopes i s.shared .arrived = some (loop, task)) :
    TasksKnown mw scopes (s.moved i loop task) := by
  rw [authStep, if_pos hhttp] at hstep
  cases hprovided : tokenWasProvided (scopes i) with
  | error e =>
    rw [hprovided] at hstep
    cases hstep
    refine h.moved hi ?_ fun hmidway => False.elim hmidway
    rw [TaskKnown, McpAuthMiddleware.alone, McpAuthMiddleware.call, if_pos hhttp, hprovided]
  | ok provided =>
    rw [hprovided] at hstep
    cases hstep
    exact h.moved hi hprovided fun _ => rfl

/-- The field that the task reads is its own. -/
theorem TasksKnown.step_headersRead {s : AuthTasks} {i : Nat} {loop : EventLoop} {task : AuthTask}
    (hhttp : (scopes i).type = "http") (h : TasksKnown mw scopes s) (hi : Scheduled i s)
    (hknown : TaskKnown mw (scopes i) s.shared.tokenWasProvided .headersRead)
    (hstep : authStep sendAuthError mw scopes i s.shared .headersRead = some (loop, task)) :
    TasksKnown mw scopes (s.moved i loop task) := by
  have halone : mw.alone (scopes i) = .ok (McpAuthMiddleware.call.answer mw (scopes i) _) :=
    alone_of_provided hhttp hknown
  rw [authStep] at hstep
  unfold McpAuthMiddleware.call.answer at halone
  split at hstep
  · rename_i huser
    rw [if_pos huser] at halone
    cases hstep
    exact h.moved hi halone fun _ => rfl
  · rename_i huser
    rw [if_neg huser] at halone
    split at hstep
    · rename_i hprovided
      rw [if_pos hprovided] at halone
      exact h.await hi halone hstep
    · rename_i hprovided
      rw [if_neg hprovided] at halone
      exact h.await hi halone hstep

theorem TasksKnown.step_checking {s : AuthTasks} {i : Nat} {loop : EventLoop} {task : AuthTask}
    {requiredScopes : List String} (h : TasksKnown mw scopes s) (hi : Scheduled i s)
    (hknown : mw.alone (scopes i) = .ok (checkScopes (scopes i).auth requiredScopes))
    (hstep : authStep sendAuthError mw scopes i s.shared (.checking requiredScopes) =
      some (loop, task)) :
    TasksKnown mw scopes (s.moved i loop task) := by
  cases requiredScopes with
  | nil => exact h.await hi hknown hstep
  | cons requiredScope requiredScopes =>
    rw [authStep] at hstep
    cases hauth : (scopes i).auth with
    | none =>
      rw [hauth] at hknown hstep
      exact h.await hi hknown hstep
    | some held =>
      rw [hauth, checkScopes] at hknown
      simp only [hauth] at hstep
      split at hstep
      · rename_i hheld
        rw [if_pos hheld, ← hauth] at hknown
        cases hstep
        exact h.moved hi hknown fun _ => rfl
      · rename_i hheld
        rw [if_neg hheld] at hknown
        exact h.await hi hknown hstep

theorem TasksKnown.step {s : AuthTasks} {i : Nat} {loop : EventLoop} {task : AuthTask}
    (hhttp : (scopes i).type = "http") (h : TasksKnown mw scopes s) (hi : Scheduled i s)
    (hstep : authStep sendAuthError mw scopes i s.shared (s.locals i) = some (loop, task)) :
    TasksKnown mw scopes (s.moved i loop task) := by
  have hknown := h.known i
  cases htask : s.locals i with
  | arrived =>
    rw [htask] at hstep
    exact h.step_arrived hhttp hi hstep
  | headersRead =>
    rw [htask] at hknown hstep
    exact h.step_headersRead hhttp hi hknown hstep
  | checking requiredScopes =>
    rw [htask] at hknown hstep
    exact h.step_checking hi hknown hstep
  | answering answer messages =>
    rw [htask] at hknown hstep
    cases messages with
    | nil =>
      cases hstep
      exact h.moved hi hknown fun hmidway => False.elim hmidway
    | cons message messages =>
      cases hstep
      exact h.moved hi hknown fun hmidway => False.elim hmidway
  | answered | raised =>
    rw [htask] at hstep
    cases hstep

theorem TasksKnown.start : TasksKnown mw scopes AuthTasks.start :=
  ⟨fun _ => trivial, fun _ h => h.elim⟩

end

/-- Whatever the other requests of the instance do, a request gets the answer that it gets alone. -/
theorem answers_alone (sendAuthError : Nat → String → String → List Message)
    (mw : McpAuthMiddleware) (scopes : Nat → McpScope) (hhttp : ∀ i, (scopes i).type = "http")
    (s : AuthTasks) (hs : AuthTasksReach sendAuthError mw scopes s) (i : Nat) :
    (∀ answer messages, s.locals i = .answering answer messages →
        mw.alone (scopes i) = .ok answer) ∧
      (∀ answer, s.locals i = .answered answer → mw.alone (scopes i) = .ok answer) ∧
      ∀ e, s.locals i = .raised e → mw.alone (scopes i) = .error e := by
  have hknown : TasksKnown mw scopes s := Reaches.invariant
    (fun i s _ _ h hi hstep => h.step (hhttp i) hi hstep) hs .start
  have htask := hknown.known i
  refine ⟨fun answer messages h => ?_, fun answer h => ?_, fun e h => ?_⟩
  · rwa [h] at htask
  · rwa [h] at htask
  · rwa [h] at htask

/-- A request with an expired token, and requests without one. -/
def mcpScopes : Nat → McpScope
  | 0 => rejectedScope
  | _ => anonymousScope []

/-- The second request writes the field while the first one is still sending its answer. -/
theorem mcpScopes_reached :
    AuthTasksReach sdkSendAuthError mcpMiddleware mcpScopes
      ((AuthTasks.start.moved 0 ⟨true, none⟩ (.answering .invalidToken
        (answerMessages sdkSendAuthError mcpMiddleware .invalidToken))).moved 1 ⟨false, none⟩
        (.answering .missingToken
        (answerMessages sdkSendAuthError mcpMiddleware .missingToken))) := by
  have hread : AuthTasksReach sdkSendAuthError mcpMiddleware mcpScopes
      (AuthTasks.start.moved 0 ⟨true, some 0⟩ .headersRead) :=
    Reaches.refl.next (.inl rfl) rfl
  have hinvalid : AuthTasksReach sdkSendAuthError mcpMiddleware mcpScopes
      (AuthTasks.start.moved 0 ⟨true, none⟩ (.answering .invalidToken
        (answerMessages sdkSendAuthError mcpMiddleware .invalidToken))) := by
    have h := Reaches.next hread (i := 0) (.inr rfl) rfl
    rw [moved_moved] at h
    exact h
  have hsecond : AuthTasksReach sdkSendAuthError mcpMiddleware mcpScopes
      ((AuthTasks.start.moved 0 ⟨true, none⟩ (.answering .invalidToken
        (answerMessages sdkSendAuthError mcpMiddleware .invalidToken))).moved 1 ⟨false, some 1⟩
        .headersRead) :=
    hinvalid.next (.inl rfl) rfl
  have hmissing := Reaches.next hsecond (i := 1) (.inr rfl) rfl
  rw [moved_moved] at hmissing
  exact hmissing

theorem mcpScopes_alone :
    mcpMiddleware.alone rejectedScope = .ok .invalidToken ∧
      mcpMiddleware.alone (anonymousScope []) = .ok .missingToken := by
  have hhttp : ∀ i, (mcpScopes i).type = "http" := fun i => by cases i <;> rfl
  have hfirst := answers_alone sdkSendAuthError mcpMiddleware mcpScopes hhttp _ mcpScopes_reached 0
  have hsecond := answers_alone sdkSendAuthError mcpMiddleware mcpScopes hhttp _ mcpScopes_reached 1
  exact ⟨hfirst.1 _ _ rfl, hsecond.1 _ _ rfl⟩

end FastGeoApi
