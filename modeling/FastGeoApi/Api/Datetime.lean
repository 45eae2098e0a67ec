import FastGeoApi.Python.Value

/-!
# The check of datetimes

`app/pygeoapi/api/__init__.py` wraps `validate_datetime` of pygeoapi, and puts the wrapper in its
place in each module of pygeoapi that has imported the name. The module may be imported anew while
pygeoapi stays as it is, and then wraps a wrapper. A wrapper looks up what it wraps when it is
called. So where the module is executed again after it has put its wrapper in place, the wrapper
finds itself.
-/

namespace FastGeoApi

/-- What the name `validate_datetime` is bound to: the function of pygeoapi, or the one that an
execution of the module has defined. `home` is the module object that has the globals of the
function. -/
inductive DatetimeFunction where
  | upstream
  | wrapper (home execution : Nat)
  deriving DecidableEq

/-- The modules that `patch_validate_datetime_overflow` rebinds the name in. -/
inductive DatetimeModule where
  | api
  | itemtypes
  | maps
  | environmentalDataRetrieval

/-- The globals of a module object, once the module has been executed in it. -/
structure DatetimeGlobals where
  upstreamValidateDatetime : DatetimeFunction
  validateDatetime : DatetimeFunction

structure DatetimeNames where
  bound : DatetimeModule → DatetimeFunction
  globals : Nat → Option DatetimeGlobals
  executions : Nat

inductive DatetimeEvent where
  /-- An import, in a new module object, or a reload, in an old one. -/
  | execute (home : Nat)
  /-- A call of `patch_validate_datetime_overflow`. -/
  | patch (home : Nat)

def overflowError : ExcClass := .other "OverflowError"

def recursionError : PyError := ⟨.other "RecursionError", "maximum recursion depth exceeded"⟩

/-- `except OverflowError as err`. -/
def overflowSafe : Except PyError β → Except PyError β
  | .error e =>
    if e.cls = overflowError then
      .error ⟨.valueError, "datetime value out of range: " ++ e.msg⟩
    else .error e
  | .ok b => .ok b

namespace DatetimeNames

def start : DatetimeNames := ⟨fun _ => .upstream, fun _ => none, 0⟩

/-- The code of the module, with the globals of a module object. -/
def execute (names : DatetimeNames) (home : Nat) : DatetimeNames where
  bound := names.bound
  globals home' :=
    if home' = home then some ⟨names.bound .api, .wrapper home names.executions⟩
    else names.globals home'
  executions := names.executions + 1

/-- The loop of `patch_validate_datetime_overflow`. -/
def rebind (names : DatetimeNames) (validateDatetime : DatetimeFunction) : DatetimeNames :=
  { names with
    bound := fun consumer =>
      if names.bound consumer ≠ validateDatetime then validateDatetime else names.bound consumer }

/-- The function can only be called when the module has been executed. -/
def step (names : DatetimeNames) : DatetimeEvent → DatetimeNames
  | .execute home => names.execute home
  | .patch home =>
    match names.globals home with
    | some globals => names.rebind globals.validateDatetime
    | none => names

def run (names : DatetimeNames) (events : List DatetimeEvent) : DatetimeNames :=
  events.foldl step names

/-- A call, for what the function of pygeoapi does, with so many calls to the recursion limit. -/
def call (names : DatetimeNames) (upstream : α → Except PyError β) :
    Nat → DatetimeFunction → α → Except PyError β
  | 0, _, _ => .error recursionError
  | _ + 1, .upstream, args => upstream args
  | limit + 1, .wrapper home _, args =>
    match names.globals home with
    | some globals => overflowSafe (names.call upstream limit globals.upstreamValidateDatetime args)
    | none => .error ⟨.other "NameError", "name '_UPSTREAM_VALIDATE_DATETIME' is not defined"⟩

/-- `validate_datetime(*args)` in a module of pygeoapi. -/
def check (names : DatetimeNames) (upstream : α → Except PyError β) (limit : Nat)
    (consumer : DatetimeModule) (args : α) : Except PyError β :=
  names.call upstream limit (names.bound consumer) args

end DatetimeNames

/-- The function has been called. -/
def Patched (events : List DatetimeEvent) : Prop :=
  ∃ before home after, events = before ++ .patch home :: after ∧ .execute home ∈ before

/-- The module is not executed again in an object whose function has been called. -/
def NotReloaded (events : List DatetimeEvent) : Prop :=
  events.Pairwise fun earlier later => ∀ home, earlier = .patch home → later ≠ .execute home

def DatetimeFunction.IsWrapper (f : DatetimeFunction) : Prop := ∃ home n, f = .wrapper home n

/-- What holds after any events. -/
structure DatetimeNames.After (events : List DatetimeEvent) (names : DatetimeNames) : Prop where
  same : ∀ consumer consumer', names.bound consumer = names.bound consumer'
  own : ∀ home globals, names.globals home = some globals →
    ∃ n, globals.validateDatetime = .wrapper home n
  executed : ∀ home, .execute home ∈ events ↔ (names.globals home).isSome = true
  patched : Patched events → ∀ consumer, (names.bound consumer).IsWrapper
  unpatched : ¬Patched events → ∀ consumer, names.bound consumer = .upstream

/-- The function comes down to the one of pygeoapi, through so many wrappers at most, of module
objects whose function has been called. -/
inductive DatetimeNames.Grounded (names : DatetimeNames) (events : List DatetimeEvent) :
    DatetimeFunction → Nat → Prop
  | upstream {depth : Nat} : Grounded names events .upstream depth
  | wrapper {home execution depth : Nat} {globals : DatetimeGlobals}
      (hcalled : .patch home ∈ events) (hglobals : names.globals home = some globals)
      (h : Grounded names events globals.upstreamValidateDatetime depth) :
      Grounded names events (.wrapper home execution) (depth + 1)

/-- What holds as long as nothing is executed again. -/
structure DatetimeNames.Layered (events : List DatetimeEvent) (names : DatetimeNames) : Prop where
  bound : ∀ consumer, names.Grounded events (names.bound consumer) names.executions
  globals : ∀ home globals, names.globals home = some globals →
    ∃ depth < names.executions, names.Grounded events globals.upstreamValidateDatetime depth

theorem overflowSafe_cls {x : Except PyError β} {e : PyError} (h : overflowSafe x = .error e) :
    e.cls ≠ overflowError := by
  cases x with
  | ok b => cases h
  | error e' =>
    rw [overflowSafe] at h
    split at h
    · cases h
      intro hcls
      cases hcls
    · rename_i hcls
      cases h
      exact hcls

/-- What is raised as a `ValueError` is not caught again. -/
theorem overflowSafe_overflowSafe (x : Except PyError β) :
    overflowSafe (overflowSafe x) = overflowSafe x := by
  cases hsafe : overflowSafe x with
  | ok b => rfl
  | error e => rw [overflowSafe, if_neg (overflowSafe_cls hsafe)]

/-! ## Sequences of events -/

theorem patched_append {events : List DatetimeEvent} {event : DatetimeEvent} :
    Patched (events ++ [event]) ↔
      Patched events ∨ ∃ home, event = .patch home ∧ .execute home ∈ events := by
  constructor
  · rintro ⟨before, home, after, hevents, hmem⟩
    rcases List.eq_nil_or_concat after with rfl | ⟨after, last, rfl⟩
    · obtain ⟨rfl, hlast⟩ := List.append_inj' hevents rfl
      cases hlast
      exact .inr ⟨home, rfl, hmem⟩
    · rw [List.concat_eq_append, ← List.cons_append, ← List.append_assoc] at hevents
      obtain ⟨rfl, _⟩ := List.append_inj' hevents rfl
      exact .inl ⟨before, home, after, rfl, hmem⟩
  · rintro (⟨before, home, after, rfl, hmem⟩ | ⟨home, rfl, hmem⟩)
    · exact ⟨before, home, after ++ [event], by simp, hmem⟩
    · exact ⟨events, home, [], rfl, hmem⟩

theorem notReloaded_append {events : List DatetimeEvent} {event : DatetimeEvent}
    (h : NotReloaded (events ++ [event])) : NotReloaded events ∧
      ∀ home, event = .execute home → .patch home ∉ events := by
  obtain ⟨hbefore, -, hlater⟩ := List.pairwise_append.mp h
  exact ⟨hbefore, fun home hevent hmem =>
    hlater _ hmem event List.mem_cons_self home rfl hevent⟩

namespace DatetimeNames
variable {names : DatetimeNames} {events : List DatetimeEvent} {home : Nat}

theorem rebind_bound (f : DatetimeFunction) (consumer : DatetimeModule) :
    (names.rebind f).bound consumer = f := by
  change (if names.bound consumer ≠ f then f else names.bound consumer) = f
  split
  · rfl
  · exact not_not.mp ‹_›

theorem execute_globals_self : (names.execute home).globals home =
    some ⟨names.bound .api, .wrapper home names.executions⟩ := if_pos rfl

theorem execute_globals_other {home' : Nat} (h : home' ≠ home) :
    (names.execute home).globals home' = names.globals home' := if_neg h

theorem step_patch_of_none (h : names.globals home = none) : names.step (.patch home) = names := by
  rw [step, h]

theorem step_patch_of_some {globals : DatetimeGlobals} (h : names.globals home = some globals) :
    names.step (.patch home) = names.rebind globals.validateDatetime := by
  rw [step, h]

/-! ## What is bound -/

theorem After.execute (h : names.After events) :
    (names.execute home).After (events ++ [.execute home]) := by
  have hpatched : Patched (events ++ [.execute home]) ↔ Patched events := by
    rw [patched_append]
    refine or_iff_left ?_
    rintro ⟨_, hevent, _⟩
    cases hevent
  refine ⟨h.same, fun home' globals hglobals => ?_, fun home' => ?_,
    fun hnew => h.patched (hpatched.mp hnew), fun hnew => h.unpatched fun hold => hnew
      (hpatched.mpr hold)⟩
  · by_cases hhome : home' = home
    · rw [hhome, execute_globals_self] at hglobals
      cases hglobals
      exact ⟨_, congrArg (DatetimeFunction.wrapper · names.executions) hhome.symm⟩
    · rw [execute_globals_other hhome] at hglobals
      exact h.own home' globals hglobals
  · rw [List.mem_append, List.mem_singleton, h.executed]
    by_cases hhome : home' = home
    · rw [hhome, execute_globals_self]
      exact iff_of_true (.inr rfl) rfl
    · rw [execute_globals_other hhome]
      refine or_iff_left fun hevent => hhome ?_
      cases hevent
      rfl

theorem After.patch (h : names.After events) :
    (names.step (.patch home)).After (events ++ [.patch home]) := by
  have hexecuted : ∀ home', .execute home' ∈ events ++ [.patch home] ↔ .execute home' ∈ events := by
    intro home'
    rw [List.mem_append, List.mem_singleton]
    exact or_iff_left DatetimeEvent.noConfusion
  have hmem := h.executed home
  cases hglobals : names.globals home with
  | none =>
    have hnot : .execute home ∉ events := by
      rw [hmem, hglobals]
      exact Bool.false_ne_true
    have hpatched : Patched (events ++ [.patch home]) ↔ Patched events := by
      rw [patched_append]
      refine or_iff_left ?_
      rintro ⟨home', hevent, hexecuted'⟩
      cases hevent
      exact hnot hexecuted'
    rw [step_patch_of_none hglobals]
    exact ⟨h.same, h.own, fun home' => (hexecuted home').trans (h.executed home'),
      fun hnew => h.patched (hpatched.mp hnew),
      fun hnew => h.unpatched fun hold => hnew (hpatched.mpr hold)⟩
  | some globals =>
    rw [hglobals] at hmem
    rw [step_patch_of_some hglobals]
    refine ⟨fun consumer consumer' => ?_, h.own, fun home' => (hexecuted home').trans
      (h.executed home'), fun _ consumer => ?_, fun hnew => ?_⟩
    · rw [rebind_bound, rebind_bound]
    · rw [rebind_bound]
      exact ⟨home, h.own home globals hglobals⟩
    · exact absurd (patched_append.mpr (.inr ⟨home, rfl, hmem.mpr rfl⟩)) hnew

theorem run_append (events : List DatetimeEvent) (event : DatetimeEvent) :
    start.run (events ++ [event]) = (start.run events).step event :=
  List.foldl_append

theorem after_run (events : List DatetimeEvent) : (start.run events).After events := by
  induction events using List.reverseRecOn with
  | nil =>
    refine ⟨fun _ _ => rfl, fun _ globals hglobals => ?_, fun _ => ?_, ?_, fun _ _ => rfl⟩
    · cases hglobals
    · exact iff_of_false List.not_mem_nil Bool.false_ne_true
    · rintro ⟨before, home, after, hevents, _⟩
      cases before <;> cases hevents
  | append_singleton events event ih =>
    rw [run_append]
    cases event with
    | execute home => exact ih.execute
    | patch home => exact ih.patch

/-! ## What a call comes down to -/

theorem Grounded.mono {f : DatetimeFunction} {depth depth' : Nat}
    (h : names.Grounded events f depth) (hle : depth ≤ depth') :
    names.Grounded events f depth' := by
  induction h generalizing depth' with
  | upstream => exact .upstream
  | wrapper hcalled hglobals _ ih =>
    cases depth' with
    | zero => exact absurd hle (Nat.not_succ_le_zero _)
    | succ depth' => exact .wrapper hcalled hglobals (ih (Nat.le_of_succ_le_succ hle))

/-- More is called, and the globals of what has been called stay as they are. -/
theorem Grounded.of_agree {names' : DatetimeNames} {event : DatetimeEvent} {f : DatetimeFunction}
    {depth : Nat} (h : names.Grounded events f depth)
    (hagree : ∀ home, .patch home ∈ events → names'.globals home = names.globals home) :
    names'.Grounded (events ++ [event]) f depth := by
  induction h with
  | upstream => exact .upstream
  | wrapper hcalled hglobals _ ih =>
    exact .wrapper (List.mem_append_left _ hcalled) ((hagree _ hcalled).trans hglobals) ih

theorem Layered.execute (h : names.Layered events) (hnot : .patch home ∉ events) :
    (names.execute home).Layered (events ++ [.execute home]) := by
  have hagree : ∀ home', .patch home' ∈ events →
      (names.execute home).globals home' = names.globals home' := by
    intro home' hcalled
    refine execute_globals_other ?_
    rintro rfl
    exact hnot hcalled
  refine ⟨fun consumer => ((h.bound consumer).of_agree hagree).mono (Nat.le_succ _),
    fun home' globals hglobals => ?_⟩
  by_cases hhome : home' = home
  · rw [hhome, execute_globals_self] at hglobals
    cases hglobals
    exact ⟨names.executions, Nat.lt_succ_self _, (h.bound .api).of_agree hagree⟩
  · rw [execute_globals_other hhome] at hglobals
    obtain ⟨depth, hlt, hgrounded⟩ := h.globals home' globals hglobals
    exact ⟨depth, Nat.lt_succ_of_lt hlt, hgrounded.of_agree hagree⟩

theorem Layered.patch (h : names.Layered events) (hafter : names.After events) :
    (names.step (.patch home)).Layered (events ++ [.patch home]) := by
  cases hglobals : names.globals home with
  | none =>
    rw [step_patch_of_none hglobals]
    refine ⟨fun consumer => (h.bound consumer).of_agree fun _ _ => rfl, fun home' globals' h' => ?_⟩
    obtain ⟨depth, hlt, hgrounded⟩ := h.globals home' globals' h'
    exact ⟨depth, hlt, hgrounded.of_agree fun _ _ => rfl⟩
  | some globals =>
    rw [step_patch_of_some hglobals]
    have hkept : ∀ {f : DatetimeFunction} {depth : Nat}, names.Grounded events f depth →
        (names.rebind globals.validateDatetime).Grounded (events ++ [.patch home]) f depth :=
      fun hgrounded => hgrounded.of_agree fun _ _ => rfl
    refine ⟨fun consumer => ?_, fun home' globals' h' => ?_⟩
    · obtain ⟨n, hwrapper⟩ := hafter.own home globals hglobals
      obtain ⟨depth, hlt, hgrounded⟩ := h.globals home globals hglobals
      have hcalled : .patch home ∈ events ++ [.patch home] :=
        List.mem_append_right _ List.mem_cons_self
      have hsame : (names.rebind globals.validateDatetime).globals home = some globals := hglobals
      have hwrapped : (names.rebind globals.validateDatetime).Grounded (events ++ [.patch home])
          (.wrapper home n) (depth + 1) := .wrapper hcalled hsame (hkept hgrounded)
      rw [rebind_bound]
      rw [← hwrapper] at hwrapped
      exact hwrapped.mono hlt
    · obtain ⟨depth, hlt, hgrounded⟩ := h.globals home' globals' h'
      exact ⟨depth, hlt, hkept hgrounded⟩

theorem layered_run {events : List DatetimeEvent} (h : NotReloaded events) :
    (start.run events).Layered events := by
  induction events using List.reverseRecOn with
  | nil =>
    refine ⟨fun _ => .upstream, fun _ globals hglobals => ?_⟩
    cases hglobals
  | append_singleton events event ih =>
    obtain ⟨hbefore, hnot⟩ := notReloaded_append h
    rw [run_append]
    cases event with
    | execute home => exact (ih hbefore).execute (hnot home rfl)
    | patch home => exact (ih hbefore).patch (after_run events)

section
variable {upstream : α → Except PyError β} {args : α} {limit : Nat} {f : DatetimeFunction}

/-- However many wrappers there are, they come to one. -/
theorem Grounded.call {depth : Nat} (h : names.Grounded events f depth) (hlimit : depth < limit) :
    overflowSafe (names.call upstream limit f args) = overflowSafe (upstream args) := by
  induction h generalizing limit with
  | upstream =>
    obtain ⟨limit, rfl⟩ := Nat.exists_eq_add_one_of_ne_zero (Nat.ne_zero_of_lt hlimit)
    rfl
  | wrapper _ hglobals _ ih =>
    obtain ⟨limit, rfl⟩ := Nat.exists_eq_add_one_of_ne_zero (Nat.ne_zero_of_lt hlimit)
    rw [DatetimeNames.call, hglobals]
    simp only
    rw [overflowSafe_overflowSafe]
    exact ih (Nat.lt_of_succ_lt_succ hlimit)

theorem overflowSafe_call (h : f.IsWrapper) :
    overflowSafe (names.call upstream limit f args) = names.call upstream limit f args := by
  obtain ⟨home, n, rfl⟩ := h
  cases limit with
  | zero => rfl
  | succ limit =>
    rw [call]
    cases names.globals home with
    | none => rfl
    | some globals => exact overflowSafe_overflowSafe _

/-- A module that is executed again while its own wrapper is in place has a wrapper that calls
itself. -/
theorem call_execute {home n : Nat} (h : names.bound .api = .wrapper home n) (m : Nat) :
    (names.execute home).call upstream limit (.wrapper home m) args = .error recursionError := by
  induction limit generalizing m with
  | zero => rfl
  | succ limit ih =>
    rw [call, execute_globals_self]
    simp only
    rw [h, ih]
    rfl

end
end DatetimeNames

/-- After any imports, reloads and calls, in every module: once the function has been called, no
`OverflowError` leaves the check. As long as no module is executed again after that, it is a
`ValueError` with the one message, and all else is as pygeoapi has it; a module that is executed
again while its wrapper is in place leaves a check that only raises. Before the function has been
called, the check is pygeoapi's own. -/
theorem validateDatetime_safe (events : List DatetimeEvent) (upstream : α → Except PyError β)
    (consumer : DatetimeModule) (args : α) (limit : Nat) :
    (Patched events →
      ∀ e, (DatetimeNames.start.run events).check upstream limit consumer args = .error e →
        e.cls ≠ overflowError) ∧
    (Patched events → NotReloaded events → (DatetimeNames.start.run events).executions < limit →
      (DatetimeNames.start.run events).check upstream limit consumer args =
        overflowSafe (upstream args)) ∧
    (∀ home n, (DatetimeNames.start.run events).bound consumer = .wrapper home n →
      (DatetimeNames.start.run (events ++ [.execute home])).check upstream limit consumer args =
        .error recursionError) ∧
    (¬Patched events → (DatetimeNames.start.run events).bound consumer = .upstream) := by
  have hafter := DatetimeNames.after_run events
  refine ⟨fun hpatched e he => ?_, fun hpatched hnot hlimit => ?_, fun home n hbound => ?_,
    fun hnot => hafter.unpatched hnot consumer⟩
  · rw [DatetimeNames.check, ← DatetimeNames.overflowSafe_call (hafter.patched hpatched consumer)]
      at he
    exact overflowSafe_cls he
  · have hgrounded := (DatetimeNames.layered_run hnot).bound consumer
    rw [DatetimeNames.check, ← DatetimeNames.overflowSafe_call (hafter.patched hpatched consumer)]
    exact hgrounded.call hlimit
  · have hapi := (hafter.same .api consumer).trans hbound
    rw [DatetimeNames.run_append, DatetimeNames.check]
    change DatetimeNames.call _ upstream limit
      ((DatetimeNames.start.run events).bound consumer) args = _
    rw [hbound]
    exact DatetimeNames.call_execute hapi n

/-- `dateutil` on a number that is too large, and on any other text. -/
def parseDatetime (datetime : String) : Except PyError String :=
  if datetime = "999999999999999999999999999999" then
    .error ⟨overflowError, "Python int too large to convert to C long"⟩
  else .ok datetime

/-- The module is imported and calls the function, and once more in another module object. -/
def secondImport : List DatetimeEvent := [.execute 0, .patch 0, .execute 1, .patch 1]

theorem parseDatetime_safe :
    (DatetimeNames.start.run secondImport).check parseDatetime 1000 .itemtypes
        "999999999999999999999999999999" =
      .error ⟨.valueError,
        "datetime value out of range: Python int too large to convert to C long"⟩ := by
  have hpatched : Patched secondImport :=
    ⟨[.execute 0], 0, [.execute 1, .patch 1], rfl, List.mem_cons_self⟩
  have hnot : NotReloaded secondImport := by
    simp [NotReloaded, secondImport]
  exact (validateDatetime_safe secondImport parseDatetime .itemtypes
    "999999999999999999999999999999" 1000).2.1 hpatched hnot (by decide)

end FastGeoApi
