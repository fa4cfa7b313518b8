import Mathlib.Data.List.Induction
import OrionQueue.Executor

/-!
`run` of executors/fake.py from its first step to its last. Before each step it asks
three questions in a fixed order: does the caller want it to stop, is this the step to
fail at, has the time run out. The caller and the clock may answer as they like. A run
that can sleep ends with the first yes, or succeeds; one that cannot sleep raises
after the first three noes, although parse_command accepted the duration.
-/

namespace OrionQueue.ExecutorRun

open Executor

/-- A timeout as the caller passes it: the agent passes an int. -/
inductive Number where
  | int (value : Int)
  | float (value : Seconds)

def Number.positive : Number → Bool
  | .int value => 0 < value
  | .float (.finite value) => 0 < value
  | .float (.infinite negative) => !negative
  | .float .nan => false

/-- The time that has passed is above the number. -/
def Number.exceededBy (elapsed : ℚ) : Number → Bool
  | .int value => (value : ℚ) < elapsed
  | .float (.finite value) => value < elapsed
  | .float (.infinite negative) => negative
  | .float .nan => false

def Number.format (python : Python) : Number → String
  | .int value => toString value
  | .float value => python.formatFloat value

/-- What a run learns from outside. A pass of the loop polls at most once and reads the
clock at most once, so that both answers are numbered by the steps. -/
structure World where
  shouldStop : Option (Int → Bool)
  /-- What `time.monotonic() - start` comes to. -/
  elapsed : Int → ℚ

def World.stops (world : World) (step : Int) : Bool := world.shouldStop.any fun answer => answer step

def simulatedFailure (config : Config) (step : Int) : String :=
  "simulated failure at step " ++ toString step ++ " of " ++ toString config.steps ++
    " (--fail-at-step)"

def timedOut (python : Python) (timeout : Number) (step : Int) : String :=
  "timed out after " ++ timeout.format python ++ "s (exceeded before step " ++ toString step ++ ")"

section Loop
variable (python : Python) (timeout : Number) (world : World) (config : Config)

def timesOut (step : Int) : Bool := timeout.positive && timeout.exceededBy (world.elapsed step)

/-- One pass of the loop up to the end of the sleep. -/
def body (step : Int) : Progress :=
  if world.stops step then .returned ⟨false, step - 1, "stopped before completion", true⟩
  else if config.failAtStep = some step then
    .returned ⟨false, step - 1, simulatedFailure config step, false⟩
  else if timesOut timeout world step then
    .returned ⟨false, step - 1, timedOut python timeout step, false⟩
  else
    match python.sleep config.stepSeconds with
    | .error problem => .raised problem
    | .ok () => .slept

/-- The loop over the remaining steps, with the calls of on_step that it makes. -/
def loop : Nat → Int → Except String Outcome × List (Int × Int)
  | 0, _ => (.ok ⟨true, config.steps, "", false⟩, [])
  | remaining + 1, step =>
      match body python timeout world config step with
      | .returned outcome => (.ok outcome, [])
      | .raised error => (.error error, [])
      | .slept =>
          let rest := loop remaining (step + 1)
          (rest.1, (step, config.steps) :: rest.2)

def run (command : List String) : Except String Outcome × List (Int × Int) :=
  match parseCommand python command with
  | .error problem => (.error problem, [])
  | .ok config => loop python timeout world config config.steps.toNat 1

theorem body_eq_boundary {step : Int} (inside : step ≤ config.steps) (timeoutSeconds : Int) :
    body python (.int timeoutSeconds) world config step =
      boundary python config timeoutSeconds step (world.stops step) (world.elapsed step) := by
  have late : timesOut (.int timeoutSeconds) world step = true ↔
      0 < timeoutSeconds ∧ (timeoutSeconds : ℚ) < world.elapsed step := by
    simp only [timesOut, Number.positive, Number.exceededBy, Bool.and_eq_true, decide_eq_true_eq]
  unfold body boundary
  rw [if_pos inside]
  simp only [late]
  rfl

/-- For the int that the agent passes, the loop goes through the boundaries that its
thread goes through. -/
theorem loop_boundary {remaining : Nat} {step : Int} (left : step + remaining = config.steps + 1)
    (timeoutSeconds : Int) :
    loop python (.int timeoutSeconds) world config remaining step =
      match boundary python config timeoutSeconds step (world.stops step) (world.elapsed step) with
      | .returned outcome => (.ok outcome, [])
      | .raised error => (.error error, [])
      | .slept =>
          let rest := loop python (.int timeoutSeconds) world config (remaining - 1) (step + 1)
          (rest.1, (step, config.steps) :: rest.2) := by
  cases remaining with
  | zero =>
      have after : ¬ step ≤ config.steps := by omega
      rw [loop, boundary, if_neg after]
  | succ remaining => rw [loop, body_eq_boundary python world config (by omega), Nat.add_sub_cancel]

/-- The run does not get past the step. -/
def Ends (step : Int) : Prop :=
  world.stops step = true ∨ config.failAtStep = some step ∨ timesOut timeout world step = true

/-- How a run may end: the first question that is answered by yes decides. -/
inductive Exit : Outcome → Prop where
  | completed : Exit ⟨true, config.steps, "", false⟩
  | stopped {completed : Int} (inside : completed < config.steps)
      (stops : world.stops (completed + 1) = true) :
      Exit ⟨false, completed, "stopped before completion", true⟩
  | failed {completed : Int} (inside : completed < config.steps)
      (goesOn : ¬ world.stops (completed + 1) = true)
      (fails : config.failAtStep = some (completed + 1)) :
      Exit ⟨false, completed, simulatedFailure config (completed + 1), false⟩
  | late {completed : Int} (inside : completed < config.steps)
      (goesOn : ¬ world.stops (completed + 1) = true)
      (passes : config.failAtStep ≠ some (completed + 1))
      (late : timesOut timeout world (completed + 1) = true) :
      Exit ⟨false, completed, timedOut python timeout (completed + 1), false⟩

/-- What an outcome says about the answers at the step at which the run ended. -/
structure Told (outcome : Outcome) : Prop where
  exclusive : ¬ (outcome.success = true ∧ outcome.stopped = true)
  complete : outcome.success = true ↔ outcome.stepsCompleted = config.steps
  early : outcome.success = false → outcome.stepsCompleted + 1 ≤ config.steps
  stopped : outcome.success = false →
    (outcome.stopped = true ↔ world.stops (outcome.stepsCompleted + 1) = true)
  failed : outcome.success = false → outcome.stopped = false →
    (outcome.failureReason = simulatedFailure config (outcome.stepsCompleted + 1) ↔
      config.failAtStep = some (outcome.stepsCompleted + 1))
  late : outcome.success = false → outcome.stopped = false →
    config.failAtStep ≠ some (outcome.stepsCompleted + 1) →
      timesOut timeout world (outcome.stepsCompleted + 1) = true ∧
        outcome.failureReason = timedOut python timeout (outcome.stepsCompleted + 1)

/-- The outcome counts the calls of on_step, which are made in order, and none of the
three questions was answered by yes before a completed step. -/
structure Law (outcome : Outcome) (calls : List (Int × Int)) : Prop
    extends Told python timeout world config outcome where
  counted : outcome.stepsCompleted = calls.length
  inOrder : calls = (List.range calls.length).map fun (index : Nat) =>
    (1 + (index : Int), config.steps)
  quiet : ∀ step, 1 ≤ step → step ≤ outcome.stepsCompleted → ¬ Ends timeout world config step

/-- How far the part of a run came that starts with a step. -/
structure Reached (first : Int) (outcome : Outcome) (calls : List (Int × Int)) : Prop where
  exit : Exit python timeout world config outcome
  counted : outcome.stepsCompleted = first - 1 + calls.length
  inOrder : calls = (List.range calls.length).map fun (index : Nat) =>
    (first + (index : Int), config.steps)
  quiet : ∀ step, first ≤ step → step ≤ outcome.stepsCompleted → ¬ Ends timeout world config step

variable {python timeout world config}

theorem body_ends {step : Int} (inside : step ≤ config.steps) (ends : Ends timeout world config step) :
    ∃ outcome, body python timeout world config step = .returned outcome ∧
      Reached python timeout world config step outcome [] := by
  obtain ⟨completed, rfl⟩ : ∃ completed, step = completed + 1 := ⟨step - 1, by omega⟩
  have reached {outcome : Outcome} (exit : Exit python timeout world config outcome)
      (last : outcome.stepsCompleted = completed) :
      Reached python timeout world config (completed + 1) outcome [] :=
    ⟨exit, by rw [last, List.length_nil]; omega, rfl, fun other after before => by omega⟩
  rw [body, Int.add_sub_cancel]
  by_cases stops : world.stops (completed + 1) = true
  · exact ⟨_, if_pos stops, reached (.stopped inside stops) rfl⟩
  · rw [if_neg stops]
    by_cases fails : config.failAtStep = some (completed + 1)
    · exact ⟨_, if_pos fails, reached (.failed inside stops fails) rfl⟩
    · have late := (ends.resolve_left stops).resolve_left fails
      rw [if_neg fails, if_pos late]
      exact ⟨_, rfl, reached (.late inside stops fails late) rfl⟩

theorem body_goes_on {step : Int} (quiet : ¬ Ends timeout world config step) :
    body python timeout world config step =
      match python.sleep config.stepSeconds with
      | .error problem => .raised problem
      | .ok () => .slept := by
  unfold Ends at quiet
  push Not at quiet
  obtain ⟨goesOn, passes, inTime⟩ := quiet
  rw [body, if_neg goesOn, if_neg passes, if_neg inTime]

/-- A step that was taken comes before what the rest of the run reached. -/
theorem Reached.cons {first : Int} {outcome : Outcome} {calls : List (Int × Int)}
    (reached : Reached python timeout world config (first + 1) outcome calls)
    (taken : ¬ Ends timeout world config first) :
    Reached python timeout world config first outcome ((first, config.steps) :: calls) where
  exit := reached.exit
  counted := by
    rw [reached.counted, List.length_cons]
    push_cast
    omega
  inOrder := by
    have shifted : (List.range calls.length).map
          (fun (index : Nat) => (first + 1 + (index : Int), config.steps)) =
        (List.range calls.length).map
          fun (index : Nat) => (first + ((index + 1 : Nat) : Int), config.steps) := by
      refine List.map_congr_left fun index _ => ?_
      rw [Prod.mk.injEq]
      exact ⟨by push_cast; omega, rfl⟩
    rw [List.length_cons, List.range_succ_eq_map, List.map_cons, List.map_map]
    exact congrArg₂ List.cons (by simp) (reached.inOrder.trans shifted)
  quiet step after before := by
    rcases Int.lt_or_eq_of_le after with later | rfl
    · exact reached.quiet step later before
    · exact taken

theorem loop_ends {step : Int} (inside : step ≤ config.steps) (ends : Ends timeout world config step)
    (remaining : Nat) :
    ∃ outcome, loop python timeout world config (remaining + 1) step = (.ok outcome, []) ∧
      Reached python timeout world config step outcome [] := by
  obtain ⟨outcome, returned, reached⟩ := body_ends inside ends
  refine ⟨outcome, ?_, reached⟩
  rw [loop, returned]

theorem loop_raises {step : Int} (quiet : ¬ Ends timeout world config step) {problem : String}
    (sleepless : python.sleep config.stepSeconds = .error problem) (remaining : Nat) :
    loop python timeout world config (remaining + 1) step = (.error problem, []) := by
  rw [loop, body_goes_on quiet, sleepless]

/-- A run that can sleep reaches an end. -/
theorem loop_reached (sleeps : python.sleep config.stepSeconds = .ok ()) {remaining : Nat} {step : Int}
    (left : step + remaining = config.steps + 1) :
    ∃ outcome calls, loop python timeout world config remaining step = (.ok outcome, calls) ∧
      Reached python timeout world config step outcome calls := by
  induction remaining generalizing step with
  | zero =>
      refine ⟨_, _, rfl, .completed, ?_, rfl, fun other after before => ?_⟩
      · simp only [List.length_nil]
        omega
      · simp only at before
        omega
  | succ remaining ih =>
      by_cases ends : Ends timeout world config step
      · obtain ⟨outcome, looped, reached⟩ := loop_ends (by omega) ends remaining
        exact ⟨outcome, [], looped, reached⟩
      · -- The pass sleeps, and its call of on_step comes before those of the rest.
        have next : step + 1 + remaining = config.steps + 1 := by omega
        obtain ⟨outcome, calls, looped, reached⟩ := ih next
        rw [loop, body_goes_on ends, sleeps]
        simp only [looped]
        exact ⟨outcome, _, rfl, reached.cons ends⟩

theorem failures_apart {step step' : Int}
    (same : timedOut python timeout step = simulatedFailure config step') : False := by
  have first : (timedOut python timeout step).toList.head? =
      (simulatedFailure config step').toList.head? := by rw [same]
  unfold timedOut simulatedFailure at first
  simp at first

theorem Exit.told {outcome : Outcome} (exit : Exit python timeout world config outcome) :
    Told python timeout world config outcome := by
  cases exit with
  | completed => exact ⟨nofun, iff_of_true rfl rfl, nofun, nofun, nofun, nofun⟩
  | stopped inside stops =>
      exact {
        exclusive := nofun
        complete := ⟨nofun, fun all => absurd all (Int.ne_of_lt inside)⟩
        early := fun _ => inside
        stopped := fun _ => iff_of_true rfl stops
        failed := fun _ => nofun
        late := fun _ => nofun }
  | failed inside goesOn fails =>
      exact {
        exclusive := nofun
        complete := ⟨nofun, fun all => absurd all (Int.ne_of_lt inside)⟩
        early := fun _ => inside
        stopped := fun _ => iff_of_false nofun goesOn
        failed := fun _ _ => iff_of_true rfl fails
        late := fun _ _ passes => absurd fails passes }
  | late inside goesOn passes late =>
      exact {
        exclusive := nofun
        complete := ⟨nofun, fun all => absurd all (Int.ne_of_lt inside)⟩
        early := fun _ => inside
        stopped := fun _ => iff_of_false nofun goesOn
        failed := fun _ _ => iff_of_false (fun same => failures_apart same) passes
        late := fun _ _ _ => ⟨late, rfl⟩ }

theorem Reached.law {outcome : Outcome} {calls : List (Int × Int)}
    (reached : Reached python timeout world config 1 outcome calls) :
    Law python timeout world config outcome calls where
  toTold := reached.exit.told
  counted := by
    rw [reached.counted]
    omega
  inOrder := reached.inOrder
  quiet := reached.quiet

end Loop

section Command

/-- What the last argument with the flag gives it. -/
def lastValue (flag : String) (command : List String) : Option String :=
  (command.filterMap (flagValue flag)).getLast?

/-- The configuration by the last value of each flag. -/
def effective (python : Python) (command : List String) : Config where
  steps := ((lastValue "--steps" command).bind python.int).getD Config.default.steps
  stepSeconds :=
    ((lastValue "--step-seconds" command).bind python.float).getD Config.default.stepSeconds
  failAtStep := (lastValue "--fail-at-step" command).bind python.int

variable {python : Python}

/-- An argument starts with one flag at most. -/
theorem flagValue_none {flag other arg raw : String} (given : flagValue flag arg = some raw)
    (apart : ¬ (flag ++ "=").toList <+: (other ++ "=").toList)
    (apart' : ¬ (other ++ "=").toList <+: (flag ++ "=").toList) : flagValue other arg = none := by
  have opens : (flag ++ "=").toList <+: arg.toList := by
    unfold flagValue at given
    simp only at given
    split at given
    · exact List.isPrefixOf_iff_prefix.mp ‹_›
    · cases given
  refine if_neg fun opens' => ?_
  rcases List.prefix_or_prefix_of_prefix opens (List.isPrefixOf_iff_prefix.mp opens') with less | less
  · exact apart less
  · exact apart' less

theorem parsePositiveInt_read {raw flag : String} {value : Int}
    (parsed : parsePositiveInt python raw flag = .ok value) : python.int raw = some value := by
  unfold parsePositiveInt at parsed
  split at parsed
  · cases parsed
  · split at parsed <;> cases parsed
    assumption

theorem parseNonnegativeFloat_read {raw flag : String} {value : Seconds}
    (parsed : parseNonnegativeFloat python raw flag = .ok value) : python.float raw = some value := by
  unfold parseNonnegativeFloat at parsed
  split at parsed
  · cases parsed
  · split at parsed <;> cases parsed
    assumption

/-- What one argument does to the configuration. -/
structure Applied (python : Python) (arg : String) (config config' : Config) : Prop where
  steps : ∀ raw, flagValue "--steps" arg = some raw → (python.int raw).isSome
  stepSeconds : ∀ raw, flagValue "--step-seconds" arg = some raw → (python.float raw).isSome
  failAtStep : ∀ raw, flagValue "--fail-at-step" arg = some raw → (python.int raw).isSome
  same : config' = ⟨((flagValue "--steps" arg).bind python.int).getD config.steps,
    ((flagValue "--step-seconds" arg).bind python.float).getD config.stepSeconds,
    ((flagValue "--fail-at-step" arg).bind python.int).or config.failAtStep⟩

theorem parseArgument_applied {config config' : Config} {arg : String}
    (parsed : parseArgument python config arg = .ok config') : Applied python arg config config' := by
  unfold parseArgument at parsed
  split at parsed
  case h_1 raw _ _ isSteps =>
    obtain ⟨value, read, rfl⟩ := map_ok parsed
    have number := parsePositiveInt_read read
    have others : flagValue "--step-seconds" arg = none :=
      flagValue_none isSteps (by decide) (by decide)
    have others' : flagValue "--fail-at-step" arg = none :=
      flagValue_none isSteps (by decide) (by decide)
    exact ⟨by simp [isSteps, number], by simp [others], by simp [others'],
      by simp [isSteps, number, others, others']⟩
  case h_2 raw _ notSteps isSeconds =>
    obtain ⟨value, read, rfl⟩ := map_ok parsed
    have number := parseNonnegativeFloat_read read
    have others : flagValue "--fail-at-step" arg = none :=
      flagValue_none isSeconds (by decide) (by decide)
    exact ⟨by simp [notSteps], by simp [isSeconds, number], by simp [others],
      by simp [notSteps, isSeconds, number, others]⟩
  case h_3 raw notSteps notSeconds isFail =>
    obtain ⟨value, read, rfl⟩ := map_ok parsed
    have number := parsePositiveInt_read read
    exact ⟨by simp [notSteps], by simp [notSeconds], by simp [isFail, number],
      by simp [notSteps, notSeconds, isFail, number]⟩
  case h_4 notSteps notSeconds notFail =>
    cases parsed
    exact ⟨by simp [notSteps], by simp [notSeconds], by simp [notFail],
      by simp [notSteps, notSeconds, notFail]⟩

theorem lastValue_snoc {Value : Type} {read : String → Option Value} {flag arg : String}
    (readable : ∀ raw, flagValue flag arg = some raw → (read raw).isSome) (command : List String) :
    (lastValue flag (command ++ [arg])).bind read =
      ((flagValue flag arg).bind read).or ((lastValue flag command).bind read) := by
  unfold lastValue
  rw [List.filterMap_append, List.getLast?_append]
  cases given : flagValue flag arg with
  | none => simp [given]
  | some raw =>
      obtain ⟨value, number⟩ := Option.isSome_iff_exists.mp (readable raw given)
      simp [given, number]

/-- An accepted command is configured by the last value of each flag. -/
theorem parseCommand_effective {command : List String} {config : Config}
    (parsed : parseCommand python command = .ok config) : config = effective python command := by
  induction command using List.reverseRecOn generalizing config with
  | nil =>
      cases parsed
      rfl
  | append_singleton command arg ih =>
      rw [parseCommand, List.foldlM_append] at parsed
      cases first : command.foldlM (parseArgument python) Config.default with
      | error problem => simp [first, bind, Except.bind] at parsed
      | ok middle =>
          obtain rfl := ih first
          cases last : parseArgument python (effective python command) arg with
          | error problem => simp [first, last, bind, Except.bind] at parsed
          | ok changed =>
              have applied := parseArgument_applied last
              simp only [first, last, bind, Except.bind, List.foldlM_cons, List.foldlM_nil] at parsed
              cases parsed
              rw [applied.same]
              simp only [effective, lastValue_snoc applied.steps, lastValue_snoc applied.stepSeconds,
                lastValue_snoc applied.failAtStep, Option.getD_or]

end Command

/-- The run returns, and its outcome is lawful for the effective configuration. -/
def Lawful (python : Python) (timeout : Number) (world : World) (command : List String) : Prop :=
  ∃ outcome calls, run python timeout world command = (.ok outcome, calls) ∧
    Law python timeout world (effective python command) outcome calls

/-- A run of an accepted command is lawful exactly if it can sleep or ends before its
first sleep. -/
theorem run_lawful_iff (python : Python) (timeout : Number) (world : World) (command : List String)
    (config : Config) (accepted : parseCommand python command = .ok config) :
    Lawful python timeout world command ↔
      python.sleep (effective python command).stepSeconds = .ok () ∨
        Ends timeout world (effective python command) 1 := by
  obtain rfl := parseCommand_effective accepted
  have positive : 1 ≤ (effective python command).steps := parse_steps (by decide) accepted
  obtain ⟨remaining, all⟩ : ∃ remaining, (effective python command).steps.toNat = remaining + 1 :=
    ⟨(effective python command).steps.toNat - 1, by omega⟩
  have runs : run python timeout world command =
      loop python timeout world (effective python command) (remaining + 1) 1 := by
    rw [run, accepted, ← all]
  unfold Lawful
  rw [runs]
  constructor
  · -- Without a sleep the first pass returns or raises, so that only the former is lawful.
    rintro ⟨outcome, calls, returned, _⟩
    cases slept : python.sleep (effective python command).stepSeconds with
    | ok => exact .inl rfl
    | error problem =>
        refine .inr ?_
        by_contra quiet
        rw [loop_raises quiet slept] at returned
        cases returned
  · rintro (sleeps | ends)
    · have left : 1 + ((remaining + 1 : Nat) : Int) = (effective python command).steps + 1 := by omega
      obtain ⟨outcome, calls, looped, reached⟩ := loop_reached sleeps left
      exact ⟨outcome, calls, looped, reached.law⟩
    · obtain ⟨outcome, looped, reached⟩ := loop_ends positive ends remaining
      exact ⟨outcome, [], looped, reached.law⟩

/-- A Python that reads single digits, and of the floats zero and the ones that are
not numbers. -/
def floatPython : Python where
  int raw :=
    match raw.toList with
    | [digit] => if digit.isDigit then some (digit.toNat - '0'.toNat) else none
    | _ => none
  float raw :=
    if raw = "nan" then some .nan
    else if raw = "inf" then some (.infinite false)
    else if raw = "0" then some (.finite 0)
    else none
  repr raw := "'" ++ raw ++ "'"
  formatFloat _ := ""
  sleep
    | .nan => .error "Invalid value NaN (not a number)"
    | .infinite _ => .error "timestamp too large to convert to C PyTime_t"
    | .finite _ => .ok ()

/-- A caller that never stops the run, with a clock that stands still. -/
def undisturbed : World := ⟨none, fun _ => 0⟩

/-- The last --steps counts, and the second of its two steps is to fail. -/
theorem run_lawful_second :
    run floatPython (.int 60) undisturbed
        ["--steps=5", "--steps=2", "--step-seconds=0", "--fail-at-step=2"] =
      (.ok ⟨false, 1, "simulated failure at step 2 of 2 (--fail-at-step)", false⟩, [(1, 2)]) ∧
    Lawful floatPython (.int 60) undisturbed
      ["--steps=5", "--steps=2", "--step-seconds=0", "--fail-at-step=2"] := by
  refine ⟨by decide +kernel, ?_⟩
  exact (run_lawful_iff _ _ _ _ ⟨2, .finite 0, some 2⟩ (by decide +kernel)).mpr
    (.inl (by decide +kernel))

/-- parse_command accepts NaN, as it is not below zero, and time.sleep does not. -/
theorem nan_seconds_raise :
    parseCommand floatPython ["--step-seconds=nan"] = .ok ⟨5, .nan, none⟩ ∧
      run floatPython (.int 60) undisturbed ["--step-seconds=nan"] =
        (.error "Invalid value NaN (not a number)", []) ∧
      ¬ Lawful floatPython (.int 60) undisturbed ["--step-seconds=nan"] := by
  have raised : run floatPython (.int 60) undisturbed ["--step-seconds=nan"] =
      (.error "Invalid value NaN (not a number)", []) := rfl
  refine ⟨rfl, raised, ?_⟩
  rintro ⟨outcome, calls, returned, _⟩
  rw [raised] at returned
  cases returned

end OrionQueue.ExecutorRun
