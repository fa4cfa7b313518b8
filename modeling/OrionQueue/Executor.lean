import Mathlib.Data.Rat.Defs

/-!
The fake executor of the worker, executors/fake.py. `run` polls its stop flag
once per step and never during a step, so it is cut there: `boundary` is one pass
of its loop up to the end of the sleep. What Python's own functions answer is given
by a `Python`. A float is its exact value, or one of the three values that are not
numbers of seconds.
-/

namespace OrionQueue.Executor

inductive Seconds where
  | finite (value : ℚ)
  | infinite (negative : Bool)
  | nan
  deriving DecidableEq

/-- The comparison with zero; NaN compares as false. -/
def Seconds.negative : Seconds → Bool
  | .finite value => value < 0
  | .infinite negative => negative
  | .nan => false

/-- What the executor calls of Python; `none` is a ValueError. -/
structure Python where
  int : String → Option Int
  float : String → Option Seconds
  repr : String → String
  formatFloat : Seconds → String
  /-- `time.sleep`, with the message of what it raises. -/
  sleep : Seconds → Except String Unit

structure Config where
  steps : Int
  stepSeconds : Seconds
  failAtStep : Option Int
  deriving DecidableEq

def Config.default : Config := ⟨5, .finite 1, none⟩

structure Outcome where
  success : Bool
  stepsCompleted : Int
  failureReason : String
  stopped : Bool
  deriving DecidableEq

def parsePositiveInt (python : Python) (raw flag : String) : Except String Int :=
  match python.int raw with
  | none => .error ("invalid integer for " ++ flag ++ ": " ++ python.repr raw)
  | some value =>
      if value < 1 then .error (flag ++ " must be at least 1, got " ++ toString value)
      else .ok value

def parseNonnegativeFloat (python : Python) (raw flag : String) : Except String Seconds :=
  match python.float raw with
  | none => .error ("invalid float for " ++ flag ++ ": " ++ python.repr raw)
  | some value =>
      if value.negative then
        .error (flag ++ " must not be negative, got " ++ python.formatFloat value)
      else .ok value

/-- What follows `flag=` in an argument that starts so. -/
def flagValue (flag arg : String) : Option String :=
  let opening := (flag ++ "=").toList
  if opening.isPrefixOf arg.toList then some (String.ofList (arg.toList.drop opening.length))
  else none

def parseArgument (python : Python) (config : Config) (arg : String) : Except String Config :=
  match flagValue "--steps" arg, flagValue "--step-seconds" arg,
      flagValue "--fail-at-step" arg with
  | some raw, _, _ =>
      (parsePositiveInt python raw "--steps").map fun value => { config with steps := value }
  | none, some raw, _ =>
      (parseNonnegativeFloat python raw "--step-seconds").map fun value =>
        { config with stepSeconds := value }
  | none, none, some raw =>
      (parsePositiveInt python raw "--fail-at-step").map fun value =>
        { config with failAtStep := some value }
  | none, none, none => .ok config

def parseCommand (python : Python) (command : List String) : Except String Config :=
  command.foldlM (parseArgument python) Config.default

inductive Progress where
  | returned (outcome : Outcome)
  | raised (error : String)
  | slept
  deriving DecidableEq

/-- The pass of the loop for `step`, or the return after the last one. `stop` is
what the poll answers and `elapsed` the time since the start of the run. -/
def boundary (python : Python) (config : Config) (timeoutSeconds step : Int) (stop : Bool)
    (elapsed : ℚ) : Progress :=
  if step ≤ config.steps then
    -- The only poll of the stop flag before the sleep.
    if stop then .returned ⟨false, step - 1, "stopped before completion", true⟩
    else if config.failAtStep = some step then
      .returned ⟨false, step - 1, "simulated failure at step " ++ toString step ++ " of " ++
        toString config.steps ++ " (--fail-at-step)", false⟩
    else if 0 < timeoutSeconds ∧ (timeoutSeconds : ℚ) < elapsed then
      .returned ⟨false, step - 1, "timed out after " ++ toString timeoutSeconds ++
        "s (exceeded before step " ++ toString step ++ ")", false⟩
    else
      match python.sleep config.stepSeconds with
      | .error problem => .raised problem
      | .ok () => .slept
  else .returned ⟨true, config.steps, "", false⟩

/-- What a pass can do: return, and as stopped only where its poll said so, raise what
the sleep raises, or sleep. -/
theorem boundary_cases (python : Python) (config : Config) (timeoutSeconds step : Int) (stop : Bool)
    (elapsed : ℚ) :
    (∃ outcome, boundary python config timeoutSeconds step stop elapsed = .returned outcome ∧
      (outcome.stopped = true → stop = true ∧ outcome.success = false)) ∨
    (∃ error, boundary python config timeoutSeconds step stop elapsed = .raised error ∧
      python.sleep config.stepSeconds = .error error ∧ config.failAtStep ≠ some step) ∨
    (boundary python config timeoutSeconds step stop elapsed = .slept ∧
      python.sleep config.stepSeconds = .ok ()) := by
  unfold boundary
  split
  · split
    · exact .inl ⟨_, rfl, fun _ => ⟨by assumption, rfl⟩⟩
    · split
      · exact .inl ⟨_, rfl, nofun⟩
      · split
        · exact .inl ⟨_, rfl, nofun⟩
        · cases python.sleep config.stepSeconds with
          | error problem => exact .inr (.inl ⟨problem, rfl, rfl, by assumption⟩)
          | ok => exact .inr (.inr ⟨rfl, rfl⟩)
  · exact .inl ⟨_, rfl, nofun⟩

section Boundary
variable {python : Python} {config : Config} {timeoutSeconds step : Int} {stop : Bool} {elapsed : ℚ}

theorem boundary_stopped {outcome : Outcome}
    (returned : boundary python config timeoutSeconds step stop elapsed = .returned outcome)
    (wasStopped : outcome.stopped = true) : stop = true ∧ outcome.success = false := by
  rcases boundary_cases python config timeoutSeconds step stop elapsed with
    ⟨outcome', isReturned, told⟩ | ⟨error, raised, _⟩ | ⟨slept, _⟩
  · obtain rfl := Progress.returned.inj (isReturned.symm.trans returned)
    exact told wasStopped
  · cases raised.symm.trans returned
  · cases slept.symm.trans returned

theorem boundary_raised {error : String}
    (raised : boundary python config timeoutSeconds step stop elapsed = .raised error) :
    python.sleep config.stepSeconds = .error error ∧ config.failAtStep ≠ some step := by
  rcases boundary_cases python config timeoutSeconds step stop elapsed with
    ⟨outcome, returned, _⟩ | ⟨error', isRaised, told⟩ | ⟨slept, _⟩
  · cases returned.symm.trans raised
  · obtain rfl := Progress.raised.inj (isRaised.symm.trans raised)
    exact told
  · cases slept.symm.trans raised

theorem boundary_slept (slept : boundary python config timeoutSeconds step stop elapsed = .slept) :
    python.sleep config.stepSeconds = .ok () := by
  rcases boundary_cases python config timeoutSeconds step stop elapsed with
    ⟨outcome, returned, _⟩ | ⟨error, raised, _⟩ | ⟨_, told⟩
  · cases returned.symm.trans slept
  · cases raised.symm.trans slept
  · exact told

end Boundary

theorem parsePositiveInt_positive {python : Python} {raw flag : String} {value : Int}
    (parsed : parsePositiveInt python raw flag = .ok value) : 1 ≤ value := by
  unfold parsePositiveInt at parsed
  split at parsed
  · cases parsed
  · split at parsed <;> cases parsed
    omega

theorem map_ok {Value Result : Type} {parsed : Except String Value} {build : Value → Result}
    {result : Result} (mapped : parsed.map build = .ok result) :
    ∃ value, parsed = .ok value ∧ build value = result := by
  cases parsed with
  | error problem => cases mapped
  | ok value => exact ⟨value, rfl, Except.ok.inj mapped⟩

theorem parseArgument_steps {python : Python} {config config' : Config} {arg : String}
    (positive : 1 ≤ config.steps) (parsed : parseArgument python config arg = .ok config') :
    1 ≤ config'.steps := by
  unfold parseArgument at parsed
  split at parsed
  · obtain ⟨value, read, rfl⟩ := map_ok parsed
    exact parsePositiveInt_positive read
  · obtain ⟨_, _, rfl⟩ := map_ok parsed
    exact positive
  · obtain ⟨_, _, rfl⟩ := map_ok parsed
    exact positive
  · cases parsed
    exact positive

theorem parse_steps {python : Python} {command : List String} {config config' : Config}
    (positive : 1 ≤ config.steps)
    (parsed : command.foldlM (parseArgument python) config = .ok config') : 1 ≤ config'.steps := by
  induction command generalizing config with
  | nil =>
      cases parsed
      exact positive
  | cons arg rest ih =>
      rw [List.foldlM_cons] at parsed
      cases first : parseArgument python config arg with
      | error problem => simp [first, bind, Except.bind] at parsed
      | ok middle =>
          simp only [first, bind, Except.bind] at parsed
          exact ih (parseArgument_steps positive first) parsed

/-- A Python that reads no number and whose sleep always returns. -/
def plainPython : Python := ⟨fun _ => none, fun _ => none, id, fun _ => "", fun _ => .ok ()⟩

end OrionQueue.Executor
