import Mathlib.Data.String.Basic
import Mathlib.Algebra.Ring.Int.Defs

/-!
The job record of internal/jobs: states, the resource request, submission
checks and domain errors. `Cpu` stands for Go's float64 and `Mem` for int64,
so that the same definitions run on exact numbers and on machine arithmetic.
An instant is its number of nanoseconds; int32 counters are integers, since
every increment is guarded by a comparison with another int32.
-/

namespace OrionQueue.Jobs

abbrev Time := Int

inductive State where
  | queued | scheduled | running | checkpointing | succeeded | failed
  | retrying | cancelRequested | cancelled | preempted | lost
  deriving DecidableEq

def State.name : State → String
  | .queued => "QUEUED"
  | .scheduled => "SCHEDULED"
  | .running => "RUNNING"
  | .checkpointing => "CHECKPOINTING"
  | .succeeded => "SUCCEEDED"
  | .failed => "FAILED"
  | .retrying => "RETRYING"
  | .cancelRequested => "CANCEL_REQUESTED"
  | .cancelled => "CANCELLED"
  | .preempted => "PREEMPTED"
  | .lost => "LOST"

def State.terminal : State → Bool
  | .succeeded | .failed | .cancelled => true
  | _ => false

/-- The states LoseWorker acts on: something may still be running the job. -/
def State.recoverable : State → Bool
  | .scheduled | .running | .cancelRequested | .preempted => true
  | _ => false

structure ResourceRequest (Cpu Mem : Type) where
  gpuCount : Nat
  minGPUMemoryBytes : Mem
  cpuCores : Cpu
  memoryBytes : Mem
  deriving DecidableEq

structure Job (Cpu Mem : Type) where
  id : String
  name : String
  submissionID : String
  owner : String
  image : String
  command : List String
  resources : ResourceRequest Cpu Mem
  priority : Int
  preemptible : Bool
  retryLimit : Int
  currentAttempt : Int
  timeoutSeconds : Int
  checkpointIntervalSeconds : Int
  state : State
  assignedWorkerIDs : List String
  failureReason : String
  createdAt : Time
  startedAt : Option Time
  completedAt : Option Time
  failedAt : Option Time
  deriving DecidableEq

structure SubmitInput (Cpu Mem : Type) where
  name : String
  owner : String
  image : String
  command : List String
  resources : ResourceRequest Cpu Mem
  priority : Int
  preemptible : Bool
  retryLimit : Int
  timeoutSeconds : Int
  checkpointIntervalSeconds : Int
  submissionID : String
  deriving DecidableEq

inductive JobError where
  | validation (problems : List String)
  | notFound
  | invalidState (detail : String)
  | retryLimitExceeded (detail : String)
  deriving DecidableEq

def JobError.message : JobError → String
  | .validation problems => "invalid request: " ++ "; ".intercalate problems
  | .notFound => "job not found"
  | .invalidState detail =>
      "job is not in a valid state for this operation: " ++ detail
  | .retryLimitExceeded detail => "retry limit exceeded: " ++ detail

def maxNameLength : Nat := 253
def maxOwnerLength : Nat := 253
def maxCommandArgs : Nat := 256
def maxCommandArgLength : Nat := 4096
def maxSubmissionIDLength : Nat := 256
def maxGPUCount : Nat := 64
def maxPriority : Int := 100
def maxRetryLimit : Int := 100

/-- The characters that Go's `strings.TrimSpace` removes. -/
def isSpace (char : Char) : Bool :=
  let code := char.toNat
  (9 ≤ code && code ≤ 13) || code == 0x20 || code == 0x85 || code == 0xA0 ||
    code == 0x1680 || (0x2000 ≤ code && code ≤ 0x200A) || code == 0x2028 ||
    code == 0x2029 || code == 0x202F || code == 0x205F || code == 0x3000

/-- `strings.TrimSpace(text) == ""`. -/
def blank (text : String) : Bool := text.toList.all isSpace

def problemWhen (bad : Bool) (problem : String) : List String :=
  if bad then [problem] else []

def requiredText (field text : String) (limit : Nat) : List String :=
  if blank text then [field ++ " must not be empty"]
  -- Go's len counts bytes, whatever the message says.
  else problemWhen (limit < text.utf8ByteSize)
    (field ++ " must be at most " ++ toString limit ++ " characters")

/-- Only the first overlong argument is reported: the loop breaks there. -/
def commandArgProblem : Nat → List String → List String
  | _, [] => []
  | index, arg :: rest =>
      if maxCommandArgLength < arg.utf8ByteSize then
        ["command[" ++ toString index ++ "] exceeds max length " ++ toString maxCommandArgLength]
      else commandArgProblem (index + 1) rest

section Validation
variable {Cpu Mem : Type} [Zero Cpu] [LT Cpu] [DecidableLT Cpu] [Zero Mem] [LT Mem] [DecidableLT Mem]

def resourceProblems (resources : ResourceRequest Cpu Mem) : List String :=
  problemWhen (maxGPUCount < resources.gpuCount)
      ("gpu_count must be at most " ++ toString maxGPUCount) ++
    problemWhen (resources.minGPUMemoryBytes < 0) "min_gpu_memory_bytes must not be negative" ++
    problemWhen (resources.cpuCores < 0) "cpu_cores must not be negative" ++
    problemWhen (resources.memoryBytes < 0) "memory_bytes must not be negative"

def retryLimitProblem (retryLimit : Int) : List String :=
  if retryLimit < 0 then ["retry_limit must not be negative"]
  else problemWhen (maxRetryLimit < retryLimit)
    ("retry_limit must be at most " ++ toString maxRetryLimit)

def submitProblems (input : SubmitInput Cpu Mem) : List String :=
  requiredText "name" input.name maxNameLength ++
    requiredText "owner" input.owner maxOwnerLength ++
    problemWhen (blank input.image) "image must not be empty" ++
    problemWhen (maxCommandArgs < input.command.length)
      ("command must have at most " ++ toString maxCommandArgs ++ " arguments") ++
    commandArgProblem 0 input.command ++
    resourceProblems input.resources ++
    problemWhen (input.priority < 0 || maxPriority < input.priority)
      ("priority must be between 0 and " ++ toString maxPriority) ++
    retryLimitProblem input.retryLimit ++
    problemWhen (input.timeoutSeconds < 0) "timeout_seconds must not be negative" ++
    problemWhen (input.checkpointIntervalSeconds < 0)
      "checkpoint_interval_seconds must not be negative" ++
    problemWhen (maxSubmissionIDLength < input.submissionID.utf8ByteSize)
      ("submission_id must be at most " ++ toString maxSubmissionIDLength ++ " characters")

def validateSubmit (input : SubmitInput Cpu Mem) : Except JobError Unit :=
  match submitProblems input with
  | [] => .ok ()
  | problems => .error (.validation problems)

theorem problemWhen_nil {bad : Bool} {problem : String} :
    problemWhen bad problem = [] ↔ bad = false := by
  cases bad <;> simp [problemWhen]

theorem validateSubmit_ok {input : SubmitInput Cpu Mem}
    (accepted : validateSubmit input = .ok ()) : submitProblems input = [] := by
  cases found : submitProblems input with
  | nil => rfl
  | cons problem rest => simp [validateSubmit, found] at accepted

/-- What the rest of the system relies on after submission: no resource
request and no retry limit is negative. -/
theorem validateSubmit_nonneg {input : SubmitInput Cpu Mem}
    (accepted : validateSubmit input = .ok ()) :
    ¬ input.resources.cpuCores < 0 ∧ ¬ input.resources.memoryBytes < 0 ∧
      ¬ input.retryLimit < 0 := by
  have clean := validateSubmit_ok accepted
  simp only [submitProblems, resourceProblems, retryLimitProblem, List.append_eq_nil_iff,
    problemWhen_nil, decide_eq_false_iff_not] at clean
  obtain ⟨⟨⟨⟨⟨⟨_, resources⟩, _⟩, retries⟩, _⟩, _⟩, _⟩ := clean
  refine ⟨resources.1.2, resources.2, ?_⟩
  intro negative
  simp [negative] at retries

theorem validateSubmit_gpus {input : SubmitInput Cpu Mem}
    (accepted : validateSubmit input = .ok ()) : input.resources.gpuCount ≤ maxGPUCount := by
  have clean := validateSubmit_ok accepted
  simp only [submitProblems, resourceProblems, List.append_eq_nil_iff, problemWhen_nil,
    decide_eq_false_iff_not, not_lt] at clean
  obtain ⟨⟨⟨⟨⟨⟨_, resources⟩, _⟩, _⟩, _⟩, _⟩, _⟩ := clean
  exact resources.1.1.1

end Validation

/-- A plain preemptible submission with one retry, for concrete runs. -/
def submission {Cpu Mem : Type} (resources : ResourceRequest Cpu Mem) : SubmitInput Cpu Mem where
  name := "train"
  owner := "research"
  image := "trainer:1"
  command := ["sleep", "10"]
  resources := resources
  priority := 50
  preemptible := true
  retryLimit := 2
  timeoutSeconds := 0
  checkpointIntervalSeconds := 0
  submissionID := ""

end OrionQueue.Jobs
