import Mathlib.Logic.Function.Basic
import OrionQueue.Executor
import OrionQueue.Reports
import OrionQueue.Runs

/-!
One live worker agent and the job store, agent/main.py against internal/api. The
heartbeat loop and every job thread are cut at each message, at each locked access
to the agent's tables and at each poll of the stop flag. A message under way is the
phase of the thread, or of the loop, that waits for its answer; none is lost. The
heartbeat's own effect on the worker record and the list of running jobs it
carries play no part here.
-/

namespace OrionQueue.Agent

open Jobs JobStore MemoryRepository JobService Reports Executor

variable {Cpu Mem : Type}

structure AssignedJob where
  jobID : String
  command : List String
  timeoutSeconds : Int
  deriving DecidableEq

def AssignedJob.of (job : Job Cpu Mem) : AssignedJob :=
  ⟨job.id, job.command, job.timeoutSeconds⟩

/-- The report an outcome is turned into. -/
def finalKind (outcome : Outcome) : Kind :=
  if outcome.success then .completed 0
  else if outcome.stopped then .stopped
  else .failed outcome.failureReason

theorem finalKind_final (outcome : Outcome) : finalKind outcome ≠ .started := by
  unfold finalKind
  split
  · simp
  · split <;> simp

theorem finalKind_stopped {outcome : Outcome} (isStop : finalKind outcome = .stopped) :
    outcome.stopped = true := by
  unfold finalKind at isStop
  split at isStop
  · cases isStop
  · split at isStop
    · assumption
    · cases isStop

/-- Where a job thread stands in `_execute`. `crashed` is an exception that
leaves it, which runs no clean-up. -/
inductive Phase where
  | starting
  | startedSent
  | startedReply (problem : Option Status)
  | executing (config : Config) (step : Int)
  | reporting (outcome : Outcome)
  | finalSent (outcome : Outcome)
  | finalReply
  | ended
  | crashed (error : String)

/-- The clean-up at the end of `_execute` has run. -/
def Phase.exited : Phase → Bool
  | .ended => true
  | _ => false

/-- The server has answered the last report. -/
def Phase.settled : Phase → Bool
  | .finalReply | .ended => true
  | _ => false

/-- The server has accepted the start and the executor is still to return. -/
def Phase.underway : Phase → Bool
  | .startedReply none | .executing _ _ => true
  | _ => false

/-- What the executor returned, from its return until the server has the report. -/
def Phase.outcome : Phase → Option Outcome
  | .reporting outcome | .finalSent outcome => some outcome
  | _ => none

/-- The last report has not been sent. -/
def Phase.unsent : Phase → Bool
  | .starting | .startedSent | .startedReply _ | .executing _ _ | .reporting _ => true
  | _ => false

/-- A job thread with its `cancel_event`. -/
structure Thread where
  job : AssignedJob
  phase : Phase
  cancelled : Bool

/-- Where the heartbeat loop stands: it sleeps, waits for an answer that the
server puts together from two listings, starts what it is offered, and passes on
the stop signals. -/
inductive Loop where
  | sleeping
  | heartbeatSent
  | assignedListed (assigned : List AssignedJob)
  | offering (assigned : List AssignedJob) (stops : List String)
  | spawning (job : AssignedJob) (assigned : List AssignedJob) (stops : List String)
  | stopping (stops : List String)
  | signalling (thread : Nat) (stops : List String)

structure State (Cpu Mem : Type) where
  jobs : MemoryRepository Cpu Mem
  workerID : String
  threads : Nat → Option Thread
  spawned : Nat
  runningJobs : String → Option Nat
  cancelEvents : String → Option Nat
  loop : Loop

def State.start (workerID : String) : State Cpu Mem :=
  ⟨.empty, workerID, fun _ => none, 0, fun _ => none, fun _ => none, .sleeping⟩

/-- `running_jobs.pop` and `cancel_events.pop`, under one lock. -/
def State.pop (state : State Cpu Mem) (jobID : String) : State Cpu Mem :=
  { state with
    runningJobs := Function.update state.runningJobs jobID none
    cancelEvents := Function.update state.cancelEvents jobID none }

def State.setThread (state : State Cpu Mem) (id : Nat) (thread : Thread) : State Cpu Mem :=
  { state with threads := Function.update state.threads id (some thread) }

/-- `_start_job`: both tables under one lock, then `thread.start()`. -/
def State.spawn (state : State Cpu Mem) (job : AssignedJob) : State Cpu Mem :=
  { state.setThread state.spawned ⟨job, .starting, false⟩ with
    spawned := state.spawned + 1
    runningJobs := Function.update state.runningJobs job.jobID (some state.spawned)
    cancelEvents := Function.update state.cancelEvents job.jobID (some state.spawned) }

def State.signal (state : State Cpu Mem) (id : Nat) : State Cpu Mem :=
  match state.threads id with
  | none => state
  | some thread => state.setThread id { thread with cancelled := true }

/-- The next step of the heartbeat loop, or of the server on its behalf. -/
def State.loopStep (state : State Cpu Mem) : State Cpu Mem :=
  match state.loop with
  | .sleeping => { state with loop := .heartbeatSent }
  | .heartbeatSent => { state with
      loop := .assignedListed
        ((listAssignedToWorker state.jobs state.workerID).map AssignedJob.of) }
  | .assignedListed assigned => { state with
      loop := .offering assigned ((listStoppableForWorker state.jobs state.workerID).map Job.id) }
  | .offering [] stops => { state with loop := .stopping stops }
  | .offering (job :: rest) stops =>
      if (state.runningJobs job.jobID).isSome then { state with loop := .offering rest stops }
      else { state with loop := .spawning job rest stops }
  | .spawning job rest stops => { state.spawn job with loop := .offering rest stops }
  | .stopping [] => { state with loop := .sleeping }
  | .stopping (jobID :: rest) =>
      match state.cancelEvents jobID with
      -- No thread to signal: the next response offers the stop again.
      | none => { state with loop := .stopping rest }
      | some thread => { state with loop := .signalling thread rest }
  | .signalling thread rest => { state.signal thread with loop := .stopping rest }

/-- The step a thread takes by itself; it takes none while it waits for the
server, nor when it is over. -/
def Thread.next (python : Python) (elapsed : ℚ) (thread : Thread) : Option Phase :=
  match thread.phase with
  | .starting => some .startedSent
  | .startedReply (some ⟨.failedPrecondition, _⟩) => some .ended
  -- Any other error is logged and the job is executed all the same.
  | .startedReply _ =>
      match parseCommand python thread.job.command with
      | .error problem => some (.crashed problem)
      | .ok config => some (.executing config 1)
  | .executing config step =>
      match boundary python config thread.job.timeoutSeconds step thread.cancelled elapsed with
      | .returned outcome => some (.reporting outcome)
      | .raised problem => some (.crashed problem)
      | .slept => some (.executing config (step + 1))
  | .reporting outcome => some (.finalSent outcome)
  | .finalReply => some .ended
  | .startedSent | .finalSent _ | .ended | .crashed _ => none

def State.threadStep (python : Python) (elapsed : ℚ) (state : State Cpu Mem) (id : Nat) :
    Option (State Cpu Mem) :=
  match state.threads id with
  | none => none
  | some thread =>
      match thread.next python elapsed with
      | none => none
      | some .ended =>
          some ((state.setThread id { thread with phase := .ended }).pop thread.job.jobID)
      | some phase => some (state.setThread id { thread with phase := phase })

def answer : Except Status (Job Cpu Mem) → Option Status
  | .ok _ => none
  | .error problem => some problem

/-- The server takes the report of a thread that waits for an answer. -/
def State.deliver (now : Time) (state : State Cpu Mem) (id : Nat) : Option (State Cpu Mem) :=
  match state.threads id with
  | none => none
  | some thread =>
      match thread.phase with
      | .startedSent =>
          let handled := handleReport state.jobs now ⟨.started, thread.job.jobID, state.workerID⟩
          some ({ state with jobs := handled.2 }.setThread id
            { thread with phase := .startedReply (answer handled.1) })
      | .finalSent outcome =>
          let handled := handleReport state.jobs now
            ⟨finalKind outcome, thread.job.jobID, state.workerID⟩
          -- An error is logged, never retried.
          some ({ state with jobs := handled.2 }.setThread id { thread with phase := .finalReply })
      | _ => none

inductive Label (Cpu Mem : Type) where
  | call (now : Time) (op : Op Cpu Mem)
  | loop
  | thread (id : Nat) (elapsed : ℚ)
  | deliver (id : Nat) (now : Time)

/-- The operations of clients and of the scheduler: reports come from the agent
only, and no worker is lost. The ID generator never hands out an ID in use. -/
def requested (jobs : MemoryRepository Cpu Mem) : Op Cpu Mem → Bool
  | .submit id _ => (jobs.find id).isNone
  | .assignToWorkers _ workerIDs => workerIDs.length = 1
  | .cancel _ | .preempt _ _ | .retry _ => true
  | .start _ | .complete _ | .fail _ _ | .reportStopped _ | .recover _ _ => false

section Machine
variable [Zero Cpu] [LT Cpu] [DecidableLT Cpu] [Zero Mem] [LT Mem] [DecidableLT Mem]

def step (python : Python) (state : State Cpu Mem) : Label Cpu Mem → Option (State Cpu Mem)
  | .call now op =>
      if requested state.jobs op then some { state with jobs := op.apply now state.jobs } else none
  | .loop => some state.loopStep
  | .thread id elapsed => state.threadStep python elapsed id
  | .deliver id now => state.deliver now id

end Machine

end OrionQueue.Agent
