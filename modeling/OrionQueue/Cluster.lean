import Mathlib.Algebra.Order.Group.Defs
import OrionQueue.Planner
import OrionQueue.Recovery

/-!
The control plane as one machine: the job and worker stores, scheduler instances
that execute RunOnce step by step, expiration handlers that execute MarkLost and
then LoseWorker, and clients and agents that call the job service. Every step is
one call on a store; any interleaving is a run. `swept` is ghost state: the
workers for which LoseWorker has completed since they were last marked LOST or
heard from.
-/

namespace OrionQueue.Cluster

open Jobs JobService JobLifecycle Workers Planner Recovery

variable {Sched Cpu Mem : Type}

structure RecordedDecision where
  jobID : String
  workerID : String
  reason : String
  deriving DecidableEq

structure Store (Cpu Mem : Type) where
  jobs : JobStore.MemoryRepository Cpu Mem
  workers : Workers.MemoryRepository Cpu Mem
  decisions : List RecordedDecision

structure Result where
  considered : Nat
  assigned : Nat
  conflicted : Nat
  preempted : Nat
  deriving DecidableEq

structure Snapshot (Cpu Mem : Type) where
  jobs : List (Job Cpu Mem)
  workers : List (Worker Cpu Mem)
  now : Time

/-- Where one RunOnce execution stands between two calls on the stores. -/
inductive Pass (Cpu Mem : Type) where
  | idle
  | listedJobs (jobs : List (Job Cpu Mem))
  | assigning (snapshot : Snapshot Cpu Mem) (rest : List Assignment) (result : Result)
  | recording (snapshot : Snapshot Cpu Mem) (assignment : Assignment) (rest : List Assignment)
      (result : Result)
  | preempting (rest : List Preemption) (result : Result)
  | returned (result : Result) (problem : Option JobError)

/-- No RunOnce is under way. -/
def Pass.between : Pass Cpu Mem → Bool
  | .idle | .returned _ _ => true
  | _ => false

/-- The errors that RunOnce counts as a lost race and skips. -/
def lostRace : JobError → Bool
  | .invalidState _ | .notFound => true
  | _ => false

section Pass
variable [AddCommGroup Cpu] [LinearOrder Cpu] [AddCommGroup Mem] [LinearOrder Mem]

def Snapshot.assignments (snapshot : Snapshot Cpu Mem) : List Assignment :=
  plan snapshot.jobs snapshot.workers snapshot.now

def Snapshot.considered (snapshot : Snapshot Cpu Mem) : Nat :=
  (snapshot.jobs.filter fun job => job.state = .queued).length

/-- The next call of RunOnce. `now` is what the pass reads from its clock. -/
def Pass.advance (preemptionEnabled : Bool) (now : Time) (store : Store Cpu Mem) :
    Pass Cpu Mem → Pass Cpu Mem × Store Cpu Mem
  | .idle | .returned _ _ => (.listedJobs store.jobs.listActive, store)
  | .listedJobs jobs =>
      let snapshot : Snapshot Cpu Mem := ⟨jobs, store.workers.listActive, now⟩
      (.assigning snapshot snapshot.assignments ⟨snapshot.considered, 0, 0, 0⟩, store)
  | .assigning snapshot (assignment :: rest) result =>
      match assignToWorkers store.jobs assignment.jobID [assignment.workerID] with
      | (.ok _, jobs) =>
          (.recording snapshot assignment rest { result with assigned := result.assigned + 1 },
            { store with jobs := jobs })
      -- A refusal moves on to the next assignment, without a second look at the worker.
      | (.error problem, jobs) =>
          (if lostRace problem then
            .assigning snapshot rest { result with conflicted := result.conflicted + 1 }
          else .returned result (some problem), { store with jobs := jobs })
  | .assigning snapshot [] result =>
      (if preemptionEnabled then
        .preempting
          (planPreemptions snapshot.jobs snapshot.workers snapshot.assignments snapshot.now) result
      else .returned result none, store)
  | .recording snapshot assignment rest result =>
      (.assigning snapshot rest result, { store with
        decisions := store.decisions ++
          [⟨assignment.jobID, assignment.workerID, assignment.reason⟩] })
  | .preempting (preemption :: rest) result =>
      match preempt store.jobs preemption.jobID preemption.reason with
      | (.ok _, jobs) =>
          (.preempting rest { result with preempted := result.preempted + 1 },
            { store with jobs := jobs })
      | (.error problem, jobs) =>
          (if lostRace problem then .preempting rest result else .returned result (some problem),
            { store with jobs := jobs })
  | .preempting [] result => (.returned result none, store)

end Pass

/-- The callback that cmd/api runs for one expired lease. -/
inductive Handler (Cpu Mem : Type) where
  | idle
  | marked (workerID : String)
  | recovering (call : Call Cpu Mem)

structure State (Sched Cpu Mem : Type) where
  store : Store Cpu Mem
  passes : Sched → Pass Cpu Mem
  handlers : Nat → Handler Cpu Mem
  swept : List String

/-- No job yet, and some registered workers. -/
def State.start (workers : Workers.MemoryRepository Cpu Mem) : State Sched Cpu Mem :=
  ⟨⟨.empty, workers, []⟩, fun _ => .idle, fun _ => .idle, []⟩

inductive Label (Sched Cpu Mem : Type) where
  | schedule (scheduler : Sched) (now : Time)
  /-- The pass ends early: leadership lost, context cancelled, repository failing. -/
  | abandon (scheduler : Sched)
  | call (now : Time) (op : Op Cpu Mem)
  | heartbeat (now : Time) (workerID : String) (newLeaseID : Option LeaseID)
      (runningJobIDs : Option (List String))
  | expire (handler : Nat) (workerID : String)
  | handle (handler : Nat) (now : Time)

/-- A MarkLost that finds the worker ACTIVE starts a new loss. -/
def unsweep (workers : Workers.MemoryRepository Cpu Mem) (workerID : String)
    (swept : List String) : List String :=
  if (workers.find workerID).any fun worker => worker.status = .active then
    swept.filter fun id => id ≠ workerID
  else swept

/-- What clients and agents call: everything but AssignToWorkers. The ID
generator does not hand out an ID that is in use. -/
def callable (jobs : JobStore.MemoryRepository Cpu Mem) : Op Cpu Mem → Bool
  | .assignToWorkers _ _ => false
  | .submit id _ => (jobs.find id).isNone
  | _ => true

theorem callable_not_place {jobs : JobStore.MemoryRepository Cpu Mem} {op : Op Cpu Mem}
    (allowed : callable jobs op = true) (id : String) (workerIDs : List String) :
    op ≠ .assignToWorkers id workerIDs := by
  rintro rfl
  simp [callable] at allowed

theorem callable_single {jobs : JobStore.MemoryRepository Cpu Mem} {op : Op Cpu Mem}
    (allowed : callable jobs op = true) : SinglePlacement op := by
  cases op with
  | assignToWorkers id workerIDs => simp [callable] at allowed
  | _ => trivial

theorem callable_fresh {jobs : JobStore.MemoryRepository Cpu Mem} {op : Op Cpu Mem}
    (allowed : callable jobs op = true) (id : String) (input : SubmitInput Cpu Mem)
    (isSubmit : op = .submit id input) : jobs.find id = none := by
  subst isSubmit
  simpa [callable] using allowed

def Handler.next (now : Time) (jobs : JobStore.MemoryRepository Cpu Mem) (call : Call Cpu Mem) :
    Handler Cpu Mem × JobStore.MemoryRepository Cpu Mem × Bool :=
  match call.next now jobs with
  | (.recovering rest, after) => (.recovering rest, after, false)
  | (.returned _ problem, after) => (.idle, after, problem.isNone)
  | (.idle, after) => (.idle, after, false)

theorem handler_returns (now : Time) (jobs : JobStore.MemoryRepository Cpu Mem)
    {call : Call Cpu Mem} (done : call.pending = []) :
    Handler.next now jobs call = (.idle, jobs, true) := by
  simp [Handler.next, Call.next, done]

/-- The Update of a stored job succeeds, and the call goes on with the rest. -/
theorem handler_continues [Zero Cpu] [LT Cpu] [DecidableLT Cpu] [Zero Mem] [LT Mem] [DecidableLT Mem]
    (now : Time) {jobs : JobStore.MemoryRepository Cpu Mem} {call : Call Cpu Mem} {id : String}
    {rest : List String} (pending : call.pending = id :: rest) {job : Job Cpu Mem} (stored : jobs.find id = some job) :
    ∃ next, Handler.next now jobs call =
        (.recovering next, (Op.recover call.workerID id).apply now jobs, false) ∧
      next.workerID = call.workerID ∧ next.pending = rest := by
  obtain ⟨job', updated⟩ : ∃ job', jobs.update id (recoverUpdate now call.workerID) =
      (.ok job', jobs.put id job') :=
    ⟨_, JobStore.MemoryRepository.update_stored stored rfl⟩
  refine ⟨{ call with
    pending := rest
    recovered := call.recovered + 1
    updates := call.updates ++ [((jobs.find id).getD job', job')] }, ?_, rfl, rfl⟩
  simp only [Handler.next, Call.next, pending, recover, updated, Op.apply]

section Machine
variable [DecidableEq Sched]
variable [AddCommGroup Cpu] [LinearOrder Cpu] [AddCommGroup Mem] [LinearOrder Mem]

def step (preemptionEnabled : Bool) (state : State Sched Cpu Mem) :
    Label Sched Cpu Mem → Option (State Sched Cpu Mem)
  | .schedule scheduler now =>
      let next := (state.passes scheduler).advance preemptionEnabled now state.store
      some { state with store := next.2, passes := Function.update state.passes scheduler next.1 }
  | .abandon scheduler =>
      some { state with passes := Function.update state.passes scheduler .idle }
  | .call now op =>
      if callable state.store.jobs op then
        some { state with store := { state.store with jobs := op.apply now state.store.jobs } }
      else none
  | .heartbeat now workerID newLeaseID runningJobIDs =>
      -- An agent sends the GPUs it registered with, which changes no inventory.
      some { state with
        store := { state.store with
          workers := (state.store.workers.update workerID
            (heartbeatUpdate now newLeaseID none runningJobIDs)).2 }
        swept := state.swept.filter fun id => id ≠ workerID }
  | .expire handler workerID =>
      match state.handlers handler, state.store.workers.update workerID markLostUpdate with
      | .idle, (.ok _, workers) =>
          some { state with
            store := { state.store with workers := workers }
            handlers := Function.update state.handlers handler (.marked workerID)
            swept := unsweep state.store.workers workerID state.swept }
      -- An unknown worker: MarkLost fails and nothing is recovered.
      | .idle, (.error _, _) => some state
      | _, _ => none
  | .handle handler now =>
      match state.handlers handler with
      | .idle => none
      | .marked workerID =>
          some { state with
            handlers := Function.update state.handlers handler
              (.recovering (Call.begin state.store.jobs workerID)) }
      | .recovering call =>
          let next := Handler.next now state.store.jobs call
          some { state with
            store := { state.store with jobs := next.2.1 }
            handlers := Function.update state.handlers handler next.1
            swept := if next.2.2 then call.workerID :: state.swept else state.swept }

end Machine

section Effects
variable [AddCommGroup Cpu] [LinearOrder Cpu] [AddCommGroup Mem] [LinearOrder Mem]

/-- What a step does to the job store: nothing, one lifecycle operation, or the
placement that a pass is about to write. -/
inductive JobsEffect (state : State Sched Cpu Mem) (label : Label Sched Cpu Mem)
    (after : JobStore.MemoryRepository Cpu Mem) : Prop where
  | same (unchanged : after = state.store.jobs)
  | op (now : Time) (op : Op Cpu Mem) (allowed : callable state.store.jobs op = true)
      (applied : after = op.apply now state.store.jobs)
  | place {scheduler : Sched} {now : Time} {snapshot : Snapshot Cpu Mem} {assignment : Assignment}
      {rest : List Assignment} {result : Result} (scheduled : label = .schedule scheduler now)
      (assigning : state.passes scheduler = .assigning snapshot (assignment :: rest) result)
      (applied : after =
        (Op.assignToWorkers assignment.jobID [assignment.workerID]).apply now state.store.jobs)

/-- One step of a handler inside LoseWorker: the return, or one Update. -/
theorem handler_next (now : Time) (jobs : JobStore.MemoryRepository Cpu Mem)
    (call : Call Cpu Mem) :
    (call.pending = [] ∧ Handler.next now jobs call = (.idle, jobs, true)) ∨
      ∃ id rest, call.pending = id :: rest ∧
        (Handler.next now jobs call).2 = ((Op.recover call.workerID id).apply now jobs, false) ∧
        ((Handler.next now jobs call).1 = .idle ∨
          ∃ next, (Handler.next now jobs call).1 = .recovering next ∧
            next.workerID = call.workerID ∧ next.pending = rest) := by
  cases pending : call.pending with
  | nil => exact Or.inl ⟨rfl, handler_returns now jobs pending⟩
  | cons id rest =>
      refine Or.inr ⟨id, rest, rfl, ?_⟩
      rcases outcome : recover jobs now call.workerID id with ⟨answer, after⟩
      cases answer <;> simp [Handler.next, Call.next, pending, outcome, Op.apply]

theorem advance_jobs {preemptionEnabled : Bool} {state : State Sched Cpu Mem} {scheduler : Sched}
    (now : Time) : JobsEffect state (.schedule scheduler now)
      ((state.passes scheduler).advance preemptionEnabled now state.store).2.jobs := by
  cases pass : state.passes scheduler with
  | idle => exact .same rfl
  | returned result problem => exact .same rfl
  | listedJobs jobs => exact .same rfl
  | recording snapshot assignment rest result => exact .same rfl
  | assigning snapshot rest result =>
      cases rest with
      | nil => exact .same rfl
      | cons assignment rest =>
          refine .place rfl pass ?_
          rcases outcome : assignToWorkers state.store.jobs assignment.jobID
            [assignment.workerID] with ⟨answer, after⟩
          cases answer <;> simp [Pass.advance, outcome, Op.apply]
  | preempting rest result =>
      cases rest with
      | nil => exact .same rfl
      | cons preemption rest =>
          refine .op now (.preempt preemption.jobID preemption.reason) rfl ?_
          rcases outcome : preempt state.store.jobs preemption.jobID preemption.reason with
            ⟨answer, after⟩
          cases answer <;> simp [Pass.advance, outcome, Op.apply]

theorem step_jobs [DecidableEq Sched] {preemptionEnabled : Bool} {state after : State Sched Cpu Mem}
    {label : Label Sched Cpu Mem} (stepped : step preemptionEnabled state label = some after) :
    JobsEffect state label after.store.jobs := by
  cases label with
  | schedule scheduler now =>
      cases stepped
      exact advance_jobs now
  | abandon scheduler =>
      cases stepped
      exact .same rfl
  | call now op =>
      simp only [step] at stepped
      split at stepped <;> cases stepped
      exact .op now op (by assumption) rfl
  | heartbeat now workerID newLeaseID runningJobIDs =>
      cases stepped
      exact .same rfl
  | expire handler workerID =>
      simp only [step] at stepped
      split at stepped <;> cases stepped <;> exact .same rfl
  | handle handler now =>
      simp only [step] at stepped
      split at stepped
      · cases stepped
      · cases stepped
        exact .same rfl
      · rename_i call _
        cases stepped
        rcases handler_next now state.store.jobs call with ⟨_, done⟩ | ⟨id, _, _, applied, _⟩
        · exact .same (by simp [done])
        · exact .op now (.recover call.workerID id) rfl (by simp [applied])

/-- What becomes of one stored record in a step, whoever takes it. -/
theorem effect_follows {state : State Sched Cpu Mem} {label : Label Sched Cpu Mem}
    {jobs : JobStore.MemoryRepository Cpu Mem} {id : String} {job : Job Cpu Mem}
    {After : Job Cpu Mem → Prop} (effect : JobsEffect state label jobs)
    (found : state.store.jobs.find id = some job) (keeps : After job)
    (moves : ∀ now charged job', Move now charged job job' → After job')
    (places : ∀ workerID, job.state = .queued →
      After { job with state := .scheduled, assignedWorkerIDs := [workerID] }) :
    ∃ job', jobs.find id = some job' ∧ After job' := by
  cases effect with
  | same unchanged => exact ⟨job, unchanged ▸ found, keeps⟩
  | op now op allowed applied =>
      rw [applied]
      exact apply_follows found (callable_fresh allowed id) keeps (moves now)
        fun workerIDs isPlace => absurd isPlace (callable_not_place allowed id workerIDs)
  | @place scheduler now snapshot assignment rest result scheduled assigning applied =>
      rw [applied]
      refine apply_follows found (fun _ isSubmit => by cases isSubmit) keeps (moves now) ?_
      rintro workerIDs ⟨rfl, rfl⟩ queued
      exact places assignment.workerID queued

theorem advance_workers (preemptionEnabled : Bool) (now : Time) (store : Store Cpu Mem)
    (pass : Pass Cpu Mem) :
    (pass.advance preemptionEnabled now store).2.workers = store.workers := by
  cases pass with
  | assigning snapshot rest result =>
      cases rest with
      | nil => rfl
      | cons assignment rest =>
          simp only [Pass.advance]
          split <;> rfl
  | preempting rest result =>
      cases rest with
      | nil => rfl
      | cons preemption rest =>
          simp only [Pass.advance]
          split <;> rfl
  | _ => rfl

theorem step_workers [DecidableEq Sched] {preemptionEnabled : Bool}
    {state after : State Sched Cpu Mem} {label : Label Sched Cpu Mem}
    (stepped : step preemptionEnabled state label = some after) :
    InventoryKept state.store.workers after.store.workers := by
  cases label with
  | schedule scheduler now =>
      simp only [step, Option.some.injEq] at stepped
      subst stepped
      simp only [advance_workers]
      exact inventory_refl _
  | abandon scheduler =>
      cases stepped
      exact inventory_refl _
  | call now op =>
      simp only [step] at stepped
      split at stepped <;> cases stepped
      exact inventory_refl _
  | heartbeat now workerID newLeaseID runningJobIDs =>
      cases stepped
      exact update_inventory fun _ _ accepted => heartbeat_inventory accepted
  | expire handler workerID =>
      simp only [step] at stepped
      split at stepped <;> cases stepped
      · rename_i updated marked
        have kept : InventoryKept state.store.workers
            (state.store.workers.update workerID markLostUpdate).2 :=
          update_inventory fun _ _ accepted => markLost_inventory accepted
        rwa [marked] at kept
      · exact inventory_refl _
  | handle handler now =>
      simp only [step] at stepped
      split at stepped <;> cases stepped <;> exact inventory_refl _

/-- What a step does to one scheduler: its own next call, the end of its pass, or
nothing. -/
theorem step_passes [DecidableEq Sched] {preemptionEnabled : Bool}
    {state after : State Sched Cpu Mem} {label : Label Sched Cpu Mem} (scheduler : Sched)
    (stepped : step preemptionEnabled state label = some after) :
    (∃ now, label = .schedule scheduler now ∧
      ((state.passes scheduler).advance preemptionEnabled now state.store) =
        (after.passes scheduler, after.store)) ∨
    after.passes scheduler = .idle ∨
    (after.passes scheduler = state.passes scheduler ∧
      ∀ now, label ≠ .schedule scheduler now) := by
  cases label with
  | schedule actor now =>
      simp only [step, Option.some.injEq] at stepped
      subst stepped
      by_cases own : scheduler = actor
      · subst own
        exact Or.inl ⟨now, rfl, by simp⟩
      · refine Or.inr (Or.inr ⟨by simp [own], ?_⟩)
        rintro _ ⟨⟩
        exact own rfl
  | abandon actor =>
      simp only [step, Option.some.injEq] at stepped
      subst stepped
      by_cases own : scheduler = actor
      · subst own
        exact Or.inr (Or.inl (by simp))
      · exact Or.inr (Or.inr ⟨by simp [own], by simp⟩)
  | call now op =>
      simp only [step] at stepped
      split at stepped <;> cases stepped
      exact Or.inr (Or.inr ⟨rfl, by simp⟩)
  | heartbeat now workerID newLeaseID runningJobIDs =>
      cases stepped
      exact Or.inr (Or.inr ⟨rfl, by simp⟩)
  | expire handler workerID =>
      simp only [step] at stepped
      split at stepped <;> cases stepped <;> exact Or.inr (Or.inr ⟨rfl, by simp⟩)
  | handle handler now =>
      simp only [step] at stepped
      split at stepped <;> cases stepped <;> exact Or.inr (Or.inr ⟨rfl, by simp⟩)

/-- What a step does to the handlers and to the ghost record of swept workers:
one step of a handler inside LoseWorker, or no more than a new handler. -/
theorem step_handlers [DecidableEq Sched] {preemptionEnabled : Bool}
    {state after : State Sched Cpu Mem} {label : Label Sched Cpu Mem}
    (stepped : step preemptionEnabled state label = some after) :
    (∃ handler now call, label = .handle handler now ∧
      state.handlers handler = .recovering call ∧
      after.handlers = Function.update state.handlers handler
        (Handler.next now state.store.jobs call).1 ∧
      after.store.jobs = (Handler.next now state.store.jobs call).2.1 ∧
      after.swept = if (Handler.next now state.store.jobs call).2.2 then
        call.workerID :: state.swept else state.swept) ∨
    ((∀ handler, after.handlers handler = state.handlers handler ∨
      (∃ workerID, after.handlers handler = .marked workerID) ∨
      (after.store.jobs = state.store.jobs ∧ ∃ workerID,
        after.handlers handler = .recovering (Call.begin state.store.jobs workerID))) ∧
      after.swept ⊆ state.swept) := by
  cases label with
  | schedule scheduler now =>
      cases stepped
      exact Or.inr ⟨fun _ => Or.inl rfl, List.Subset.refl _⟩
  | abandon scheduler =>
      cases stepped
      exact Or.inr ⟨fun _ => Or.inl rfl, List.Subset.refl _⟩
  | call now op =>
      simp only [step] at stepped
      split at stepped <;> cases stepped
      exact Or.inr ⟨fun _ => Or.inl rfl, List.Subset.refl _⟩
  | heartbeat now workerID newLeaseID runningJobIDs =>
      cases stepped
      exact Or.inr ⟨fun _ => Or.inl rfl, List.filter_sublist.subset⟩
  | expire handler workerID =>
      simp only [step] at stepped
      split at stepped <;> cases stepped
      · refine Or.inr ⟨fun other => ?_, ?_⟩
        · by_cases own : other = handler
          · exact Or.inr (Or.inl ⟨workerID, by simp [own]⟩)
          · exact Or.inl (by simp [own])
        · simp only [unsweep]
          split
          · exact List.filter_sublist.subset
          · exact List.Subset.refl _
      · exact Or.inr ⟨fun _ => Or.inl rfl, List.Subset.refl _⟩
  | handle handler now =>
      simp only [step] at stepped
      cases busy : state.handlers handler with
      | idle => simp [busy] at stepped
      | marked workerID =>
          simp only [busy, Option.some.injEq] at stepped
          subst stepped
          refine Or.inr ⟨fun other => ?_, List.Subset.refl _⟩
          by_cases own : other = handler
          · exact Or.inr (Or.inr ⟨rfl, workerID, by simp [own]⟩)
          · exact Or.inl (by simp [own])
      | recovering call =>
          simp only [busy, Option.some.injEq] at stepped
          subst stepped
          exact Or.inl ⟨handler, now, call, rfl, busy, rfl, rfl, rfl⟩

end Effects

end OrionQueue.Cluster
