import Mathlib.Algebra.Order.Group.Int
import OrionQueue.Cluster
import OrionQueue.JobHistory

/-!
Cancellation in the cluster machine, where scheduling passes write plans that are
older than the cancellation and recoveries act on listings that are older still.
From the states in which Cancel leaves a job, the only move is the confirmation
of the stop.
-/

namespace OrionQueue.Cancellation

open Jobs JobStore.MemoryRepository JobService JobLifecycle JobHistory Cluster Runs

variable {Sched Cpu Mem : Type}

/-- Where a job may be after a Cancel that met it as `found`. -/
def Withdrawn (found job : Job Cpu Mem) : Prop :=
  job.state = .cancelRequested ∨ job.state = .cancelled ∨
    ((found.state = .succeeded ∨ found.state = .failed) ∧ job.state = found.state)

theorem cancelUpdate_withdrawn {now : Time} {found job : Job Cpu Mem}
    (accepted : cancelUpdate now found = .ok job) : Withdrawn found job := by
  unfold cancelUpdate at accepted
  cases state : found.state <;> simp only [state] at accepted <;> cases accepted <;>
    simp [Withdrawn, state]

theorem withdrawn_inactive {found job : Job Cpu Mem} (withdrawn : Withdrawn found job) :
    job.state ∉ [State.queued, .scheduled, .running, .preempted] := by
  rcases withdrawn with state | state | ⟨finished | finished, state⟩ <;> simp_all

theorem withdrawn_assign {found job : Job Cpu Mem} (withdrawn : Withdrawn found job)
    (workerIDs : List String) : ∃ problem, assignUpdate workerIDs job = .error problem := by
  have unqueued : job.state ≠ .queued := fun queued =>
    withdrawn_inactive withdrawn (by simp [queued])
  exact ⟨_, if_neg unqueued⟩

theorem move_withdrawn {now : Time} {charged : Bool} {found job job' : Job Cpu Mem}
    (moved : Move now charged job job') (spent : Spent job) (withdrawn : Withdrawn found job) :
    Withdrawn found job' := by
  have active := move_active moved spent
  -- Of the three, only CANCEL_REQUESTED is a state that a job can still leave.
  have stopping : job.state = .cancelRequested := by
    rcases withdrawn with state | state | ⟨finished | finished, state⟩ <;>
      simp_all [State.terminal]
  cases moved with
  | confirmCancel => exact Or.inr (Or.inl rfl)
  | cancel idle => rcases idle with state | state | state <;> simp [state] at stopping
  | requestCancel busy => rcases busy with state | state <;> simp [state] at stopping
  | requeue reason busy left => rcases busy with state | state <;> simp [state] at stopping
  | exhaust reason busy gone => rcases busy with state | state <;> simp [state] at stopping
  | start state | complete state | confirmPreempt state => simp [state] at stopping
  | preempt reason state allowed => simp [state] at stopping
  | retry state left => simp [state] at stopping

section Machine
variable [DecidableEq Sched]
variable [AddCommGroup Cpu] [LinearOrder Cpu] [AddCommGroup Mem] [LinearOrder Mem]

theorem step_spent {preemptionEnabled : Bool} {state after : Cluster.State Sched Cpu Mem}
    {label : Cluster.Label Sched Cpu Mem} (spent : AllSpent state.store.jobs)
    (stepped : Cluster.step preemptionEnabled state label = some after) :
    AllSpent after.store.jobs := by
  cases step_jobs stepped with
  | same unchanged => rwa [unchanged]
  | op now op allowed applied =>
      rw [applied]
      exact apply_spent spent now op
  | place scheduled assigning applied =>
      rw [applied]
      exact apply_spent spent _ _

/-- A property of one record that every move of a spent record and every placement
keeps holds of it after every run. -/
theorem run_record {preemptionEnabled : Bool} {state later : Cluster.State Sched Cpu Mem}
    {labels : List (Cluster.Label Sched Cpu Mem)} {id : String} {Holds : Job Cpu Mem → Prop}
    (moves : ∀ now charged job job', Move now charged job job' → Spent job → Holds job → Holds job')
    (places : ∀ job workerID, job.state = .queued → Holds job →
      Holds { job with state := .scheduled, assignedWorkerIDs := [workerID] })
    (ran : run (Cluster.step preemptionEnabled) state labels = some later)
    (spent : AllSpent state.store.jobs) {job : Job Cpu Mem}
    (found : state.store.jobs.find id = some job) (holds : Holds job) :
    ∃ job', later.store.jobs.find id = some job' ∧ Holds job' := by
  let Inv (state : Cluster.State Sched Cpu Mem) : Prop := AllSpent state.store.jobs ∧
    ∃ job, state.store.jobs.find id = some job ∧ Holds job
  have kept : ∀ state label after, Inv state →
      Cluster.step preemptionEnabled state label = some after → Inv after := by
    rintro state label after ⟨spent, job, found, holds⟩ stepped
    refine ⟨step_spent spent stepped, ?_⟩
    exact effect_follows (step_jobs stepped) found holds
      (fun now charged job' moved => moves now charged job job' moved (spent id job found) holds)
      (fun workerID queued => places job workerID queued holds)
  exact (run_invariant kept ran ⟨spent, job, found, holds⟩).2

theorem run_withdrawn {preemptionEnabled : Bool} {state later : Cluster.State Sched Cpu Mem}
    {labels : List (Cluster.Label Sched Cpu Mem)} {id : String} {found job : Job Cpu Mem}
    (ran : run (Cluster.step preemptionEnabled) state labels = some later)
    (spent : AllSpent state.store.jobs) (stored : state.store.jobs.find id = some job)
    (withdrawn : Withdrawn found job) :
    ∃ job', later.store.jobs.find id = some job' ∧ Withdrawn found job' := by
  refine run_record (fun _ _ _ _ => move_withdrawn) ?_ ran spent stored withdrawn
  intro job workerID queued withdrawn
  exact absurd (by simp [queued]) (withdrawn_inactive withdrawn)

/-- A terminal record is there unchanged after every run. -/
theorem run_frozen {preemptionEnabled : Bool} {state later : Cluster.State Sched Cpu Mem}
    {labels : List (Cluster.Label Sched Cpu Mem)} {id : String} {job : Job Cpu Mem}
    (ran : run (Cluster.step preemptionEnabled) state labels = some later)
    (spent : AllSpent state.store.jobs) (stored : state.store.jobs.find id = some job)
    (terminal : job.state.terminal = true) : later.store.jobs.find id = some job := by
  have moves : ∀ now charged record job', Move now charged record job' → Spent record →
      record = job → job' = job := by
    rintro now charged _ job' moved spent rfl
    simp [move_active moved spent] at terminal
  have places : ∀ (record : Job Cpu Mem) (workerID : String), record.state = .queued →
      record = job → { record with state := .scheduled, assignedWorkerIDs := [workerID] } = job := by
    rintro _ workerID queued rfl
    simp [queued, State.terminal] at terminal
  have kept : ∃ job', later.store.jobs.find id = some job' ∧ job' = job :=
    run_record moves places ran spent stored rfl
  obtain ⟨job', last, rfl⟩ := kept
  exact last

theorem cancellation_final (preemptionEnabled : Bool) (workers : Workers.MemoryRepository Cpu Mem)
    (past labels : List (Cluster.Label Sched Cpu Mem))
    (state after later : Cluster.State Sched Cpu Mem) (now : Time) (id : String)
    (answered : Job Cpu Mem)
    (ran : run (Cluster.step preemptionEnabled) (State.start workers) past = some state)
    (returned : (cancel state.store.jobs now id).1 = .ok answered)
    (cancelled : Cluster.step preemptionEnabled state (.call now (.cancel id)) = some after)
    (continued : run (Cluster.step preemptionEnabled) after labels = some later) :
    ∃ found job, state.store.jobs.find id = some found ∧ later.store.jobs.find id = some job ∧
      Withdrawn found job ∧
      job.state ∉ [Jobs.State.queued, .scheduled, .running, .preempted] ∧
      (∀ workerIDs, ∃ problem, (assignToWorkers later.store.jobs id workerIDs).1 =
        .error problem) ∧
      (job.state = .cancelled → ∀ further last,
        run (Cluster.step preemptionEnabled) later further = some last →
          ∃ job', last.store.jobs.find id = some job' ∧ job'.state = .cancelled ∧
            job'.completedAt = job.completedAt) := by
  have spent : AllSpent state.store.jobs :=
    run_invariant (fun _ _ _ before stepped => step_spent before stepped) ran
      (empty_spent : AllSpent (JobStore.MemoryRepository.empty : JobStore.MemoryRepository Cpu Mem))
  have spentAfter : AllSpent after.store.jobs := step_spent spent cancelled
  have spentLater : AllSpent later.store.jobs :=
    run_invariant (fun _ _ _ before stepped => step_spent before stepped) continued spentAfter
  simp only [Cluster.step, callable, if_true, Option.some.injEq] at cancelled
  -- The Cancel went through, so it met a record and stored what its callback made of it.
  rcases update_cases state.store.jobs id (cancelUpdate now) with
    ⟨problem, refused⟩ | ⟨found, updated, known, accepted, stored⟩
  · rw [cancel, refused] at returned
    cases returned
  · have written : after.store.jobs.find id = some updated := by
      rw [← cancelled]
      simp [Op.apply, cancel, stored, find_put]
    obtain ⟨job, last, withdrawn⟩ := run_withdrawn continued spentAfter written
      (cancelUpdate_withdrawn accepted)
    refine ⟨found, job, known, last, withdrawn, withdrawn_inactive withdrawn, ?_, ?_⟩
    · intro workerIDs
      obtain ⟨problem, refused⟩ := withdrawn_assign withdrawn workerIDs
      exact ⟨problem, by rw [assignToWorkers, update_refused last refused]⟩
    · intro finished further final ran
      exact ⟨job, run_frozen ran spentLater last (by simp [finished, State.terminal]), finished, rfl⟩

end Machine

/-- A pass has planned job-1 onto worker-1 and has not written the assignment. -/
def pendingLabels : List (Cluster.Label Unit Int Int) :=
  [.call 1 (.submit "job-1" (submission ⟨0, 0, 2, 1024⟩)), .schedule () 2, .schedule () 2]

/-- The old plan, an old recovery, a retry and a second cancellation. -/
def afterthoughtLabels : List (Cluster.Label Unit Int Int) :=
  [.schedule () 4, .call 5 (.recover "worker-1" "job-1"), .call 6 (.retry "job-1"),
    .call 7 (.cancel "job-1")]

theorem afterthoughtLabels_cancelled : ∃ state after later job,
    run (Cluster.step false) (State.start (Workers.registerAll [Workers.plainNode])) pendingLabels = some state ∧
      Cluster.step false state (.call 3 (.cancel "job-1")) = some after ∧
      run (Cluster.step false) after afterthoughtLabels = some later ∧
      later.store.jobs.find "job-1" = some job ∧ job.state = .cancelled ∧
      job.completedAt = some 3 ∧
      ∀ workerIDs, ∃ problem, (assignToWorkers later.store.jobs "job-1" workerIDs).1 =
        .error problem := by
  obtain ⟨state, ran⟩ : ∃ state, run (Cluster.step false)
      (State.start (Workers.registerAll [Workers.plainNode])) pendingLabels = some state := ⟨_, rfl⟩
  obtain ⟨answered, after, later, record, returned, cancelled, continued, stored, finished, instant⟩ :
      ∃ answered after later record, (cancel state.store.jobs 3 "job-1").1 = .ok answered ∧
        Cluster.step false state (.call 3 (.cancel "job-1")) = some after ∧
        run (Cluster.step false) after afterthoughtLabels = some later ∧
        later.store.jobs.find "job-1" = some record ∧ record.state = .cancelled ∧
        record.completedAt = some 3 := by
    cases ran
    exact ⟨_, _, _, _, rfl, rfl, rfl, rfl, rfl, rfl⟩
  obtain ⟨_, job, _, last, _, _, refused, _⟩ := cancellation_final false
    (Workers.registerAll [Workers.plainNode]) pendingLabels afterthoughtLabels state after later 3 "job-1"
    answered ran returned cancelled continued
  exact ⟨state, after, later, record, ran, cancelled, continued, stored, finished, instant, refused⟩

end OrionQueue.Cancellation
