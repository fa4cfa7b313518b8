import OrionQueue.JobHistory
import OrionQueue.Recovery
import OrionQueue.Repositories

/-!
A LoseWorker call that nobody disturbs. Its listing leaves out the states a job
cannot be assigned in: on a worker, a job that is not terminal is SCHEDULED,
RUNNING, CANCEL_REQUESTED or PREEMPTED, because every way back to QUEUED clears
the assignment, except a Retry that never finds an attempt left. So the loop
recovers all there is, and a second call has nothing to list.
-/

namespace OrionQueue.WorkerRecovery

open Jobs JobStore MemoryRepository JobService JobLifecycle JobHistory Recovery Repositories

variable {Cpu Mem : Type}

/-- A job that waits for a placement, or that is in a state no operation sets, is
on no worker. -/
def Unplaced (job : Job Cpu Mem) : Prop :=
  job.state.terminal = false → job.state.recoverable = false → job.assignedWorkerIDs = []

def Settled (job : Job Cpu Mem) : Prop := Spent job ∧ Unplaced job

def AllSettled (repo : MemoryRepository Cpu Mem) : Prop :=
  ∀ id job, repo.find id = some job → Settled job

/-- What LoseWorker makes of a job that was on the worker, with a reading of its clock. -/
def Recovered (clock : Nat → Time) (workerID : String) (job after : Job Cpu Mem) : Prop :=
  match job.state with
  | .scheduled | .running =>
      if job.currentAttempt < job.retryLimit then
        after = { job with
          failureReason := lostReason workerID
          state := .queued
          currentAttempt := job.currentAttempt + 1
          startedAt := none
          assignedWorkerIDs := [] }
      else ∃ reading, after = { job with
        failureReason := lostReason workerID
        state := .failed
        failedAt := some (clock reading) }
  | .cancelRequested => ∃ reading, after = { job with
      state := .cancelled
      completedAt := some (clock reading) }
  | .preempted => after = { job with state := .queued, startedAt := none, assignedWorkerIDs := [] }
  | _ => False

theorem move_unplaced {now : Time} {charged : Bool} {job job' : Job Cpu Mem}
    (moved : Move now charged job job') (spent : Spent job) : Unplaced job' := by
  intro alive idle
  cases moved with
  | requeue | confirmPreempt => rfl
  | retry failed left => exact absurd left (not_lt.mpr (spent failed))
  | cancel | complete | exhaust | confirmCancel => simp [State.terminal] at alive
  | requestCancel | start | preempt => simp [State.recoverable] at idle

theorem empty_settled : AllSettled (empty : MemoryRepository Cpu Mem) := by
  intro id job found
  simp at found

/-- On a worker, a job that is not terminal is in a state LoseWorker acts on. -/
theorem unplaced_recoverable {job : Job Cpu Mem} (unplaced : Unplaced job) {workerID : String}
    (assigned : workerID ∈ job.assignedWorkerIDs) (alive : job.state.terminal = false) :
    job.state.recoverable = true := by
  by_contra idle
  rw [unplaced alive (by simpa using idle)] at assigned
  simp at assigned

theorem recoverable_alive {state : State} (recoverable : state.recoverable = true) :
    state.terminal = false := by
  cases state <;> simp [State.recoverable, State.terminal] at recoverable ⊢

theorem recoverUpdate_recovered (clock : Nat → Time) (reading : Nat) (workerID : String)
    {job job' : Job Cpu Mem} (active : job.state.recoverable = true)
    (accepted : recoverUpdate (clock reading) workerID job = .ok job') :
    Recovered clock workerID job job' := by
  obtain rfl := Except.ok.inj accepted
  unfold Recovered
  cases state : job.state <;> simp only [state, State.recoverable, Bool.false_eq_true] at active
  case cancelRequested => exact ⟨reading, by simp [stopped, state]⟩
  case preempted => simp [stopped, state]
  all_goals
    simp only [reduceCtorEq, true_or, or_true, if_true, applyFailureOrRetry]
    by_cases left : job.currentAttempt < job.retryLimit
    · simp [left]
    · simp [left]

/-- Nothing that was recovered is still on the worker. -/
theorem recovered_released {clock : Nat → Time} {workerID : String} {job after : Job Cpu Mem}
    (recovered : Recovered clock workerID job after) (alive : after.state.terminal = false) :
    after.assignedWorkerIDs = [] := by
  unfold Recovered at recovered
  split at recovered
  case h_1 | h_2 =>
    split at recovered
    · rw [recovered]
    · obtain ⟨reading, rfl⟩ := recovered
      simp [State.terminal] at alive
  case h_3 =>
    obtain ⟨reading, rfl⟩ := recovered
    simp [State.terminal] at alive
  case h_4 => rw [recovered]
  case h_5 => exact recovered.elim

section Steps
variable [Zero Cpu] [LT Cpu] [DecidableLT Cpu] [Zero Mem] [LT Mem] [DecidableLT Mem]

theorem apply_settled {repo : MemoryRepository Cpu Mem} (settled : AllSettled repo) (now : Time)
    (op : Op Cpu Mem) : AllSettled (op.apply now repo) := by
  refine apply_records settled (fun _ _ before => before) ?_ ?_ ?_
  · intro id charged job job' moved before
    exact ⟨move_spent moved, move_unplaced moved before.1⟩
  · intro id workerIDs job _ _ _ _
    exact ⟨fun failed => by simp at failed, fun _ idle => by simp [State.recoverable] at idle⟩
  · intro id input _ _
    exact ⟨fun failed => by simp [newJob] at failed, fun _ _ => rfl⟩

theorem execute_settled {repo : MemoryRepository Cpu Mem} (history : List (Time × Op Cpu Mem))
    (settled : AllSettled repo) (keyed : repo.Keyed) :
    AllSettled (execute repo history) ∧ (execute repo history).Keyed := by
  induction history generalizing repo with
  | nil => exact ⟨settled, keyed⟩
  | cons entry rest ih =>
      exact ih (apply_settled settled entry.1 entry.2) (apply_keyed keyed entry.1 entry.2)

end Steps

/-- The loop updates each job of its list once and no other, and counts them. -/
theorem recoverEach_exact (clock : Nat → Time) (workerID : String) {ids : List String}
    (count : Nat) {repo : MemoryRepository Cpu Mem} (distinct : ids.Nodup)
    (present : ∀ id ∈ ids, ∃ job, repo.find id = some job) :
    ∃ after, recoverEach memoryRepository clock workerID ids count repo =
        ((count + ids.length, none), after) ∧
      (∀ id, id ∉ ids → after.find id = repo.find id) ∧
      ∀ id ∈ ids, ∀ job, repo.find id = some job → ∃ reading job',
        recoverUpdate (clock reading) workerID job = .ok job' ∧ after.find id = some job' := by
  induction ids generalizing count repo with
  | nil => exact ⟨repo, rfl, fun _ _ => rfl, by simp⟩
  | cons first rest ih =>
      obtain ⟨unlisted, tail⟩ := List.nodup_cons.mp distinct
      obtain ⟨record, stored⟩ := present first List.mem_cons_self
      obtain ⟨record', accepted⟩ :
          ∃ record', recoverUpdate (clock count) workerID record = .ok record' := ⟨_, rfl⟩
      have others : ∀ id, id ≠ first → (repo.put first record').find id = repo.find id :=
        fun id other => by rw [find_put, if_neg other]
      have kept : ∀ id ∈ rest, ∃ job, (repo.put first record').find id = some job := by
        intro id member
        rw [others id (fun same => unlisted (same ▸ member))]
        exact present id (List.mem_cons_of_mem first member)
      obtain ⟨after, looped, outside, inside⟩ := ih (count + 1) tail kept
      refine ⟨after, ?_, fun id absent => ?_, fun id member job found => ?_⟩
      · have updated : memoryRepository.update repo first (recoverUpdate (clock count) workerID) =
            (.ok record', repo.put first record') := by
          simp only [memoryRepository, update_stored stored accepted, domain]
        rw [recoverEach, updated, List.length_cons, Nat.add_comm rest.length, ← Nat.add_assoc]
        exact looped
      · obtain ⟨other, behind⟩ := not_or.mp (mt List.mem_cons.mpr absent)
        rw [outside id behind, others id other]
      · rcases List.mem_cons.mp member with rfl | behind
        · obtain rfl := Option.some.inj (stored.symm.trans found)
          refine ⟨count, record', accepted, ?_⟩
          rw [outside id unlisted, find_put, if_pos rfl]
        · refine inside id behind job ?_
          rwa [others id (fun same => unlisted (same ▸ behind))]

/-- What the listing of a call picks, seen from the table of jobs. -/
theorem mem_pending_iff {repo : MemoryRepository Cpu Mem} (keyed : repo.Keyed)
    {workerID id : String} :
    id ∈ (Call.begin repo workerID).pending ↔ ∃ job, repo.find id = some job ∧
      job.state.recoverable = true ∧ workerID ∈ job.assignedWorkerIDs := by
  constructor
  · exact (begin_pending keyed workerID).2 id
  · rintro ⟨job, found, active, assigned⟩
    refine List.mem_map.mpr ⟨job, List.mem_filter.mpr ⟨?_, ?_⟩, keyed id job found⟩
    · exact mem_listActive_iff.mpr ⟨⟨id, found⟩, recoverable_alive active⟩
    · simp [active, assigned]

/-- What a call leaves in the store: the listed jobs updated, the others as they were. -/
structure Leaves (clock : Nat → Time) (workerID : String)
    (repo after : MemoryRepository Cpu Mem) : Prop where
  outside : ∀ id, id ∉ (Call.begin repo workerID).pending → after.find id = repo.find id
  inside : ∀ id ∈ (Call.begin repo workerID).pending, ∀ job, repo.find id = some job →
    ∃ reading job', recoverUpdate (clock reading) workerID job = .ok job' ∧
      after.find id = some job'

theorem loseWorker_leaves {repo : MemoryRepository Cpu Mem} (keyed : repo.Keyed)
    (clock : Nat → Time) (workerID : String) :
    ∃ after, loseWorker memoryRepository repo clock workerID =
        (((Call.begin repo workerID).pending.length, none), after) ∧
      Leaves clock workerID repo after := by
  obtain ⟨distinct, present⟩ := begin_pending keyed workerID
  obtain ⟨after, looped, outside, inside⟩ := recoverEach_exact clock workerID 0 distinct
    fun id member => (present id member).imp fun _ both => both.1
  rw [Nat.zero_add] at looped
  exact ⟨after, looped, outside, inside⟩

section Left
variable {clock : Nat → Time} {workerID : String} {repo after : MemoryRepository Cpu Mem}

theorem leaves_absent (keyed : repo.Keyed) (leaves : Leaves clock workerID repo after)
    {id : String} (missing : repo.find id = none) : after.find id = none := by
  rw [leaves.outside id, missing]
  intro member
  obtain ⟨job, found, _⟩ := (mem_pending_iff keyed).mp member
  rw [missing] at found
  cases found

theorem leaves_recovered (settled : AllSettled repo) (keyed : repo.Keyed)
    (leaves : Leaves clock workerID repo after) {id : String} {job : Job Cpu Mem}
    (found : repo.find id = some job) :
    ∃ job', after.find id = some job' ∧
      if workerID ∈ job.assignedWorkerIDs ∧ job.state.terminal = false
      then Recovered clock workerID job job' else job' = job := by
  by_cases placed : workerID ∈ job.assignedWorkerIDs ∧ job.state.terminal = false
  · have active := unplaced_recoverable (settled id job found).2 placed.1 placed.2
    obtain ⟨reading, job', accepted, stored⟩ :=
      leaves.inside id ((mem_pending_iff keyed).mpr ⟨job, found, active, placed.1⟩) job found
    refine ⟨job', stored, ?_⟩
    rw [if_pos placed]
    exact recoverUpdate_recovered clock reading workerID active accepted
  · refine ⟨job, ?_, by rw [if_neg placed]⟩
    rw [leaves.outside id, found]
    intro member
    obtain ⟨other, known, active, assigned⟩ := (mem_pending_iff keyed).mp member
    obtain rfl := Option.some.inj (found.symm.trans known)
    exact placed ⟨assigned, recoverable_alive active⟩

theorem leaves_clear (settled : AllSettled repo) (keyed : repo.Keyed)
    (leaves : Leaves clock workerID repo after) {id : String} {job' : Job Cpu Mem}
    (stored : after.find id = some job') (alive : job'.state.terminal = false) :
    workerID ∉ job'.assignedWorkerIDs := by
  intro assigned
  cases found : repo.find id with
  | none =>
      rw [leaves_absent keyed leaves found] at stored
      cases stored
  | some job =>
      obtain ⟨other, known, became⟩ := leaves_recovered settled keyed leaves found
      obtain rfl := Option.some.inj (stored.symm.trans known)
      split at became
      · rw [recovered_released became alive] at assigned
        simp at assigned
      · rename_i elsewhere
        exact elsewhere (became ▸ ⟨assigned, alive⟩)

theorem leaves_changed (keyed : repo.Keyed) (leaves : Leaves clock workerID repo after)
    (id : String) :
    id ∈ (Call.begin repo workerID).pending ↔ after.find id ≠ repo.find id := by
  constructor
  · intro member
    obtain ⟨job, found, active, _⟩ := (mem_pending_iff keyed).mp member
    obtain ⟨reading, job', accepted, stored⟩ := leaves.inside id member job found
    rw [stored, found]
    intro same
    exact recoverUpdate_changes accepted active (Option.some.inj same).symm
  · intro changed
    by_contra unlisted
    exact changed (leaves.outside id unlisted)

end Left

/-- With no job left on the worker there is nothing to recover. -/
theorem loseWorker_nothing {repo : MemoryRepository Cpu Mem} {workerID : String}
    (clear : ∀ id job, repo.find id = some job → job.state.terminal = false →
      workerID ∉ job.assignedWorkerIDs) (clock : Nat → Time) :
    loseWorker memoryRepository repo clock workerID = ((0, none), repo) := by
  have none : lostJobs workerID repo.listActive = [] := by
    refine List.filter_eq_nil_iff.mpr fun job listed => ?_
    obtain ⟨⟨id, found⟩, alive⟩ := mem_listActive_iff.mp listed
    simp [clear id job found alive]
  simp only [loseWorker, memoryRepository, none, List.map_nil, recoverEach]

section Results
variable [Zero Cpu] [LT Cpu] [DecidableLT Cpu] [Zero Mem] [LT Mem] [DecidableLT Mem]

theorem loseWorker_recovers_all_once (history : List (Time × Op Cpu Mem)) (clock later : Nat → Time)
    (workerID : String) :
    let repo := execute (empty : MemoryRepository Cpu Mem) history
    ∃ (changed : List String) (after : MemoryRepository Cpu Mem),
      loseWorker memoryRepository repo clock workerID = ((changed.length, none), after) ∧
      changed.Nodup ∧ (∀ id, id ∈ changed ↔ after.find id ≠ repo.find id) ∧
      (∀ id, repo.find id = none → after.find id = none) ∧
      (∀ id job, repo.find id = some job → ∃ job', after.find id = some job' ∧
        if workerID ∈ job.assignedWorkerIDs ∧ job.state.terminal = false
        then Recovered clock workerID job job' else job' = job) ∧
      (∀ id job, after.find id = some job → job.state.terminal = false →
        workerID ∉ job.assignedWorkerIDs) ∧
      loseWorker memoryRepository after later workerID = ((0, none), after) := by
  intro repo
  obtain ⟨settled, keyed⟩ : AllSettled repo ∧ repo.Keyed :=
    execute_settled history empty_settled (Tables.keyed_empty Job.id)
  obtain ⟨after, called, leaves⟩ := loseWorker_leaves keyed clock workerID
  have clear : ∀ id job, after.find id = some job → job.state.terminal = false →
      workerID ∉ job.assignedWorkerIDs := fun id job => leaves_clear settled keyed leaves
  exact ⟨_, after, called, (begin_pending keyed workerID).1, leaves_changed keyed leaves,
    fun id => leaves_absent keyed leaves, fun id job => leaves_recovered settled keyed leaves, clear,
    loseWorker_nothing clear later⟩

end Results

end OrionQueue.WorkerRecovery
