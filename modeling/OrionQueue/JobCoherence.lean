import OrionQueue.JobLifecycle

/-!
The fields of a stored job agree with its state. `Shape` is the inductive form:
it also records that a FAILED job has no attempt left, which is what keeps
Retry, whose clean-up leaves the assignment in place, from ever applying.
-/

namespace OrionQueue.JobCoherence

open Jobs JobStore MemoryRepository JobService JobLifecycle

variable {Cpu Mem : Type}

def Shape (job : Job Cpu Mem) : Prop :=
  match job.state with
  | .queued => job.assignedWorkerIDs = [] ∧ job.startedAt = none ∧ job.completedAt = none ∧
      job.failedAt = none
  | .scheduled => job.assignedWorkerIDs.length = 1 ∧ job.startedAt = none ∧
      job.completedAt = none ∧ job.failedAt = none
  | .running | .cancelRequested => job.assignedWorkerIDs.length = 1 ∧ job.startedAt.isSome ∧
      job.completedAt = none ∧ job.failedAt = none
  | .preempted => job.assignedWorkerIDs.length = 1 ∧ job.startedAt.isSome ∧
      job.completedAt = none ∧ job.failedAt = none ∧ job.preemptible = true
  | .succeeded => job.startedAt.isSome ∧ job.completedAt.isSome ∧ job.failedAt = none
  | .failed => job.failedAt.isSome ∧ job.completedAt = none ∧ job.retryLimit ≤ job.currentAttempt
  | .cancelled => job.completedAt.isSome ∧ job.failedAt = none
  | .checkpointing | .retrying | .lost => False

/-- The recorded instants are in order and none lies after `clock`. -/
structure Timed (clock : Time) (job : Job Cpu Mem) : Prop where
  created : job.createdAt ≤ clock
  started : ∀ instant, job.startedAt = some instant → job.createdAt ≤ instant ∧ instant ≤ clock
  completed : ∀ instant, job.completedAt = some instant → job.createdAt ≤ instant ∧
    ∀ begun, job.startedAt = some begun → begun ≤ instant
  failed : ∀ instant, job.failedAt = some instant → job.createdAt ≤ instant ∧
    ∀ begun, job.startedAt = some begun → begun ≤ instant

theorem move_shape {now : Time} {charged : Bool} {job job' : Job Cpu Mem}
    (moved : Move now charged job job') (shape : Shape job) : Shape job' := by
  cases moved with
  | cancel idle =>
      rcases idle with state | state | state <;> simp_all [Shape]
  | requestCancel active =>
      rcases active with state | state <;> simp_all [Shape]
  | start placed => simp_all [Shape]
  | complete running => simp_all [Shape]
  | requeue reason active left =>
      rcases active with state | state <;> simp_all [Shape]
  | exhaust reason active spent =>
      rcases active with state | state <;> simp_all [Shape]
  | confirmCancel stopping => simp_all [Shape]
  | confirmPreempt stopping => simp_all [Shape]
  | preempt reason running allowed => simp_all [Shape]
  | retry failed left =>
      -- A FAILED job has used its last attempt, so Retry never gets here.
      simp only [Shape, failed] at shape
      omega

theorem move_timed {now clock : Time} {charged : Bool} {job job' : Job Cpu Mem}
    (moved : Move now charged job job') (shape : Shape job) (timed : Timed clock job)
    (later : clock ≤ now) : Timed now job' := by
  obtain ⟨created, started, completed, failed⟩ := timed
  have kept : ∀ instant, job.startedAt = some instant → job.createdAt ≤ instant ∧ instant ≤ now :=
    fun instant set => ⟨(started instant set).1, (started instant set).2.trans later⟩
  have ended : job.createdAt ≤ now ∧ ∀ begun, job.startedAt = some begun → begun ≤ now :=
    ⟨created.trans later, fun begun set => (kept begun set).2⟩
  cases moved with
  | cancel idle =>
      exact ⟨ended.1, kept, fun instant set => Option.some.inj set ▸ ended, failed⟩
  | requestCancel active => exact ⟨ended.1, kept, completed, failed⟩
  | start placed =>
      -- A SCHEDULED job has neither end instant that the new start could follow.
      simp only [Shape, placed] at shape
      refine ⟨ended.1, fun instant set => ?_, ?_, ?_⟩
      · obtain rfl : now = instant := Option.some.inj set
        exact ⟨ended.1, le_refl now⟩
      · simp [shape]
      · simp [shape]
  | complete running =>
      exact ⟨ended.1, kept, fun instant set => Option.some.inj set ▸ ended, failed⟩
  | requeue reason active left =>
      refine ⟨ended.1, by simp, fun instant set => ?_, fun instant set => ?_⟩
      · exact ⟨(completed instant set).1, by simp⟩
      · exact ⟨(failed instant set).1, by simp⟩
  | exhaust reason active spent =>
      exact ⟨ended.1, kept, completed, fun instant set => Option.some.inj set ▸ ended⟩
  | confirmCancel stopping =>
      exact ⟨ended.1, kept, fun instant set => Option.some.inj set ▸ ended, failed⟩
  | confirmPreempt stopping =>
      refine ⟨ended.1, by simp, fun instant set => ?_, fun instant set => ?_⟩
      · exact ⟨(completed instant set).1, by simp⟩
      · exact ⟨(failed instant set).1, by simp⟩
  | preempt reason running allowed => exact ⟨ended.1, kept, completed, failed⟩
  | retry exhausted left => exact ⟨ended.1, by simp, by simp, by simp⟩

theorem timed_later {clock now : Time} {job : Job Cpu Mem} (timed : Timed clock job)
    (later : clock ≤ now) : Timed now job where
  created := timed.created.trans later
  started instant set := ⟨(timed.started instant set).1, (timed.started instant set).2.trans later⟩
  completed := timed.completed
  failed := timed.failed

def Shaped (repo : MemoryRepository Cpu Mem) : Prop :=
  ∀ id job, repo.find id = some job → Shape job

def Timely (clock : Time) (repo : MemoryRepository Cpu Mem) : Prop :=
  ∀ id job, repo.find id = some job → Timed clock job

theorem empty_shaped : Shaped (empty : MemoryRepository Cpu Mem) := by
  intro id job found
  simp at found

section Steps
variable [Zero Cpu] [LT Cpu] [DecidableLT Cpu] [Zero Mem] [LT Mem] [DecidableLT Mem]

theorem apply_shaped {repo : MemoryRepository Cpu Mem} {op : Op Cpu Mem} (shaped : Shaped repo)
    (single : SinglePlacement op) (now : Time) : Shaped (op.apply now repo) := by
  refine apply_records shaped (fun _ _ shape => shape) (fun _ _ _ _ => move_shape) ?_ ?_
  · intro id workerIDs job isPlace _ queued shape
    simp only [Shape, queued] at shape
    subst isPlace
    exact ⟨single, shape.2⟩
  · intro id input _ _
    simp [Shape, newJob]

theorem apply_timely {clock now : Time} {repo : MemoryRepository Cpu Mem} {op : Op Cpu Mem}
    (shaped : Shaped repo) (timely : Timely clock repo) (later : clock ≤ now) :
    Timely now (op.apply now repo) := by
  have before : ∀ id job, repo.find id = some job → Shape job ∧ Timed clock job :=
    fun id job found => ⟨shaped id job found, timely id job found⟩
  refine apply_records before (fun _ job fine => timed_later fine.2 later) ?_ ?_ ?_
  · intro id charged job job' moved fine
    exact move_timed moved fine.1 fine.2 later
  · intro id workerIDs job _ _ _ fine
    obtain ⟨created, started, completed, failed⟩ := timed_later fine.2 later
    exact ⟨created, started, completed, failed⟩
  · intro id input _ _
    exact ⟨by simp [newJob], by simp [newJob], by simp [newJob], by simp [newJob]⟩

theorem execute_shaped {repo : MemoryRepository Cpu Mem} {history : List (Time × Op Cpu Mem)}
    (shaped : Shaped repo) (single : ∀ entry ∈ history, SinglePlacement entry.2) :
    Shaped (execute repo history) := by
  induction history generalizing repo with
  | nil => exact shaped
  | cons entry rest ih =>
      exact ih (apply_shaped shaped (single entry (by simp)) entry.1)
        (fun other member => single other (by simp [member]))

/-- The clock never goes back. -/
theorem execute_timely {clock : Time} {repo : MemoryRepository Cpu Mem}
    {history : List (Time × Op Cpu Mem)} (shaped : Shaped repo) (timely : Timely clock repo)
    (ordered : (clock :: history.map Prod.fst).Pairwise (· ≤ ·))
    (single : ∀ entry ∈ history, SinglePlacement entry.2) :
    ∃ last, Timely last (execute repo history) := by
  induction history generalizing clock repo with
  | nil => exact ⟨clock, timely⟩
  | cons entry rest ih =>
      rw [List.map_cons, List.pairwise_cons] at ordered
      exact ih (apply_shaped shaped (single entry (by simp)) entry.1)
        (apply_timely shaped timely (ordered.1 entry.1 (by simp))) ordered.2
        (fun other member => single other (by simp [member]))

theorem execute_empty_timely {history : List (Time × Op Cpu Mem)}
    (ordered : (history.map Prod.fst).Pairwise (· ≤ ·))
    (single : ∀ entry ∈ history, SinglePlacement entry.2) :
    ∃ last, Timely last (execute (empty : MemoryRepository Cpu Mem) history) := by
  have timely : ∀ clock, Timely clock (empty : MemoryRepository Cpu Mem) := by
    intro clock id job found
    simp at found
  cases history with
  | nil => exact ⟨0, timely 0⟩
  | cons entry rest =>
      -- The store is empty until the first step, so its clock may start there.
      refine execute_timely empty_shaped (timely entry.1)
        (List.pairwise_cons.mpr ⟨?_, ordered⟩) single
      intro instant member
      rcases List.mem_cons.mp member with rfl | after
      · exact le_refl _
      · exact (List.pairwise_cons.mp ordered).1 instant after

end Steps

/-- What the fields of a stored job promise in each state. -/
structure Coherent (job : Job Cpu Mem) : Prop where
  reachable : job.state ∈ [State.queued, .scheduled, .running, .cancelRequested, .preempted,
    .succeeded, .failed, .cancelled]
  queued : job.state = .queued → job.assignedWorkerIDs = [] ∧ job.startedAt = none ∧
    job.completedAt = none ∧ job.failedAt = none
  scheduled : job.state = .scheduled → job.assignedWorkerIDs.length = 1 ∧ job.startedAt = none
  executing : job.state ∈ [State.running, .cancelRequested, .preempted] →
    job.assignedWorkerIDs.length = 1 ∧ job.startedAt.isSome ∧ job.completedAt = none ∧
      job.failedAt = none
  preempted : job.state = .preempted → job.preemptible = true
  succeeded : job.state = .succeeded → job.startedAt.isSome ∧ job.completedAt.isSome ∧
    job.failedAt = none
  failed : job.state = .failed → job.failedAt.isSome ∧ job.completedAt = none
  cancelled : job.state = .cancelled → job.completedAt.isSome ∧ job.failedAt = none
  started_order : ∀ begun, job.startedAt = some begun → job.createdAt ≤ begun
  completed_order : ∀ instant, job.completedAt = some instant →
    job.createdAt ≤ instant ∧ ∀ begun, job.startedAt = some begun → begun ≤ instant
  failed_order : ∀ instant, job.failedAt = some instant →
    job.createdAt ≤ instant ∧ ∀ begun, job.startedAt = some begun → begun ≤ instant

theorem shape_coherent {clock : Time} {job : Job Cpu Mem} (shape : Shape job)
    (timed : Timed clock job) : Coherent job := by
  refine ⟨?_, ?_, ?_, ?_, ?_, ?_, ?_, ?_, fun begun set => (timed.started begun set).1,
    timed.completed, timed.failed⟩ <;>
  cases state : job.state <;> simp_all [Shape]

section Results
variable [Zero Cpu] [LT Cpu] [DecidableLT Cpu] [Zero Mem] [LT Mem] [DecidableLT Mem]

theorem execute_coherent (history : List (Time × Op Cpu Mem))
    (ordered : (history.map Prod.fst).Pairwise (· ≤ ·))
    (single : ∀ entry ∈ history, SinglePlacement entry.2) (id : String) (job : Job Cpu Mem)
    (found : (execute (empty : MemoryRepository Cpu Mem) history).find id = some job) :
    Coherent job := by
  obtain ⟨last, timely⟩ := execute_empty_timely ordered single
  exact shape_coherent (execute_shaped empty_shaped single id job found) (timely id job found)

end Results

/-- Lost on its first worker, preempted on the second, cancelled on the third
placement. -/
def turbulentHistory : List (Time × Op Int Int) :=
  [(1, .submit "job-1" (submission ⟨1, 0, 2, 1024⟩)), (2, .assignToWorkers "job-1" ["worker-1"]),
    (3, .start "job-1"), (4, .recover "worker-1" "job-1"),
    (5, .assignToWorkers "job-1" ["worker-2"]), (6, .start "job-1"),
    (6, .preempt "job-1" "higher priority"), (8, .reportStopped "job-1"),
    (9, .assignToWorkers "job-1" ["worker-2"]), (9, .start "job-1"), (12, .cancel "job-1")]

theorem turbulentHistory_coherent :
    ∃ job, (execute empty turbulentHistory).find "job-1" = some job ∧
      job.state = .cancelRequested ∧ job.currentAttempt = 2 ∧ Coherent job :=
  ⟨_, by rfl, rfl, rfl, execute_coherent turbulentHistory (by decide)
    (by simp [turbulentHistory, SinglePlacement]) "job-1" _ (by rfl)⟩

end OrionQueue.JobCoherence
