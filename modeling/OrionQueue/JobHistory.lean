import OrionQueue.JobLifecycle
import OrionQueue.Repositories
import OrionQueue.Runs

/-!
The job store over whole histories, with a generator that never hands out an ID
in use. `Follows` relates a record to what later steps make of it: what the
client submitted stays, attempts only go up, and a terminal record is final.
That FAILED is final too rests on `Spent`: a job fails for good only when it has
no attempt left, so Retry never finds one to give back.
-/

namespace OrionQueue.JobHistory

open Jobs JobStore MemoryRepository JobService JobLifecycle Runs
open Repositories (memoryRepository recoverEach domain)

variable {Cpu Mem : Type}

/-- What the client asked for, read back from the record. -/
def specification (job : Job Cpu Mem) : SubmitInput Cpu Mem where
  name := job.name
  owner := job.owner
  image := job.image
  command := job.command
  resources := job.resources
  priority := job.priority
  preemptible := job.preemptible
  retryLimit := job.retryLimit
  timeoutSeconds := job.timeoutSeconds
  checkpointIntervalSeconds := job.checkpointIntervalSeconds
  submissionID := job.submissionID

structure Follows (job job' : Job Cpu Mem) : Prop where
  id : job'.id = job.id
  specification : specification job' = specification job
  created : job'.createdAt = job.createdAt
  attempt : job.currentAttempt ≤ job'.currentAttempt
  frozen : job.state.terminal = true → job' = job

def Spent (job : Job Cpu Mem) : Prop := job.state = .failed → job.retryLimit ≤ job.currentAttempt

theorem follows_refl (job : Job Cpu Mem) : Follows job job :=
  ⟨rfl, rfl, rfl, le_rfl, fun _ => rfl⟩

theorem follows_trans {first second third : Job Cpu Mem} (left : Follows first second)
    (right : Follows second third) : Follows first third where
  id := right.id.trans left.id
  specification := right.specification.trans left.specification
  created := right.created.trans left.created
  attempt := left.attempt.trans right.attempt
  frozen terminal := by
    have same := left.frozen terminal
    subst same
    exact right.frozen terminal

/-- A terminal record moves only by Retry, and not even by that once it is spent. -/
theorem move_active {now : Time} {charged : Bool} {job job' : Job Cpu Mem}
    (moved : Move now charged job job') (spent : Spent job) : job.state.terminal = false := by
  cases moved with
  | cancel idle => rcases idle with state | state | state <;> simp [state, State.terminal]
  | requestCancel active => rcases active with state | state <;> simp [state, State.terminal]
  | requeue reason active left => rcases active with state | state <;> simp [state, State.terminal]
  | exhaust reason active gone => rcases active with state | state <;> simp [state, State.terminal]
  | start state | complete state | confirmCancel state | confirmPreempt state =>
      simp [state, State.terminal]
  | preempt reason state allowed => simp [state, State.terminal]
  | retry failed left => exact absurd left (not_lt.mpr (spent failed))

theorem move_follows {now : Time} {charged : Bool} {job job' : Job Cpu Mem}
    (moved : Move now charged job job') (spent : Spent job) : Follows job job' := by
  have active := move_active moved spent
  have frozen : job.state.terminal = true → job' = job := by simp [active]
  cases moved with
  | requeue | retry => exact ⟨rfl, rfl, rfl, Int.le_add_one le_rfl, frozen⟩
  | _ => exact ⟨rfl, rfl, rfl, le_rfl, frozen⟩

theorem move_spent {now : Time} {charged : Bool} {job job' : Job Cpu Mem}
    (moved : Move now charged job job') : Spent job' := by
  cases moved with
  | exhaust reason active gone => exact fun _ => gone
  | _ => exact fun failed => by simp at failed

def AllSpent (repo : MemoryRepository Cpu Mem) : Prop :=
  ∀ id job, repo.find id = some job → Spent job

theorem empty_spent : AllSpent (empty : MemoryRepository Cpu Mem) := by
  intro id job found
  simp at found

/-- The generator does not hand out an ID that is in use. -/
def fresh (repo : MemoryRepository Cpu Mem) : Op Cpu Mem → Bool
  | .submit id _ => (repo.find id).isNone
  | _ => true

theorem fresh_unused {repo : MemoryRepository Cpu Mem} {op : Op Cpu Mem}
    (unused : fresh repo op = true) (id : String) (input : SubmitInput Cpu Mem)
    (isSubmit : op = .submit id input) : repo.find id = none := by
  subst isSubmit
  simpa [fresh] using unused

/-- The Submit that a record goes back to is part of the history. -/
def Submitted (history : List (Time × Op Cpu Mem)) (id : String) (job : Job Cpu Mem) : Prop :=
  job.id = id ∧ (job.createdAt, Op.submit id (specification job)) ∈ history

section Steps
variable [Zero Cpu] [LT Cpu] [DecidableLT Cpu] [Zero Mem] [LT Mem] [DecidableLT Mem]

def step (repo : MemoryRepository Cpu Mem) (entry : Time × Op Cpu Mem) :
    Option (MemoryRepository Cpu Mem) :=
  if fresh repo entry.2 then some (entry.2.apply entry.1 repo) else none

theorem step_some {repo after : MemoryRepository Cpu Mem} {entry : Time × Op Cpu Mem}
    (stepped : step repo entry = some after) :
    fresh repo entry.2 = true ∧ entry.2.apply entry.1 repo = after := by
  unfold step at stepped
  split at stepped
  · exact ⟨by assumption, Option.some.inj stepped⟩
  · cases stepped

theorem apply_spent {repo : MemoryRepository Cpu Mem} (spent : AllSpent repo) (now : Time)
    (op : Op Cpu Mem) : AllSpent (op.apply now repo) := by
  refine apply_records spent (fun _ _ before => before) (fun _ _ _ _ moved _ => move_spent moved)
    ?_ ?_
  · intro id workerIDs job _ _ _ _ failed
    simp at failed
  · intro id input _ _ failed
    simp [newJob] at failed

theorem run_spent {repo repo' : MemoryRepository Cpu Mem} {history : List (Time × Op Cpu Mem)}
    (spent : AllSpent repo) (ran : run step repo history = some repo') : AllSpent repo' := by
  refine run_invariant (fun state entry next before stepped => ?_) ran spent
  obtain ⟨_, rfl⟩ := step_some stepped
  exact apply_spent before entry.1 entry.2

/-- One step, seen from one record. -/
theorem apply_history {repo : MemoryRepository Cpu Mem} (now : Time) {op : Op Cpu Mem} {id : String}
    {job : Job Cpu Mem} (found : repo.find id = some job) (spent : Spent job)
    (unused : ∀ input, op = .submit id input → repo.find id = none) :
    ∃ job', (op.apply now repo).find id = some job' ∧ Follows job job' := by
  refine apply_follows found unused (follows_refl job)
    (fun charged job' moved => move_follows moved spent) ?_
  intro workerIDs _ queued
  exact ⟨rfl, rfl, rfl, le_rfl, fun terminal => by simp [queued, State.terminal] at terminal⟩

theorem run_follows {repo repo' : MemoryRepository Cpu Mem} {history : List (Time × Op Cpu Mem)}
    (spent : AllSpent repo) (ran : run step repo history = some repo') {id : String}
    {job : Job Cpu Mem} (found : repo.find id = some job) :
    ∃ job', repo'.find id = some job' ∧ Follows job job' := by
  induction history generalizing repo job with
  | nil =>
      obtain rfl : repo = repo' := by simpa [run] using ran
      exact ⟨job, found, follows_refl job⟩
  | cons entry rest ih =>
      obtain ⟨next, stepped, tail⟩ := run_cons.mp ran
      obtain ⟨unused, rfl⟩ := step_some stepped
      obtain ⟨middle, between, first⟩ := apply_history entry.1 found (spent id job found)
        (fresh_unused unused id)
      obtain ⟨job', last, second⟩ := ih (apply_spent spent entry.1 entry.2) tail between
      exact ⟨job', last, follows_trans first second⟩

/-- Every record goes back to a Submit, whose instant and whose input it keeps. -/
theorem run_submitted (past : List (Time × Op Cpu Mem)) {history : List (Time × Op Cpu Mem)}
    {repo repo' : MemoryRepository Cpu Mem}
    (before : ∀ id job, repo.find id = some job → Submitted past id job ∧ Spent job)
    (ran : run step repo history = some repo') :
    ∀ id job, repo'.find id = some job → Submitted (past ++ history) id job := by
  induction history generalizing repo past with
  | nil =>
      obtain rfl : repo = repo' := by simpa [run] using ran
      simpa using fun id job found => (before id job found).1
  | cons entry rest ih =>
      obtain ⟨next, stepped, tail⟩ := run_cons.mp ran
      obtain ⟨_, rfl⟩ := step_some stepped
      have after : ∀ id job, (entry.2.apply entry.1 repo).find id = some job →
          Submitted (past ++ [entry]) id job ∧ Spent job := by
        refine apply_records before ?_ ?_ ?_ ?_
        · rintro id job ⟨⟨named, submitted⟩, spent⟩
          exact ⟨⟨named, List.mem_append_left _ submitted⟩, spent⟩
        · rintro id charged job job' moved ⟨⟨named, submitted⟩, spent⟩
          have follows := move_follows moved spent
          refine ⟨⟨follows.id.trans named, List.mem_append_left _ ?_⟩, move_spent moved⟩
          rw [follows.created, follows.specification]
          exact submitted
        · rintro id workerIDs job _ _ _ ⟨⟨named, submitted⟩, _⟩
          exact ⟨⟨named, List.mem_append_left _ submitted⟩, fun failed => by simp at failed⟩
        · intro id input isSubmit _
          refine ⟨⟨rfl, List.mem_append_right _ (List.mem_singleton.mpr ?_)⟩,
            fun failed => by simp [newJob] at failed⟩
          exact Prod.ext rfl isSubmit.symm
      simpa using ih (past ++ [entry]) after tail

/-- What the caller of a locked step gets back. -/
def answer (now : Time) (repo : MemoryRepository Cpu Mem) :
    Op Cpu Mem → Except JobError (Job Cpu Mem)
  | .submit id input => (submit repo now id input).1
  | .cancel id => (cancel repo now id).1
  | .assignToWorkers id workerIDs => (assignToWorkers repo id workerIDs).1
  | .start id => (start repo now id).1
  | .complete id => (complete repo now id).1
  | .fail id reason => (fail repo now id reason).1
  | .reportStopped id => (reportStopped repo now id).1
  | .preempt id reason => (preempt repo id reason).1
  | .recover workerID id => (recover repo now workerID id).1
  | .retry id => (retry repo id).1

theorem error_unchanged {now : Time} {repo : MemoryRepository Cpu Mem} {op : Op Cpu Mem}
    {problem : JobError} (refused : answer now repo op = .error problem) :
    op.apply now repo = repo := by
  cases op with
  | submit id input =>
      simp only [answer, submit] at refused
      simp only [Op.apply, submit]
      cases checked : validateSubmit input with
      | error _ => rfl
      | ok _ => simp [checked] at refused
  | _ => exact update_error refused

end Steps

/-- A LoseWorker call that stops with an error has touched the jobs it counted and
no others. -/
theorem recoverEach_error {clock : Nat → Time} {workerID : String} {ids : List String}
    {recovered count : Nat} {failure : String × JobRepository.RepositoryError}
    {repo after : MemoryRepository Cpu Mem}
    (stopped : recoverEach memoryRepository clock workerID ids recovered repo =
      ((count, some failure), after)) :
    ∃ done, done <+: ids ∧ count = recovered + done.length ∧
      ∀ key, key ∉ done → after.find key = repo.find key := by
  induction ids generalizing recovered repo with
  | nil => simp [recoverEach] at stopped
  | cons id rest ih =>
      rcases update_cases repo id (recoverUpdate (clock recovered) workerID) with
        ⟨problem, same⟩ | ⟨job, updated, found, accepted, stored⟩
      · simp only [recoverEach, memoryRepository, same, domain, Prod.mk.injEq] at stopped
        obtain ⟨⟨rfl, _⟩, rfl⟩ := stopped
        exact ⟨[], List.nil_prefix, rfl, fun _ _ => rfl⟩
      · simp only [recoverEach, memoryRepository, stored, domain] at stopped
        obtain ⟨done, leading, counted, others⟩ := ih stopped
        refine ⟨id :: done, List.cons_prefix_cons.mpr ⟨rfl, leading⟩, ?_, fun key outside => ?_⟩
        · simp only [List.length_cons]
          omega
        · have other : key ≠ id := fun same => outside (same ▸ List.mem_cons_self)
          rw [others key (fun member => outside (List.mem_cons_of_mem id member)), find_put,
            if_neg other]

section Results
variable [Zero Cpu] [LT Cpu] [DecidableLT Cpu] [Zero Mem] [LT Mem] [DecidableLT Mem]

theorem history_append_only (past later : List (Time × Op Cpu Mem))
    (repo repo' : MemoryRepository Cpu Mem) (ran : run step empty past = some repo)
    (continued : run step repo later = some repo') :
    (∀ id job, repo.find id = some job →
      Submitted past id job ∧ ∃ job', repo'.find id = some job' ∧ Follows job job') ∧
    (∀ now op problem, answer now repo' op = .error problem → op.apply now repo' = repo') ∧
    ∀ clock workerID ids count failure after,
      recoverEach memoryRepository clock workerID ids 0 repo' = ((count, some failure), after) →
        ∃ done, done <+: ids ∧ count = done.length ∧
          ∀ key, key ∉ done → after.find key = repo'.find key := by
  have spent : AllSpent repo := run_spent empty_spent ran
  have submitted : ∀ id job, repo.find id = some job → Submitted past id job := by
    simpa using run_submitted [] (fun id job found => by simp at found) ran
  refine ⟨fun id job found => ⟨submitted id job found, run_follows spent continued found⟩,
    fun now op problem => error_unchanged, ?_⟩
  intro clock workerID ids count failure after stopped
  obtain ⟨done, leading, counted, others⟩ := recoverEach_error stopped
  exact ⟨done, leading, by simpa using counted, others⟩

end Results

/-- job-1 fails for good on its second attempt. -/
def failedHistory : List (Time × Op Int Int) :=
  [(1, .submit "job-1" (submission ⟨1, 0, 2, 1024⟩)), (2, .assignToWorkers "job-1" ["worker-1"]),
    (3, .start "job-1"), (4, .fail "job-1" "exit 1"), (5, .assignToWorkers "job-1" ["worker-1"]),
    (6, .start "job-1"), (7, .fail "job-1" "exit 1")]

/-- A recovery from an old listing, a retry, a cancellation and a late report. -/
def lateHistory : List (Time × Op Int Int) :=
  [(8, .recover "worker-1" "job-1"), (9, .retry "job-1"), (10, .cancel "job-1"),
    (11, .reportStopped "job-1"), (12, .start "job-1")]

theorem lateHistory_changes_nothing : ∃ repo repo' job job',
    run step empty failedHistory = some repo ∧ run step repo lateHistory = some repo' ∧
      repo.find "job-1" = some job ∧ job.state = .failed ∧ repo'.find "job-1" = some job' ∧
      job' = job := by
  obtain ⟨repo, ran⟩ : ∃ repo, run step empty failedHistory = some repo := ⟨_, rfl⟩
  obtain ⟨repo', continued⟩ : ∃ repo', run step repo lateHistory = some repo' := by
    cases ran
    exact ⟨_, rfl⟩
  obtain ⟨job, found, failed⟩ : ∃ job, repo.find "job-1" = some job ∧ job.state = .failed := by
    cases ran
    exact ⟨_, rfl, rfl⟩
  obtain ⟨_, job', later, follows⟩ :=
    (history_append_only failedHistory lateHistory repo repo' ran continued).1 "job-1" job found
  exact ⟨repo, repo', job, job', ran, continued, found, failed, later,
    follows.frozen (by simp [failed, State.terminal])⟩

end OrionQueue.JobHistory
