import OrionQueue.JobService

/-!
What one locked step of `jobs.Service` can do to the store, said once. `Move`
lists every change of a record except a placement; `Change` says that a step
leaves all records alone, moves one, places one or creates one. The invariants
of every later module are case analyses on these two.
-/

namespace OrionQueue.JobLifecycle

open Jobs JobStore MemoryRepository JobService

variable {Cpu Mem : Type}

/-- `charged` marks the moves that use up an attempt. -/
inductive Move (now : Time) : Bool → Job Cpu Mem → Job Cpu Mem → Prop where
  | cancel {job} (idle : job.state = .queued ∨ job.state = .retrying ∨ job.state = .scheduled) :
      Move now false job { job with state := .cancelled, completedAt := some now }
  | requestCancel {job} (active : job.state = .running ∨ job.state = .checkpointing) :
      Move now false job { job with state := .cancelRequested }
  | start {job} (placed : job.state = .scheduled) :
      Move now false job { job with state := .running, startedAt := some now }
  | complete {job} (running : job.state = .running) :
      Move now false job { job with state := .succeeded, completedAt := some now }
  | requeue {job} (reason : String) (active : job.state = .scheduled ∨ job.state = .running)
      (left : job.currentAttempt < job.retryLimit) :
      Move now true job { job with
        failureReason := reason
        state := .queued
        currentAttempt := job.currentAttempt + 1
        startedAt := none
        assignedWorkerIDs := [] }
  | exhaust {job} (reason : String) (active : job.state = .scheduled ∨ job.state = .running)
      (spent : job.retryLimit ≤ job.currentAttempt) :
      Move now true job { job with failureReason := reason, state := .failed, failedAt := some now }
  | confirmCancel {job} (stopping : job.state = .cancelRequested) :
      Move now false job { job with state := .cancelled, completedAt := some now }
  | confirmPreempt {job} (stopping : job.state = .preempted) :
      Move now false job { job with state := .queued, startedAt := none, assignedWorkerIDs := [] }
  | preempt {job} (reason : String) (running : job.state = .running)
      (allowed : job.preemptible = true) :
      Move now false job { job with state := .preempted, failureReason := reason }
  | retry {job} (failed : job.state = .failed) (left : job.currentAttempt < job.retryLimit) :
      Move now false job { job with
        state := .queued
        currentAttempt := job.currentAttempt + 1
        failureReason := ""
        startedAt := none
        completedAt := none
        failedAt := none }

/-- A placement hands the job to exactly one worker, as RunOnce calls it. -/
def SinglePlacement : Op Cpu Mem → Prop
  | .assignToWorkers _ workerIDs => workerIDs.length = 1
  | _ => True

/-- What a step means for the retry account of one job. -/
inductive Entry where
  | untouched | failure | creation
  deriving DecidableEq

/-- A failure of job `id` is a Fail that finds it RUNNING, or a LoseWorker update
that finds it SCHEDULED or RUNNING. A Submit that inserts opens a new account. -/
def entry [Zero Cpu] [LT Cpu] [DecidableLT Cpu] [Zero Mem] [LT Mem] [DecidableLT Mem]
    (repo : MemoryRepository Cpu Mem) : Op Cpu Mem → String → Entry
  | .fail id _, other =>
      if other = id ∧ (repo.find id).any (fun job => job.state = .running) then .failure
      else .untouched
  | .recover _ id, other =>
      if other = id ∧ (repo.find id).any (fun job => job.state = .scheduled ∨ job.state = .running)
      then .failure else .untouched
  | .submit id input, other =>
      if other = id ∧ (validateSubmit input).isOk ∧ (repo.bySubmission input.submissionID).isNone
      then .creation else .untouched
  | _, _ => .untouched

def Stores (repo after : MemoryRepository Cpu Mem) (id : String) (job : Job Cpu Mem) : Prop :=
  ∀ other, after.find other = if other = id then some job else repo.find other

theorem stores_own {repo after : MemoryRepository Cpu Mem} {id : String} {job : Job Cpu Mem}
    (stored : Stores repo after id job) : after.find id = some job := by
  rw [stored id, if_pos rfl]

theorem stores_other {repo after : MemoryRepository Cpu Mem} {id other : String}
    {job : Job Cpu Mem} (stored : Stores repo after id job) (different : other ≠ id) :
    after.find other = repo.find other := by
  rw [stored other, if_neg different]

theorem stores_cases {repo after : MemoryRepository Cpu Mem} {id key : String}
    {job record : Job Cpu Mem} (stored : Stores repo after id job)
    (found : after.find key = some record) :
    (key = id ∧ job = record) ∨ (key ≠ id ∧ repo.find key = some record) := by
  by_cases own : key = id
  · subst own
    exact Or.inl ⟨rfl, Option.some.inj ((stores_own stored).symm.trans found)⟩
  · exact Or.inr ⟨own, (stores_other stored own).symm.trans found⟩

theorem put_stores (repo : MemoryRepository Cpu Mem) (id : String) (job : Job Cpu Mem) :
    Stores repo (repo.put id job) id job :=
  fun other => find_put repo id other job

theorem put_same {repo : MemoryRepository Cpu Mem} {id : String} {job : Job Cpu Mem}
    (found : repo.find id = some job) (other : String) :
    (repo.put id job).find other = repo.find other := by
  rw [find_put]
  by_cases same : other = id
  · simp [same, found]
  · simp [same]

theorem stores_keyed {repo after : MemoryRepository Cpu Mem} {id : String} {job : Job Cpu Mem}
    (keyed : repo.Keyed) (stored : Stores repo after id job) (own : job.id = id) : after.Keyed := by
  intro other record found
  rcases stores_cases stored found with ⟨rfl, rfl⟩ | ⟨_, known⟩
  · exact own
  · exact keyed other record known

theorem move_fixed {now : Time} {charged : Bool} {job job' : Job Cpu Mem}
    (moved : Move now charged job job') : job'.id = job.id ∧ job'.resources = job.resources := by
  cases moved <;> exact ⟨rfl, rfl⟩

/-- While a job stays in the states LoseWorker acts on, it stays where it is. -/
theorem move_recoverable {now : Time} {charged : Bool} {job job' : Job Cpu Mem}
    (moved : Move now charged job job') (before : job.state.recoverable = true)
    (after : job'.state.recoverable = true) : job'.assignedWorkerIDs = job.assignedWorkerIDs := by
  cases moved with
  | retry failed left => simp [failed, State.recoverable] at before
  | requeue | confirmPreempt => simp [State.recoverable] at after
  | _ => rfl

theorem applyFailureOrRetry_move {job : Job Cpu Mem} (reason : String) (now : Time)
    (active : job.state = .scheduled ∨ job.state = .running) :
    Move now true job (applyFailureOrRetry job reason now) := by
  unfold applyFailureOrRetry
  split
  · exact .requeue reason active (by assumption)
  · exact .exhaust reason active (by omega)

theorem stopped_move (now : Time) (job : Job Cpu Mem) :
    stopped now job = job ∨ Move now false job (stopped now job) := by
  unfold stopped
  split
  · exact Or.inr (.confirmCancel (by assumption))
  · exact Or.inr (.confirmPreempt (by assumption))
  · exact Or.inl rfl

theorem cancelUpdate_move (now : Time) (job job' : Job Cpu Mem)
    (accepted : cancelUpdate now job = .ok job') : job' = job ∨ Move now false job job' := by
  unfold cancelUpdate at accepted
  cases state : job.state <;> simp only [state] at accepted <;> cases accepted
  all_goals first
    | exact Or.inl rfl
    | exact Or.inr (.cancel (by simp [state]))
    | exact Or.inr (.requestCancel (by simp [state]))

theorem startUpdate_move (now : Time) (job job' : Job Cpu Mem)
    (accepted : startUpdate now job = .ok job') : job' = job ∨ Move now false job job' := by
  unfold startUpdate at accepted
  split at accepted <;> cases accepted
  exact Or.inr (.start (by assumption))

theorem completeUpdate_move (now : Time) (job job' : Job Cpu Mem)
    (accepted : completeUpdate now job = .ok job') : job' = job ∨ Move now false job job' := by
  unfold completeUpdate at accepted
  split at accepted <;> cases accepted
  exact Or.inr (.complete (by assumption))

theorem preemptUpdate_move (now : Time) (reason : String) (job job' : Job Cpu Mem)
    (accepted : preemptUpdate reason job = .ok job') : job' = job ∨ Move now false job job' := by
  unfold preemptUpdate at accepted
  split at accepted
  · split at accepted <;> cases accepted
    exact Or.inr (.preempt reason (by assumption) (by assumption))
  · cases accepted

theorem retryUpdate_move (now : Time) (job job' : Job Cpu Mem)
    (accepted : retryUpdate job = .ok job') : job' = job ∨ Move now false job job' := by
  unfold retryUpdate at accepted
  split at accepted
  · split at accepted <;> cases accepted
    exact Or.inr (.retry (by assumption) (by assumption))
  · cases accepted

section Steps
variable [Zero Cpu] [LT Cpu] [DecidableLT Cpu] [Zero Mem] [LT Mem] [DecidableLT Mem]

inductive Change (now : Time) (repo : MemoryRepository Cpu Mem) (op : Op Cpu Mem)
    (after : MemoryRepository Cpu Mem) : Prop where
  | none (same : ∀ id, after.find id = repo.find id)
      (account : ∀ id, entry repo op id = .untouched)
  | move {id : String} {job job' : Job Cpu Mem} {charged : Bool} (found : repo.find id = some job)
      (moved : Move now charged job job') (stored : Stores repo after id job')
      (account : ∀ other, entry repo op other =
        if other = id ∧ charged then .failure else .untouched)
  | place {id : String} {workerIDs : List String} {job : Job Cpu Mem}
      (isPlace : op = .assignToWorkers id workerIDs) (found : repo.find id = some job)
      (queued : job.state = .queued)
      (stored : Stores repo after id
        { job with state := .scheduled, assignedWorkerIDs := workerIDs })
  | create {id : String} {input : SubmitInput Cpu Mem} (isCreate : op = .submit id input)
      (valid : validateSubmit input = .ok ()) (stored : Stores repo after id (newJob now id input))
      (account : ∀ other, entry repo op other = if other = id then .creation else .untouched)

/-- An uncharged callback that either keeps the record or moves it. -/
theorem update_change {now : Time} {repo : MemoryRepository Cpu Mem} {op : Op Cpu Mem} {id : String}
    {fn : Job Cpu Mem → Except JobError (Job Cpu Mem)}
    (untouched : ∀ other, entry repo op other = .untouched)
    (spec : ∀ job job', fn job = .ok job' → job' = job ∨ Move now false job job') :
    Change now repo op (repo.update id fn).2 := by
  rcases update_cases repo id fn with ⟨problem, same⟩ | ⟨job, job', found, accepted, stored⟩
  · rw [same]
    exact .none (fun _ => rfl) untouched
  · rw [stored]
    rcases spec job job' accepted with rfl | moved
    · exact .none (put_same found) untouched
    · exact .move found moved (put_stores repo id job') (by simpa using untouched)

theorem fail_change (now : Time) (repo : MemoryRepository Cpu Mem) (id reason : String) :
    Change now repo (.fail id reason) (repo.update id (failUpdate now reason)).2 := by
  rcases update_cases repo id (failUpdate now reason) with
    ⟨problem, same⟩ | ⟨job, job', found, accepted, stored⟩
  · rw [same]
    refine .none (fun _ => rfl) (fun other => ?_)
    cases found : repo.find id with
    | none => simp [entry, found]
    | some job =>
        -- A Fail that finds the job RUNNING is never refused.
        by_cases running : job.state = .running
        · rw [update_stored found (if_pos running)] at same
          simp at same
        · simp [entry, found, running]
  · rw [stored]
    unfold failUpdate at accepted
    split at accepted <;> cases accepted
    rename_i running
    exact .move found (applyFailureOrRetry_move reason now (Or.inr running)) (put_stores repo id _)
      (fun other => by simp [entry, found, running])

theorem recover_change (now : Time) (repo : MemoryRepository Cpu Mem) (workerID id : String) :
    Change now repo (.recover workerID id) (repo.update id (recoverUpdate now workerID)).2 := by
  cases found : repo.find id with
  | none =>
      rw [update_missing found]
      exact .none (fun _ => rfl) (fun other => by simp [entry, found])
  | some job =>
      obtain ⟨job', accepted⟩ : ∃ job', recoverUpdate now workerID job = .ok job' := ⟨_, rfl⟩
      rw [update_stored found accepted]
      simp only [recoverUpdate, Except.ok.injEq] at accepted
      by_cases active : job.state = .scheduled ∨ job.state = .running
      · rw [if_pos active] at accepted
        subst accepted
        refine .move found (applyFailureOrRetry_move _ now active) (put_stores repo id _) ?_
        intro other
        rcases active with placed | running
        · simp [entry, found, placed]
        · simp [entry, found, running]
      · rw [if_neg active] at accepted
        subst accepted
        have untouched : ∀ other, entry repo (.recover workerID id) other = .untouched := by
          intro other
          rw [not_or] at active
          simp [entry, found, active.1, active.2]
        -- A confirmed stop is free of charge, and any other state is left as it is.
        rcases stopped_move now job with same | moved
        · rw [same]
          exact .none (put_same found) untouched
        · exact .move found moved (put_stores repo id _) (by simpa using untouched)

theorem assign_change (now : Time) (repo : MemoryRepository Cpu Mem) (id : String)
    (workerIDs : List String) :
    Change now repo (.assignToWorkers id workerIDs)
      (repo.update id (assignUpdate workerIDs)).2 := by
  rcases update_cases repo id (assignUpdate workerIDs) with
    ⟨problem, same⟩ | ⟨job, job', found, accepted, stored⟩
  · rw [same]
    exact .none (fun _ => rfl) (fun _ => rfl)
  · rw [stored]
    unfold assignUpdate at accepted
    split at accepted <;> cases accepted
    exact .place rfl found (by assumption) (put_stores repo id _)

theorem submit_change (now : Time) (repo : MemoryRepository Cpu Mem) (id : String)
    (input : SubmitInput Cpu Mem) :
    Change now repo (.submit id input) (submit repo now id input).2 := by
  cases checked : validateSubmit input with
  | error problem =>
      simp only [submit, checked]
      exact .none (fun _ => rfl) (fun other => by simp [entry, checked, Except.isOk, Except.toBool])
  | ok _ =>
      simp only [submit, checked]
      cases known : repo.bySubmission input.submissionID with
      | some existing =>
          have same : repo.create (newJob now id input) = ((existing, false), repo) :=
            create_existing known
          rw [same]
          exact .none (fun _ => rfl) (fun other => by simp [entry, known])
      | none =>
          have stored : repo.create (newJob now id input) =
              ((newJob now id input, true), repo.insertNew (newJob now id input)) :=
            create_new known
          rw [stored]
          exact .create rfl checked (fun other => find_insertNew repo other (newJob now id input))
            (fun other => by simp [entry, checked, known, Except.isOk, Except.toBool])

/-- Every locked step is one of the four changes. -/
theorem apply_change (now : Time) (repo : MemoryRepository Cpu Mem) (op : Op Cpu Mem) :
    Change now repo op (op.apply now repo) := by
  cases op with
  | submit id input => exact submit_change now repo id input
  | cancel id => exact update_change (fun _ => rfl) (cancelUpdate_move now)
  | assignToWorkers id workerIDs => exact assign_change now repo id workerIDs
  | start id => exact update_change (fun _ => rfl) (startUpdate_move now)
  | complete id => exact update_change (fun _ => rfl) (completeUpdate_move now)
  | fail id reason => exact fail_change now repo id reason
  | reportStopped id =>
      refine update_change (fun _ => rfl) (fun job job' accepted => ?_)
      cases accepted
      exact stopped_move now job
  | preempt id reason => exact update_change (fun _ => rfl) (preemptUpdate_move now reason)
  | recover workerID id => exact recover_change now repo workerID id
  | retry id => exact update_change (fun _ => rfl) (retryUpdate_move now)

/-- The rule for properties of single records: what every stored record has before
the step, every stored record has after it, in the form the step gives it. -/
theorem apply_records {now : Time} {repo : MemoryRepository Cpu Mem} {op : Op Cpu Mem}
    {Before After : String → Job Cpu Mem → Prop}
    (before : ∀ id job, repo.find id = some job → Before id job)
    (keeps : ∀ id job, Before id job → After id job)
    (moves : ∀ id charged job job', Move now charged job job' → Before id job → After id job')
    (places : ∀ id workerIDs job, op = .assignToWorkers id workerIDs →
      repo.find id = some job → job.state = .queued → Before id job →
      After id { job with state := .scheduled, assignedWorkerIDs := workerIDs })
    (creates : ∀ id input, op = .submit id input → validateSubmit input = .ok () →
      After id (newJob now id input)) (key : String) (record : Job Cpu Mem)
    (found : (op.apply now repo).find key = some record) : After key record := by
  have unmoved : repo.find key = some record → After key record := fun known =>
    keeps key record (before key record known)
  cases apply_change now repo op with
  | none same account => exact unmoved ((same key).symm.trans found)
  | @move id job job' charged known moved stored account =>
      rcases stores_cases stored found with ⟨rfl, rfl⟩ | ⟨_, earlier⟩
      · exact moves key charged job job' moved (before key job known)
      · exact unmoved earlier
  | @place id workerIDs job isPlace known queued stored =>
      rcases stores_cases stored found with ⟨rfl, rfl⟩ | ⟨_, earlier⟩
      · exact places key workerIDs job isPlace known queued (before key job known)
      · exact unmoved earlier
  | @create id input isCreate valid stored account =>
      rcases stores_cases stored found with ⟨rfl, rfl⟩ | ⟨_, earlier⟩
      · exact creates key input isCreate valid
      · exact unmoved earlier

/-- The rule for what becomes of one stored record. No record goes away, as long
as a Submit does not come with an ID in use. -/
theorem apply_follows {now : Time} {repo : MemoryRepository Cpu Mem} {op : Op Cpu Mem} {id : String}
    {job : Job Cpu Mem} {After : Job Cpu Mem → Prop} (found : repo.find id = some job)
    (fresh : ∀ input, op = .submit id input → repo.find id = none) (keeps : After job)
    (moves : ∀ charged job', Move now charged job job' → After job')
    (places : ∀ workerIDs, op = .assignToWorkers id workerIDs → job.state = .queued →
      After { job with state := .scheduled, assignedWorkerIDs := workerIDs }) :
    ∃ job', (op.apply now repo).find id = some job' ∧ After job' := by
  cases apply_change now repo op with
  | none same account => exact ⟨job, (same id).trans found, keeps⟩
  | @move changed old new charged known moved stored account =>
      by_cases own : id = changed
      · subst own
        obtain rfl : old = job := Option.some.inj (known.symm.trans found)
        exact ⟨new, stores_own stored, moves charged new moved⟩
      · exact ⟨job, (stores_other stored own).trans found, keeps⟩
  | @place placed workerIDs old isPlace known queued stored =>
      by_cases own : id = placed
      · subst own
        obtain rfl : old = job := Option.some.inj (known.symm.trans found)
        exact ⟨_, stores_own stored, places workerIDs isPlace queued⟩
      · exact ⟨job, (stores_other stored own).trans found, keeps⟩
  | @create created input isCreate valid stored account =>
      have other : id ≠ created := by
        rintro rfl
        rw [fresh input isCreate] at found
        cases found
      exact ⟨job, (stores_other stored other).trans found, keeps⟩

theorem apply_keyed {repo : MemoryRepository Cpu Mem} (keyed : repo.Keyed) (now : Time)
    (op : Op Cpu Mem) : (op.apply now repo).Keyed := by
  refine apply_records keyed (fun _ _ own => own) ?_ (fun _ _ _ _ _ _ own => own) ?_
  · intro id charged job job' moved own
    exact (move_fixed moved).1.trans own
  · intro id input _ _
    rfl

/-- A step that leaves a job recoverable leaves it on its workers. -/
theorem apply_recoverable {now : Time} {repo : MemoryRepository Cpu Mem} {op : Op Cpu Mem}
    {id : String} {job job' : Job Cpu Mem} (found : repo.find id = some job)
    (before : job.state.recoverable = true) (stored : (op.apply now repo).find id = some job')
    (after : job'.state.recoverable = true) : job'.assignedWorkerIDs = job.assignedWorkerIDs := by
  have unmoved : repo.find id = some job' → job'.assignedWorkerIDs = job.assignedWorkerIDs :=
    fun known => by rw [Option.some.inj (known.symm.trans found)]
  cases apply_change now repo op with
  | none same account => exact unmoved ((same id).symm.trans stored)
  | @move changed old new charged known moved kept account =>
      rcases stores_cases kept stored with ⟨rfl, rfl⟩ | ⟨_, same⟩
      · obtain rfl : old = job := Option.some.inj (known.symm.trans found)
        exact move_recoverable moved before after
      · exact unmoved same
  | @place placed workerIDs old isPlace known queued kept =>
      rcases stores_cases kept stored with ⟨rfl, rfl⟩ | ⟨_, same⟩
      · obtain rfl : old = job := Option.some.inj (known.symm.trans found)
        simp [queued, State.recoverable] at before
      · exact unmoved same
  | @create created input isCreate valid kept account =>
      rcases stores_cases kept stored with ⟨rfl, rfl⟩ | ⟨_, same⟩
      · simp [newJob, State.recoverable] at after
      · exact unmoved same

end Steps

end OrionQueue.JobLifecycle
