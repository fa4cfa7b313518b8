import OrionQueue.Agent

/-!
What calls and reports do to the state of a job, as far as a stop request is
concerned: only Cancel and Preempt bring one about, only a report ends one, and
only a ReportJobStarted makes a job RUNNING.
-/

namespace OrionQueue.StopRequests

open Jobs JobStore MemoryRepository JobService JobLifecycle Reports Agent

variable {Cpu Mem : Type}

def Stopping (state : Jobs.State) : Prop := state = .cancelRequested ∨ state = .preempted

def StopPending (jobs : MemoryRepository Cpu Mem) (id : String) : Prop :=
  ∃ job, jobs.find id = some job ∧ Stopping job.state

/-- The job an operation may ask to stop. -/
def stopTarget : Op Cpu Mem → Option String
  | .cancel id | .preempt id _ => some id
  | _ => none

/-- A change of state that no report of a worker is behind. -/
structure Eased (asked : Prop) (before after : Jobs.State) : Prop where
  stays : Stopping before → Stopping after
  running : after = .running → before = .running
  paused : after = .checkpointing → before = .checkpointing
  stopped : Stopping after → Stopping before ∨ asked ∧ (before = .running ∨ before = .checkpointing)

theorem eased_refl (asked : Prop) (state : Jobs.State) : Eased asked state state :=
  ⟨id, id, id, Or.inl⟩

theorem cancelUpdate_eased {now : Time} {job job' : Job Cpu Mem}
    (accepted : cancelUpdate now job = .ok job') : Eased True job.state job'.state := by
  unfold cancelUpdate at accepted
  cases state : job.state <;> simp only [state] at accepted <;> cases accepted <;>
    constructor <;> simp [Stopping, state]

theorem assignUpdate_eased {workerIDs : List String} {job job' : Job Cpu Mem}
    (accepted : assignUpdate workerIDs job = .ok job') : Eased False job.state job'.state := by
  unfold assignUpdate at accepted
  split at accepted <;> cases accepted
  rename_i queued
  constructor <;> simp [Stopping, queued]

theorem preemptUpdate_eased {reason : String} {job job' : Job Cpu Mem}
    (accepted : preemptUpdate reason job = .ok job') : Eased True job.state job'.state := by
  unfold preemptUpdate at accepted
  split at accepted
  · rename_i running
    split at accepted <;> cases accepted
    constructor <;> simp [Stopping, running]
  · cases accepted

theorem retryUpdate_eased {job job' : Job Cpu Mem} (accepted : retryUpdate job = .ok job') :
    Eased False job.state job'.state := by
  unfold retryUpdate at accepted
  split at accepted
  · rename_i failed
    split at accepted <;> cases accepted
    constructor <;> simp [Stopping, failed]
  · cases accepted

/-- All stored jobs are eased, and a new one is queued. -/
structure Follows (target : Option String) (jobs after : MemoryRepository Cpu Mem) : Prop where
  present : ∀ id job, jobs.find id = some job → ∃ job', after.find id = some job' ∧
    Eased (target = some id) job.state job'.state
  new : ∀ id job, jobs.find id = none → after.find id = some job → job.state = .queued

theorem update_follows {jobs : MemoryRepository Cpu Mem} {key : String} {target : Option String}
    {fn : Job Cpu Mem → Except JobError (Job Cpu Mem)}
    (spec : ∀ job job', fn job = .ok job' → Eased (target = some key) job.state job'.state) :
    Follows target jobs (jobs.update key fn).2 := by
  rcases update_cases jobs key fn with ⟨problem, same⟩ | ⟨old, updated, found, accepted, stored⟩
  · rw [same]
    exact ⟨fun id job known => ⟨job, known, eased_refl _ _⟩, fun id job missing known =>
      absurd (missing.symm.trans known) (by simp)⟩
  · rw [stored]
    constructor
    · intro id job known
      rw [find_put]
      by_cases own : id = key
      · subst own
        obtain rfl : old = job := Option.some.inj (found.symm.trans known)
        exact ⟨updated, if_pos rfl, spec old updated accepted⟩
      · exact ⟨job, by rw [if_neg own, known], eased_refl _ _⟩
    · intro id job missing known
      rw [find_put] at known
      by_cases own : id = key
      · subst own
        exact absurd (missing.symm.trans found) (by simp)
      · rw [if_neg own, missing] at known
        cases known

theorem eased_of {asked asked' : Prop} {before after : Jobs.State} (eased : Eased asked before after)
    (implied : asked → asked') : Eased asked' before after :=
  ⟨eased.stays, eased.running, eased.paused, fun stopped =>
    (eased.stopped stopped).imp_right fun ⟨asks, active⟩ => ⟨implied asks, active⟩⟩

theorem follows_same {target : Option String} {jobs after : MemoryRepository Cpu Mem}
    (same : ∀ id, after.find id = jobs.find id) : Follows target jobs after where
  present id job known := ⟨job, (same id).trans known, eased_refl _ _⟩
  new id job missing known :=
    absurd (missing.symm.trans ((same id).symm.trans known)) (by simp)

section Calls
variable [Zero Cpu] [LT Cpu] [DecidableLT Cpu] [Zero Mem] [LT Mem] [DecidableLT Mem]

theorem submit_follows {now : Time} {jobs : MemoryRepository Cpu Mem} {key : String}
    {input : SubmitInput Cpu Mem} (fresh : jobs.find key = none) :
    Follows none jobs (submit jobs now key input).2 := by
  cases checked : validateSubmit input with
  | error problem =>
      simp only [submit, checked]
      exact follows_same fun _ => rfl
  | ok _ =>
      simp only [submit, checked]
      cases known : jobs.bySubmission input.submissionID with
      | some existing =>
          have same : jobs.create (newJob now key input) = ((existing, false), jobs) :=
            create_existing known
          rw [same]
          exact follows_same fun _ => rfl
      | none =>
          have stored : jobs.create (newJob now key input) =
              ((newJob now key input, true), jobs.insertNew (newJob now key input)) :=
            create_new known
          rw [stored]
          constructor
          · intro id job found
            have other : id ≠ key := by
              rintro rfl
              exact absurd (fresh.symm.trans found) (by simp)
            exact ⟨job, by simpa [find_insertNew, newJob, other] using found, eased_refl _ _⟩
          · intro id job missing found
            rw [find_insertNew] at found
            split at found
            · cases found
              rfl
            · exact absurd (missing.symm.trans found) (by simp)

theorem requested_follows {now : Time} {jobs : MemoryRepository Cpu Mem} {op : Op Cpu Mem}
    (allowed : requested jobs op = true) : Follows (stopTarget op) jobs (op.apply now jobs) := by
  cases op with
  | submit id input => exact submit_follows (by simpa [requested] using allowed)
  | cancel id =>
      exact update_follows fun _ _ accepted => eased_of (cancelUpdate_eased accepted) fun _ => rfl
  | assignToWorkers id workerIDs =>
      exact update_follows fun _ _ accepted => eased_of (assignUpdate_eased accepted) False.elim
  | preempt id reason =>
      exact update_follows fun _ _ accepted => eased_of (preemptUpdate_eased accepted) fun _ => rfl
  | retry id =>
      exact update_follows fun _ _ accepted => eased_of (retryUpdate_eased accepted) False.elim
  | _ => simp [requested] at allowed

end Calls

/-- The effect of a report on the job it names. -/
inductive Handled (kind : Kind) (id : String) (job job' : Job Cpu Mem) : Prop where
  | ignored (same : job' = job) (unexpected : id = "" ∨ expects kind job.state = false)
  | started (named : id ≠ "") (isStart : kind = .started) (placed : job.state = .scheduled)
      (running : job'.state = .running)
  | closed (named : id ≠ "") (isFinal : kind ≠ .started) (expected : expects kind job.state = true)
      (inactive : job'.state ∉ [.running, .checkpointing, .cancelRequested, .preempted])

theorem reportUpdate_closed {now : Time} {kind : Kind} {job job' : Job Cpu Mem}
    (accepted : reportUpdate now kind job = .ok job') (expected : expects kind job.state = true)
    (isFinal : kind ≠ .started) :
    job'.state ∉ [.running, .checkpointing, .cancelRequested, .preempted] := by
  cases kind with
  | started => exact absurd rfl isFinal
  | completed exitCode =>
      simp only [reportUpdate, completeUpdate] at accepted
      split at accepted <;> cases accepted
      simp
  | failed reason =>
      simp only [reportUpdate, failUpdate] at accepted
      split at accepted <;> cases accepted
      unfold applyFailureOrRetry
      split <;> simp
  | stopped =>
      cases accepted
      have state : job.state = .cancelRequested ∨ job.state = .preempted := by
        simpa [expects] using expected
      rcases state with state | state <;> simp [JobService.stopped, state]

theorem report_handled {now : Time} {jobs : MemoryRepository Cpu Mem} {kind : Kind}
    {id workerID : String} {job : Job Cpu Mem} (found : jobs.find id = some job) :
    ∃ job', (handleReport jobs now ⟨kind, id, workerID⟩).2.find id = some job' ∧
      Handled kind id job job' := by
  by_cases effect : id ≠ "" ∧ expects kind job.state = true
  · obtain ⟨named, expected⟩ := effect
    obtain ⟨job', accepted, _⟩ := reportUpdate_expected now expected
    refine ⟨job', ?_, ?_⟩
    · rw [handleReport_store, if_neg named, update_stored found accepted, find_put, if_pos rfl]
    · by_cases isStart : kind = .started
      · subst isStart
        have placed : job.state = .scheduled := by simpa [expects] using expected
        refine .started named rfl placed ?_
        simp only [reportUpdate, startUpdate, if_pos placed] at accepted
        cases accepted
        rfl
      · exact .closed named isStart expected (reportUpdate_closed accepted expected isStart)
  · refine ⟨job, ?_, .ignored rfl ?_⟩
    · rw [← found]
      by_contra changed
      obtain ⟨_, named, known, stored, expected⟩ :=
        (report_changes_iff now ⟨kind, id, workerID⟩ id).mp changed
      obtain rfl : job = known := Option.some.inj (found.symm.trans stored)
      exact effect ⟨named, expected⟩
    · by_cases named : id = ""
      · exact Or.inl named
      · exact Or.inr (by simpa [named] using effect)

theorem report_other {now : Time} {jobs : MemoryRepository Cpu Mem} {report : Report}
    {other : String} (differs : other ≠ report.jobID) :
    (handleReport jobs now report).2.find other = jobs.find other := by
  by_contra changed
  exact differs ((report_changes_iff now report other).mp changed).1

theorem report_missing {now : Time} {jobs : MemoryRepository Cpu Mem} {report : Report} {id : String}
    (missing : jobs.find id = none) : (handleReport jobs now report).2.find id = none := by
  rw [← missing]
  by_contra changed
  obtain ⟨_, _, job, found, _⟩ := (report_changes_iff now report id).mp changed
  exact absurd (missing.symm.trans found) (by simp)

/-- Where a record found after a report comes from. -/
theorem report_effect {now : Time} {jobs : MemoryRepository Cpu Mem} {kind : Kind}
    {id workerID key : String} {job' : Job Cpu Mem}
    (stored : (handleReport jobs now ⟨kind, id, workerID⟩).2.find key = some job') :
    ∃ job, jobs.find key = some job ∧
      (key ≠ id ∧ job = job' ∨ key = id ∧ Handled kind id job job') := by
  by_cases own : key = id
  · subst own
    cases found : jobs.find key with
    | none => exact absurd (stored.symm.trans (report_missing found)) (by simp)
    | some job =>
        obtain ⟨known, same, handled⟩ : ∃ known,
            (handleReport jobs now ⟨kind, key, workerID⟩).2.find key = some known ∧
              Handled kind key job known := report_handled found
        obtain rfl : known = job' := Option.some.inj (same.symm.trans stored)
        exact ⟨job, rfl, Or.inr ⟨rfl, handled⟩⟩
  · have other : (handleReport jobs now ⟨kind, id, workerID⟩).2.find key = jobs.find key :=
      report_other own
    exact ⟨job', other.symm.trans stored, Or.inl ⟨own, rfl⟩⟩

theorem handled_unpaused {kind : Kind} {id : String} {job job' : Job Cpu Mem}
    (handled : Handled kind id job job') (unpaused : job.state ≠ .checkpointing) :
    job'.state ≠ .checkpointing := by
  cases handled with
  | ignored same => exact same ▸ unpaused
  | started _ _ _ running => simp [running]
  | closed _ _ _ inactive =>
      intro paused
      simp [paused] at inactive

theorem reportUpdate_id {now : Time} {kind : Kind} {job job' : Job Cpu Mem}
    (accepted : reportUpdate now kind job = .ok job') : job'.id = job.id := by
  have moved : job' = job ∨ ∃ charged, Move now charged job job' := by
    cases kind with
    | started => exact (startUpdate_move now job job' accepted).imp_right fun moved => ⟨_, moved⟩
    | completed => exact (completeUpdate_move now job job' accepted).imp_right fun moved => ⟨_, moved⟩
    | failed reason =>
        simp only [reportUpdate, failUpdate] at accepted
        split at accepted <;> cases accepted
        exact Or.inr ⟨_, applyFailureOrRetry_move reason now (Or.inr (by assumption))⟩
    | stopped =>
        cases accepted
        exact (stopped_move now job).imp_right fun moved => ⟨_, moved⟩
  rcases moved with rfl | ⟨_, moved⟩
  · rfl
  · exact (move_fixed moved).1

theorem handleReport_keyed {now : Time} {jobs : MemoryRepository Cpu Mem} (keyed : jobs.Keyed)
    (report : Report) : (handleReport jobs now report).2.Keyed := by
  rw [handleReport_store]
  split
  · exact keyed
  · rcases update_cases jobs report.jobID (reportUpdate now report.kind) with
      ⟨problem, same⟩ | ⟨job, job', found, accepted, stored⟩
    · rw [same]
      exact keyed
    · rw [stored]
      exact stores_keyed keyed (put_stores jobs report.jobID job')
        ((reportUpdate_id accepted).trans (keyed report.jobID job found))

theorem started_answer {now : Time} {jobs : MemoryRepository Cpu Mem} {id workerID : String}
    {job : Job Cpu Mem} (named : id ≠ "") (found : jobs.find id = some job)
    (placed : job.state = .scheduled) :
    answer (handleReport jobs now ⟨.started, id, workerID⟩).1 = none := by
  have accepted : startUpdate now job = .ok { job with state := .running, startedAt := some now } :=
    if_pos placed
  simp [handleReport, named, serve, start, update_stored found accepted, answer]

end OrionQueue.StopRequests
