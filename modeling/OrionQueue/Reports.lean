import OrionQueue.JobCoherence

/-!
The reports of a worker agent as the job server handles them: an empty job ID
is refused, otherwise one service call is made under the job ID alone. The
`worker_id` of a request is carried along and never read.
-/

namespace OrionQueue.Reports

open Jobs JobStore MemoryRepository JobService JobLifecycle JobCoherence

variable {Cpu Mem : Type}

/-- The codes of a failed call in gRPC. -/
inductive Code where
  | cancelled | unknown | invalidArgument | deadlineExceeded | notFound | alreadyExists
  | permissionDenied | resourceExhausted | failedPrecondition | aborted | outOfRange
  | unimplemented | internal | unavailable | dataLoss | unauthenticated
  deriving DecidableEq

structure Status where
  code : Code
  message : String
  deriving DecidableEq

def toStatus : JobError → Status
  | .validation problems => ⟨.invalidArgument, (JobError.validation problems).message⟩
  | .notFound => ⟨.notFound, JobError.notFound.message⟩
  | .invalidState detail => ⟨.failedPrecondition, (JobError.invalidState detail).message⟩
  | .retryLimitExceeded detail =>
      ⟨.failedPrecondition, (JobError.retryLimitExceeded detail).message⟩

inductive Kind where
  | started
  | completed (exitCode : Int)
  | failed (failureReason : String)
  | stopped
  deriving DecidableEq

structure Report where
  kind : Kind
  jobID : String
  workerID : String
  deriving DecidableEq

/-- The service call a report is answered with. -/
def serve (repo : MemoryRepository Cpu Mem) (now : Time) (report : Report) :
    Except JobError (Job Cpu Mem) × MemoryRepository Cpu Mem :=
  match report.kind with
  | .started => start repo now report.jobID
  | .completed _ => complete repo now report.jobID
  | .failed reason => fail repo now report.jobID reason
  | .stopped => reportStopped repo now report.jobID

def handleReport (repo : MemoryRepository Cpu Mem) (now : Time) (report : Report) :
    Except Status (Job Cpu Mem) × MemoryRepository Cpu Mem :=
  if report.jobID = "" then (.error ⟨.invalidArgument, "job_id must not be empty"⟩, repo)
  else
    match serve repo now report with
    | (.error problem, after) => (.error (toStatus problem), after)
    | (.ok job, after) => (.ok job, after)

/-- The states in which a report of this kind has an effect. -/
def expects : Kind → Jobs.State → Bool
  | .started, state => state = .scheduled
  | .completed _, state | .failed _, state => state = .running
  | .stopped, state => state = .cancelRequested || state = .preempted

/-- The callback behind each kind of report. -/
def reportUpdate (now : Time) : Kind → Job Cpu Mem → Except JobError (Job Cpu Mem)
  | .started => startUpdate now
  | .completed _ => completeUpdate now
  | .failed reason => failUpdate now reason
  | .stopped => reportStoppedUpdate now

theorem serve_update (repo : MemoryRepository Cpu Mem) (now : Time) (report : Report) :
    serve repo now report = repo.update report.jobID (reportUpdate now report.kind) := by
  unfold serve reportUpdate
  cases report.kind <;> rfl

theorem handleReport_store (repo : MemoryRepository Cpu Mem) (now : Time) (report : Report) :
    (handleReport repo now report).2 = if report.jobID = "" then repo
      else (repo.update report.jobID (reportUpdate now report.kind)).2 := by
  unfold handleReport
  split
  · rfl
  · rw [serve_update]
    split <;> simp_all

/-- In an expected state the callback leaves that state. -/
theorem reportUpdate_expected (now : Time) {kind : Kind} {job : Job Cpu Mem}
    (expected : expects kind job.state = true) :
    ∃ job', reportUpdate now kind job = .ok job' ∧ job'.state ≠ job.state := by
  cases kind with
  | started =>
      have state : job.state = .scheduled := by simpa [expects] using expected
      exact ⟨_, if_pos state, by simp [state]⟩
  | completed exitCode =>
      have state : job.state = .running := by simpa [expects] using expected
      exact ⟨_, if_pos state, by simp [state]⟩
  | failed reason =>
      have state : job.state = .running := by simpa [expects] using expected
      refine ⟨_, if_pos state, ?_⟩
      unfold applyFailureOrRetry
      split <;> simp [state]
  | stopped =>
      have state : job.state = .cancelRequested ∨ job.state = .preempted := by
        simpa [expects] using expected
      refine ⟨_, rfl, ?_⟩
      rcases state with state | state <;> simp [stopped, state]

/-- In any other state it refuses, or keeps the record as it is. -/
theorem reportUpdate_unexpected {now : Time} {kind : Kind} {job job' : Job Cpu Mem}
    (unexpected : expects kind job.state = false)
    (accepted : reportUpdate now kind job = .ok job') : job' = job := by
  cases kind with
  | started =>
      have state : job.state ≠ .scheduled := by simpa [expects] using unexpected
      simp [reportUpdate, startUpdate, state] at accepted
  | completed exitCode =>
      have state : job.state ≠ .running := by simpa [expects] using unexpected
      simp [reportUpdate, completeUpdate, state] at accepted
  | failed reason =>
      have state : job.state ≠ .running := by simpa [expects] using unexpected
      simp [reportUpdate, failUpdate, state] at accepted
  | stopped =>
      cases accepted
      cases state : job.state <;> simp [expects, state, stopped] at unexpected ⊢

/-- A job that a report acts on is placed on exactly one worker. -/
theorem expected_placed {kind : Kind} {job : Job Cpu Mem} (shape : Shape job)
    (expected : expects kind job.state = true) : ∃ workerID, job.assignedWorkerIDs = [workerID] := by
  apply List.length_eq_one_iff.mp
  cases state : job.state <;> cases kind <;> simp_all [Shape, expects]

theorem report_changes_iff {repo : MemoryRepository Cpu Mem} (now : Time) (report : Report)
    (id : String) :
    (handleReport repo now report).2.find id ≠ repo.find id ↔
      id = report.jobID ∧ id ≠ "" ∧
        ∃ job, repo.find id = some job ∧ expects report.kind job.state = true := by
  rw [handleReport_store]
  constructor
  · intro changed
    by_cases blank : report.jobID = ""
    · simp [blank] at changed
    · rw [if_neg blank] at changed
      rcases update_cases repo report.jobID (reportUpdate now report.kind) with
        ⟨problem, same⟩ | ⟨job, job', found, accepted, stored⟩
      · simp [same] at changed
      · rw [stored] at changed
        have own : id = report.jobID := by
          by_contra other
          simp [find_put, other] at changed
        subst own
        refine ⟨rfl, blank, job, found, ?_⟩
        -- A callback that accepts in another state wrote the record back as it was.
        by_contra unexpected
        rw [reportUpdate_unexpected (by simpa using unexpected) accepted] at changed
        exact changed (put_same found _)
  · rintro ⟨rfl, named, job, found, expected⟩
    obtain ⟨job', accepted, moved⟩ := reportUpdate_expected now expected
    rw [if_neg named, update_stored found accepted, find_put, if_pos rfl, found]
    intro same
    exact moved (congrArg Job.state (Option.some.inj same))

section Results
variable [Zero Cpu] [LT Cpu] [DecidableLT Cpu] [Zero Mem] [LT Mem] [DecidableLT Mem]

theorem report_effect_by_state (history : List (Time × Op Cpu Mem))
    (single : ∀ entry ∈ history, SinglePlacement entry.2) (now : Time) (report : Report) :
    let repo := execute (empty : MemoryRepository Cpu Mem) history
    (∀ sender, handleReport repo now { report with workerID := sender } =
      handleReport repo now report) ∧
    ∀ id, ((handleReport repo now report).2.find id ≠ repo.find id ↔
        id = report.jobID ∧ id ≠ "" ∧
          ∃ job, repo.find id = some job ∧ expects report.kind job.state = true) ∧
      ∀ job, repo.find id = some job → expects report.kind job.state = true →
        ∃ workerID, job.assignedWorkerIDs = [workerID] := by
  intro repo
  refine ⟨fun _ => rfl, fun id => ⟨report_changes_iff now report id, ?_⟩⟩
  intro job found expected
  exact expected_placed (execute_shaped empty_shaped single id job found) expected

end Results

/-- worker-1 is lost while it runs job-1; worker-2 runs it now. -/
def reassignedHistory : List (Time × Op Int Int) :=
  [(1, .submit "job-1" (submission ⟨1, 0, 2, 1024⟩)), (2, .assignToWorkers "job-1" ["worker-1"]),
    (3, .start "job-1"), (4, .recover "worker-1" "job-1"),
    (5, .assignToWorkers "job-1" ["worker-2"]), (6, .start "job-1")]

def delayedReport : Report := ⟨.completed 0, "job-1", "worker-1"⟩

theorem delayedReport_changes :
    (handleReport (execute empty reassignedHistory) 7 delayedReport).2.find "job-1" ≠
      (execute empty reassignedHistory).find "job-1" :=
  ((report_effect_by_state reassignedHistory (by simp [reassignedHistory, SinglePlacement]) 7
    delayedReport).2 "job-1").1.mpr ⟨rfl, by decide, _, rfl, rfl⟩

/-- The report of the former worker ends the attempt of the present one. -/
theorem delayedReport_ends_foreign_attempt :
    ∃ before after, (execute empty reassignedHistory).find "job-1" = some before ∧
      before.assignedWorkerIDs = ["worker-2"] ∧
      delayedReport.workerID ∉ before.assignedWorkerIDs ∧
      (handleReport (execute empty reassignedHistory) 7 delayedReport).2.find "job-1" =
        some after ∧
      before.state = .running ∧ after.state = .succeeded := by
  refine ⟨_, _, rfl, rfl, ?_, rfl, rfl, rfl⟩
  decide

end OrionQueue.Reports
