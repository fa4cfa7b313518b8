import OrionQueue.JobStore

/-!
`jobs.Service`. Every lifecycle operation is one locked Update whose callback is
the `...Update` function below; LoseWorker is a listing followed by one Update
per listed job. The instant an operation reads from the clock and the ID that
the generator hands to Submit are arguments. `Op.apply` is the effect of one
locked step on the repository.
-/

namespace OrionQueue.JobService

open Jobs Tables JobStore MemoryRepository

variable {Cpu Mem : Type}

def cancelUpdate (now : Time) (job : Job Cpu Mem) : Except JobError (Job Cpu Mem) :=
  match job.state with
  | .succeeded | .failed | .cancelled | .cancelRequested => .ok job
  -- Nothing executes the job yet, so there is no stop to wait for.
  | .queued | .retrying | .scheduled =>
      .ok { job with state := .cancelled, completedAt := some now }
  | .running | .checkpointing => .ok { job with state := .cancelRequested }
  | .preempted | .lost =>
      .error (.invalidState ("cannot cancel a job in state " ++ job.state.name))

def requires (operation : String) (wanted : State) (job : Job Cpu Mem) : JobError :=
  .invalidState (operation ++ " requires state " ++ wanted.name ++ ", job is " ++ job.state.name)

def assignUpdate (workerIDs : List String) (job : Job Cpu Mem) : Except JobError (Job Cpu Mem) :=
  if job.state = .queued then .ok { job with state := .scheduled, assignedWorkerIDs := workerIDs }
  else .error (requires "AssignToWorkers" .queued job)

def startUpdate (now : Time) (job : Job Cpu Mem) : Except JobError (Job Cpu Mem) :=
  if job.state = .scheduled then .ok { job with state := .running, startedAt := some now }
  else .error (requires "Start" .scheduled job)

def completeUpdate (now : Time) (job : Job Cpu Mem) : Except JobError (Job Cpu Mem) :=
  if job.state = .running then .ok { job with state := .succeeded, completedAt := some now }
  else .error (requires "Complete" .running job)

/-- Requeue while attempts remain, otherwise fail for good. -/
def applyFailureOrRetry (job : Job Cpu Mem) (reason : String) (now : Time) : Job Cpu Mem :=
  if job.currentAttempt < job.retryLimit then
    { job with
      failureReason := reason
      state := .queued
      currentAttempt := job.currentAttempt + 1
      startedAt := none
      assignedWorkerIDs := [] }
  else { job with failureReason := reason, state := .failed, failedAt := some now }

def failUpdate (now : Time) (reason : String) (job : Job Cpu Mem) : Except JobError (Job Cpu Mem) :=
  if job.state = .running then .ok (applyFailureOrRetry job reason now)
  else .error (requires "Fail" .running job)

/-- What a confirmed stop makes of the job: shared by ReportStopped and, for the
states without a running attempt to charge, by LoseWorker. -/
def stopped (now : Time) (job : Job Cpu Mem) : Job Cpu Mem :=
  match job.state with
  | .cancelRequested => { job with state := .cancelled, completedAt := some now }
  | .preempted => { job with state := .queued, startedAt := none, assignedWorkerIDs := [] }
  | _ => job

def reportStoppedUpdate (now : Time) (job : Job Cpu Mem) : Except JobError (Job Cpu Mem) :=
  .ok (stopped now job)

def preemptUpdate (reason : String) (job : Job Cpu Mem) : Except JobError (Job Cpu Mem) :=
  if job.state = .running then
    if job.preemptible then .ok { job with state := .preempted, failureReason := reason }
    else .error (.invalidState ("job " ++ job.id ++ " is not preemptible"))
  else .error (requires "Preempt" .running job)

def lostReason (workerID : String) : String := "worker " ++ workerID ++ " was lost"

/-- The callback LoseWorker hands to Update. It looks at the state again, but
not at the workers the job is assigned to by then. -/
def recoverUpdate (now : Time) (workerID : String) (job : Job Cpu Mem) :
    Except JobError (Job Cpu Mem) :=
  .ok (if job.state = .scheduled ∨ job.state = .running then
    applyFailureOrRetry job (lostReason workerID) now else stopped now job)

def retryUpdate (job : Job Cpu Mem) : Except JobError (Job Cpu Mem) :=
  if job.state = .failed then
    if job.currentAttempt < job.retryLimit then
      -- Unlike a requeue, this leaves the workers of the last attempt in the record.
      .ok { job with
        state := .queued
        currentAttempt := job.currentAttempt + 1
        failureReason := ""
        startedAt := none
        completedAt := none
        failedAt := none }
    else .error (.retryLimitExceeded
      ("attempt " ++ toString job.currentAttempt ++ " of " ++ toString job.retryLimit))
  else .error (requires "RetryJob" .failed job)

def newJob (now : Time) (id : String) (input : SubmitInput Cpu Mem) : Job Cpu Mem where
  id := id
  name := input.name
  submissionID := input.submissionID
  owner := input.owner
  image := input.image
  command := input.command
  resources := input.resources
  priority := input.priority
  preemptible := input.preemptible
  retryLimit := input.retryLimit
  currentAttempt := 1
  timeoutSeconds := input.timeoutSeconds
  checkpointIntervalSeconds := input.checkpointIntervalSeconds
  state := .queued
  assignedWorkerIDs := []
  failureReason := ""
  createdAt := now
  startedAt := none
  completedAt := none
  failedAt := none

section Operations
variable (repo : MemoryRepository Cpu Mem)

def submit [Zero Cpu] [LT Cpu] [DecidableLT Cpu] [Zero Mem] [LT Mem] [DecidableLT Mem]
    (now : Time) (id : String) (input : SubmitInput Cpu Mem) :
    Except JobError (Job Cpu Mem) × MemoryRepository Cpu Mem :=
  match validateSubmit input with
  | .error problem => (.error problem, repo)
  | .ok () => (.ok (repo.create (newJob now id input)).1.1, (repo.create (newJob now id input)).2)

def cancel (now : Time) (id : String) :
    Except JobError (Job Cpu Mem) × MemoryRepository Cpu Mem :=
  repo.update id (cancelUpdate now)

def assignToWorkers (id : String) (workerIDs : List String) :
    Except JobError (Job Cpu Mem) × MemoryRepository Cpu Mem :=
  repo.update id (assignUpdate workerIDs)

def start (now : Time) (id : String) :
    Except JobError (Job Cpu Mem) × MemoryRepository Cpu Mem :=
  repo.update id (startUpdate now)

def complete (now : Time) (id : String) :
    Except JobError (Job Cpu Mem) × MemoryRepository Cpu Mem :=
  repo.update id (completeUpdate now)

def fail (now : Time) (id reason : String) :
    Except JobError (Job Cpu Mem) × MemoryRepository Cpu Mem :=
  repo.update id (failUpdate now reason)

def reportStopped (now : Time) (id : String) :
    Except JobError (Job Cpu Mem) × MemoryRepository Cpu Mem :=
  repo.update id (reportStoppedUpdate now)

def preempt (id reason : String) :
    Except JobError (Job Cpu Mem) × MemoryRepository Cpu Mem :=
  repo.update id (preemptUpdate reason)

def retry (id : String) : Except JobError (Job Cpu Mem) × MemoryRepository Cpu Mem :=
  repo.update id retryUpdate

/-- One locked Update of a LoseWorker call. -/
def recover (now : Time) (workerID id : String) :
    Except JobError (Job Cpu Mem) × MemoryRepository Cpu Mem :=
  repo.update id (recoverUpdate now workerID)

def listAssignedToWorker (workerID : String) : List (Job Cpu Mem) :=
  repo.listActive.filter fun job =>
    job.state = .scheduled && job.assignedWorkerIDs.contains workerID

def listStoppableForWorker (workerID : String) : List (Job Cpu Mem) :=
  repo.listActive.filter fun job =>
    (job.state = .cancelRequested || job.state = .preempted) &&
      job.assignedWorkerIDs.contains workerID

end Operations

/-- The jobs LoseWorker picks from its listing, in listing order. -/
def lostJobs (workerID : String) (active : List (Job Cpu Mem)) : List (Job Cpu Mem) :=
  active.filter fun job => job.state.recoverable && job.assignedWorkerIDs.contains workerID

/-- The locked steps of the service. A LoseWorker call is its listing followed
by one `recover` per listed job, so that other callers may come in between. -/
inductive Op (Cpu Mem : Type) where
  | submit (id : String) (input : SubmitInput Cpu Mem)
  | cancel (id : String)
  | assignToWorkers (id : String) (workerIDs : List String)
  | start (id : String)
  | complete (id : String)
  | fail (id reason : String)
  | reportStopped (id : String)
  | preempt (id reason : String)
  | recover (workerID id : String)
  | retry (id : String)

section Apply
variable [Zero Cpu] [LT Cpu] [DecidableLT Cpu] [Zero Mem] [LT Mem] [DecidableLT Mem]

def Op.apply (now : Time) (repo : MemoryRepository Cpu Mem) :
    Op Cpu Mem → MemoryRepository Cpu Mem
  | .submit id input => (JobService.submit repo now id input).2
  | .cancel id => (JobService.cancel repo now id).2
  | .assignToWorkers id workerIDs => (JobService.assignToWorkers repo id workerIDs).2
  | .start id => (JobService.start repo now id).2
  | .complete id => (JobService.complete repo now id).2
  | .fail id reason => (JobService.fail repo now id reason).2
  | .reportStopped id => (JobService.reportStopped repo now id).2
  | .preempt id reason => (JobService.preempt repo id reason).2
  | .recover workerID id => (JobService.recover repo now workerID id).2
  | .retry id => (JobService.retry repo id).2

/-- A history is a list of locked steps, each with the instant it read. -/
def execute (repo : MemoryRepository Cpu Mem) (history : List (Time × Op Cpu Mem)) :
    MemoryRepository Cpu Mem :=
  history.foldl (fun current entry => entry.2.apply entry.1 current) repo

end Apply

end OrionQueue.JobService
