import OrionQueue.JobListing
import OrionQueue.JobService

/-!
The interface `jobs.Repository` with its two implementations, and `jobs.Service`
on top of an arbitrary one. An operation takes the readings of its clock in the
order in which it makes them, and Submit the ID that the generator hands out.
The service of `JobService` is this one over the repository in memory.
-/

namespace OrionQueue.Repositories

open Jobs JobService JobRepository JobListing JobTable JobStore

variable {Store Cpu Mem : Type}

/-- jobs.Repository. A method that may write answers with the store it leaves. -/
structure Repository (Store Cpu Mem : Type) where
  create : Store → Job Cpu Mem → Except RepositoryError (Job Cpu Mem × Bool) × Store
  get : Store → String → Except RepositoryError (Job Cpu Mem)
  list : Store → ListOptions → Except RepositoryError (ListResult Cpu Mem)
  update : Store → String → (Job Cpu Mem → Except JobError (Job Cpu Mem)) →
    Except RepositoryError (Job Cpu Mem) × Store
  listActive : Store → Except RepositoryError (List (Job Cpu Mem))

/-- An answer of the repository in memory, whose only errors are those of the
jobs package. -/
def domain {Answer : Type} : Except JobError Answer → Except RepositoryError Answer
  | .ok answer => .ok answer
  | .error problem => .error (.job problem)

def memoryRepository : Repository (MemoryRepository Cpu Mem) Cpu Mem where
  create store job := (.ok (store.create job).1, (store.create job).2)
  get store id := domain (store.get id)
  list := MemoryRepository.list
  update store id fn := (domain (store.update id fn).1, (store.update id fn).2)
  listActive store := .ok store.listActive

def jobRepository {SortKey : Type} [LinearOrder SortKey] (collation : Collation SortKey) :
    Repository (Database Cpu Mem) Cpu Mem where
  create := JobRepository.create
  get := JobRepository.get
  list := JobRepository.list collation
  update := JobRepository.update
  listActive := JobRepository.listActive collation

section Service
variable (repo : Repository Store Cpu Mem) (store : Store)

def submit [Zero Cpu] [LT Cpu] [DecidableLT Cpu] [Zero Mem] [LT Mem] [DecidableLT Mem]
    (now : Time) (id : String) (input : SubmitInput Cpu Mem) :
    Except RepositoryError (Job Cpu Mem) × Store :=
  match validateSubmit input with
  | .error problem => (.error (.job problem), store)
  | .ok () =>
      match repo.create store (newJob now id input) with
      | (.error problem, after) => (.error problem, after)
      | (.ok (job, _), after) => (.ok job, after)

def listAssignedToWorker (workerID : String) : Except RepositoryError (List (Job Cpu Mem)) :=
  match repo.listActive store with
  | .error problem => .error problem
  | .ok active => .ok (active.filter fun job =>
      job.state = .scheduled && job.assignedWorkerIDs.contains workerID)

def listStoppableForWorker (workerID : String) : Except RepositoryError (List (Job Cpu Mem)) :=
  match repo.listActive store with
  | .error problem => .error problem
  | .ok active => .ok (active.filter fun job =>
      (job.state = .cancelRequested || job.state = .preempted) &&
        job.assignedWorkerIDs.contains workerID)

def recoverContext (id workerID : String) : String :=
  "jobs: recover job " ++ id ++ " from lost worker " ++ workerID

/-- The update loop of LoseWorker, from the number of jobs recovered so far: it goes up
once per Update without an error, whether or not that Update changed the record. The
failure, if any, comes with the words it is wrapped in. -/
def recoverEach (clock : Nat → Time) (workerID : String) :
    List String → Nat → Store → (Nat × Option (String × RepositoryError)) × Store
  | [], recovered, store => ((recovered, none), store)
  | id :: rest, recovered, store =>
      match repo.update store id (recoverUpdate (clock recovered) workerID) with
      | (.error problem, after) => ((recovered, some (recoverContext id workerID, problem)), after)
      | (.ok _, after) => recoverEach clock workerID rest (recovered + 1) after

def loseWorker (clock : Nat → Time) (workerID : String) :
    (Nat × Option (String × RepositoryError)) × Store :=
  match repo.listActive store with
  | .error problem =>
      ((0, some ("jobs: list active jobs for lost-worker recovery", problem)), store)
  | .ok active => recoverEach repo clock workerID ((lostJobs workerID active).map Job.id) 0 store

inductive WalkEnd where
  | complete | unfinished
  | failed (problem : RepositoryError)
  deriving DecidableEq

/-- The first `calls` page calls of a walk: the pages, and how it ended. -/
def walkPages (pageSize : Int) (stateFilter : String) :
    (calls : Nat) → (token : String) → List (List (Job Cpu Mem)) × WalkEnd
  | 0, _ => ([], .unfinished)
  | calls + 1, token =>
      match repo.list store ⟨pageSize, token, stateFilter⟩ with
      | .error problem => ([], .failed problem)
      | .ok result =>
          if result.nextPageToken = "" then ([result.jobs], .complete)
          else (result.jobs :: (walkPages pageSize stateFilter calls result.nextPageToken).1,
            (walkPages pageSize stateFilter calls result.nextPageToken).2)

end Service

inductive Operation (Cpu Mem : Type) where
  | submit (id : String) (input : SubmitInput Cpu Mem)
  | get (id : String)
  | cancel (id : String)
  | assignToWorkers (id : String) (workerIDs : List String)
  | start (id : String)
  | complete (id : String)
  | fail (id reason : String)
  | preempt (id reason : String)
  | reportStopped (id : String)
  | loseWorker (workerID : String)
  | retry (id : String)
  | listActive
  | listAssignedToWorker (workerID : String)
  | listStoppableForWorker (workerID : String)
  | listWalk (pageSize : Int) (stateFilter : String) (calls : Nat)

inductive Answer (Cpu Mem : Type) where
  | job (result : Except RepositoryError (Job Cpu Mem))
  | recovered (count : Nat) (failure : Option (String × RepositoryError))
  | jobs (result : Except RepositoryError (List (Job Cpu Mem)))
  | pages (pages : List (List (Job Cpu Mem))) (ending : WalkEnd)

section Perform
variable [Zero Cpu] [LT Cpu] [DecidableLT Cpu] [Zero Mem] [LT Mem] [DecidableLT Mem]
  (repo : Repository Store Cpu Mem)

/-- An operation that is one Update. -/
def updated (store : Store) (id : String) (fn : Job Cpu Mem → Except JobError (Job Cpu Mem)) :
    Answer Cpu Mem × Store :=
  (.job (repo.update store id fn).1, (repo.update store id fn).2)

def perform (clock : Nat → Time) (store : Store) : Operation Cpu Mem → Answer Cpu Mem × Store
  | .submit id input =>
      (.job (submit repo store (clock 0) id input).1, (submit repo store (clock 0) id input).2)
  | .get id => (.job (repo.get store id), store)
  | .cancel id => updated repo store id (cancelUpdate (clock 0))
  | .assignToWorkers id workerIDs => updated repo store id (assignUpdate workerIDs)
  | .start id => updated repo store id (startUpdate (clock 0))
  | .complete id => updated repo store id (completeUpdate (clock 0))
  | .fail id reason => updated repo store id (failUpdate (clock 0) reason)
  | .preempt id reason => updated repo store id (preemptUpdate reason)
  | .reportStopped id => updated repo store id (reportStoppedUpdate (clock 0))
  | .loseWorker workerID =>
      (.recovered (loseWorker repo store clock workerID).1.1 (loseWorker repo store clock workerID).1.2,
        (loseWorker repo store clock workerID).2)
  | .retry id => updated repo store id retryUpdate
  | .listActive => (.jobs (repo.listActive store), store)
  | .listAssignedToWorker workerID => (.jobs (listAssignedToWorker repo store workerID), store)
  | .listStoppableForWorker workerID => (.jobs (listStoppableForWorker repo store workerID), store)
  | .listWalk pageSize stateFilter calls =>
      (.pages (walkPages repo store pageSize stateFilter calls "").1
        (walkPages repo store pageSize stateFilter calls "").2, store)

/-- The store after a sequence of operations, each with its clock. -/
def serve (store : Store) (history : List ((Nat → Time) × Operation Cpu Mem)) : Store :=
  history.foldl (fun current entry => (perform repo entry.1 current entry.2).2) store

/-- The operation that a locked step of `JobService` is all of. -/
def operationOf : Op Cpu Mem → Option (Operation Cpu Mem)
  | .submit id input => some (.submit id input)
  | .cancel id => some (.cancel id)
  | .assignToWorkers id workerIDs => some (.assignToWorkers id workerIDs)
  | .start id => some (.start id)
  | .complete id => some (.complete id)
  | .fail id reason => some (.fail id reason)
  | .reportStopped id => some (.reportStopped id)
  | .preempt id reason => some (.preempt id reason)
  | .recover _ _ => none
  | .retry id => some (.retry id)

theorem submit_memory (store : MemoryRepository Cpu Mem) (now : Time) (id : String)
    (input : SubmitInput Cpu Mem) :
    submit memoryRepository store now id input =
      (domain (JobService.submit store now id input).1, (JobService.submit store now id input).2) := by
  unfold submit JobService.submit
  cases validateSubmit input <;> rfl

end Perform

end OrionQueue.Repositories
