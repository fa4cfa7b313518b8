import OrionQueue.CapacityRuns
import OrionQueue.FleetAgreement
import OrionQueue.GpuInventory
import OrionQueue.PreemptionTurns

/-!
The control plane as it is deployed: RunOnce, the expiration handlers, the clients and
the agents of `Cluster` on the tables of PostgreSQL, through the three repositories of
internal/persistence. Every step is one repository call, which is one transaction (the
device queries of ListActive apart; no call of this machine changes a device). The
machine does on the tables what `Cluster` does on the repositories in memory, step by
step, so that what holds of every run there holds of the tables.
-/

namespace OrionQueue.PostgresCluster

open Jobs JobService Workers Planner PlannerCapacity Cluster Capacity Runs
open JobTable (Collation SqlError storableText invalidByteSequence foreignKeyViolation)
open JobRepository (RepositoryError)

variable {Sched Cpu Mem : Type}

/-- A row of scheduling_decisions; every one of them is 'ASSIGNED'. -/
structure DecisionRow where
  jobID : String
  workerIDs : List String
  reason : String
  deriving DecidableEq

structure Tables (Cpu Mem : Type) where
  jobs : JobTable.Database Cpu Mem
  workers : WorkerTable.Database Cpu Mem
  decisions : List DecisionRow

/-- SchedulingDecisionRepository.Record. The table refers to the jobs by their IDs. -/
def record (tables : Tables Cpu Mem) (jobID workerID reason : String) :
    Except SqlError Unit × Tables Cpu Mem :=
  if [jobID, workerID, reason].all storableText then
    if (tables.jobs.find jobID).isSome then
      (.ok (), { tables with decisions := tables.decisions ++ [⟨jobID, [workerID], reason⟩] })
    else (.error foreignKeyViolation, tables)
  else (.error invalidByteSequence, tables)

/-- What RunOnce fails with, in the words it wraps the cause in. -/
inductive Problem where
  | jobs (context : String) (cause : RepositoryError)
  | workers (context : String) (cause : WorkerRepository.RepositoryError)
  | decisions (context : String) (cause : SqlError)

inductive Pass (Cpu Mem : Type) where
  | idle
  | listedJobs (jobs : List (Job Cpu Mem))
  | assigning (snapshot : Snapshot Cpu Mem) (rest : List Assignment) (result : Result)
  | recording (snapshot : Snapshot Cpu Mem) (assignment : Assignment) (rest : List Assignment)
      (result : Result)
  | preempting (rest : List Preemption) (result : Result)
  | returned (result : Result) (problem : Option Problem)

def lostRace : RepositoryError → Bool
  | .job problem => Cluster.lostRace problem
  | _ => false

inductive Handler where
  | idle
  | marked (workerID : String)
  | recovering (workerID : String) (pending : List String)

structure State (Sched Cpu Mem : Type) where
  tables : Tables Cpu Mem
  passes : Sched → Pass Cpu Mem
  handlers : Nat → Handler

section Machine
variable [AddCommGroup Cpu] [LinearOrder Cpu] [AddCommGroup Mem] [LinearOrder Mem]
variable {SortKey : Type} [LinearOrder SortKey] (collation : Collation SortKey)

def Pass.advance (preemptionEnabled : Bool) (now : Time) (tables : Tables Cpu Mem) :
    Pass Cpu Mem → Pass Cpu Mem × Tables Cpu Mem
  | .idle | .returned _ _ =>
      match JobRepository.listActive collation tables.jobs with
      | .error cause => (.returned ⟨0, 0, 0, 0⟩ (some (.jobs "scheduler: list active jobs" cause)), tables)
      | .ok jobs => (.listedJobs jobs, tables)
  | .listedJobs jobs =>
      match WorkerRepository.listActive collation tables.workers with
      | .error cause =>
          (.returned ⟨0, 0, 0, 0⟩ (some (.workers "scheduler: list active workers" cause)), tables)
      | .ok workers =>
          let snapshot : Snapshot Cpu Mem := ⟨jobs, workers, now⟩
          (.assigning snapshot snapshot.assignments ⟨snapshot.considered, 0, 0, 0⟩, tables)
  | .assigning snapshot (assignment :: rest) result =>
      match JobRepository.update tables.jobs assignment.jobID (assignUpdate [assignment.workerID]) with
      | (.ok _, jobs) =>
          (.recording snapshot assignment rest { result with assigned := result.assigned + 1 },
            { tables with jobs := jobs })
      | (.error cause, jobs) =>
          (if lostRace cause then
            .assigning snapshot rest { result with conflicted := result.conflicted + 1 }
          else .returned result (some (.jobs
            ("scheduler: assign job " ++ assignment.jobID ++ " to " ++ assignment.workerID) cause)),
            { tables with jobs := jobs })
  | .assigning snapshot [] result =>
      (if preemptionEnabled then
        .preempting
          (planPreemptions snapshot.jobs snapshot.workers snapshot.assignments snapshot.now) result
      else .returned result none, tables)
  | .recording snapshot assignment rest result =>
      match record tables assignment.jobID assignment.workerID assignment.reason with
      | (.ok (), after) => (.assigning snapshot rest result, after)
      | (.error cause, after) =>
          (.returned result (some (.decisions
            ("scheduler: record decision for job " ++ assignment.jobID) cause)), after)
  | .preempting (preemption :: rest) result =>
      match JobRepository.update tables.jobs preemption.jobID (preemptUpdate preemption.reason) with
      | (.ok _, jobs) =>
          (.preempting rest { result with preempted := result.preempted + 1 },
            { tables with jobs := jobs })
      | (.error cause, jobs) =>
          (if lostRace cause then .preempting rest result
          else .returned result (some (.jobs ("scheduler: preempt job " ++ preemption.jobID) cause)),
            { tables with jobs := jobs })
  | .preempting [] result => (.returned result none, tables)

/-- What a client's or an agent's call does to the jobs. -/
def execute (now : Time) (jobs : JobTable.Database Cpu Mem) : Op Cpu Mem → JobTable.Database Cpu Mem
  | .recover workerID id => (JobRepository.update jobs id (recoverUpdate now workerID)).2
  | op =>
      match Repositories.operationOf op with
      | some operation =>
          (Repositories.perform (Repositories.jobRepository collation) (fun _ => now) jobs operation).2
      | none => jobs

def callable (jobs : JobTable.Database Cpu Mem) : Op Cpu Mem → Bool
  | .assignToWorkers _ _ => false
  | .submit id _ => (jobs.find id).isNone
  | _ => true

/-- MarkLost has been answered: LoseWorker lists the jobs and then updates one at a time. -/
def Handler.advance (now : Time) (jobs : JobTable.Database Cpu Mem) :
    Handler → Option (Handler × JobTable.Database Cpu Mem)
  | .idle => none
  | .marked workerID =>
      match JobRepository.listActive collation jobs with
      | .error _ => some (.idle, jobs)
      | .ok active => some (.recovering workerID ((lostJobs workerID active).map Job.id), jobs)
  | .recovering _ [] => some (.idle, jobs)
  | .recovering workerID (id :: rest) =>
      match JobRepository.update jobs id (recoverUpdate now workerID) with
      | (.error _, after) => some (.idle, after)
      | (.ok _, after) => some (.recovering workerID rest, after)

variable [DecidableEq Sched]

def step (preemptionEnabled : Bool) (state : State Sched Cpu Mem) :
    Label Sched Cpu Mem → Option (State Sched Cpu Mem)
  | .schedule scheduler now =>
      let next := (state.passes scheduler).advance collation preemptionEnabled now state.tables
      some { state with tables := next.2, passes := Function.update state.passes scheduler next.1 }
  | .abandon scheduler =>
      some { state with passes := Function.update state.passes scheduler .idle }
  | .call now op =>
      if callable state.tables.jobs op then
        some { state with
          tables := { state.tables with jobs := execute collation now state.tables.jobs op } }
      else none
  | .heartbeat now workerID newLeaseID runningJobIDs =>
      some { state with
        tables := { state.tables with
          workers := (WorkerRepository.update state.tables.workers workerID
            (heartbeatUpdate now newLeaseID none runningJobIDs)).2 } }
  | .expire handler workerID =>
      match state.handlers handler,
          WorkerRepository.update state.tables.workers workerID markLostUpdate with
      | .idle, (.ok _, workers) =>
          some { state with
            tables := { state.tables with workers := workers }
            handlers := Function.update state.handlers handler (.marked workerID) }
      | .idle, (.error _, _) => some state
      | _, _ => none
  | .handle handler now =>
      ((state.handlers handler).advance collation now state.tables.jobs).map fun next =>
        { state with
          tables := { state.tables with jobs := next.2 }
          handlers := Function.update state.handlers handler next.1 }

end Machine

/-! ### The two machines side by side -/

structure StoreAlike (tables : Tables Cpu Mem) (store : Store Cpu Mem) : Prop where
  jobs : StoreAgreement.Mirrors store.jobs tables.jobs
  workers : FleetAgreement.Mirrors store.workers tables.workers
  decisions : tables.decisions =
    store.decisions.map fun decision => ⟨decision.jobID, [decision.workerID], decision.reason⟩

/-- The texts of the decision can be sent to the server. -/
def Sendable (assignment : Assignment) : Prop :=
  [assignment.jobID, assignment.workerID, assignment.reason].all storableText = true

structure SnapshotAlike (snapshot snapshot' : Snapshot Cpu Mem) : Prop where
  jobs : snapshot.jobs = snapshot'.jobs
  workers : snapshot.workers = snapshot'.workers.map FleetAgreement.canonical
  now : snapshot.now = snapshot'.now
  texts : ∀ job ∈ snapshot'.jobs, storableText job.id = true

/-- Two passes at the same point. What the one has yet to write, the server will take. -/
inductive PassAlike (jobs : JobStore.MemoryRepository Cpu Mem) :
    Pass Cpu Mem → Cluster.Pass Cpu Mem → Prop
  | idle : PassAlike jobs .idle .idle
  | listedJobs {listed : List (Job Cpu Mem)} (texts : ∀ job ∈ listed, storableText job.id = true) :
      PassAlike jobs (.listedJobs listed) (.listedJobs listed)
  | assigning {snapshot snapshot' : Snapshot Cpu Mem} {rest : List Assignment} {result : Result}
      (same : SnapshotAlike snapshot snapshot') (texts : ∀ assignment ∈ rest, Sendable assignment) :
      PassAlike jobs (.assigning snapshot rest result) (.assigning snapshot' rest result)
  | recording {snapshot snapshot' : Snapshot Cpu Mem} {assignment : Assignment}
      {rest : List Assignment} {result : Result} (same : SnapshotAlike snapshot snapshot')
      (own : Sendable assignment) (known : jobs.find assignment.jobID ≠ none)
      (texts : ∀ assignment ∈ rest, Sendable assignment) :
      PassAlike jobs (.recording snapshot assignment rest result)
        (.recording snapshot' assignment rest result)
  | preempting {rest : List Preemption} {result : Result}
      (texts : ∀ preemption ∈ rest, storableText preemption.jobID = true ∧
        storableText preemption.reason = true) :
      PassAlike jobs (.preempting rest result) (.preempting rest result)
  | returned {result : Result} {problem : Option Problem} {problem' : Option JobError}
      (both : problem.isSome = problem'.isSome) :
      PassAlike jobs (.returned result problem) (.returned result problem')

inductive HandlerAlike : Handler → Cluster.Handler Cpu Mem → Prop
  | idle : HandlerAlike .idle .idle
  | marked {workerID : String} (text : storableText workerID = true) :
      HandlerAlike (.marked workerID) (.marked workerID)
  | recovering {call : Recovery.Call Cpu Mem} (text : storableText call.workerID = true)
      (texts : ∀ id ∈ call.pending, storableText id = true) :
      HandlerAlike (.recovering call.workerID call.pending) (.recovering call)

structure Alike (state : State Sched Cpu Mem) (cluster : Cluster.State Sched Cpu Mem) : Prop where
  store : StoreAlike state.tables cluster.store
  passes : ∀ scheduler,
    PassAlike cluster.store.jobs (state.passes scheduler) (cluster.passes scheduler)
  handlers : ∀ handler, HandlerAlike (state.handlers handler) (cluster.handlers handler)

/-- No job disappears. -/
def Grows (before after : JobStore.MemoryRepository Cpu Mem) : Prop :=
  ∀ id, before.find id ≠ none → after.find id ≠ none

theorem PassAlike.grows {before after : JobStore.MemoryRepository Cpu Mem} (grows : Grows before after)
    {pass : Pass Cpu Mem} {pass' : Cluster.Pass Cpu Mem} (alike : PassAlike before pass pass') :
    PassAlike after pass pass' := by
  cases alike with
  | idle => exact .idle
  | listedJobs texts => exact .listedJobs texts
  | assigning same texts => exact .assigning same texts
  | recording same own known texts => exact .recording same own (grows _ known) texts
  | preempting texts => exact .preempting texts
  | returned both => exact .returned both

section Advance
variable {tables : Tables Cpu Mem} {store : Store Cpu Mem}

variable [AddCommGroup Cpu] [LinearOrder Cpu] [AddCommGroup Mem] [LinearOrder Mem]

end Advance

/-! ### Whole runs -/

def opTexts : Op Cpu Mem → List String
  | .recover workerID id => [workerID, id]
  | op => ((Repositories.operationOf op).map Interchange.textsOf).getD []

/-- What the server takes: times of whole microseconds and texts without NUL. A pass sends
neither a time nor a text that it has not read from the tables. -/
def Accepted : Label Sched Cpu Mem → Prop
  | .schedule _ _ | .abandon _ => True
  | .call now op => 1000 ∣ now ∧ ∀ text ∈ opTexts op, storableText text = true
  | .heartbeat now workerID _ runningJobIDs =>
      1000 ∣ now ∧ storableText workerID = true ∧
        ∀ ids ∈ runningJobIDs, ∀ id ∈ ids, storableText id = true
  | .expire _ workerID => storableText workerID = true
  | .handle _ now => 1000 ∣ now

section Steps
variable {state next : State Sched Cpu Mem} {cluster : Cluster.State Sched Cpu Mem}

variable [AddCommGroup Cpu] [LinearOrder Cpu] [AddCommGroup Mem] [LinearOrder Mem]

variable [DecidableEq Sched] {preemptionEnabled : Bool}

end Steps

/-! ### From the registrations on -/

section Runs
variable [AddCommGroup Cpu] [LinearOrder Cpu] [AddCommGroup Mem] [LinearOrder Mem]

def register (workers : WorkerTable.Database Cpu Mem) (call : Registration Cpu Mem) :
    WorkerTable.Database Cpu Mem :=
  match validateRegister call.input with
  | .error _ => workers
  | .ok () =>
      (WorkerRepository.create workers (registered call.now call.id call.leaseID call.input)).2

def registerAll (calls : List (Registration Cpu Mem)) : WorkerTable.Database Cpu Mem :=
  calls.foldl register WorkerTable.Database.empty

def State.start (calls : List (Registration Cpu Mem)) : State Sched Cpu Mem :=
  ⟨⟨JobTable.Database.empty, registerAll calls, []⟩, fun _ => .idle, fun _ => .idle⟩

variable [DecidableEq Sched]

end Runs

section Capacity

variable [AddCommGroup Cpu] [LinearOrder Cpu] [AddCommGroup Mem] [LinearOrder Mem]

end Capacity

end OrionQueue.PostgresCluster
