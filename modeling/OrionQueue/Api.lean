import OrionQueue.Reports
import OrionQueue.Repositories
import OrionQueue.Worker

/-!
internal/api over the two repositories in memory: the twelve RPCs of JobService and
WorkerService, with the messages they take and return and the statuses they answer.
A request finds the state of the server and what its environment tells it, which is
the clock, the IDs that the generators hand out and a lease manager that does not
fail. Every conversion between messages and domain records is here.
-/

namespace OrionQueue.Workers

open Jobs JobListing PageTokens
open JobStore.MemoryRepository (offsetOf)

variable {Cpu Mem : Type}

/-- workers.ListOptions; the filter is the name of a status, or nothing. -/
structure ListOptions where
  pageSize : Int
  pageToken : String
  statusFilter : String

structure ListResult (Cpu Mem : Type) where
  workers : List (Worker Cpu Mem)
  nextPageToken : String

/-- An error of the workers package, or "invalid page_token". -/
inductive ServiceError where
  | worker (problem : WorkerError)
  | pageToken (problem : TokenError)

/-- The page at the offset of the token, in the order of registration. -/
def MemoryRepository.list (repo : MemoryRepository Cpu Mem) (options : ListOptions) :
    Except ServiceError (ListResult Cpu Mem) :=
  let matching := (Tables.values repo.workersByID).filter fun worker =>
    options.statusFilter = "" || worker.status.name = options.statusFilter
  let all := matching.insertionSort fun left right => registrationLess right left = false
  match offsetOf options.pageToken with
  | .error problem => .error (.pageToken problem)
  | .ok requested =>
      let offset := if requested < 0 ∨ all.length < requested then all.length else requested.toNat
      let last := min (offset + pageSizeOf options.pageSize) all.length
      .ok
        { workers := (all.drop offset).take (last - offset)
          nextPageToken := if last < all.length then encodePageToken last else "" }

/-- Service.Heartbeat. Renew succeeds or answers ErrLeaseNotFound; a Grant gives `leaseID`. -/
def heartbeat (repo : MemoryRepository Cpu Mem) (now : Time) (renewed : Bool) (leaseID : LeaseID)
    (workerID : String) (gpus : Option (List (GPU Cpu Mem)))
    (runningJobIDs : Option (List String)) :
    Except WorkerError (Worker Cpu Mem) × MemoryRepository Cpu Mem :=
  match repo.get workerID with
  | .error problem => (.error problem, repo)
  | .ok current =>
      let newLeaseID := if current.leaseID.isSome && renewed then none else some leaseID
      repo.update workerID (heartbeatUpdate now newLeaseID gpus runningJobIDs)

def heartbeatFractionOfTTL : Int := 4

/-- In nanoseconds, as a time.Duration. -/
def heartbeatInterval (leaseTTL : Int) : Int :=
  max (leaseTTL.tdiv heartbeatFractionOfTTL) 1000000000

end OrionQueue.Workers

namespace OrionQueue.Api

open Jobs JobListing PageTokens JobService JobRepository
open Workers hiding Status
open Reports (Status Code Report handleReport)

variable {Cpu Mem : Type}

/-! ### Messages -/

namespace Pb

structure Job (Cpu Mem : Type) where
  id : String
  name : String
  owner : String
  image : String
  command : List String
  resources : ResourceRequest Cpu Mem
  priority : Int
  preemptible : Bool
  retryLimit : Int
  currentAttempt : Int
  timeoutSeconds : Int
  checkpointIntervalSeconds : Int
  state : Int
  assignedWorkerIDs : List String
  failureReason : String
  createdAt : Time
  startedAt : Option Time
  completedAt : Option Time
  failedAt : Option Time

structure GPU (Cpu Mem : Type) where
  id : String
  deviceIndex : Int
  uuid : String
  totalMemoryBytes : Mem
  allocatedMemoryBytes : Mem
  utilizationPercent : Cpu
  temperatureCelsius : Option Cpu
  migProfile : String
  healthState : Int

structure Worker (Cpu Mem : Type) where
  id : String
  hostname : String
  status : Int
  cpuCapacity : Cpu
  memoryCapacityBytes : Mem
  gpus : List (GPU Cpu Mem)
  softwareVersion : String
  labels : List (String × String)
  runningJobIDs : List String
  registeredAt : Time
  lastHeartbeatAt : Time

structure SubmitJobRequest (Cpu Mem : Type) where
  name : String
  owner : String
  image : String
  command : List String
  resources : Option (ResourceRequest Cpu Mem)
  priority : Int
  preemptible : Bool
  retryLimit : Int
  timeoutSeconds : Int
  checkpointIntervalSeconds : Int
  submissionID : String

/-- ListJobsRequest and ListWorkersRequest; the filter is a number of an open enum. -/
structure ListRequest where
  pageSize : Int
  pageToken : String
  filter : Int

structure ListJobsResponse (Cpu Mem : Type) where
  jobs : List (Job Cpu Mem)
  nextPageToken : String

structure RegisterWorkerRequest (Cpu Mem : Type) where
  hostname : String
  cpuCapacity : Cpu
  memoryCapacityBytes : Mem
  gpus : List (GPU Cpu Mem)
  softwareVersion : String
  labels : List (String × String)

structure WorkerHeartbeatRequest (Cpu Mem : Type) where
  workerID : String
  gpus : List (GPU Cpu Mem)
  runningJobIDs : List String

structure WorkerHeartbeatResponse (Cpu Mem : Type) where
  worker : Worker Cpu Mem
  assignedJobs : List (Job Cpu Mem)
  stopJobIDs : List String

end Pb

/-- A repeated field without elements is decoded as a nil slice. -/
def decodeRepeated {Item : Type} (items : List Item) : Option (List Item) :=
  if items.isEmpty then none else some items

/-! ### Conversions -/

def pbStateToDomain : List (Int × State) :=
  [(1, .queued), (2, .scheduled), (3, .running), (4, .checkpointing), (5, .succeeded), (6, .failed),
    (7, .retrying), (8, .cancelRequested), (9, .cancelled), (10, .preempted), (11, .lost)]

def pbWorkerStatusToDomain : List (Int × Workers.Status) := [(1, .active), (2, .lost)]

def pbHealthStateToDomain : List (Int × GPUHealthState) :=
  [(1, .healthy), (2, .degraded), (3, .unhealthy)]

def invert {Value : Type} (table : List (Int × Value)) : List (Value × Int) := table.map Prod.swap

def domainStateToPB : List (State × Int) := invert pbStateToDomain

def domainWorkerStatusToPB : List (Workers.Status × Int) := invert pbWorkerStatusToDomain

def domainHealthStateToPB : List (GPUHealthState × Int) := invert pbHealthStateToDomain

def resourcesToDomain [Zero Cpu] [Zero Mem] :
    Option (ResourceRequest Cpu Mem) → ResourceRequest Cpu Mem
  | none => ⟨0, 0, 0, 0⟩
  | some resources => resources

/-- A number that is not in the map gives the zero value of the enum. -/
def jobToProto (job : Job Cpu Mem) : Pb.Job Cpu Mem where
  id := job.id
  name := job.name
  owner := job.owner
  image := job.image
  command := job.command
  resources := job.resources
  priority := job.priority
  preemptible := job.preemptible
  retryLimit := job.retryLimit
  currentAttempt := job.currentAttempt
  timeoutSeconds := job.timeoutSeconds
  checkpointIntervalSeconds := job.checkpointIntervalSeconds
  state := (domainStateToPB.lookup job.state).getD 0
  assignedWorkerIDs := job.assignedWorkerIDs
  failureReason := job.failureReason
  createdAt := job.createdAt
  startedAt := job.startedAt
  completedAt := job.completedAt
  failedAt := job.failedAt

def gpuToDomain (gpu : Pb.GPU Cpu Mem) : GPU Cpu Mem where
  -- The ID of the message is not taken over.
  id := ""
  deviceIndex := gpu.deviceIndex
  uuid := gpu.uuid
  totalMemoryBytes := gpu.totalMemoryBytes
  allocatedMemoryBytes := gpu.allocatedMemoryBytes
  utilizationPercent := gpu.utilizationPercent
  temperatureCelsius := gpu.temperatureCelsius
  migProfile := gpu.migProfile
  healthState := (pbHealthStateToDomain.lookup gpu.healthState).getD .healthy

def gpusToDomain (gpus : Option (List (Pb.GPU Cpu Mem))) : Option (List (GPU Cpu Mem)) :=
  gpus.map fun list => list.map gpuToDomain

def gpuToProto (gpu : GPU Cpu Mem) : Pb.GPU Cpu Mem where
  id := gpu.id
  deviceIndex := gpu.deviceIndex
  uuid := gpu.uuid
  totalMemoryBytes := gpu.totalMemoryBytes
  allocatedMemoryBytes := gpu.allocatedMemoryBytes
  utilizationPercent := gpu.utilizationPercent
  temperatureCelsius := gpu.temperatureCelsius
  migProfile := gpu.migProfile
  healthState := (domainHealthStateToPB.lookup gpu.healthState).getD 0

def workerToProto (worker : Worker Cpu Mem) : Pb.Worker Cpu Mem where
  id := worker.id
  hostname := worker.hostname
  status := (domainWorkerStatusToPB.lookup worker.status).getD 0
  cpuCapacity := worker.cpuCapacity
  memoryCapacityBytes := worker.memoryCapacityBytes
  gpus := worker.gpus.map gpuToProto
  softwareVersion := worker.softwareVersion
  labels := worker.labels
  runningJobIDs := worker.runningJobIDs
  registeredAt := worker.registeredAt
  lastHeartbeatAt := worker.lastHeartbeatAt

/-! ### Handlers -/

structure Server (Cpu Mem : Type) where
  jobs : JobStore.MemoryRepository Cpu Mem
  workers : Workers.MemoryRepository Cpu Mem
  leaseTTL : Int

structure Environment where
  now : Time
  newID : String
  leaseID : LeaseID
  renewed : Bool

inductive Request (Cpu Mem : Type) where
  | submitJob (request : Pb.SubmitJobRequest Cpu Mem)
  | getJob (id : String)
  | listJobs (request : Pb.ListRequest)
  | cancelJob (id : String)
  | retryJob (id : String)
  /-- ReportJobStarted, ReportJobCompleted, ReportJobFailed and ReportJobStopped. -/
  | report (report : Report)
  | registerWorker (request : Pb.RegisterWorkerRequest Cpu Mem)
  | workerHeartbeat (request : Pb.WorkerHeartbeatRequest Cpu Mem)
  | listWorkers (request : Pb.ListRequest)

inductive Response (Cpu Mem : Type) where
  | job (job : Pb.Job Cpu Mem)
  | jobs (response : Pb.ListJobsResponse Cpu Mem)
  | registered (worker : Pb.Worker Cpu Mem) (heartbeatIntervalSeconds : Int)
  | heartbeat (response : Pb.WorkerHeartbeatResponse Cpu Mem)
  | workers (workers : List (Pb.Worker Cpu Mem)) (nextPageToken : String)

/-- JobServer.toStatus. -/
def jobStatus : RepositoryError → Status
  | .job problem => Reports.toStatus problem
  | _ => ⟨.internal, "internal error"⟩

/-- WorkerServer.toStatus. -/
def workerStatus : ServiceError → Status
  | .worker (.validation problems) =>
      ⟨.invalidArgument, (WorkerError.validation problems).message⟩
  | .worker .notFound => ⟨.notFound, WorkerError.notFound.message⟩
  | .pageToken _ => ⟨.internal, "internal error"⟩

def missing (field : String) : Status := ⟨.invalidArgument, field ++ " must not be empty"⟩

/-- What a handler makes of the job its service call returns. -/
def jobResponse : Except JobError (Job Cpu Mem) → Except Status (Response Cpu Mem)
  | .error problem => .error (jobStatus (.job problem))
  | .ok job => .ok (.job (jobToProto job))

def listJobs (jobs : JobStore.MemoryRepository Cpu Mem) (request : Pb.ListRequest) :
    Except Status (Pb.ListJobsResponse Cpu Mem) :=
  let stateFilter :=
    -- Go's map gives "" for a number it does not have, and "" is no filter.
    if request.filter ≠ 0 then ((pbStateToDomain.lookup request.filter).map State.name).getD "" else ""
  match jobs.list ⟨request.pageSize, request.pageToken, stateFilter⟩ with
  | .error problem => .error (jobStatus problem)
  | .ok result => .ok ⟨result.jobs.map jobToProto, result.nextPageToken⟩

def listWorkers (workers : Workers.MemoryRepository Cpu Mem) (request : Pb.ListRequest) :
    Except Status (Response Cpu Mem) :=
  let statusFilter :=
    if request.filter ≠ 0 then
      ((pbWorkerStatusToDomain.lookup request.filter).map Workers.Status.name).getD "" else ""
  match workers.list ⟨request.pageSize, request.pageToken, statusFilter⟩ with
  | .error problem => .error (workerStatus problem)
  | .ok result => .ok (.workers (result.workers.map workerToProto) result.nextPageToken)

def workerHeartbeat (env : Environment) (server : Server Cpu Mem)
    (request : Pb.WorkerHeartbeatRequest Cpu Mem) :
    Except Status (Pb.WorkerHeartbeatResponse Cpu Mem) × Server Cpu Mem :=
  if request.workerID = "" then (.error (missing "worker_id"), server)
  else
    match heartbeat server.workers env.now env.renewed env.leaseID request.workerID
        (gpusToDomain (decodeRepeated request.gpus)) (decodeRepeated request.runningJobIDs) with
    | (.error problem, workers) =>
        (.error (workerStatus (.worker problem)), { server with workers := workers })
    | (.ok worker, workers) =>
        (.ok
          { worker := workerToProto worker
            assignedJobs := (listAssignedToWorker server.jobs request.workerID).map jobToProto
            stopJobIDs := (listStoppableForWorker server.jobs request.workerID).map Job.id },
          { server with workers := workers })

section Serve
variable [Zero Cpu] [LT Cpu] [DecidableLT Cpu] [Zero Mem] [LT Mem] [DecidableLT Mem]

def submitInput (request : Pb.SubmitJobRequest Cpu Mem) : SubmitInput Cpu Mem where
  name := request.name
  owner := request.owner
  image := request.image
  command := request.command
  resources := resourcesToDomain request.resources
  priority := request.priority
  preemptible := request.preemptible
  retryLimit := request.retryLimit
  timeoutSeconds := request.timeoutSeconds
  checkpointIntervalSeconds := request.checkpointIntervalSeconds
  submissionID := request.submissionID

def registerInput (request : Pb.RegisterWorkerRequest Cpu Mem) : RegisterInput Cpu Mem where
  hostname := request.hostname
  cpuCapacity := request.cpuCapacity
  memoryCapacityBytes := request.memoryCapacityBytes
  gpus := request.gpus.map gpuToDomain
  softwareVersion := request.softwareVersion
  labels := request.labels

def serve (env : Environment) (server : Server Cpu Mem) :
    Request Cpu Mem → Except Status (Response Cpu Mem) × Server Cpu Mem
  | .submitJob request =>
      let answer := JobService.submit server.jobs env.now env.newID (submitInput request)
      (jobResponse answer.1, { server with jobs := answer.2 })
  | .getJob id =>
      if id = "" then (.error (missing "id"), server)
      else (jobResponse (server.jobs.get id), server)
  | .listJobs request => ((listJobs server.jobs request).map .jobs, server)
  | .cancelJob id =>
      if id = "" then (.error (missing "id"), server)
      else (jobResponse (cancel server.jobs env.now id).1,
        { server with jobs := (cancel server.jobs env.now id).2 })
  | .retryJob id =>
      if id = "" then (.error (missing "id"), server)
      else (jobResponse (retry server.jobs id).1, { server with jobs := (retry server.jobs id).2 })
  | .report report =>
      let answer := handleReport server.jobs env.now report
      (answer.1.map fun job => .job (jobToProto job), { server with jobs := answer.2 })
  | .registerWorker request =>
      match register server.workers ⟨env.now, env.newID, env.leaseID, registerInput request⟩ with
      | (.error problem, workers) =>
          (.error (workerStatus (.worker problem)), { server with workers := workers })
      | (.ok worker, workers) =>
          (.ok (.registered (workerToProto worker)
            ((heartbeatInterval server.leaseTTL).tdiv 1000000000)), { server with workers := workers })
  | .workerHeartbeat request =>
      ((workerHeartbeat env server request).1.map .heartbeat, (workerHeartbeat env server request).2)
  | .listWorkers request => (listWorkers server.workers request, server)

end Serve

/-! ### What a client may be answered -/

/-- OK, or a status that the client can act on. -/
def Expected {Answer : Type} : Except Status Answer → Prop
  | .ok _ => True
  | .error status =>
      status.code = .invalidArgument ∨ status.code = .notFound ∨ status.code = .failedPrecondition

def readableToken (pageToken : String) : Bool :=
  pageToken = "" || (decodePageToken pageToken).isOk

/-- A page token of the client, if there is one, can be decoded. -/
def readable : Request Cpu Mem → Bool
  | .listJobs request | .listWorkers request => readableToken request.pageToken
  | _ => true

theorem expected_map {Answer Other : Type} {answer : Except Status Answer} {build : Answer → Other} :
    Expected (answer.map build) ↔ Expected answer := by
  cases answer <;> rfl

theorem missing_expected {Answer : Type} (field : String) :
    Expected (.error (missing field) : Except Status Answer) :=
  Or.inl rfl

theorem toStatus_expected {Answer : Type} (problem : JobError) :
    Expected (.error (Reports.toStatus problem) : Except Status Answer) := by
  cases problem with
  | validation problems => exact Or.inl rfl
  | notFound => exact Or.inr (Or.inl rfl)
  | invalidState detail | retryLimitExceeded detail => exact Or.inr (Or.inr rfl)

theorem jobResponse_expected (answer : Except JobError (Job Cpu Mem)) :
    Expected (jobResponse answer) := by
  cases answer with
  | error problem => exact toStatus_expected problem
  | ok job => trivial

theorem workerStatus_expected {Answer : Type} (problem : WorkerError) :
    Expected (.error (workerStatus (.worker problem)) : Except Status Answer) := by
  cases problem with
  | validation problems => exact Or.inl rfl
  | notFound => exact Or.inr (Or.inl rfl)

theorem handleReport_expected (jobs : JobStore.MemoryRepository Cpu Mem) (now : Time)
    (report : Report) : Expected (handleReport jobs now report).1 := by
  unfold handleReport
  split
  · exact Or.inl rfl
  · split
    · exact toStatus_expected _
    · trivial

theorem workerHeartbeat_expected (env : Environment) (server : Server Cpu Mem)
    (request : Pb.WorkerHeartbeatRequest Cpu Mem) :
    Expected (workerHeartbeat env server request).1 := by
  unfold workerHeartbeat
  split
  · exact missing_expected _
  · split
    · exact workerStatus_expected _
    · trivial

/-- The token is the only part of a listing that can be refused. -/
theorem offsetOf_ok {pageToken : String} :
    (∃ offset, JobStore.MemoryRepository.offsetOf pageToken = .ok offset) ↔
      readableToken pageToken = true := by
  unfold JobStore.MemoryRepository.offsetOf readableToken
  by_cases empty : pageToken = ""
  · simp [empty]
  · rw [if_neg empty]
    cases decodePageToken pageToken <;> simp [empty, Except.isOk, Except.toBool]

theorem listJobs_expected (jobs : JobStore.MemoryRepository Cpu Mem) (request : Pb.ListRequest) :
    Expected (listJobs jobs request) ↔ readableToken request.pageToken = true := by
  rw [← offsetOf_ok]
  simp only [listJobs, JobStore.MemoryRepository.list]
  cases JobStore.MemoryRepository.offsetOf request.pageToken with
  | error problem => simp [Expected, jobStatus]
  | ok offset => simp [Expected]

theorem listWorkers_expected (workers : Workers.MemoryRepository Cpu Mem)
    (request : Pb.ListRequest) :
    Expected (listWorkers workers request) ↔ readableToken request.pageToken = true := by
  rw [← offsetOf_ok]
  simp only [listWorkers, Workers.MemoryRepository.list]
  cases JobStore.MemoryRepository.offsetOf request.pageToken with
  | error problem => simp [Expected, workerStatus]
  | ok offset => simp [Expected]

section Results
variable [Zero Cpu] [LT Cpu] [DecidableLT Cpu] [Zero Mem] [LT Mem] [DecidableLT Mem]

theorem status_expected_iff (env : Environment) (server : Server Cpu Mem)
    (request : Request Cpu Mem) :
    Expected (serve env server request).1 ↔ readable request = true := by
  cases request with
  | listJobs request =>
      simp only [serve, expected_map, readable]
      exact listJobs_expected server.jobs request
  | listWorkers request =>
      simp only [serve, readable]
      exact listWorkers_expected server.workers request
  | submitJob request =>
      refine iff_of_true ?_ rfl
      simp only [serve]
      exact jobResponse_expected _
  | getJob id | cancelJob id | retryJob id =>
      refine iff_of_true ?_ rfl
      simp only [serve]
      split
      · exact missing_expected _
      · exact jobResponse_expected _
  | report report =>
      refine iff_of_true ?_ rfl
      simp only [serve, expected_map]
      exact handleReport_expected server.jobs env.now report
  | registerWorker request =>
      refine iff_of_true ?_ rfl
      simp only [serve]
      split
      · exact workerStatus_expected _
      · trivial
  | workerHeartbeat request =>
      refine iff_of_true ?_ rfl
      simp only [serve, expected_map]
      exact workerHeartbeat_expected env server request

end Results

/-- A token that no server made, at a server that has nothing to list. -/
theorem unreadable_token_is_internal :
    (serve ⟨0, "", 0, true⟩ (⟨.empty, .empty, 20000000000⟩ : Server Int Int)
      (.listJobs ⟨0, "!", 0⟩)).1 = .error ⟨.internal, "internal error"⟩ := by
  rfl

end OrionQueue.Api
