import Mathlib.Algebra.Order.Group.Unbundled.Basic
import OrionQueue.Ledger
import OrionQueue.Worker

/-!
`scheduler.Plan` and `scheduler.PlanPreemptions`: pure functions of a snapshot
of jobs and workers. Go's map of commitments reads as zero where it has no
entry, so it is a total function of the worker ID. The stable sorts are
insertion sorts on the negated reverse comparison.
-/

namespace OrionQueue.Planner

open Jobs Workers

variable {Cpu Mem : Type}

def agingInterval : Int := 30 * 1000000000
def agingIncrement : Int := 1
def maxAgingBonus : Int := 20

/-- The largest `time.Duration`; `Time.Sub` saturates there. -/
def maxDuration : Int := 2 ^ 63 - 1

/-- Conversion to int32. -/
def wrapInt32 (value : Int) : Int := value.bmod (2 ^ 32)

def effectivePriority (priority : Int) (createdAt now : Time) : Int :=
  if now ≤ createdAt then priority
  else
    -- Positive here, so that Go's truncating division is Lean's.
    let waited := min (now - createdAt) maxDuration
    let bonus := wrapInt32 (wrapInt32 (waited / agingInterval) * agingIncrement)
    wrapInt32 (priority + if maxAgingBonus < bonus then maxAgingBonus else bonus)

def jobPriority (now : Time) (job : Job Cpu Mem) : Int :=
  effectivePriority job.priority job.createdAt now

/-- The states that `committedByWorker` counts as holding capacity. -/
def held : State → Bool
  | .scheduled | .running | .checkpointing => true
  | _ => false

structure CommittedResources (Cpu Mem : Type) where
  gpuCount : Int
  cpuCores : Cpu
  memoryBytes : Mem
  deriving DecidableEq

def CommittedResources.zero [Zero Cpu] [Zero Mem] : CommittedResources Cpu Mem := ⟨0, 0, 0⟩

def CommittedResources.add [Add Cpu] [Add Mem] (committed : CommittedResources Cpu Mem)
    (request : ResourceRequest Cpu Mem) : CommittedResources Cpu Mem where
  gpuCount := committed.gpuCount + request.gpuCount
  cpuCores := committed.cpuCores + request.cpuCores
  memoryBytes := committed.memoryBytes + request.memoryBytes

def CommittedResources.sub [Sub Cpu] [Sub Mem] (committed freed : CommittedResources Cpu Mem) :
    CommittedResources Cpu Mem where
  gpuCount := committed.gpuCount - freed.gpuCount
  cpuCores := committed.cpuCores - freed.cpuCores
  memoryBytes := committed.memoryBytes - freed.memoryBytes

abbrev Committed (Cpu Mem : Type) := String → CommittedResources Cpu Mem

def reserve [Add Cpu] [Add Mem] (committed : Committed Cpu Mem) (workerID : String)
    (request : ResourceRequest Cpu Mem) : Committed Cpu Mem :=
  fun other => if other = workerID then (committed other).add request else committed other

def commitJob [Add Cpu] [Add Mem] (committed : Committed Cpu Mem) (job : Job Cpu Mem) :
    Committed Cpu Mem :=
  if held job.state then
    job.assignedWorkerIDs.foldl (fun current id => reserve current id job.resources) committed
  else committed

def committedByWorker [Zero Cpu] [Add Cpu] [Zero Mem] [Add Mem] (activeJobs : List (Job Cpu Mem)) :
    Committed Cpu Mem :=
  activeJobs.foldl commitJob fun _ => .zero

def freeGPUCount [LE Mem] [DecidableLE Mem] (worker : Worker Cpu Mem) (minMemoryBytes : Mem)
    (committedGPUCount : Int) : Int :=
  let qualifying := (worker.gpus.filter fun gpu => minMemoryBytes ≤ gpu.totalMemoryBytes).length
  let free := (qualifying : Int) - committedGPUCount
  if free < 0 then 0 else free

def priorityLess (now : Time) (left right : Job Cpu Mem) : Bool :=
  if jobPriority now left ≠ jobPriority now right then jobPriority now right < jobPriority now left
  else if left.createdAt ≠ right.createdAt then left.createdAt < right.createdAt
  else left.id < right.id

def sortByEffectivePriority (now : Time) (queued : List (Job Cpu Mem)) : List (Job Cpu Mem) :=
  queued.insertionSort fun left right => priorityLess now right left = false

structure Candidate where
  workerID : String
  surplus : Int

def candidateLess (left right : Candidate) : Bool :=
  if left.surplus ≠ right.surplus then left.surplus < right.surplus
  else left.workerID < right.workerID

structure Assignment where
  jobID : String
  workerID : String
  reason : String
  deriving DecidableEq

def eligibleReason : String := "eligible worker found"

section Plan
variable [Zero Cpu] [Add Cpu] [Sub Cpu] [LT Cpu] [DecidableLT Cpu]
variable [Zero Mem] [Add Mem] [Sub Mem] [LT Mem] [DecidableLT Mem] [LE Mem] [DecidableLE Mem]

/-- One round of the loop over the workers in `selectWorker`. -/
def candidate (job : Job Cpu Mem) (committed : Committed Cpu Mem) (worker : Worker Cpu Mem) :
    Option Candidate :=
  let free := freeGPUCount worker job.resources.minGPUMemoryBytes (committed worker.id).gpuCount
  if worker.status ≠ .active then none
  else if worker.cpuCapacity - (committed worker.id).cpuCores < job.resources.cpuCores then none
  else if worker.memoryCapacityBytes - (committed worker.id).memoryBytes < job.resources.memoryBytes
    then none
  else if free < job.resources.gpuCount then none
  else some ⟨worker.id, free - job.resources.gpuCount⟩

def selectWorker (job : Job Cpu Mem) (activeWorkers : List (Worker Cpu Mem))
    (committed : Committed Cpu Mem) : Option String :=
  let candidates := activeWorkers.filterMap (candidate job committed)
  (candidates.insertionSort fun left right => candidateLess right left = false).head?.map
    Candidate.workerID

/-- The loop of Plan over the sorted queue: each placed job with its worker. -/
def placements (activeWorkers : List (Worker Cpu Mem)) :
    List (Job Cpu Mem) → Committed Cpu Mem → List (Job Cpu Mem × String)
  | [], _ => []
  | job :: rest, committed =>
      match selectWorker job activeWorkers committed with
      -- A job that fits nowhere does not hold up the ones behind it.
      | none => placements activeWorkers rest committed
      | some workerID =>
          (job, workerID) :: placements activeWorkers rest (reserve committed workerID job.resources)

def queue (activeJobs : List (Job Cpu Mem)) (now : Time) : List (Job Cpu Mem) :=
  sortByEffectivePriority now (activeJobs.filter fun job => job.state = .queued)

def planned (activeJobs : List (Job Cpu Mem)) (activeWorkers : List (Worker Cpu Mem)) (now : Time) :
    List (Job Cpu Mem × String) :=
  placements activeWorkers (queue activeJobs now) (committedByWorker activeJobs)

def plan (activeJobs : List (Job Cpu Mem)) (activeWorkers : List (Worker Cpu Mem)) (now : Time) :
    List Assignment :=
  (planned activeJobs activeWorkers now).map fun placed => ⟨placed.1.id, placed.2, eligibleReason⟩

end Plan

structure Preemption where
  jobID : String
  workerID : String
  reason : String
  deriving DecidableEq

def preemptionReason (jobID : String) : String :=
  "preempted to free resources for higher-priority job " ++ jobID

def jobByID (jobs : List (Job Cpu Mem)) (id : String) : Option (Job Cpu Mem) :=
  jobs.find? fun job => job.id = id

/-- A job assigned twice to one worker would be listed twice, as in Go. -/
def runningPreemptibleByWorker (activeJobs : List (Job Cpu Mem)) (workerID : String) :
    List (Job Cpu Mem) :=
  (activeJobs.filter fun job => job.state = .running && job.preemptible).flatMap fun job =>
    (job.assignedWorkerIDs.filter fun id => id = workerID).map fun _ => job

def victimLess (now : Time) (left right : Job Cpu Mem) : Bool :=
  if jobPriority now left ≠ jobPriority now right then jobPriority now left < jobPriority now right
  else left.id < right.id

section Preempt
variable [Zero Cpu] [Add Cpu] [Sub Cpu] [LT Cpu] [DecidableLT Cpu] [LE Cpu] [DecidableLE Cpu]
variable [Zero Mem] [Add Mem] [Sub Mem] [LT Mem] [DecidableLT Mem] [LE Mem] [DecidableLE Mem]

/-- What the job could take on a worker if `freed` came back as well. -/
def enough (free freed : CommittedResources Cpu Mem) (request : ResourceRequest Cpu Mem) : Bool :=
  request.cpuCores ≤ free.cpuCores + freed.cpuCores &&
    request.memoryBytes ≤ free.memoryBytes + freed.memoryBytes &&
    (request.gpuCount : Int) ≤ free.gpuCount + freed.gpuCount

def tooLittle (free freed : CommittedResources Cpu Mem) (request : ResourceRequest Cpu Mem) : Bool :=
  free.cpuCores + freed.cpuCores < request.cpuCores ||
    free.memoryBytes + freed.memoryBytes < request.memoryBytes ||
    free.gpuCount + freed.gpuCount < (request.gpuCount : Int)

def freeOn (committed : Committed Cpu Mem) (worker : Worker Cpu Mem) (minMemoryBytes : Mem) :
    CommittedResources Cpu Mem where
  gpuCount := freeGPUCount worker minMemoryBytes (committed worker.id).gpuCount
  cpuCores := worker.cpuCapacity - (committed worker.id).cpuCores
  memoryBytes := worker.memoryCapacityBytes - (committed worker.id).memoryBytes

def fitsNow (free : CommittedResources Cpu Mem) (request : ResourceRequest Cpu Mem) : Bool :=
  request.cpuCores ≤ free.cpuCores && request.memoryBytes ≤ free.memoryBytes &&
    (request.gpuCount : Int) ≤ free.gpuCount

/-- The loop over one worker's candidates, lowest priority first. -/
def collectVictims (now : Time) (pending : Job Cpu Mem) (free : CommittedResources Cpu Mem)
    (preempted : List String) :
    List (Job Cpu Mem) → List (Job Cpu Mem) → CommittedResources Cpu Mem →
      List (Job Cpu Mem) × CommittedResources Cpu Mem
  | [], victims, freed => (victims, freed)
  | cand :: rest, victims, freed =>
      if preempted.contains cand.id then collectVictims now pending free preempted rest victims freed
      -- The rest of the list has no lower priority.
      else if jobPriority now pending ≤ jobPriority now cand then (victims, freed)
      else if enough free (freed.add cand.resources) pending.resources then
        (victims ++ [cand], freed.add cand.resources)
      else collectVictims now pending free preempted rest (victims ++ [cand])
        (freed.add cand.resources)

structure PreemptionBooks (Cpu Mem : Type) where
  committed : Committed Cpu Mem
  preempted : List String
  preemptions : List Preemption

/-- The loop over the workers for one pending job; every `break` ends it. -/
def preemptFor (now : Time) (activeJobs : List (Job Cpu Mem)) (pending : Job Cpu Mem) :
    List (Worker Cpu Mem) → PreemptionBooks Cpu Mem → PreemptionBooks Cpu Mem
  | [], books => books
  | worker :: rest, books =>
      let free := freeOn books.committed worker pending.resources.minGPUMemoryBytes
      if worker.status ≠ .active then preemptFor now activeJobs pending rest books
      -- Room freed earlier in this pass is enough.
      else if fitsNow free pending.resources then books
      else
        let candidates := (runningPreemptibleByWorker activeJobs worker.id).insertionSort
          fun left right => victimLess now right left = false
        let (victims, freed) := collectVictims now pending free books.preempted candidates [] .zero
        if tooLittle free freed pending.resources then preemptFor now activeJobs pending rest books
        else
          { committed := fun id =>
              if id = worker.id then (books.committed id).sub freed else books.committed id
            preempted := books.preempted ++ victims.map Job.id
            preemptions := books.preemptions ++
              victims.map fun victim => ⟨victim.id, worker.id, preemptionReason pending.id⟩ }

def commitPlaced (activeJobs : List (Job Cpu Mem)) (placed : List Assignment)
    (committed : Committed Cpu Mem) : Committed Cpu Mem :=
  placed.foldl (fun current assignment =>
    match jobByID activeJobs assignment.jobID with
    | none => current
    | some job => reserve current assignment.workerID job.resources) committed

def planPreemptions (activeJobs : List (Job Cpu Mem)) (activeWorkers : List (Worker Cpu Mem))
    (placed : List Assignment) (now : Time) : List Preemption :=
  let pending := sortByEffectivePriority now (activeJobs.filter fun job =>
    job.state = .queued && !(placed.map Assignment.jobID).contains job.id)
  let start : PreemptionBooks Cpu Mem :=
    ⟨commitPlaced activeJobs placed (committedByWorker activeJobs), [], []⟩
  (pending.foldl (fun books job => preemptFor now activeJobs job activeWorkers books)
    start).preemptions

end Preempt

end OrionQueue.Planner
