import OrionQueue.Planner

/-!
Plan and PlanPreemptions with the arithmetic left open. GPUs are counted in Go's
int and memory in int64; every sum and difference of them goes through an
`Arithmetic`, which wraps around as the machine does, or gives up where the machine
would. What is done with the numbers is word for word what the planner with
unbounded integers does.
-/

namespace OrionQueue.MachinePlanner

open Jobs Workers Planner

/-- What becomes of an exact result. -/
abbrev Arithmetic := Int → Option Int

def InRange (value : Int) : Prop := -2 ^ 63 ≤ value ∧ value < 2 ^ 63

instance (value : Int) : Decidable (InRange value) := inferInstanceAs (Decidable (_ ∧ _))

/-- 64-bit integers in two's complement. -/
def wrapping : Arithmetic := fun value => some (value.bmod (2 ^ 64))

/-- No result where 64 bits overflow. -/
def checked : Arithmetic := fun value => if InRange value then some value else none

variable {Cpu : Type} (int : Arithmetic)

def add [Add Cpu] (committed : CommittedResources Cpu Int) (request : ResourceRequest Cpu Int) :
    Option (CommittedResources Cpu Int) := do
  let gpuCount ← int (committed.gpuCount + request.gpuCount)
  let memoryBytes ← int (committed.memoryBytes + request.memoryBytes)
  return ⟨gpuCount, committed.cpuCores + request.cpuCores, memoryBytes⟩

def sub [Sub Cpu] (committed freed : CommittedResources Cpu Int) :
    Option (CommittedResources Cpu Int) := do
  let gpuCount ← int (committed.gpuCount - freed.gpuCount)
  let memoryBytes ← int (committed.memoryBytes - freed.memoryBytes)
  return ⟨gpuCount, committed.cpuCores - freed.cpuCores, memoryBytes⟩

/-- What is free on a worker together with what would be freed there. -/
def together [Add Cpu] (free freed : CommittedResources Cpu Int) :
    Option (CommittedResources Cpu Int) := do
  let gpuCount ← int (free.gpuCount + freed.gpuCount)
  let memoryBytes ← int (free.memoryBytes + freed.memoryBytes)
  return ⟨gpuCount, free.cpuCores + freed.cpuCores, memoryBytes⟩

def reserve [Add Cpu] (committed : Committed Cpu Int) (workerID : String)
    (request : ResourceRequest Cpu Int) : Option (Committed Cpu Int) := do
  let entry ← add int (committed workerID) request
  return fun other => if other = workerID then entry else committed other

def commitJob [Add Cpu] (committed : Committed Cpu Int) (job : Job Cpu Int) :
    Option (Committed Cpu Int) :=
  if held job.state then
    job.assignedWorkerIDs.foldlM (fun current id => reserve int current id job.resources) committed
  else some committed

def committedByWorker [Zero Cpu] [Add Cpu] (activeJobs : List (Job Cpu Int)) :
    Option (Committed Cpu Int) :=
  activeJobs.foldlM (commitJob int) fun _ => .zero

def freeGPUCount (worker : Worker Cpu Int) (minMemoryBytes committedGPUCount : Int) : Option Int := do
  let qualifying := (worker.gpus.filter fun gpu => minMemoryBytes ≤ gpu.totalMemoryBytes).length
  let free ← int (qualifying - committedGPUCount)
  return if free < 0 then 0 else free

def freeOn [Sub Cpu] (committed : Committed Cpu Int) (worker : Worker Cpu Int)
    (minMemoryBytes : Int) : Option (CommittedResources Cpu Int) := do
  let memoryBytes ← int (worker.memoryCapacityBytes - (committed worker.id).memoryBytes)
  let gpuCount ← freeGPUCount int worker minMemoryBytes (committed worker.id).gpuCount
  return ⟨gpuCount, worker.cpuCapacity - (committed worker.id).cpuCores, memoryBytes⟩

section Plan
variable [Zero Cpu] [Add Cpu] [Sub Cpu] [LT Cpu] [DecidableLT Cpu]

def candidate (job : Job Cpu Int) (committed : Committed Cpu Int) (worker : Worker Cpu Int) :
    Option (Option Candidate) :=
  if worker.status ≠ .active then some none
  else do
    let free ← freeOn int committed worker job.resources.minGPUMemoryBytes
    if free.cpuCores < job.resources.cpuCores then return none
    else if free.memoryBytes < job.resources.memoryBytes then return none
    else if free.gpuCount < job.resources.gpuCount then return none
    else
      let surplus ← int (free.gpuCount - job.resources.gpuCount)
      return some ⟨worker.id, surplus⟩

def selectWorker (job : Job Cpu Int) (activeWorkers : List (Worker Cpu Int))
    (committed : Committed Cpu Int) : Option (Option String) := do
  let candidates ← activeWorkers.mapM (candidate int job committed)
  let sorted := (candidates.filterMap id).insertionSort
    fun left right => candidateLess right left = false
  return sorted.head?.map Candidate.workerID

def placements (activeWorkers : List (Worker Cpu Int)) :
    List (Job Cpu Int) → Committed Cpu Int → Option (List (Job Cpu Int × String))
  | [], _ => some []
  | job :: rest, committed => do
      match ← selectWorker int job activeWorkers committed with
      | none => placements activeWorkers rest committed
      | some workerID =>
          let reserved ← reserve int committed workerID job.resources
          let later ← placements activeWorkers rest reserved
          return (job, workerID) :: later

def plan (activeJobs : List (Job Cpu Int)) (activeWorkers : List (Worker Cpu Int)) (now : Time) :
    Option (List Assignment) := do
  let committed ← committedByWorker int activeJobs
  let placed ← placements int activeWorkers (queue activeJobs now) committed
  return placed.map fun placement => ⟨placement.1.id, placement.2, eligibleReason⟩

end Plan

section Preempt
variable [Zero Cpu] [Add Cpu] [Sub Cpu] [LT Cpu] [DecidableLT Cpu] [LE Cpu] [DecidableLE Cpu]

/-- The room on a worker falls short of the request. -/
def fallsShort (room : CommittedResources Cpu Int) (request : ResourceRequest Cpu Int) : Bool :=
  room.cpuCores < request.cpuCores || room.memoryBytes < request.memoryBytes ||
    room.gpuCount < (request.gpuCount : Int)

def collectVictims (now : Time) (pending : Job Cpu Int) (free : CommittedResources Cpu Int)
    (preempted : List String) :
    List (Job Cpu Int) → List (Job Cpu Int) → CommittedResources Cpu Int →
      Option (List (Job Cpu Int) × CommittedResources Cpu Int)
  | [], victims, freed => some (victims, freed)
  | cand :: rest, victims, freed =>
      if preempted.contains cand.id then collectVictims now pending free preempted rest victims freed
      else if jobPriority now pending ≤ jobPriority now cand then some (victims, freed)
      else do
        let more ← add int freed cand.resources
        let room ← together int free more
        if fitsNow room pending.resources then return (victims ++ [cand], more)
        else collectVictims now pending free preempted rest (victims ++ [cand]) more

def preemptFor (now : Time) (activeJobs : List (Job Cpu Int)) (pending : Job Cpu Int) :
    List (Worker Cpu Int) → PreemptionBooks Cpu Int → Option (PreemptionBooks Cpu Int)
  | [], books => some books
  | worker :: rest, books =>
      if worker.status ≠ .active then preemptFor now activeJobs pending rest books
      else do
        let free ← freeOn int books.committed worker pending.resources.minGPUMemoryBytes
        if fitsNow free pending.resources then return books
        else
          let candidates := (runningPreemptibleByWorker activeJobs worker.id).insertionSort
            fun left right => victimLess now right left = false
          let (victims, freed) ←
            collectVictims int now pending free books.preempted candidates [] .zero
          let room ← together int free freed
          if fallsShort room pending.resources then preemptFor now activeJobs pending rest books
          else
            let entry ← sub int (books.committed worker.id) freed
            return {
              committed := fun id => if id = worker.id then entry else books.committed id
              preempted := books.preempted ++ victims.map Job.id
              preemptions := books.preemptions ++
                victims.map fun victim => ⟨victim.id, worker.id, preemptionReason pending.id⟩ }

def commitPlaced (activeJobs : List (Job Cpu Int)) (placed : List Assignment)
    (committed : Committed Cpu Int) : Option (Committed Cpu Int) :=
  placed.foldlM (fun current assignment =>
    match jobByID activeJobs assignment.jobID with
    | none => some current
    | some job => reserve int current assignment.workerID job.resources) committed

def planPreemptions (activeJobs : List (Job Cpu Int)) (activeWorkers : List (Worker Cpu Int))
    (placed : List Assignment) (now : Time) : Option (List Preemption) := do
  let committed ← committedByWorker int activeJobs
  let opened ← commitPlaced int activeJobs placed committed
  let pending := sortByEffectivePriority now (activeJobs.filter fun job =>
    job.state = .queued && !(placed.map Assignment.jobID).contains job.id)
  let books ← pending.foldlM
    (fun books job => preemptFor int now activeJobs job activeWorkers books) ⟨opened, [], []⟩
  return books.preemptions

end Preempt

end OrionQueue.MachinePlanner
