import Mathlib.Algebra.Order.Group.Int
import Mathlib.Algebra.Order.Monoid.Unbundled.Pow
import OrionQueue.Planner

/-!
What Plan promises about capacity. A `Dimension` is one of the three resources
with its bookkeeping laws; the reservation argument is made once, for an
arbitrary dimension, from the rules of `Ledger`.
-/

namespace OrionQueue.PlannerCapacity

open Jobs Workers Planner Ledger

variable {Cpu Mem Amount : Type}

theorem mem_queue {activeJobs : List (Job Cpu Mem)} {now : Time} {job : Job Cpu Mem} :
    job ∈ queue activeJobs now ↔ job ∈ activeJobs ∧ job.state = .queued := by
  simp [queue, sortByEffectivePriority, List.mem_insertionSort]

section Eligibility
variable [Sub Cpu] [LT Cpu] [DecidableLT Cpu]
variable [Sub Mem] [LT Mem] [DecidableLT Mem] [LE Mem] [DecidableLE Mem]

theorem candidate_some {job : Job Cpu Mem} {committed : Committed Cpu Mem}
    {worker : Worker Cpu Mem} {found : Candidate}
    (eligible : candidate job committed worker = some found) :
    found.workerID = worker.id ∧ worker.status = .active ∧
      ¬ worker.cpuCapacity - (committed worker.id).cpuCores < job.resources.cpuCores ∧
      ¬ worker.memoryCapacityBytes - (committed worker.id).memoryBytes < job.resources.memoryBytes ∧
      ¬ freeGPUCount worker job.resources.minGPUMemoryBytes (committed worker.id).gpuCount <
        job.resources.gpuCount := by
  simp only [candidate] at eligible
  split at eligible
  · cases eligible
  · rename_i active
    split at eligible
    · cases eligible
    · split at eligible
      · cases eligible
      · split at eligible
        · cases eligible
        · cases eligible
          exact ⟨rfl, by simpa using active, by assumption, by assumption, by assumption⟩

theorem selectWorker_some {job : Job Cpu Mem} {activeWorkers : List (Worker Cpu Mem)}
    {committed : Committed Cpu Mem} {workerID : String}
    (selected : selectWorker job activeWorkers committed = some workerID) :
    ∃ worker ∈ activeWorkers, ∃ found, candidate job committed worker = some found ∧
      worker.id = workerID := by
  simp only [selectWorker, Option.map_eq_some_iff] at selected
  obtain ⟨best, first, named⟩ := selected
  have member := List.mem_of_head? first
  rw [List.mem_insertionSort, List.mem_filterMap] at member
  obtain ⟨worker, listed, eligible⟩ := member
  exact ⟨worker, listed, best, eligible, by rw [← (candidate_some eligible).1, named]⟩

theorem mem_placements [Add Cpu] [Add Mem] {activeWorkers : List (Worker Cpu Mem)}
    {jobs : List (Job Cpu Mem)} {committed : Committed Cpu Mem} {placed : Job Cpu Mem × String}
    (member : placed ∈ placements activeWorkers jobs committed) :
    placed.1 ∈ jobs ∧ ∃ worker ∈ activeWorkers, worker.id = placed.2 ∧ worker.status = .active := by
  induction jobs generalizing committed with
  | nil => simp [placements] at member
  | cons job rest ih =>
      simp only [placements] at member
      cases selected : selectWorker job activeWorkers committed with
      | none =>
          rw [selected] at member
          exact ⟨List.mem_cons_of_mem job (ih member).1, (ih member).2⟩
      | some workerID =>
          rw [selected] at member
          rcases List.mem_cons.mp member with rfl | later
          · obtain ⟨worker, listed, found, eligible, named⟩ := selectWorker_some selected
            exact ⟨by simp, worker, listed, named, (candidate_some eligible).2.1⟩
          · exact ⟨List.mem_cons_of_mem job (ih later).1, (ih later).2⟩

theorem mem_planned [Zero Cpu] [Add Cpu] [Zero Mem] [Add Mem]
    {activeJobs : List (Job Cpu Mem)} {activeWorkers : List (Worker Cpu Mem)} {now : Time}
    {placed : Job Cpu Mem × String} (member : placed ∈ planned activeJobs activeWorkers now) :
    placed.1 ∈ activeJobs ∧ placed.1.state = .queued :=
  mem_queue.mp (mem_placements member).1

end Eligibility

/-- Of a worker that is not over-committed, no more GPUs are free than are left. -/
theorem freeGPUCount_le [LE Mem] [DecidableLE Mem] (worker : Worker Cpu Mem) (minMemoryBytes : Mem)
    {committed : Int} (within : committed ≤ worker.gpus.length) :
    freeGPUCount worker minMemoryBytes committed ≤ worker.gpus.length - committed := by
  have fewer : (worker.gpus.filter fun gpu => minMemoryBytes ≤ gpu.totalMemoryBytes).length ≤
      worker.gpus.length := List.length_filter_le _ _
  unfold freeGPUCount
  simp only
  split <;> omega

/-- A worker's GPUs bound what Plan may add to the count already committed. -/
theorem freeGPUCount_admits [LE Mem] [DecidableLE Mem] {worker : Worker Cpu Mem}
    {minMemoryBytes : Mem} {committed : Int} {wanted : Nat}
    (free : ¬ freeGPUCount worker minMemoryBytes committed < wanted)
    (within : committed ≤ worker.gpus.length) : committed + wanted ≤ worker.gpus.length := by
  have left := freeGPUCount_le worker minMemoryBytes within
  omega

theorem freeGPUCount_anti [LE Mem] [DecidableLE Mem] (worker : Worker Cpu Mem) (minMemoryBytes : Mem)
    {fewer more : Int} (below : fewer ≤ more) :
    freeGPUCount worker minMemoryBytes more ≤ freeGPUCount worker minMemoryBytes fewer := by
  unfold freeGPUCount
  simp only
  split <;> split <;> omega

def NonNegative [Zero Cpu] [LT Cpu] [Zero Mem] [LT Mem] (request : ResourceRequest Cpu Mem) : Prop :=
  ¬ request.cpuCores < 0 ∧ ¬ request.memoryBytes < 0

structure Dimension (Cpu Mem Amount : Type) [Zero Cpu] [Add Cpu] [Sub Cpu] [LT Cpu] [DecidableLT Cpu]
    [Zero Mem] [Add Mem] [Sub Mem] [LT Mem] [DecidableLT Mem] [LE Mem] [DecidableLE Mem]
    [AddCommGroup Amount] [LinearOrder Amount] where
  part : CommittedResources Cpu Mem → Amount
  need : ResourceRequest Cpu Mem → Amount
  capacity : Worker Cpu Mem → Amount
  part_zero : part .zero = 0
  part_add : ∀ committed request, part (committed.add request) = part committed + need request
  need_nonneg : ∀ request, NonNegative request → 0 ≤ need request
  capacity_inventory : ∀ left right, SameInventory left right → capacity left = capacity right
  admits : ∀ job committed worker found, candidate job committed worker = some found →
    part (committed worker.id) ≤ capacity worker →
    part (committed worker.id) + need job.resources ≤ capacity worker

section Cores
variable [AddCommGroup Cpu] [LinearOrder Cpu] [IsOrderedAddMonoid Cpu]
variable [Sub Mem] [LT Mem] [DecidableLT Mem] [LE Mem] [DecidableLE Mem]

theorem cpu_admits {job : Job Cpu Mem} {committed : Committed Cpu Mem}
    {worker : Worker Cpu Mem} {found : Candidate}
    (eligible : candidate job committed worker = some found) :
    (committed worker.id).cpuCores + job.resources.cpuCores ≤ worker.cpuCapacity := by
  have room := not_lt.mp (candidate_some eligible).2.2.1
  rw [add_comm]
  exact le_sub_iff_add_le.mp room

def cpu [Zero Mem] [Add Mem] : Dimension Cpu Mem Cpu where
  part := CommittedResources.cpuCores
  need := ResourceRequest.cpuCores
  capacity := Worker.cpuCapacity
  part_zero := rfl
  part_add _ _ := rfl
  need_nonneg _ accepted := not_lt.mp accepted.1
  capacity_inventory _ _ same := same.2.1
  admits _ _ _ _ eligible _ := cpu_admits eligible

end Cores

section Bytes
variable [Sub Cpu] [LT Cpu] [DecidableLT Cpu]
variable [AddCommGroup Mem] [LinearOrder Mem] [IsOrderedAddMonoid Mem]

theorem memory_admits {job : Job Cpu Mem} {committed : Committed Cpu Mem}
    {worker : Worker Cpu Mem} {found : Candidate}
    (eligible : candidate job committed worker = some found) :
    (committed worker.id).memoryBytes + job.resources.memoryBytes ≤ worker.memoryCapacityBytes := by
  have room := not_lt.mp (candidate_some eligible).2.2.2.1
  rw [add_comm]
  exact le_sub_iff_add_le.mp room

def memory [Zero Cpu] [Add Cpu] : Dimension Cpu Mem Mem where
  part := CommittedResources.memoryBytes
  need := ResourceRequest.memoryBytes
  capacity := Worker.memoryCapacityBytes
  part_zero := rfl
  part_add _ _ := rfl
  need_nonneg _ accepted := not_lt.mp accepted.2
  capacity_inventory _ _ same := same.2.2.1
  admits _ _ _ _ eligible _ := memory_admits eligible

end Bytes

section Books
variable [Zero Cpu] [Add Cpu] [Sub Cpu] [LT Cpu] [DecidableLT Cpu]
variable [Zero Mem] [Add Mem] [Sub Mem] [LT Mem] [DecidableLT Mem] [LE Mem] [DecidableLE Mem]

/-- The GPUs are counted, whatever the arithmetic of the other two. -/
def gpu : Dimension Cpu Mem Int where
  part := CommittedResources.gpuCount
  need request := request.gpuCount
  capacity worker := worker.gpus.length
  part_zero := rfl
  part_add _ _ := rfl
  need_nonneg request _ := Int.natCast_nonneg request.gpuCount
  capacity_inventory _ _ same := by rw [same.2.2.2]
  admits _ _ _ _ eligible within := freeGPUCount_admits (candidate_some eligible).2.2.2.2 within

variable [AddCommGroup Amount] [LinearOrder Amount] (dimension : Dimension Cpu Mem Amount)

/-- The jobs in a counted state that are assigned to the worker. -/
def assignedTo (counts : State → Bool) (jobs : List (Job Cpu Mem)) (workerID : String) :
    List (Job Cpu Mem) :=
  jobs.filter fun job => counts job.state && job.assignedWorkerIDs.contains workerID

def usage (counts : State → Bool) (jobs : List (Job Cpu Mem)) (workerID : String) : Amount :=
  total (fun job => dimension.need job.resources) (assignedTo counts jobs workerID)

theorem reserve_charge (committed : Committed Cpu Mem) (workerID : String)
    (request : ResourceRequest Cpu Mem) :
    (fun id => dimension.part (reserve committed workerID request id)) =
      charge (fun id => dimension.part (committed id)) (workerID, dimension.need request) := by
  funext id
  by_cases same : id = workerID
  · simp [reserve, charge, same, dimension.part_add]
  · simp [reserve, charge, same]

/-- A job charges each worker once for every time it is assigned to it. -/
theorem commitJob_counted (committed : Committed Cpu Mem) (job : Job Cpu Mem) (workerID : String) :
    dimension.part (commitJob committed job workerID) = dimension.part (committed workerID) +
      (if held job.state then job.assignedWorkerIDs.count workerID else 0) •
        dimension.need job.resources := by
  unfold commitJob
  by_cases holds : held job.state
  case neg => simp [holds]
  simp only [if_pos holds]
  induction job.assignedWorkerIDs generalizing committed with
  | nil => simp
  | cons id rest ih =>
      have booked := congrFun (reserve_charge dimension committed id job.resources) workerID
      simp only [charge] at booked
      rw [List.foldl_cons, ih, booked, List.count_cons]
      by_cases same : workerID = id
      · subst same
        simp [succ_nsmul', add_assoc]
      · simp [same, Ne.symm same]

theorem usage_single (counts : State → Bool) (job : Job Cpu Mem) (workerID : String) :
    usage dimension counts [job] workerID =
      if counts job.state && job.assignedWorkerIDs.contains workerID then
        dimension.need job.resources else 0 := by
  simp only [usage, total, assignedTo, List.filter_cons, List.filter_nil]
  split <;> simp

theorem usage_cons (counts : State → Bool) (job : Job Cpu Mem) (rest : List (Job Cpu Mem))
    (workerID : String) :
    usage dimension counts (job :: rest) workerID =
      usage dimension counts [job] workerID + usage dimension counts rest workerID := by
  simp only [usage, total, assignedTo, List.filter_cons, List.filter_nil]
  split <;> simp

theorem commitJob_part {committed : Committed Cpu Mem} {job : Job Cpu Mem}
    (single : job.assignedWorkerIDs.length ≤ 1) (workerID : String) :
    dimension.part (commitJob committed job workerID) =
      dimension.part (committed workerID) + usage dimension held [job] workerID := by
  have once : job.assignedWorkerIDs.count workerID =
      if job.assignedWorkerIDs.contains workerID then 1 else 0 := by
    have most := List.count_le_length (a := workerID) (l := job.assignedWorkerIDs)
    by_cases assigned : workerID ∈ job.assignedWorkerIDs
    · have some := List.count_pos_iff.mpr assigned
      simp only [List.contains_eq_mem, assigned, decide_true, if_true]
      omega
    · simp [List.count_eq_zero.mpr assigned, assigned]
  rw [commitJob_counted, usage_single, once]
  by_cases holds : held job.state
  · by_cases assigned : workerID ∈ job.assignedWorkerIDs
    · simp only [holds, List.contains_eq_mem, assigned, decide_true, Bool.and_true, if_true, one_nsmul]
    · simp [holds, assigned]
  · simp [holds]

/-- With one worker per job the books open with exactly the held usage. -/
theorem committedByWorker_part {jobs : List (Job Cpu Mem)}
    (single : ∀ job ∈ jobs, job.assignedWorkerIDs.length ≤ 1) (workerID : String) :
    dimension.part (committedByWorker jobs workerID) = usage dimension held jobs workerID := by
  have opened : ∀ committed : Committed Cpu Mem,
      dimension.part (jobs.foldl commitJob committed workerID) =
        dimension.part (committed workerID) + usage dimension held jobs workerID := by
    induction jobs with
    | nil => simp [usage, assignedTo, total]
    | cons job rest ih =>
        intro committed
        rw [List.foldl_cons, ih (fun other member => single other (by simp [member])),
          commitJob_part dimension (single job (by simp)), add_assoc, ← usage_cons]
  simpa [committedByWorker, dimension.part_zero] using opened fun _ => .zero

/-- In any case the books count every held job at least once. -/
theorem usage_le_committed [IsOrderedAddMonoid Amount] {jobs : List (Job Cpu Mem)}
    (nonneg : ∀ job ∈ jobs, NonNegative job.resources) (workerID : String) :
    usage dimension held jobs workerID ≤ dimension.part (committedByWorker jobs workerID) := by
  have opened : ∀ committed : Committed Cpu Mem,
      dimension.part (committed workerID) + usage dimension held jobs workerID ≤
        dimension.part (jobs.foldl commitJob committed workerID) := by
    induction jobs with
    | nil => simp [usage, assignedTo, total]
    | cons job rest ih =>
        intro committed
        have once : usage dimension held [job] workerID ≤
            (if held job.state then job.assignedWorkerIDs.count workerID else 0) •
              dimension.need job.resources := by
          have sign := dimension.need_nonneg _ (nonneg job (by simp))
          rw [usage_single]
          by_cases counted : (held job.state && job.assignedWorkerIDs.contains workerID) = true
          · rw [if_pos counted]
            simp only [Bool.and_eq_true, List.contains_iff_mem] at counted
            rw [if_pos counted.1]
            exact le_self_nsmul sign (List.count_pos_iff.mpr counted.2).ne'
          · rw [if_neg counted]
            exact nsmul_nonneg sign _
        refine le_trans ?_ (ih (fun other member => nonneg other (by simp [member])) _)
        rw [usage_cons, ← add_assoc, commitJob_counted]
        gcongr
  simpa [committedByWorker, dimension.part_zero] using opened fun _ => .zero

/-- Every reservation of the planning loop is admitted by the books. -/
theorem placements_admitted {capacity : String → Amount} {activeWorkers : List (Worker Cpu Mem)}
    (known : ∀ worker ∈ activeWorkers, capacity worker.id = dimension.capacity worker)
    (jobs : List (Job Cpu Mem)) (committed : Committed Cpu Mem) :
    Admitted capacity (fun id => dimension.part (committed id))
      ((placements activeWorkers jobs committed).map fun placed =>
        (placed.2, dimension.need placed.1.resources)) := by
  -- Along Plan's own loop, with the books that each placement leaves behind.
  induction jobs generalizing committed with
  | nil => trivial
  | cons job rest ih =>
      simp only [placements]
      cases selected : selectWorker job activeWorkers committed with
      | none => exact ih committed
      | some workerID =>
          refine ⟨?_, ?_⟩
          · obtain ⟨worker, listed, found, eligible, rfl⟩ := selectWorker_some selected
            simp only [known worker listed]
            exact dimension.admits job committed worker found eligible
          · rw [← reserve_charge]
            exact ih (reserve committed workerID job.resources)

/-- The jobs that Plan would put on the worker. -/
def plannedOn (activeJobs : List (Job Cpu Mem)) (activeWorkers : List (Worker Cpu Mem)) (now : Time)
    (workerID : String) : List (Job Cpu Mem) :=
  ((planned activeJobs activeWorkers now).filter fun placed => placed.2 = workerID).map Prod.fst

/-- What is held in the snapshot and what Plan adds to it fit together. -/
theorem plan_within (capacity : String → Amount) {activeJobs : List (Job Cpu Mem)}
    {activeWorkers : List (Worker Cpu Mem)} (now : Time)
    (known : ∀ worker ∈ activeWorkers, capacity worker.id = dimension.capacity worker)
    (single : ∀ job ∈ activeJobs, job.assignedWorkerIDs.length ≤ 1) {workerID : String}
    (within : usage dimension held activeJobs workerID ≤ capacity workerID) :
    usage dimension held activeJobs workerID +
      total (fun job => dimension.need job.resources)
        (plannedOn activeJobs activeWorkers now workerID) ≤ capacity workerID := by
  rw [← committedByWorker_part dimension single] at within ⊢
  have admitted := placements_admitted dimension known (queue activeJobs now)
    (committedByWorker activeJobs)
  have bound := admitted_within admitted within
  rw [chargeAll_apply] at bound
  simpa [plannedOn, planned, total, List.filter_map, Function.comp_def] using bound

end Books

end OrionQueue.PlannerCapacity
