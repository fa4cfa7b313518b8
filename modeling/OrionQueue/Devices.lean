import Mathlib.Algebra.BigOperators.Ring.Finset
import Mathlib.Data.List.FinRange
import OrionQueue.Allotments
import OrionQueue.JobService
import OrionQueue.PlannerCapacity

/-!
Plan at the level of devices. Plan counts the GPUs of a worker and knows none of
them; the jobs it counts as holding GPUs may sit on any of the devices. Every
placement leaves room by number among the devices that suit the job, so the jobs
can be given their devices in the order of the plan.
-/

namespace OrionQueue.Devices

open Jobs Workers Planner PlannerCapacity Ledger Allotments

variable {Cpu Mem Amount : Type}

/-- The GPUs of the worker with the memory that the job asks for. -/
def suitable [LE Mem] [DecidableLE Mem] (worker : Worker Cpu Mem) (job : Job Cpu Mem) :
    Finset (Fin worker.gpus.length) :=
  Finset.univ.filter fun device =>
    job.resources.minGPUMemoryBytes ≤ (worker.gpus.get device).totalMemoryBytes

theorem suitable_card [LE Mem] [DecidableLE Mem] (worker : Worker Cpu Mem) (job : Job Cpu Mem) :
    (suitable worker job).card = (worker.gpus.filter fun gpu =>
      job.resources.minGPUMemoryBytes ≤ gpu.totalMemoryBytes).length := by
  have listed : (suitable worker job).card = ((List.finRange worker.gpus.length).filter fun device =>
      job.resources.minGPUMemoryBytes ≤ (worker.gpus.get device).totalMemoryBytes).length := rfl
  rw [listed]
  conv_rhs => rw [← List.map_get_finRange worker.gpus, List.filter_map, List.length_map]
  rfl

/-- The jobs of the snapshot that the assignments put on the worker, in their order. -/
def assignedJobs (activeJobs : List (Job Cpu Mem)) (assignments : List Assignment)
    (workerID : String) : List (Job Cpu Mem) :=
  (assignments.filter fun assignment => assignment.workerID = workerID).filterMap fun assignment =>
    jobByID activeJobs assignment.jobID

theorem jobByID_listed {jobs : List (Job Cpu Mem)} (distinct : (jobs.map Job.id).Nodup)
    {job : Job Cpu Mem} (listed : job ∈ jobs) : jobByID jobs job.id = some job := by
  have known : (jobByID jobs job.id).isSome := List.find?_isSome.mpr ⟨job, listed, by simp⟩
  obtain ⟨found, isFound⟩ := Option.isSome_iff_exists.mp known
  have sameID : found.id = job.id := by simpa using List.find?_some isFound
  rw [isFound, List.inj_on_of_nodup_map distinct (List.mem_of_find?_eq_some isFound) listed sameID]

section Loop
variable [Add Cpu] [Sub Cpu] [LT Cpu] [DecidableLT Cpu]
variable [Add Mem] [Sub Mem] [LT Mem] [DecidableLT Mem] [LE Mem] [DecidableLE Mem]

/-- The books after some placements. -/
def reserveAll (committed : Committed Cpu Mem) (placed : List (Job Cpu Mem × String)) :
    Committed Cpu Mem :=
  placed.foldl (fun current entry => reserve current entry.2 entry.1.resources) committed

/-- Each placement was chosen with the books that the ones before it left. -/
theorem placements_split {activeWorkers : List (Worker Cpu Mem)} {jobs : List (Job Cpu Mem)}
    {committed : Committed Cpu Mem} {before after : List (Job Cpu Mem × String)}
    {job : Job Cpu Mem} {workerID : String}
    (split : placements activeWorkers jobs committed = before ++ (job, workerID) :: after) :
    selectWorker job activeWorkers (reserveAll committed before) = some workerID := by
  induction jobs generalizing committed before with
  | nil => simp [placements] at split
  | cons first rest ih =>
      unfold placements at split
      cases selected : selectWorker first activeWorkers committed with
      | none =>
          rw [selected] at split
          exact ih split
      | some chosen =>
          rw [selected] at split
          cases before with
          | nil =>
              obtain ⟨isFirst, _⟩ := List.cons.inj split
              cases isFirst
              exact selected
          | cons entry earlier =>
              obtain ⟨rfl, later⟩ := List.cons.inj split
              have selected' := ih later
              exact selected'

variable [Zero Cpu] [Zero Mem]

theorem assignedJobs_plan {activeJobs : List (Job Cpu Mem)}
    (distinct : (activeJobs.map Job.id).Nodup) (activeWorkers : List (Worker Cpu Mem)) (now : Time)
    (workerID : String) :
    assignedJobs activeJobs (plan activeJobs activeWorkers now) workerID =
      plannedOn activeJobs activeWorkers now workerID := by
  rw [assignedJobs, plan, List.filter_map, List.filterMap_map, plannedOn, ← List.filterMap_eq_map]
  refine List.filterMap_congr fun placed member => ?_
  exact jobByID_listed distinct (mem_planned (List.mem_filter.mp member).1).1

theorem reserveAll_part [AddCommGroup Amount] [LinearOrder Amount]
    (dimension : Dimension Cpu Mem Amount) (committed : Committed Cpu Mem)
    (placed : List (Job Cpu Mem × String)) (workerID : String) :
    dimension.part (reserveAll committed placed workerID) = dimension.part (committed workerID) +
      total (fun job => dimension.need job.resources)
        ((placed.filter fun entry => entry.2 = workerID).map Prod.fst) := by
  induction placed generalizing committed with
  | nil => simp [reserveAll, total]
  | cons entry rest ih =>
      have booked := congrFun (reserve_charge dimension committed entry.2 entry.1.resources) workerID
      simp only [charge] at booked
      have opened : reserveAll committed (entry :: rest) =
          reserveAll (reserve committed entry.2 entry.1.resources) rest := rfl
      rw [opened, ih, booked]
      by_cases same : workerID = entry.2
      · simp [same, total, add_assoc]
      · simp [same, Ne.symm same, total]

theorem plannedOn_split {activeJobs : List (Job Cpu Mem)} {activeWorkers : List (Worker Cpu Mem)}
    {now : Time} {workerID : String} {done rest : List (Job Cpu Mem)} {job : Job Cpu Mem}
    (split : plannedOn activeJobs activeWorkers now workerID = done ++ job :: rest) :
    ∃ before, selectWorker job activeWorkers (reserveAll (committedByWorker activeJobs) before) =
        some workerID ∧
      (before.filter fun entry => entry.2 = workerID).map Prod.fst = done := by
  obtain ⟨earlier, later, cut, isDone, onward⟩ := List.map_eq_append_iff.mp split
  obtain ⟨placed, others, isNext, isJob, _⟩ := List.map_eq_cons_iff.mp onward
  obtain ⟨before, after, whole, isEarlier, isLater⟩ := List.filter_eq_append_iff.mp cut
  rw [isNext] at isLater
  obtain ⟨between, last, rfl, skipped, own, _⟩ := List.filter_eq_cons_iff.mp isLater
  obtain rfl : placed.2 = workerID := by simpa using own
  subst isJob
  refine ⟨before ++ between, placements_split (whole.trans (List.append_assoc _ _ _).symm), ?_⟩
  rw [List.filter_append, isEarlier, List.filter_eq_nil_iff.mpr skipped, List.append_nil, isDone]

/-- The round of the loop that put the job on the worker. -/
theorem planned_candidate {activeJobs : List (Job Cpu Mem)} {activeWorkers : List (Worker Cpu Mem)}
    (distinct : (activeWorkers.map Worker.id).Nodup) {now : Time} {worker : Worker Cpu Mem}
    (listed : worker ∈ activeWorkers) {done rest : List (Job Cpu Mem)} {job : Job Cpu Mem}
    (split : plannedOn activeJobs activeWorkers now worker.id = done ++ job :: rest) :
    ∃ before found,
      candidate job (reserveAll (committedByWorker activeJobs) before) worker = some found ∧
      (before.filter fun entry => entry.2 = worker.id).map Prod.fst = done := by
  obtain ⟨before, selected, isDone⟩ := plannedOn_split split
  obtain ⟨chosen, member, found, eligible, sameID⟩ := selectWorker_some selected
  obtain rfl := List.inj_on_of_nodup_map distinct member listed sameID
  exact ⟨before, found, eligible, isDone⟩

end Loop

section Room
variable [Zero Cpu] [Add Cpu] [Sub Cpu] [LT Cpu] [DecidableLT Cpu]
variable [Zero Mem] [Add Mem] [Sub Mem] [LT Mem] [DecidableLT Mem] [LE Mem] [DecidableLE Mem]
variable {activeJobs : List (Job Cpu Mem)} {activeWorkers : List (Worker Cpu Mem)} {now : Time}
  {worker : Worker Cpu Mem}

theorem total_cast {Item : Type} (weight : Item → Nat) (items : List Item) :
    total (fun item => (weight item : Int)) items = (total weight items : Nat) := by
  simp [total, Nat.cast_list_sum, Function.comp_def]

/-- By number, the job finds its GPUs beside everything that may be gone. -/
theorem device_room (nonneg : ∀ job ∈ activeJobs, NonNegative job.resources)
    (distinct : (activeWorkers.map Worker.id).Nodup) (listed : worker ∈ activeWorkers)
    {taken : Nat}
    (bounded : taken ≤ total (fun job => job.resources.gpuCount)
      (assignedTo held activeJobs worker.id))
    {done rest : List (Job Cpu Mem)} {job : Job Cpu Mem}
    (split : plannedOn activeJobs activeWorkers now worker.id = done ++ job :: rest) :
    job.resources.gpuCount ≤ (suitable worker job).card -
      (taken + (done.map fun job => job.resources.gpuCount).sum) := by
  obtain ⟨before, found, eligible, isDone⟩ := planned_candidate distinct listed split
  have committed : ((total (fun job : Job Cpu Mem => job.resources.gpuCount)
      (assignedTo held activeJobs worker.id) : Nat) : Int) ≤
      (committedByWorker activeJobs worker.id).gpuCount := by
    rw [← total_cast]
    exact usage_le_committed gpu nonneg worker.id
  have booked : (reserveAll (committedByWorker activeJobs) before worker.id).gpuCount =
      (committedByWorker activeJobs worker.id).gpuCount +
        (total (fun job : Job Cpu Mem => job.resources.gpuCount) done : Nat) := by
    rw [← total_cast, ← isDone]
    exact reserveAll_part gpu _ before worker.id
  have free := (candidate_some eligible).2.2.2.2
  simp only [freeGPUCount, ← suitable_card] at free
  rw [total] at booked
  split at free <;> omega

/-- The last placement leaves the worker within its capacity, whatever the
bookkeeping started from. -/
theorem planned_within [AddCommGroup Amount] [LinearOrder Amount] [IsOrderedAddMonoid Amount]
    (dimension : Dimension Cpu Mem Amount)
    (admits : ∀ job books found, candidate job books worker = some found →
      dimension.part (books worker.id) + dimension.need job.resources ≤ dimension.capacity worker)
    (nonneg : ∀ job ∈ activeJobs, NonNegative job.resources)
    (distinct : (activeWorkers.map Worker.id).Nodup) (listed : worker ∈ activeWorkers)
    (busy : plannedOn activeJobs activeWorkers now worker.id ≠ []) :
    usage dimension held activeJobs worker.id +
        total (fun job => dimension.need job.resources)
          (plannedOn activeJobs activeWorkers now worker.id) ≤ dimension.capacity worker := by
  obtain ⟨done, job, isPlanned⟩ := (List.eq_nil_or_concat' _).resolve_left busy
  obtain ⟨before, found, eligible, isDone⟩ := planned_candidate distinct listed isPlanned
  have last := admits job _ found eligible
  rw [reserveAll_part, isDone, add_assoc] at last
  have added : total (fun job => dimension.need job.resources) (done ++ [job]) =
      total (fun job => dimension.need job.resources) done + dimension.need job.resources := by
    simp [total]
  rw [isPlanned, added]
  exact (add_le_add_left (usage_le_committed dimension nonneg worker.id) _).trans last

end Room

/-- The test of `selectWorker` is exact while the committed memory is within the capacity. -/
theorem candidate_bytes [Sub Cpu] [LT Cpu] [DecidableLT Cpu] {job : Job Cpu Int64}
    {committed : Committed Cpu Int64} {worker : Worker Cpu Int64} {found : Candidate}
    (eligible : candidate job committed worker = some found) {used : Int}
    (booked : (committed worker.id).memoryBytes = Int64.ofInt used) (nonneg : 0 ≤ used)
    (within : used ≤ worker.memoryCapacityBytes.toInt) :
    used + job.resources.memoryBytes.toInt ≤ worker.memoryCapacityBytes.toInt := by
  have range := worker.memoryCapacityBytes.toInt_lt
  have exact : (Int64.ofInt used).toInt = used := Int64.toInt_ofInt_of_le (by omega) (by omega)
  have room := Int64.le_iff_toInt_le.mp (Int64.not_lt.mp (candidate_some eligible).2.2.2.1)
  have left : (worker.memoryCapacityBytes - Int64.ofInt used).toInt =
      worker.memoryCapacityBytes.toInt - used := by
    rw [Int64.toInt_sub, exact]
    exact Int.bmod_eq_of_le (by omega) (by omega)
  rw [booked, left] at room
  omega

section Bytes

/-- The memory that `committedByWorker` adds up for the worker, without wrapping. -/
def heldBytes (jobs : List (Job Cpu Int64)) (workerID : String) : Int :=
  total (fun job => job.assignedWorkerIDs.count workerID * job.resources.memoryBytes.toInt)
    (jobs.filter fun job => held job.state)

theorem toInt_nonneg {amount : Int64} (nonneg : ¬ amount < 0) : 0 ≤ amount.toInt :=
  Int64.le_iff_toInt_le.mp (Int64.not_lt.mp nonneg)

theorem held_le_heldBytes {jobs : List (Job Cpu Int64)}
    (nonneg : ∀ job ∈ jobs, ¬ job.resources.memoryBytes < 0) (workerID : String) :
    total (fun job => job.resources.memoryBytes.toInt) (assignedTo held jobs workerID) ≤
      heldBytes jobs workerID := by
  induction jobs with
  | nil => simp [assignedTo, heldBytes, total]
  | cons job rest ih =>
      have later := ih fun other member => nonneg other (List.mem_cons_of_mem _ member)
      have sign := toInt_nonneg (nonneg job List.mem_cons_self)
      simp only [assignedTo, heldBytes, total, List.contains_eq_mem] at later ⊢
      by_cases holds : held job.state
      · by_cases own : workerID ∈ job.assignedWorkerIDs
        · have counted : (1 : Int) ≤ job.assignedWorkerIDs.count workerID := by
            exact_mod_cast List.count_pos_iff.mpr own
          have once := Int.mul_le_mul_of_nonneg_right counted sign
          rw [Int.one_mul] at once
          simp only [holds, own, decide_true, Bool.and_self, List.filter_cons_of_pos,
            List.map_cons, List.sum_cons]
          omega
        · simpa [holds, own, List.count_eq_zero.mpr own] using later
      · simpa [holds] using later

variable [Add Cpu]

theorem reserve_bytes (committed : Committed Cpu Int64) (workerID id : String)
    (request : ResourceRequest Cpu Int64) :
    (reserve committed workerID request id).memoryBytes = (committed id).memoryBytes +
      Int64.ofInt (if id = workerID then request.memoryBytes.toInt else 0) := by
  by_cases own : id = workerID
  · simp [reserve, own, CommittedResources.add]
  · simp [reserve, own]

theorem reserveAll_bytes (committed : Committed Cpu Int64) (placed : List (Job Cpu Int64 × String))
    (workerID : String) :
    (reserveAll committed placed workerID).memoryBytes = (committed workerID).memoryBytes +
      Int64.ofInt (total (fun job => job.resources.memoryBytes.toInt)
        ((placed.filter fun entry => entry.2 = workerID).map Prod.fst)) := by
  induction placed generalizing committed with
  | nil => simp [reserveAll, total]
  | cons entry rest ih =>
      have opened : reserveAll committed (entry :: rest) =
          reserveAll (reserve committed entry.2 entry.1.resources) rest := rfl
      rw [opened, ih, reserve_bytes, Int64.add_assoc, ← Int64.ofInt_add]
      by_cases own : workerID = entry.2
      · simp [own, total]
      · simp [own, Ne.symm own, total]

theorem commitJob_bytes (committed : Committed Cpu Int64) (job : Job Cpu Int64) (workerID : String) :
    (commitJob committed job workerID).memoryBytes = (committed workerID).memoryBytes +
      Int64.ofInt (if held job.state then
        job.assignedWorkerIDs.count workerID * job.resources.memoryBytes.toInt else 0) := by
  unfold commitJob
  split
  · induction job.assignedWorkerIDs generalizing committed with
    | nil => simp
    | cons id rest ih =>
        rw [List.foldl_cons, ih, reserve_bytes, Int64.add_assoc, ← Int64.ofInt_add, List.count_cons]
        congr 2
        by_cases own : workerID = id
        · simp only [own, if_true, beq_self_eq_true]
          rw [Nat.cast_add, Nat.cast_one, Int.add_mul, Int.one_mul, Int.add_comm]
        · simp [own, Ne.symm own]
  · exact (Int64.add_zero _).symm

variable [Zero Cpu]

theorem committedByWorker_bytes (jobs : List (Job Cpu Int64)) (workerID : String) :
    (committedByWorker jobs workerID).memoryBytes = Int64.ofInt (heldBytes jobs workerID) := by
  have opened : ∀ committed : Committed Cpu Int64,
      (jobs.foldl commitJob committed workerID).memoryBytes =
        (committed workerID).memoryBytes + Int64.ofInt (heldBytes jobs workerID) := by
    induction jobs with
    | nil => simp [heldBytes, total]
    | cons job rest ih =>
        intro committed
        rw [List.foldl_cons, ih, commitJob_bytes, Int64.add_assoc, ← Int64.ofInt_add]
        by_cases holds : held job.state
        · simp [heldBytes, holds, total]
        · simp [heldBytes, holds]
  simpa [committedByWorker, CommittedResources.zero] using opened fun _ => .zero

variable [Sub Cpu] [LT Cpu] [DecidableLT Cpu]

/-- So each placement on the worker is added to an exact sum. -/
theorem planned_bytes {activeJobs : List (Job Cpu Int64)} {activeWorkers : List (Worker Cpu Int64)}
    {now : Time} {worker : Worker Cpu Int64}
    (nonneg : ∀ job ∈ activeJobs, ¬ job.resources.memoryBytes < 0)
    (distinct : (activeWorkers.map Worker.id).Nodup) (listed : worker ∈ activeWorkers)
    (within : heldBytes activeJobs worker.id ≤ worker.memoryCapacityBytes.toInt)
    {done rest : List (Job Cpu Int64)}
    (split : plannedOn activeJobs activeWorkers now worker.id = done ++ rest) :
    heldBytes activeJobs worker.id + total (fun job => job.resources.memoryBytes.toInt) done ≤
      worker.memoryCapacityBytes.toInt := by
  induction done using List.reverseRecOn generalizing rest with
  | nil => simpa [total] using within
  | append_singleton done job ih =>
      rw [List.append_assoc, List.singleton_append] at split
      have earlier := ih split
      obtain ⟨before, found, eligible, isDone⟩ := planned_candidate distinct listed split
      have booked : (reserveAll (committedByWorker activeJobs) before worker.id).memoryBytes =
          Int64.ofInt (heldBytes activeJobs worker.id +
            total (fun job => job.resources.memoryBytes.toInt) done) := by
        rw [reserveAll_bytes, committedByWorker_bytes, isDone, ← Int64.ofInt_add]
      have known : ∀ other ∈ done, 0 ≤ other.resources.memoryBytes.toInt := by
        intro other member
        have planned : other ∈ plannedOn activeJobs activeWorkers now worker.id := by
          rw [split]
          exact List.mem_append_left _ member
        obtain ⟨placed, isPlaced, rfl⟩ := List.mem_map.mp planned
        exact toInt_nonneg (nonneg _ (mem_planned (List.mem_filter.mp isPlaced).1).1)
      have started : 0 ≤ heldBytes activeJobs worker.id := by
        refine le_trans (total_nonneg fun other member => ?_) (held_le_heldBytes nonneg worker.id)
        exact toInt_nonneg (nonneg other (List.mem_filter.mp member).1)
      have next := candidate_bytes eligible booked (add_nonneg started (total_nonneg known)) earlier
      simp only [total, List.map_append, List.sum_append, List.map_cons, List.map_nil, List.sum_cons,
        List.sum_nil, add_zero] at next ⊢
      omega

end Bytes

section Results
variable [AddCommGroup Cpu] [LinearOrder Cpu] [IsOrderedAddMonoid Cpu]

/-- Whichever GPUs of the worker the held jobs sit on, no more than they asked for:
the jobs that Plan adds get theirs in Plan's order, however the earlier ones were
served, and the worker stays within its cores. It stays within its memory if the held
jobs are; otherwise their sum may have wrapped around. -/
theorem plan_conservative (activeJobs : List (Job Cpu Int64))
    (activeWorkers : List (Worker Cpu Int64)) (now : Time) (jobIDs : (activeJobs.map Job.id).Nodup)
    (workerIDs : (activeWorkers.map Worker.id).Nodup)
    (nonneg : ∀ job ∈ activeJobs, NonNegative job.resources) (worker : Worker Cpu Int64)
    (listed : worker ∈ activeWorkers) (taken : Finset (Fin worker.gpus.length))
    (bounded : taken.card ≤ total (fun job => job.resources.gpuCount)
      (assignedTo held activeJobs worker.id)) :
    (∀ done job rest given,
        assignedJobs activeJobs (plan activeJobs activeWorkers now) worker.id = done ++ job :: rest →
        Allotment (fun job => job.resources.gpuCount) (suitable worker) taken done given →
        ∃ devices, Allotment (fun job => job.resources.gpuCount) (suitable worker) taken
          (done ++ [job]) (given ++ [devices])) ∧
      (∃ given, Allotment (fun job => job.resources.gpuCount) (suitable worker) taken
        (assignedJobs activeJobs (plan activeJobs activeWorkers now) worker.id) given) ∧
      (assignedJobs activeJobs (plan activeJobs activeWorkers now) worker.id ≠ [] →
        total (fun job => job.resources.cpuCores) (assignedTo held activeJobs worker.id) +
            total (fun job => job.resources.cpuCores)
              (assignedJobs activeJobs (plan activeJobs activeWorkers now) worker.id) ≤
          worker.cpuCapacity) ∧
      (heldBytes activeJobs worker.id ≤ worker.memoryCapacityBytes.toInt →
        total (fun job => job.resources.memoryBytes.toInt) (assignedTo held activeJobs worker.id) +
            total (fun job => job.resources.memoryBytes.toInt)
              (assignedJobs activeJobs (plan activeJobs activeWorkers now) worker.id) ≤
          worker.memoryCapacityBytes.toInt) := by
  rw [assignedJobs_plan jobIDs]
  refine ⟨fun done job rest given split allotted => ?_, ?_, fun busy => ?_, fun within => ?_⟩
  · exact allotment_extends allotted (device_room nonneg workerIDs listed bounded split)
  · exact allotment_exists fun done job rest split =>
      device_room nonneg workerIDs listed bounded split
  · exact planned_within cpu (fun _ _ _ => cpu_admits) nonneg workerIDs listed busy
  · have bytes : ∀ job ∈ activeJobs, ¬ job.resources.memoryBytes < 0 :=
      fun job member => (nonneg job member).2
    have counted := held_le_heldBytes bytes worker.id
    have added := planned_bytes bytes workerIDs listed within
      (List.append_nil (plannedOn activeJobs activeWorkers now worker.id)).symm
    omega

end Results

/-- A worker with three GPUs of different sizes. -/
def mixedWorker : Worker Int Int where
  id := "worker-1"
  hostname := "node-1"
  status := .active
  leaseID := none
  cpuCapacity := 8
  memoryCapacityBytes := 64
  gpus := [device 0 16, device 1 40, device 2 80]
  softwareVersion := ""
  labels := []
  runningJobIDs := []
  registeredAt := 0
  lastHeartbeatAt := 0

/-- The same worker, with its memory in machine integers. -/
def machineWorker : Worker Int Int64 :=
  { mixedWorker with
    memoryCapacityBytes := 64
    gpus := [device 0 16, device 1 40, device 2 80] }

def machineJob (id : String) (minGPUMemoryBytes memoryBytes : Int64) : Job Int Int64 :=
  JobService.newJob 0 id (submission ⟨1, minGPUMemoryBytes, 2, memoryBytes⟩)

def runningHere (job : Job Int Int64) : Job Int Int64 :=
  { job with state := .running, assignedWorkerIDs := ["worker-1"] }

/-- job-1 runs on the worker; of the others, job-2 asks for the largest GPU. -/
def machineJobs : List (Job Int Int64) :=
  [runningHere (machineJob "job-1" 0 16), machineJob "job-2" 80 16, machineJob "job-3" 40 16,
    machineJob "job-4" 0 16]

/-- job-1 may well sit on the largest GPU. -/
def largest : Finset (Fin machineWorker.gpus.length) := {⟨2, by decide⟩}

theorem machineJobs_allotted :
    (assignedJobs machineJobs (plan machineJobs [machineWorker] 0) "worker-1").map Job.id =
        ["job-3", "job-4"] ∧
      (∃ given, Allotment (fun job => job.resources.gpuCount) (suitable machineWorker) largest
        (assignedJobs machineJobs (plan machineJobs [machineWorker] 0) "worker-1") given) ∧
      total (fun job => job.resources.memoryBytes.toInt) (assignedTo held machineJobs "worker-1") +
          total (fun job => job.resources.memoryBytes.toInt)
            (assignedJobs machineJobs (plan machineJobs [machineWorker] 0) "worker-1") ≤ 64 := by
  have nonneg : ∀ job ∈ machineJobs, NonNegative job.resources := by
    simp [machineJobs, machineJob, runningHere, JobService.newJob, submission, NonNegative]
  have conservative := plan_conservative machineJobs [machineWorker] 0 (by decide) (by decide) nonneg
    machineWorker (by simp) largest (by decide)
  exact ⟨by decide, conservative.2.1, conservative.2.2.2 (by decide)⟩

/-- Two running jobs hold almost all that an int64 counts; their sum is -2. -/
def wrappedJobs : List (Job Int Int64) :=
  [runningHere (machineJob "job-1" 0 9223372036854775807),
    runningHere (machineJob "job-2" 0 9223372036854775807), machineJob "job-3" 0 66]

/-- job-3 asks for more memory than the worker has, and is placed there. -/
theorem wrapped_beyond_capacity :
    (wrappedJobs.map Job.id).Nodup ∧ (∀ job ∈ wrappedJobs, NonNegative job.resources) ∧
      (assignedJobs wrappedJobs (plan wrappedJobs [machineWorker] 0) "worker-1").map Job.id =
        ["job-3"] ∧
      machineWorker.memoryCapacityBytes.toInt <
        total (fun job => job.resources.memoryBytes.toInt) (assignedTo held wrappedJobs "worker-1") +
          total (fun job => job.resources.memoryBytes.toInt)
            (assignedJobs wrappedJobs (plan wrappedJobs [machineWorker] 0) "worker-1") := by
  have nonneg : ∀ job ∈ wrappedJobs, NonNegative job.resources := by
    simp [wrappedJobs, machineJob, runningHere, JobService.newJob, submission, NonNegative]
  exact ⟨by decide, nonneg, by decide, by decide⟩

end OrionQueue.Devices
