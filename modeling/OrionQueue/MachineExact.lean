import OrionQueue.MachinePlanner
import OrionQueue.PlanOrder
import OrionQueue.PreemptionPass

/-!
The machine computes what unbounded integers would. The books of a pass start
within the capacities; a placement is only made where it fits, and what a victim
gives back was part of what is committed. So no sum leaves the range of 64 bits.
-/

namespace OrionQueue.MachineExact

open Jobs Workers Planner PlannerCapacity PlanOrder PreemptionPass Ledger
open MachinePlanner hiding reserve commitJob committedByWorker freeGPUCount freeOn candidate
  selectWorker placements plan collectVictims preemptFor commitPlaced planPreemptions

variable {Cpu : Type}

/-- The two resources that are counted in integers. -/
inductive Counter where
  | gpuCount
  | memoryBytes

def Counter.part (committed : CommittedResources Cpu Int) : Counter → Int
  | .gpuCount => committed.gpuCount
  | .memoryBytes => committed.memoryBytes

def Counter.need (request : ResourceRequest Cpu Int) : Counter → Int
  | .gpuCount => request.gpuCount
  | .memoryBytes => request.memoryBytes

/-- Every held job with each worker that it is assigned to. -/
def holdings (jobs : List (Job Cpu Int)) : List (String × Job Cpu Int) :=
  (jobs.filter fun job => held job.state).flatMap fun job => job.assignedWorkerIDs.map fun id => (id, job)

/-- The jobs that some entries put on the worker. -/
def onWorker (entries : List (String × Job Cpu Int)) (workerID : String) : List (Job Cpu Int) :=
  (entries.filter fun entry => entry.1 = workerID).map Prod.snd

/-- The memory that the held jobs of a worker ask for. -/
def heldMemory (jobs : List (Job Cpu Int)) (workerID : String) : Int :=
  total (fun job => job.resources.memoryBytes) (onWorker (holdings jobs) workerID)

/-- A snapshot whose numbers passed validation, in which the held jobs of every worker
fit into its memory. No list in memory has as many as `2 ^ 56` entries. -/
structure Fitting (capacity : String → Int) (activeJobs : List (Job Cpu Int))
    (activeWorkers : List (Worker Cpu Int)) : Prop where
  distinct : (activeJobs.map Job.id).Nodup
  requests : ∀ job ∈ activeJobs, 0 ≤ job.resources.memoryBytes ∧ job.resources.gpuCount ≤ maxGPUCount
  capacities : ∀ id, 0 ≤ capacity id ∧ capacity id < 2 ^ 63
  known : ∀ worker ∈ activeWorkers, worker.memoryCapacityBytes = capacity worker.id
  within : ∀ id, heldMemory activeJobs id ≤ capacity id
  assignments : (activeJobs.map fun job => job.assignedWorkerIDs.length).sum < 2 ^ 56
  inventories : ∀ worker ∈ activeWorkers, worker.gpus.length < 2 ^ 56

/-- Computed with the arithmetic, both passes come to what they come to with unbounded
integers. -/
def Agrees [Zero Cpu] [Add Cpu] [Sub Cpu] [LT Cpu] [DecidableLT Cpu] [LE Cpu] [DecidableLE Cpu]
    (int : Arithmetic) (activeJobs : List (Job Cpu Int)) (activeWorkers : List (Worker Cpu Int))
    (now : Time) : Prop :=
  MachinePlanner.plan int activeJobs activeWorkers now = some (plan activeJobs activeWorkers now) ∧
    MachinePlanner.planPreemptions int activeJobs activeWorkers (plan activeJobs activeWorkers now)
      now = some (planPreemptions activeJobs activeWorkers (plan activeJobs activeWorkers now) now)

/-- An arithmetic that is exact within 64 bits. -/
def Faithful (int : Arithmetic) : Prop := ∀ value, InRange value → int value = some value

theorem wrapping_faithful : Faithful wrapping := by
  rintro value ⟨low, high⟩
  have exact : value.bmod (2 ^ 64) = value := Int.bmod_eq_of_le (by omega) (by omega)
  rw [wrapping, exact]

theorem checked_faithful : Faithful checked := fun _ range => if_pos range

section Sums
variable {int : Arithmetic}

theorem add_exact [Add Cpu] (faithful : Faithful int) {committed : CommittedResources Cpu Int}
    {request : ResourceRequest Cpu Int}
    (range : ∀ counter : Counter, InRange (counter.part committed + counter.need request)) :
    add int committed request = some (committed.add request) := by
  have gpus := faithful _ (range .gpuCount)
  have memory := faithful _ (range .memoryBytes)
  simp only [Counter.part, Counter.need] at gpus memory
  simp [add, gpus, memory, CommittedResources.add]

theorem sub_exact [Sub Cpu] (faithful : Faithful int) {committed freed : CommittedResources Cpu Int}
    (range : ∀ counter : Counter, InRange (counter.part committed - counter.part freed)) :
    sub int committed freed = some (committed.sub freed) := by
  have gpus := faithful _ (range .gpuCount)
  have memory := faithful _ (range .memoryBytes)
  simp only [Counter.part] at gpus memory
  simp [sub, gpus, memory, CommittedResources.sub]

theorem together_exact [Add Cpu] (faithful : Faithful int) {free freed : CommittedResources Cpu Int}
    (range : ∀ counter : Counter, InRange (counter.part free + counter.part freed)) :
    together int free freed = some ⟨free.gpuCount + freed.gpuCount, free.cpuCores + freed.cpuCores,
      free.memoryBytes + freed.memoryBytes⟩ := by
  have gpus := faithful _ (range .gpuCount)
  have memory := faithful _ (range .memoryBytes)
  simp only [Counter.part] at gpus memory
  simp [together, gpus, memory]

theorem reserve_exact [Add Cpu] (faithful : Faithful int) {committed : Committed Cpu Int}
    {workerID : String} {request : ResourceRequest Cpu Int}
    (range : ∀ counter : Counter, InRange (counter.part (committed workerID) + counter.need request)) :
    MachinePlanner.reserve int committed workerID request =
      some (reserve committed workerID request) := by
  have entry := add_exact faithful range
  have same : (fun other => if other = workerID then (committed workerID).add request
      else committed other) = reserve committed workerID request := by
    funext other
    by_cases own : other = workerID
    · simp [reserve, own]
    · simp [reserve, own]
  simp [MachinePlanner.reserve, entry, same]

end Sums

theorem holdings_cons (job : Job Cpu Int) (rest : List (Job Cpu Int)) :
    holdings (job :: rest) =
      (if held job.state then job.assignedWorkerIDs.map fun id => (id, job) else []) ++
        holdings rest := by
  unfold holdings
  by_cases holds : held job.state
  · simp [holds]
  · simp [holds]

theorem mem_holdings {jobs : List (Job Cpu Int)} {entry : String × Job Cpu Int}
    (member : entry ∈ holdings jobs) :
    entry.2 ∈ jobs ∧ held entry.2.state = true ∧ entry.1 ∈ entry.2.assignedWorkerIDs := by
  obtain ⟨job, listed, assigned⟩ := List.mem_flatMap.mp member
  obtain ⟨id, isAssigned, rfl⟩ := List.mem_map.mp assigned
  obtain ⟨inside, holds⟩ := List.mem_filter.mp listed
  exact ⟨inside, holds, isAssigned⟩

theorem holdings_length (jobs : List (Job Cpu Int)) :
    (holdings jobs).length ≤ (jobs.map fun job => job.assignedWorkerIDs.length).sum := by
  induction jobs with
  | nil => exact le_rfl
  | cons job rest ih =>
      rw [holdings_cons, List.length_append, List.map_cons, List.sum_cons]
      split
      · rw [List.length_map]
        omega
      · rw [List.length_nil]
        omega

section Charges
variable [Add Cpu]

def chargeAll (committed : Committed Cpu Int) (entries : List (String × Job Cpu Int)) :
    Committed Cpu Int :=
  entries.foldl (fun current entry => reserve current entry.1 entry.2.resources) committed

theorem add_part (counter : Counter) (committed : CommittedResources Cpu Int)
    (request : ResourceRequest Cpu Int) :
    counter.part (committed.add request) = counter.part committed + counter.need request := by
  cases counter <;> rfl

theorem reserve_part (counter : Counter) (committed : Committed Cpu Int) (workerID id : String)
    (request : ResourceRequest Cpu Int) :
    counter.part (reserve committed workerID request id) =
      counter.part (committed id) + if id = workerID then counter.need request else 0 := by
  by_cases own : id = workerID
  · simp [reserve, own, add_part]
  · simp [reserve, own]

theorem chargeAll_part (counter : Counter) (committed : Committed Cpu Int)
    (entries : List (String × Job Cpu Int)) (id : String) :
    counter.part (chargeAll committed entries id) = counter.part (committed id) +
      total (fun job => counter.need job.resources) (onWorker entries id) := by
  induction entries generalizing committed with
  | nil => simp [chargeAll, onWorker, total]
  | cons entry rest ih =>
      have opened : chargeAll committed (entry :: rest) =
          chargeAll (reserve committed entry.1 entry.2.resources) rest := rfl
      rw [opened, ih, reserve_part]
      by_cases own : id = entry.1
      · simp [onWorker, own, total, add_assoc]
      · simp [onWorker, own, Ne.symm own, total]

theorem le_of_add_total {Item : Type} {weight : Item → Int} {items : List Item} {amount bound : Int}
    (nonneg : ∀ item ∈ items, 0 ≤ weight item) (bounded : amount + total weight items ≤ bound) :
    amount ≤ bound := by
  have sign := total_nonneg nonneg
  omega

/-- What the books may come to: a pass commits no more memory to a worker than it has, and
few enough GPUs to count. -/
def limit (capacity : String → Int) : Counter → String → Int
  | .gpuCount, _ => 2 ^ 62
  | .memoryBytes, id => capacity id

theorem limit_lt {capacity : String → Int} (representable : ∀ id, capacity id < 2 ^ 63)
    (counter : Counter) (id : String) : limit capacity counter id < 2 ^ 63 := by
  cases counter with
  | gpuCount => exact show (2 ^ 62 : Int) < 2 ^ 63 by decide
  | memoryBytes => exact representable id

def InLimits (capacity : String → Int) (committed : Committed Cpu Int) : Prop :=
  ∀ (counter : Counter) id,
    0 ≤ counter.part (committed id) ∧ counter.part (committed id) ≤ limit capacity counter id

/-- Where the last of the sums is within its limit, so are all the sums before it. -/
theorem chargeAll_exact {int : Arithmetic} (faithful : Faithful int) {capacity : String → Int}
    (representable : ∀ id, capacity id < 2 ^ 63) {entries : List (String × Job Cpu Int)}
    (nonneg : ∀ entry ∈ entries, ∀ counter : Counter, 0 ≤ counter.need entry.2.resources)
    {committed : Committed Cpu Int} (start : ∀ (counter : Counter) id, 0 ≤ counter.part (committed id))
    (final : InLimits capacity (chargeAll committed entries)) :
    entries.foldlM (fun current entry =>
      MachinePlanner.reserve int current entry.1 entry.2.resources) committed =
        some (chargeAll committed entries) := by
  induction entries generalizing committed with
  | nil => rfl
  | cons entry rest ih =>
      have later := fun other member => nonneg other (List.mem_cons_of_mem entry member)
      have signs := nonneg entry List.mem_cons_self
      let next := reserve committed entry.1 entry.2.resources
      have start' : ∀ (counter : Counter) id, 0 ≤ counter.part (next id) := by
        intro counter id
        rw [reserve_part]
        have before := start counter id
        have sign := signs counter
        split <;> omega
      have range : ∀ counter : Counter,
          InRange (counter.part (committed entry.1) + counter.need entry.2.resources) := by
        intro counter
        have bound := (final counter entry.1).2
        have grows : 0 ≤ total (fun job => counter.need job.resources) (onWorker rest entry.1) := by
          refine total_nonneg fun job member => ?_
          obtain ⟨other, inside, rfl⟩ := List.mem_map.mp member
          exact later other (List.mem_filter.mp inside).1 counter
        have opened : chargeAll committed (entry :: rest) = chargeAll next rest := rfl
        rw [opened, chargeAll_part, reserve_part, if_pos rfl] at bound
        have before := start counter entry.1
        have sign := signs counter
        have small := limit_lt representable counter entry.1
        exact ⟨by omega, by omega⟩
      rw [List.foldlM_cons, reserve_exact faithful range]
      exact ih later start' final

theorem committed_holdings (committed : Committed Cpu Int) (jobs : List (Job Cpu Int)) :
    jobs.foldl commitJob committed = chargeAll committed (holdings jobs) := by
  induction jobs generalizing committed with
  | nil => rfl
  | cons job rest ih =>
      rw [List.foldl_cons, ih, holdings_cons, chargeAll, chargeAll, List.foldl_append, commitJob]
      by_cases holds : held job.state
      · simp [holds, List.foldl_map]
      · simp [holds]

/-- The machine charges the holdings one by one, in the same order. -/
theorem machine_holdings (int : Arithmetic) (committed : Committed Cpu Int)
    (jobs : List (Job Cpu Int)) :
    jobs.foldlM (MachinePlanner.commitJob int) committed = (holdings jobs).foldlM
      (fun current entry => MachinePlanner.reserve int current entry.1 entry.2.resources)
      committed := by
  induction jobs generalizing committed with
  | nil => rfl
  | cons job rest ih =>
      rw [List.foldlM_cons, holdings_cons, List.foldlM_append, MachinePlanner.commitJob]
      by_cases holds : held job.state
      · simp only [if_pos holds, List.foldlM_map, ih]
      · simp only [if_neg holds, List.foldlM_nil, ih]
        rfl

end Charges

section Snapshots
variable {capacity : String → Int} {activeJobs : List (Job Cpu Int)}
  {activeWorkers : List (Worker Cpu Int)}

theorem Fitting.need_nonneg (fitting : Fitting capacity activeJobs activeWorkers)
    {job : Job Cpu Int} (listed : job ∈ activeJobs) (counter : Counter) :
    0 ≤ counter.need job.resources := by
  cases counter
  · exact Int.natCast_nonneg _
  · exact (fitting.requests job listed).1

/-- What is held on a worker when the pass begins. -/
theorem Fitting.held_limits (fitting : Fitting capacity activeJobs activeWorkers)
    (counter : Counter) (id : String) :
    total (fun job => counter.need job.resources) (onWorker (holdings activeJobs) id) ≤
      limit capacity counter id := by
  cases counter with
  | memoryBytes => exact fitting.within id
  | gpuCount =>
      have each : ∀ count ∈ (onWorker (holdings activeJobs) id).map
          (fun job => Counter.need job.resources .gpuCount), count ≤ (maxGPUCount : Int) := by
        intro count member
        obtain ⟨job, inside, rfl⟩ := List.mem_map.mp member
        obtain ⟨entry, listed, rfl⟩ := List.mem_map.mp inside
        have held := mem_holdings (List.mem_filter.mp listed).1
        exact Int.ofNat_le.mpr (fitting.requests entry.2 held.1).2
      have few : (onWorker (holdings activeJobs) id).length < 2 ^ 56 := by
        have filtered : (onWorker (holdings activeJobs) id).length ≤ (holdings activeJobs).length := by
          rw [onWorker, List.length_map]
          exact List.length_filter_le _ _
        exact lt_of_le_of_lt (filtered.trans (holdings_length activeJobs)) fitting.assignments
      have bound := List.sum_le_card_nsmul _ _ each
      rw [List.length_map, nsmul_eq_mul] at bound
      have scaled : ((onWorker (holdings activeJobs) id).length : Int) * (maxGPUCount : Int) ≤
          2 ^ 56 * 64 :=
        Int.mul_le_mul (by omega) (by decide) (by decide) (by decide)
      exact bound.trans scaled

theorem zero_part [Zero Cpu] (counter : Counter) :
    counter.part (CommittedResources.zero : CommittedResources Cpu Int) = 0 := by
  cases counter <;> rfl

variable [Zero Cpu] [Add Cpu] {int : Arithmetic}

/-- What is committed when a pass begins. -/
theorem committed_exact (faithful : Faithful int)
    (fitting : Fitting capacity activeJobs activeWorkers) :
    MachinePlanner.committedByWorker int activeJobs = some (committedByWorker activeJobs) ∧
      InLimits capacity (committedByWorker activeJobs) := by
  have opened : committedByWorker activeJobs = chargeAll (fun _ => .zero) (holdings activeJobs) :=
    committed_holdings _ activeJobs
  have nonneg : ∀ entry ∈ holdings activeJobs, ∀ counter : Counter,
      0 ≤ counter.need entry.2.resources :=
    fun entry member => fitting.need_nonneg (mem_holdings member).1
  have final : InLimits capacity (chargeAll (fun _ => .zero) (holdings activeJobs)) := by
    intro counter id
    rw [chargeAll_part, zero_part, zero_add]
    refine ⟨total_nonneg fun job member => ?_, fitting.held_limits counter id⟩
    obtain ⟨entry, inside, rfl⟩ := List.mem_map.mp member
    exact nonneg entry (List.mem_filter.mp inside).1 counter
  rw [opened, MachinePlanner.committedByWorker, machine_holdings]
  exact ⟨chargeAll_exact faithful (fun id => (fitting.capacities id).2) nonneg
    (fun counter id => (zero_part counter).ge) final, final⟩

end Snapshots

section Planning
variable {capacity : String → Int} {activeJobs : List (Job Cpu Int)}
  {activeWorkers : List (Worker Cpu Int)} {int : Arithmetic} {committed : Committed Cpu Int}

theorem freeGPUCount_bounds (worker : Worker Cpu Int) (minMemoryBytes committedGPUCount : Int)
    (nonneg : 0 ≤ committedGPUCount) :
    0 ≤ freeGPUCount worker minMemoryBytes committedGPUCount ∧
      freeGPUCount worker minMemoryBytes committedGPUCount ≤ worker.gpus.length := by
  have qualifying : (worker.gpus.filter fun gpu => minMemoryBytes ≤ gpu.totalMemoryBytes).length ≤
      worker.gpus.length := List.length_filter_le _ _
  simp only [freeGPUCount]
  split <;> omega

theorem freeGPUCount_exact (faithful : Faithful int) {worker : Worker Cpu Int}
    (inventory : worker.gpus.length < 2 ^ 56) (minMemoryBytes : Int) {committedGPUCount : Int}
    (nonneg : 0 ≤ committedGPUCount) (small : committedGPUCount ≤ 2 ^ 62) :
    MachinePlanner.freeGPUCount int worker minMemoryBytes committedGPUCount =
      some (freeGPUCount worker minMemoryBytes committedGPUCount) := by
  have qualifying : (worker.gpus.filter fun gpu => minMemoryBytes ≤ gpu.totalMemoryBytes).length ≤
      worker.gpus.length := List.length_filter_le _ _
  have difference := faithful ((worker.gpus.filter fun gpu =>
    minMemoryBytes ≤ gpu.totalMemoryBytes).length - committedGPUCount) ⟨by omega, by omega⟩
  simp only [MachinePlanner.freeGPUCount, difference]
  rfl

variable [Sub Cpu]

theorem freeOn_exact (faithful : Faithful int) (fitting : Fitting capacity activeJobs activeWorkers)
    (limits : InLimits capacity committed) {worker : Worker Cpu Int} (listed : worker ∈ activeWorkers)
    (minMemoryBytes : Int) :
    MachinePlanner.freeOn int committed worker minMemoryBytes =
      some (freeOn committed worker minMemoryBytes) := by
  have memory := limits .memoryBytes worker.id
  have gpus := limits .gpuCount worker.id
  have size := fitting.capacities worker.id
  simp only [Counter.part, limit] at memory gpus
  have difference := faithful (worker.memoryCapacityBytes - (committed worker.id).memoryBytes)
    (by rw [fitting.known worker listed]; exact ⟨by omega, by omega⟩)
  have free := freeGPUCount_exact faithful (fitting.inventories worker listed) minMemoryBytes
    gpus.1 gpus.2
  simp only [MachinePlanner.freeOn, difference, free]
  rfl

variable [LT Cpu] [DecidableLT Cpu]

theorem candidate_exact (faithful : Faithful int) (fitting : Fitting capacity activeJobs activeWorkers)
    (limits : InLimits capacity committed) {worker : Worker Cpu Int} (listed : worker ∈ activeWorkers)
    (job : Job Cpu Int) :
    MachinePlanner.candidate int job committed worker = some (candidate job committed worker) := by
  have free := freeOn_exact faithful fitting limits listed job.resources.minGPUMemoryBytes
  have bounds := freeGPUCount_bounds worker job.resources.minGPUMemoryBytes
    (committed worker.id).gpuCount (limits .gpuCount worker.id).1
  have inventory := fitting.inventories worker listed
  simp only [MachinePlanner.candidate, free, candidate, freeOn, Option.bind_eq_bind, Option.bind_some]
  split
  · rfl
  · split
    · rfl
    · split
      · rfl
      · split
        · rfl
        · have surplus := faithful (freeGPUCount worker job.resources.minGPUMemoryBytes
            (committed worker.id).gpuCount - job.resources.gpuCount) ⟨by omega, by omega⟩
          simp only [surplus]
          rfl

theorem mapM_exact {Item Result : Type} {step : Item → Option Result} {exact : Item → Result}
    {items : List Item} (same : ∀ item ∈ items, step item = some (exact item)) :
    items.mapM step = some (items.map exact) := by
  induction items with
  | nil => rfl
  | cons item rest ih =>
      rw [List.mapM_cons, same item List.mem_cons_self,
        ih fun other member => same other (List.mem_cons_of_mem item member)]
      rfl

theorem selectWorker_exact (faithful : Faithful int)
    (fitting : Fitting capacity activeJobs activeWorkers) (limits : InLimits capacity committed)
    (job : Job Cpu Int) :
    MachinePlanner.selectWorker int job activeWorkers committed =
      some (selectWorker job activeWorkers committed) := by
  have candidates := mapM_exact fun worker listed =>
    candidate_exact faithful fitting limits listed job
  simp only [MachinePlanner.selectWorker, candidates, selectWorker, Option.bind_eq_bind,
    Option.bind_some, List.filterMap_map]
  rfl

variable [Add Cpu]

/-- A placement keeps the books within their limits. -/
theorem placed_limits (fitting : Fitting capacity activeJobs activeWorkers)
    (limits : InLimits capacity committed) {job : Job Cpu Int} (listed : job ∈ activeJobs)
    {workerID : String} (selected : selectWorker job activeWorkers committed = some workerID) :
    InLimits capacity (reserve committed workerID job.resources) := by
  obtain ⟨worker, isWorker, found, eligible, rfl⟩ := selectWorker_some selected
  obtain ⟨_, _, _, memory, gpus⟩ := candidate_some eligible
  intro counter id
  rw [reserve_part]
  have before := limits counter id
  have sign := fitting.need_nonneg listed counter
  split
  case isFalse => omega
  case isTrue own =>
    subst own
    refine ⟨by omega, ?_⟩
    cases counter with
    | memoryBytes =>
        rw [fitting.known worker isWorker] at memory
        simp only [Counter.part, Counter.need, limit]
        omega
    | gpuCount =>
        have inventory := fitting.inventories worker isWorker
        simp only [Counter.part, Counter.need, limit] at before ⊢
        have qualifying : (worker.gpus.filter fun gpu =>
            job.resources.minGPUMemoryBytes ≤ gpu.totalMemoryBytes).length ≤ worker.gpus.length :=
          List.length_filter_le _ _
        simp only [freeGPUCount] at gpus
        split at gpus <;> omega

theorem placements_exact (faithful : Faithful int)
    (fitting : Fitting capacity activeJobs activeWorkers) {jobs : List (Job Cpu Int)}
    (listed : ∀ job ∈ jobs, job ∈ activeJobs) (limits : InLimits capacity committed) :
    MachinePlanner.placements int activeWorkers jobs committed =
        some (placements activeWorkers jobs committed) ∧
      InLimits capacity (booksAfter activeWorkers jobs committed) := by
  induction jobs generalizing committed with
  | nil => exact ⟨rfl, limits⟩
  | cons job rest ih =>
      have later := fun other member => listed other (List.mem_cons_of_mem job member)
      have choice := selectWorker_exact faithful fitting limits job
      simp only [MachinePlanner.placements, placements, booksAfter, choice, Option.bind_eq_bind,
        Option.bind_some]
      cases selected : selectWorker job activeWorkers committed with
      | none => exact ih later limits
      | some workerID =>
          have within := placed_limits fitting limits (listed job List.mem_cons_self) selected
          have range : ∀ counter : Counter,
              InRange (counter.part (committed workerID) + counter.need job.resources) := by
            intro counter
            have sum := within counter workerID
            rw [reserve_part, if_pos rfl] at sum
            have small := limit_lt (fun id => (fitting.capacities id).2) counter workerID
            exact ⟨by omega, by omega⟩
          obtain ⟨placed, final⟩ := ih later within
          simp only [reserve_exact faithful range, Option.bind_some, placed]
          exact ⟨rfl, final⟩

variable [Zero Cpu]

theorem plan_exact (faithful : Faithful int) (fitting : Fitting capacity activeJobs activeWorkers)
    (now : Time) :
    MachinePlanner.plan int activeJobs activeWorkers now =
      some (plan activeJobs activeWorkers now) := by
  obtain ⟨books, limits⟩ := committed_exact faithful fitting
  have placed := (placements_exact faithful fitting (fun job member => (mem_queue.mp member).1)
    limits : _ ∧ InLimits capacity (booksAfter activeWorkers (queue activeJobs now) _)).1
  simp only [MachinePlanner.plan, books, placed, Option.bind_eq_bind, Option.bind_some, plan, planned]
  rfl

end Planning

end OrionQueue.MachineExact
