import OrionQueue.Cluster
import OrionQueue.PlannerCapacity

/-!
Capacity over whole runs with one scheduler. A plan is written from a snapshot
that is stale by then. It stays safe because only the pass itself places jobs:
whatever occupies a worker now occupied it in the snapshot or is part of the
plan, and no job ever changes its request. `counts` is the set of states taken
to occupy a worker, so that one argument serves both the planner's own
accounting and the accounting that still counts a job being stopped.
-/

namespace OrionQueue.Capacity

open Jobs JobService JobLifecycle Workers Planner PlannerCapacity Ledger Cluster Runs
open JobStore.MemoryRepository

variable {Cpu Mem Amount : Type} {counts : Jobs.State → Bool}

/-- A set of states that a job enters only by a placement or from within. -/
structure Occupancy (Cpu Mem : Type) (counts : Jobs.State → Bool) : Prop where
  held : ∀ state, held state = true → counts state = true
  active : ∀ state, counts state = true → state.terminal = false
  queued : counts .queued = false
  backward : ∀ {now : Time} {charged : Bool} {job job' : Job Cpu Mem}, Move now charged job job' →
    counts job'.state = true →
      counts job.state = true ∧ job'.assignedWorkerIDs = job.assignedWorkerIDs

/-- The states in which a job may still be executing on its worker. -/
def occupied (state : Jobs.State) : Bool :=
  held state || state = .cancelRequested || state = .preempted

theorem held_occupancy : Occupancy Cpu Mem held where
  held _ holds := holds
  active state holds := by cases state <;> first | rfl | simp [held] at holds
  queued := rfl
  backward moved holds := by
    cases moved with
    | start placed => exact ⟨by simp [placed, held], rfl⟩
    | _ => simp [held] at holds

theorem occupied_occupancy : Occupancy Cpu Mem occupied where
  held _ holds := by simp [occupied, holds]
  active state holds := by cases state <;> first | rfl | simp [occupied, held] at holds
  queued := rfl
  backward moved holds := by
    cases moved with
    | start placed => exact ⟨by simp [placed, occupied, held], rfl⟩
    | requestCancel active =>
        refine ⟨?_, rfl⟩
        rcases active with state | state <;> simp [state, occupied, held]
    | preempt reason running allowed => exact ⟨by simp [running, occupied, held], rfl⟩
    | _ => simp [occupied, held] at holds

/-- Whatever occupies the worker now appears in `cover` with its request. -/
def CoveredOn (counts : Jobs.State → Bool) (jobs : JobStore.MemoryRepository Cpu Mem)
    (workerID : String) (cover : List (Job Cpu Mem)) : Prop :=
  ∀ key job, jobs.find key = some job → counts job.state = true →
    workerID ∈ job.assignedWorkerIDs →
      ∃ old ∈ cover, old.id = job.id ∧ old.resources = job.resources

/-- The jobs of a listing are still stored, with the requests listed. -/
def Remembered (jobs : JobStore.MemoryRepository Cpu Mem) (listed : List (Job Cpu Mem)) : Prop :=
  ∀ old ∈ listed, ∃ job, jobs.find old.id = some job ∧ job.resources = old.resources

theorem mem_assignedTo {jobs : List (Job Cpu Mem)} {workerID : String} {job : Job Cpu Mem} :
    job ∈ assignedTo counts jobs workerID ↔
      job ∈ jobs ∧ counts job.state = true ∧ workerID ∈ job.assignedWorkerIDs := by
  simp [assignedTo]

theorem covered_self (jobs : JobStore.MemoryRepository Cpu Mem) (workerID : String) :
    CoveredOn counts jobs workerID (assignedTo counts jobs.jobs workerID) :=
  fun key job found holds assigned =>
    ⟨job, mem_assignedTo.mpr ⟨mem_jobs_iff.mpr ⟨key, found⟩, holds, assigned⟩, rfl, rfl⟩

theorem covered_mono {jobs : JobStore.MemoryRepository Cpu Mem} {workerID : String}
    {cover larger : List (Job Cpu Mem)} (covered : CoveredOn counts jobs workerID cover)
    (subset : cover ⊆ larger) : CoveredOn counts jobs workerID larger := by
  intro key job found holds assigned
  obtain ⟨old, member, same⟩ := covered key job found holds assigned
  exact ⟨old, subset member, same⟩

/-- Distinct jobs that are all covered weigh no more than their cover. -/
theorem covered_usage [AddCommGroup Cpu] [LinearOrder Cpu] [AddCommGroup Mem] [LinearOrder Mem]
    [AddCommGroup Amount] [LinearOrder Amount] [IsOrderedAddMonoid Amount]
    (dimension : Dimension Cpu Mem Amount) {jobs : JobStore.MemoryRepository Cpu Mem}
    (keyed : jobs.Keyed) {workerID : String} {cover : List (Job Cpu Mem)}
    (nonneg : ∀ old ∈ cover, NonNegative old.resources)
    (covered : CoveredOn counts jobs workerID cover) :
    usage dimension counts jobs.jobs workerID ≤
      total (fun job => dimension.need job.resources) cover := by
  refine total_le_cover Job.id Job.id ?_
    (fun old member => dimension.need_nonneg _ (nonneg old member)) ?_
  · exact (Tables.keyed_values_nodup keyed).sublist (List.filter_sublist.map Job.id)
  · intro job member
    obtain ⟨stored, holds, assigned⟩ := mem_assignedTo.mp member
    obtain ⟨key, found⟩ := mem_jobs_iff.mp stored
    obtain ⟨old, listed, named, same⟩ := covered key job found holds assigned
    exact ⟨old, listed, named, by rw [same]⟩

theorem move_single {now : Time} {charged : Bool} {job job' : Job Cpu Mem}
    (moved : Move now charged job job') (single : job.assignedWorkerIDs.length ≤ 1) :
    job'.assignedWorkerIDs.length ≤ 1 := by
  cases moved with
  | requeue | confirmPreempt => simp
  | _ => exact single

section Covers
variable [Zero Cpu] [LT Cpu] [DecidableLT Cpu] [Zero Mem] [LT Mem] [DecidableLT Mem]

/-- One locked step keeps a cover, provided the cover foresees a placement on
the worker. -/
theorem covered_apply {now : Time} {jobs : JobStore.MemoryRepository Cpu Mem} {op : Op Cpu Mem}
    {workerID : String} {cover : List (Job Cpu Mem)} (occupancy : Occupancy Cpu Mem counts)
    (covered : CoveredOn counts jobs workerID cover)
    (foreseen : ∀ id workerIDs job, op = .assignToWorkers id workerIDs → workerID ∈ workerIDs →
      jobs.find id = some job → ∃ old ∈ cover, old.id = job.id ∧ old.resources = job.resources) :
    CoveredOn counts (op.apply now jobs) workerID cover := by
  refine apply_records covered (fun _ _ listed => listed) ?_ ?_ ?_
  · intro id charged job job' moved listed holds assigned
    obtain ⟨before, kept⟩ := occupancy.backward moved holds
    rw [(move_fixed moved).1, (move_fixed moved).2]
    exact listed before (kept ▸ assigned)
  · intro id workerIDs job isPlace known _ _ _ assigned
    exact foreseen id workerIDs job isPlace assigned known
  · intro id input _ _ holds
    simp [newJob, occupancy.queued] at holds

theorem covered_call {now : Time} {jobs : JobStore.MemoryRepository Cpu Mem} {op : Op Cpu Mem}
    {workerID : String} {cover : List (Job Cpu Mem)} (occupancy : Occupancy Cpu Mem counts)
    (covered : CoveredOn counts jobs workerID cover) (allowed : callable jobs op = true) :
    CoveredOn counts (op.apply now jobs) workerID cover :=
  covered_apply occupancy covered fun id workerIDs _ isPlace =>
    absurd isPlace (callable_not_place allowed id workerIDs)

/-- Requests are fixed at submission; a fresh ID touches no listed job. -/
theorem remembered_apply {now : Time} {jobs : JobStore.MemoryRepository Cpu Mem} {op : Op Cpu Mem}
    {listed : List (Job Cpu Mem)} (remembered : Remembered jobs listed)
    (fresh : ∀ id input, op = .submit id input → jobs.find id = none) :
    Remembered (op.apply now jobs) listed := by
  intro old member
  obtain ⟨record, found, same⟩ := remembered old member
  refine apply_follows found (fresh old.id) same ?_ (fun _ _ _ => same)
  intro charged job' moved
  exact (move_fixed moved).2.trans same

end Covers

section Operations
variable [AddCommGroup Cpu] [LinearOrder Cpu] [AddCommGroup Mem] [LinearOrder Mem]

/-- What every stored job satisfies, whatever its state. -/
structure Decent (jobs : JobStore.MemoryRepository Cpu Mem) : Prop where
  keyed : jobs.Keyed
  single : ∀ key job, jobs.find key = some job → job.assignedWorkerIDs.length ≤ 1
  nonneg : ∀ key job, jobs.find key = some job → NonNegative job.resources

theorem decent_apply {now : Time} {jobs : JobStore.MemoryRepository Cpu Mem} {op : Op Cpu Mem}
    (decent : Decent jobs) (single : SinglePlacement op) : Decent (op.apply now jobs) where
  keyed := apply_keyed decent.keyed now op
  single := by
    refine apply_records decent.single (fun _ _ one => one) (fun _ _ _ _ => move_single) ?_ ?_
    · rintro id workerIDs job rfl _ _ _
      exact le_of_eq single
    · intro id input _ _
      simp [newJob]
  nonneg := by
    refine apply_records decent.nonneg (fun _ _ sign => sign) ?_ (fun _ _ _ _ _ _ sign => sign) ?_
    · intro id charged job job' moved sign
      rwa [(move_fixed moved).2]
    · intro id input _ valid
      obtain ⟨cores, memory, _⟩ := validateSubmit_nonneg valid
      exact ⟨cores, memory⟩

end Operations

section Fitting
variable [AddCommGroup Cpu] [LinearOrder Cpu] [AddCommGroup Mem] [LinearOrder Mem]

/-- The jobs in the counted states on the worker fit into it. -/
structure Fits (counts : Jobs.State → Bool) (jobs : List (Job Cpu Mem)) (workerID : String)
    (worker : Worker Cpu Mem) : Prop where
  gpus : total (fun job => (job.resources.gpuCount : Int)) (assignedTo counts jobs workerID) ≤
    worker.gpus.length
  cpu : total (fun job => job.resources.cpuCores) (assignedTo counts jobs workerID) ≤
    worker.cpuCapacity
  memory : total (fun job => job.resources.memoryBytes) (assignedTo counts jobs workerID) ≤
    worker.memoryCapacityBytes

theorem fits_inventory {jobs : List (Job Cpu Mem)} {workerID : String}
    {worker worker' : Worker Cpu Mem} (fits : Fits counts jobs workerID worker)
    (same : SameInventory worker worker') : Fits counts jobs workerID worker' := by
  obtain ⟨_, cores, bytes, gpus⟩ := same
  exact ⟨gpus ▸ fits.gpus, cores ▸ fits.cpu, bytes ▸ fits.memory⟩

/-- What stays true of a job listing while the pass that took it is under way. -/
structure Grounded (jobs : JobStore.MemoryRepository Cpu Mem)
    (workers : Workers.MemoryRepository Cpu Mem) (listed : List (Job Cpu Mem)) : Prop where
  single : ∀ job ∈ listed, job.assignedWorkerIDs.length ≤ 1
  nonneg : ∀ job ∈ listed, NonNegative job.resources
  remembered : Remembered jobs listed
  within : ∀ id worker, workers.find id = some worker → Fits held listed id worker

/-- Everything a pass over the snapshot may leave on the worker. -/
def Snapshot.cover (counts : Jobs.State → Bool) (snapshot : Snapshot Cpu Mem) (workerID : String) :
    List (Job Cpu Mem) :=
  assignedTo counts snapshot.jobs workerID ++
    plannedOn snapshot.jobs snapshot.workers snapshot.now workerID

structure Underway (counts : Jobs.State → Bool) (jobs : JobStore.MemoryRepository Cpu Mem)
    (workers : Workers.MemoryRepository Cpu Mem) (snapshot : Snapshot Cpu Mem)
    (rest : List Assignment) : Prop where
  grounded : Grounded jobs workers snapshot.jobs
  known : ∀ listed ∈ snapshot.workers, ∃ worker, workers.find listed.id = some worker ∧
    SameInventory listed worker
  covered : ∀ workerID, CoveredOn counts jobs workerID (Snapshot.cover counts snapshot workerID)
  remaining : rest ⊆ snapshot.assignments

/-- The part of it that no other scheduler can take away: where the plan came from. -/
structure Founded (jobs : JobStore.MemoryRepository Cpu Mem)
    (workers : Workers.MemoryRepository Cpu Mem) (snapshot : Snapshot Cpu Mem)
    (rest : List Assignment) : Prop where
  grounded : Grounded jobs workers snapshot.jobs
  known : ∀ listed ∈ snapshot.workers, ∃ worker, workers.find listed.id = some worker ∧
    SameInventory listed worker
  remaining : rest ⊆ snapshot.assignments

theorem Underway.founded {jobs : JobStore.MemoryRepository Cpu Mem}
    {workers : Workers.MemoryRepository Cpu Mem} {snapshot : Snapshot Cpu Mem}
    {rest : List Assignment} (underway : Underway counts jobs workers snapshot rest) :
    Founded jobs workers snapshot rest :=
  ⟨underway.grounded, underway.known, underway.remaining⟩

def PassSafe (counts : Jobs.State → Bool) (jobs : JobStore.MemoryRepository Cpu Mem)
    (workers : Workers.MemoryRepository Cpu Mem) : Pass Cpu Mem → Prop
  | .listedJobs listed => Grounded jobs workers listed ∧
      ∀ workerID, CoveredOn counts jobs workerID (assignedTo counts listed workerID)
  | .assigning snapshot rest _ => Underway counts jobs workers snapshot rest
  | .recording snapshot _ rest _ => Underway counts jobs workers snapshot rest
  | .idle | .preempting _ _ | .returned _ _ => True

theorem plannedOn_listed {snapshot : Snapshot Cpu Mem} {workerID : String} {job : Job Cpu Mem}
    (member : job ∈ plannedOn snapshot.jobs snapshot.workers snapshot.now workerID) :
    job ∈ snapshot.jobs := by
  obtain ⟨placed, chosen, rfl⟩ := List.mem_map.mp member
  exact (mem_planned (List.mem_filter.mp chosen).1).1

theorem assignment_planned {snapshot : Snapshot Cpu Mem} {assignment : Assignment}
    (member : assignment ∈ snapshot.assignments) :
    ∃ job ∈ plannedOn snapshot.jobs snapshot.workers snapshot.now assignment.workerID,
      job.id = assignment.jobID := by
  obtain ⟨placed, chosen, rfl⟩ := List.mem_map.mp member
  exact ⟨placed.1, List.mem_map.mpr ⟨placed, List.mem_filter.mpr ⟨chosen, by simp⟩, rfl⟩, rfl⟩

/-- The placement that a pass writes next is foreseen by its cover. -/
theorem place_covered {now : Time} {jobs : JobStore.MemoryRepository Cpu Mem} (keyed : jobs.Keyed)
    {workers : Workers.MemoryRepository Cpu Mem} {snapshot : Snapshot Cpu Mem}
    {assignment : Assignment} {rest : List Assignment} (occupancy : Occupancy Cpu Mem counts)
    (founded : Founded jobs workers snapshot (assignment :: rest)) {workerID : String}
    (covered : CoveredOn counts jobs workerID (Snapshot.cover counts snapshot workerID)) :
    CoveredOn counts
      ((Op.assignToWorkers assignment.jobID [assignment.workerID]).apply now jobs) workerID
      (Snapshot.cover counts snapshot workerID) := by
  refine covered_apply occupancy covered ?_
  rintro id workerIDs job ⟨rfl, rfl⟩ target found
  obtain rfl := List.mem_singleton.mp target
  have chosen : assignment ∈ snapshot.assignments := founded.remaining (by simp)
  obtain ⟨old, planned, named⟩ := assignment_planned chosen
  obtain ⟨record, stored, same⟩ := founded.grounded.remembered old (plannedOn_listed planned)
  obtain rfl : record = job := Option.some.inj (stored.symm.trans (named ▸ found))
  exact ⟨old, List.mem_append_right _ planned, named.trans (keyed _ _ found).symm, same.symm⟩

theorem founded_place {now : Time} {jobs : JobStore.MemoryRepository Cpu Mem}
    {workers : Workers.MemoryRepository Cpu Mem} {snapshot : Snapshot Cpu Mem}
    {assignment : Assignment} {rest : List Assignment}
    (founded : Founded jobs workers snapshot (assignment :: rest)) :
    Founded ((Op.assignToWorkers assignment.jobID [assignment.workerID]).apply now jobs)
      workers snapshot rest where
  grounded := { founded.grounded with
    remembered := remembered_apply founded.grounded.remembered
      fun _ _ isSubmit => by cases isSubmit }
  known := founded.known
  remaining _ member := founded.remaining (List.mem_cons_of_mem _ member)

theorem underway_place {now : Time} {jobs : JobStore.MemoryRepository Cpu Mem} (keyed : jobs.Keyed)
    {workers : Workers.MemoryRepository Cpu Mem} {snapshot : Snapshot Cpu Mem}
    {assignment : Assignment} {rest : List Assignment} (occupancy : Occupancy Cpu Mem counts)
    (underway : Underway counts jobs workers snapshot (assignment :: rest)) :
    Underway counts ((Op.assignToWorkers assignment.jobID [assignment.workerID]).apply now jobs)
      workers snapshot rest :=
  have founded : Founded
      ((Op.assignToWorkers assignment.jobID [assignment.workerID]).apply now jobs) workers
      snapshot rest := founded_place underway.founded
  { founded with covered := fun workerID =>
      place_covered keyed occupancy underway.founded (underway.covered workerID) }

theorem grounded_kept {jobs jobs' : JobStore.MemoryRepository Cpu Mem}
    {workers workers' : Workers.MemoryRepository Cpu Mem} {listed : List (Job Cpu Mem)}
    (remembered : Remembered jobs' listed) (kept : InventoryKept workers workers')
    (grounded : Grounded jobs workers listed) : Grounded jobs' workers' listed := by
  refine ⟨grounded.single, grounded.nonneg, remembered, ?_⟩
  intro id worker' found
  obtain ⟨worker, before, same⟩ := kept.back id worker' found
  exact fits_inventory (grounded.within id worker before) same

theorem founded_kept {jobs jobs' : JobStore.MemoryRepository Cpu Mem}
    {workers workers' : Workers.MemoryRepository Cpu Mem} {snapshot : Snapshot Cpu Mem}
    {rest : List Assignment} (remembered : Remembered jobs' snapshot.jobs)
    (kept : InventoryKept workers workers') (founded : Founded jobs workers snapshot rest) :
    Founded jobs' workers' snapshot rest := by
  refine ⟨grounded_kept remembered kept founded.grounded, fun listed member => ?_,
    founded.remaining⟩
  obtain ⟨worker, found, same⟩ := founded.known listed member
  obtain ⟨worker', after, inventory⟩ := kept.forth listed.id worker found
  exact ⟨worker', after, same.trans inventory⟩

/-- A pass stays safe while others act on the stores. -/
theorem passSafe_kept {jobs jobs' : JobStore.MemoryRepository Cpu Mem}
    {workers workers' : Workers.MemoryRepository Cpu Mem} {pass : Pass Cpu Mem}
    (covers : ∀ workerID cover, CoveredOn counts jobs workerID cover →
      CoveredOn counts jobs' workerID cover)
    (remembers : ∀ listed, Remembered jobs listed → Remembered jobs' listed)
    (kept : InventoryKept workers workers') (safe : PassSafe counts jobs workers pass) :
    PassSafe counts jobs' workers' pass := by
  have underways : ∀ snapshot rest, Underway counts jobs workers snapshot rest →
      Underway counts jobs' workers' snapshot rest := by
    intro snapshot rest underway
    have founded := founded_kept (remembers _ underway.grounded.remembered) kept underway.founded
    exact { founded with covered := fun id => covers id _ (underway.covered id) }
  cases pass with
  | idle => trivial
  | returned result problem => trivial
  | preempting rest result => trivial
  | listedJobs listed =>
      exact ⟨grounded_kept (remembers _ safe.1.remembered) kept safe.1,
        fun id => covers id _ (safe.2 id)⟩
  | assigning snapshot rest result => exact underways snapshot rest safe
  | recording snapshot assignment rest result => exact underways snapshot rest safe

def capacityOf [AddCommGroup Amount] [LinearOrder Amount] (dimension : Dimension Cpu Mem Amount)
    (workers : Workers.MemoryRepository Cpu Mem) (workerID : String) : Amount :=
  ((workers.find workerID).map dimension.capacity).getD 0

/-- In a snapshot without stops under way on the worker, the cover is what Plan
counted, so it fits. -/
theorem cover_within [AddCommGroup Amount] [LinearOrder Amount]
    (dimension : Dimension Cpu Mem Amount) {jobs : JobStore.MemoryRepository Cpu Mem}
    {workers : Workers.MemoryRepository Cpu Mem} {snapshot : Snapshot Cpu Mem}
    {rest : List Assignment} {workerID : String} {worker : Worker Cpu Mem}
    (founded : Founded jobs workers snapshot rest) (occupancy : Occupancy Cpu Mem counts)
    (clear : ∀ old ∈ snapshot.jobs, counts old.state = true → workerID ∈ old.assignedWorkerIDs →
      held old.state = true)
    (found : workers.find workerID = some worker)
    (within : usage dimension held snapshot.jobs workerID ≤ dimension.capacity worker) :
    total (fun job => dimension.need job.resources) (Snapshot.cover counts snapshot workerID) ≤
      dimension.capacity worker := by
  -- On this worker the wider count sees no more jobs than Plan's own.
  have counted : assignedTo counts snapshot.jobs workerID =
      assignedTo held snapshot.jobs workerID := by
    refine List.filter_congr fun old member => ?_
    by_cases assigned : workerID ∈ old.assignedWorkerIDs
    · by_cases holds : held old.state = true
      · simp [holds, occupancy.held old.state holds]
      · have free : counts old.state ≠ true := fun inside => holds (clear old member inside assigned)
        simp [Bool.eq_false_iff.mpr holds, Bool.eq_false_iff.mpr free]
    · simp [assigned]
  have known : ∀ listed ∈ snapshot.workers,
      capacityOf dimension workers listed.id = dimension.capacity listed := by
    intro listed member
    obtain ⟨stored, before, same⟩ := founded.known listed member
    simp [capacityOf, before, dimension.capacity_inventory listed stored same]
  have own : capacityOf dimension workers workerID = dimension.capacity worker := by
    simp [capacityOf, found]
  have booked := plan_within dimension (capacityOf dimension workers) snapshot.now known
    founded.grounded.single (own.symm ▸ within)
  simpa [Snapshot.cover, counted, total, own, usage] using booked

theorem cover_nonneg {jobs : JobStore.MemoryRepository Cpu Mem}
    {workers : Workers.MemoryRepository Cpu Mem} {snapshot : Snapshot Cpu Mem}
    {rest : List Assignment} (founded : Founded jobs workers snapshot rest)
    (workerID : String) :
    ∀ old ∈ Snapshot.cover counts snapshot workerID, NonNegative old.resources := by
  intro old member
  rcases List.mem_append.mp member with listed | planned
  · exact founded.grounded.nonneg old (mem_assignedTo.mp listed).1
  · exact founded.grounded.nonneg old (plannedOn_listed planned)

/-- The job that the assignment names is still there to be placed. -/
def commits (jobs : JobStore.MemoryRepository Cpu Mem) (assignment : Assignment) : Bool :=
  (jobs.find assignment.jobID).any fun job => job.state = .queued

theorem assign_refused {now : Time} {jobs : JobStore.MemoryRepository Cpu Mem}
    {assignment : Assignment} (refused : commits jobs assignment = false) :
    (Op.assignToWorkers assignment.jobID [assignment.workerID]).apply now jobs = jobs := by
  simp only [Op.apply, assignToWorkers]
  rcases update_cases jobs assignment.jobID (assignUpdate [assignment.workerID]) with
    ⟨problem, same⟩ | ⟨job, job', found, accepted, stored⟩
  · rw [same]
  · unfold assignUpdate at accepted
    split at accepted <;> cases accepted
    simp_all [commits]

end Fitting

section Bounds
variable [AddCommGroup Cpu] [LinearOrder Cpu] [IsOrderedAddMonoid Cpu]
variable [AddCommGroup Mem] [LinearOrder Mem] [IsOrderedAddMonoid Mem]

theorem fits_covered {jobs : JobStore.MemoryRepository Cpu Mem} (keyed : jobs.Keyed)
    {cover : List (Job Cpu Mem)} {workerID : String} {worker : Worker Cpu Mem}
    (nonneg : ∀ old ∈ cover, NonNegative old.resources)
    (covered : CoveredOn counts jobs workerID cover)
    (gpus : total (fun job => gpu.need job.resources) cover ≤ gpu.capacity worker)
    (cores : total (fun job => cpu.need job.resources) cover ≤ cpu.capacity worker)
    (bytes : total (fun job => memory.need job.resources) cover ≤ memory.capacity worker) :
    Fits counts jobs.jobs workerID worker :=
  ⟨(covered_usage gpu keyed nonneg covered).trans gpus,
    (covered_usage cpu keyed nonneg covered).trans cores,
    (covered_usage memory keyed nonneg covered).trans bytes⟩

theorem fits_sublisting {counts' : Jobs.State → Bool} {listed other : List (Job Cpu Mem)}
    {workerID : String} {worker : Worker Cpu Mem}
    (distinct : ((assignedTo counts' listed workerID).map Job.id).Nodup)
    (larger : ∀ job ∈ assignedTo counts' listed workerID, job ∈ assignedTo counts other workerID)
    (nonneg : ∀ job ∈ assignedTo counts other workerID, NonNegative job.resources)
    (fits : Fits counts other workerID worker) : Fits counts' listed workerID worker := by
  have bound : ∀ {Amount : Type} [AddCommGroup Amount] [LinearOrder Amount]
      [IsOrderedAddMonoid Amount] (dimension : Dimension Cpu Mem Amount),
      usage dimension counts' listed workerID ≤ usage dimension counts other workerID := by
    intro Amount _ _ _ dimension
    exact total_le_cover Job.id Job.id distinct
      (fun job member => dimension.need_nonneg _ (nonneg job member))
      (fun job member => ⟨job, larger job member, rfl, rfl⟩)
  exact ⟨(bound gpu).trans fits.gpus, (bound cpu).trans fits.cpu, (bound memory).trans fits.memory⟩

/-- A step that keeps a cover of the worker by itself keeps it within capacity. -/
theorem fits_kept {jobs jobs' : JobStore.MemoryRepository Cpu Mem} (decent : Decent jobs)
    (keyed : jobs'.Keyed) {workerID : String} {worker : Worker Cpu Mem}
    (covered : CoveredOn counts jobs' workerID (assignedTo counts jobs.jobs workerID))
    (fits : Fits counts jobs.jobs workerID worker) : Fits counts jobs'.jobs workerID worker := by
  refine fits_covered keyed ?_ covered fits.gpus fits.cpu fits.memory
  intro old member
  obtain ⟨key, found⟩ := mem_jobs_iff.mp (mem_assignedTo.mp member).1
  exact decent.nonneg key old found

/-- Writing one assignment of a pass, if the pass has everything on the worker in
its accounts and saw no stop under way there. -/
theorem place_fits {now : Time} {jobs : JobStore.MemoryRepository Cpu Mem} (decent : Decent jobs)
    {workers : Workers.MemoryRepository Cpu Mem} {snapshot : Snapshot Cpu Mem}
    {assignment : Assignment} {rest : List Assignment} (occupancy : Occupancy Cpu Mem counts)
    (founded : Founded jobs workers snapshot (assignment :: rest))
    (covered : commits jobs assignment = true → CoveredOn counts jobs assignment.workerID
      (Snapshot.cover counts snapshot assignment.workerID))
    (clear : commits jobs assignment = true → ∀ old ∈ snapshot.jobs, counts old.state = true →
      assignment.workerID ∈ old.assignedWorkerIDs → held old.state = true)
    {workerID : String} {worker : Worker Cpu Mem} (found : workers.find workerID = some worker)
    (fits : Fits counts jobs.jobs workerID worker) :
    Fits counts
      ((Op.assignToWorkers assignment.jobID [assignment.workerID]).apply now jobs).jobs
      workerID worker := by
  cases committing : commits jobs assignment with
  | false =>
      rw [assign_refused committing]
      exact fits
  | true =>
      have keyed := apply_keyed decent.keyed now
        (.assignToWorkers assignment.jobID [assignment.workerID])
      by_cases target : workerID = assignment.workerID
      · -- The target: all that may be on it is in the cover, and the cover fits.
        subst target
        have within := founded.grounded.within assignment.workerID worker found
        have clean := clear committing
        exact fits_covered keyed (cover_nonneg founded assignment.workerID)
          (place_covered decent.keyed occupancy founded (covered committing))
          (cover_within gpu founded occupancy clean found within.gpus)
          (cover_within cpu founded occupancy clean found within.cpu)
          (cover_within memory founded occupancy clean found within.memory)
      · -- Any other worker gains nothing by this placement.
        refine fits_kept decent keyed ?_ fits
        refine covered_apply occupancy (covered_self jobs workerID) ?_
        rintro id workerIDs job ⟨rfl, rfl⟩ member
        exact absurd (List.mem_singleton.mp member) target

end Bounds

end OrionQueue.Capacity
