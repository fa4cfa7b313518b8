import OrionQueue.Capacity
import OrionQueue.Doubles

/-!
CPU accounting with the numbers a request can carry. Both validators compare with
zero, which lets NaN pass, and so do the planner's comparisons: a job that asks for
NaN cores fits everywhere, and the commitment it leaves behind is NaN, after which
everything fits. Where no job asks for NaN, the commitments on a worker of finite
capacity stay finite and within it.
-/

namespace OrionQueue.CpuAdmission

open Jobs JobService JobLifecycle Workers Planner PlannerCapacity Capacity Cluster Ledger Runs Doubles
open JobStore.MemoryRepository
open Cluster hiding State Label step

variable {Value Mem : Type}

structure State (Value Mem : Type) where
  jobs : JobStore.MemoryRepository (Double Value) Mem
  workers : Workers.MemoryRepository (Double Value) Mem

def State.start : State Value Mem := ⟨.empty, .empty⟩

/-- Between passes of the planner, clients and agents may call the job service, and
workers may register. -/
inductive Label (Value Mem : Type) where
  | call (now : Time) (op : Op (Double Value) Mem)
  | register (call : Registration (Double Value) Mem)
  | pass (now : Time)

/-- The jobs on the worker whose capacity the planner counts as taken. -/
def placedOn (jobs : JobStore.MemoryRepository (Double Value) Mem) (workerID : String) :
    List (Job (Double Value) Mem) :=
  assignedTo held jobs.jobs workerID

/-- What a pass sees on a worker is placed there. -/
theorem seen_placed {jobs : JobStore.MemoryRepository (Double Value) Mem} {id : String}
    {job : Job (Double Value) Mem} (seen : job ∈ assignedTo held jobs.listActive id) :
    job ∈ placedOn jobs id := by
  obtain ⟨listed, holds, assigned⟩ := mem_assignedTo.mp seen
  exact mem_assignedTo.mpr ⟨mem_jobs_iff.mpr (mem_listActive_iff.mp listed).1, holds, assigned⟩

/-- No job is submitted that asks for NaN cores. -/
def DefinedCores : Label Value Mem → Prop
  | .call _ (.submit _ input) => input.resources.cpuCores ≠ .nan
  | _ => True

section Machine
variable [Zero Value] [Add Value] [Sub Value] [LT Value] [DecidableLT Value]
variable [Zero Mem] [Add Mem] [Sub Mem] [LT Mem] [DecidableLT Mem] [LE Mem] [DecidableLE Mem]

def applyAssignments (now : Time) (assignments : List Assignment)
    (jobs : JobStore.MemoryRepository (Double Value) Mem) :
    JobStore.MemoryRepository (Double Value) Mem :=
  execute jobs (assignments.map fun assignment =>
    (now, .assignToWorkers assignment.jobID [assignment.workerID]))

/-- The jobs after one pass of the planner over what is listed as active. -/
def afterPass (state : State Value Mem) (now : Time) :
    JobStore.MemoryRepository (Double Value) Mem :=
  applyAssignments now (plan state.jobs.listActive state.workers.listActive now) state.jobs

def step (state : State Value Mem) : Label Value Mem → Option (State Value Mem)
  | .call now op =>
      if callable state.jobs op then some { state with jobs := op.apply now state.jobs } else none
  | .register call =>
      -- A generated ID is not in use.
      if (state.workers.find call.id).isNone then
        some { state with workers := (register state.workers call).2 }
      else none
  | .pass now => some { state with jobs := afterPass state now }

end Machine

/-- What a job adds to the finite requests on its worker. -/
def cores [Zero Value] (job : Job (Double Value) Mem) : Value := job.resources.cpuCores.finiteValue

/-- On every worker of finite capacity, what the jobs placed there ask for in finite
numbers fits. -/
def Within [AddCommMonoid Value] [LE Value] (state : State Value Mem) : Prop :=
  ∀ id worker capacity, state.workers.find id = some worker → worker.cpuCapacity = .finite capacity →
    total cores (placedOn state.jobs id) ≤ capacity

/-- A job that asks for a finite number of cores. -/
def Finite [Zero Value] (job : Job (Double Value) Mem) : Prop :=
  job.resources.cpuCores = .finite (cores job)

section Books
variable [AddCommGroup Value] [Add Mem]

/-- A finite commitment stays finite when a finite job is committed. -/
theorem commitJob_cores {committed : Committed (Double Value) Mem} {job : Job (Double Value) Mem}
    {workerID : String} {used : Value} (single : job.assignedWorkerIDs.length ≤ 1)
    (finite : job ∈ assignedTo held [job] workerID → Finite job)
    (books : (committed workerID).cpuCores = .finite used) :
    (commitJob committed job workerID).cpuCores =
      .finite (used + total cores (assignedTo held [job] workerID)) := by
  have alone : assignedTo held [job] workerID =
      if held job.state && job.assignedWorkerIDs.contains workerID then [job] else [] := by
    simp [assignedTo, List.filter_cons]
  rw [alone] at finite ⊢
  unfold commitJob
  by_cases holds : held job.state
  case neg => simp [holds, books, total]
  rcases ids : job.assignedWorkerIDs with _ | ⟨id, _ | ⟨other, rest⟩⟩
  · simp [books, total]
  · by_cases own : workerID = id
    · subst own
      have request : job.resources.cpuCores = .finite (cores job) := finite (by simp [holds, ids])
      have charged : (Double.finite used : Double Value) + .finite (cores job) =
          .finite (used + cores job) := rfl
      simp [holds, reserve, CommittedResources.add, books, request, total, charged]
    · simp [holds, own, reserve, books, total]
  · simp [ids] at single

theorem committed_cores {jobs : List (Job (Double Value) Mem)} {workerID : String}
    (single : ∀ job ∈ jobs, job.assignedWorkerIDs.length ≤ 1)
    (finite : ∀ job ∈ assignedTo held jobs workerID, Finite job)
    {committed : Committed (Double Value) Mem} {used : Value}
    (books : (committed workerID).cpuCores = .finite used) :
    (jobs.foldl commitJob committed workerID).cpuCores =
      .finite (used + total cores (assignedTo held jobs workerID)) := by
  induction jobs generalizing committed used with
  | nil => simpa [assignedTo, total] using books
  | cons job rest ih =>
      have split : assignedTo held (job :: rest) workerID =
          assignedTo held [job] workerID ++ assignedTo held rest workerID :=
        List.filter_append [job] rest
      rw [split] at finite ⊢
      have first := commitJob_cores (single job (by simp))
        (fun member => finite job (List.mem_append_left _ member)) books
      rw [List.foldl_cons, ih (fun other member => single other (by simp [member]))
        (fun other member => finite other (List.mem_append_right _ member)) first]
      simp [total, add_assoc]

end Books

section Planning
variable [AddCommGroup Value] [LinearOrder Value] [IsOrderedAddMonoid Value]
variable [Add Mem] [Sub Mem] [LT Mem] [DecidableLT Mem] [LE Mem] [DecidableLE Mem]

/-- A number of cores that passed validation and is a number at all. -/
def Accepted (job : Job (Double Value) Mem) : Prop :=
  job.resources.cpuCores ≠ .nan ∧ ¬ job.resources.cpuCores < 0

/-- The jobs that the planning loop puts on the worker. -/
def plannedOn (placed : List (Job (Double Value) Mem × String)) (workerID : String) :
    List (Job (Double Value) Mem) :=
  (placed.filter fun placement => placement.2 = workerID).map Prod.fst

/-- Along Plan's own loop: what it puts on a worker of finite capacity is finite, and
fits next to what is committed there. -/
theorem placements_fit {activeWorkers : List (Worker (Double Value) Mem)} {workerID : String}
    {capacity : Value}
    (known : ∀ worker ∈ activeWorkers, worker.id = workerID → worker.cpuCapacity = .finite capacity)
    {jobs : List (Job (Double Value) Mem)} (accepted : ∀ job ∈ jobs, Accepted job)
    {committed : Committed (Double Value) Mem} {used : Value}
    (books : (committed workerID).cpuCores = .finite used) (within : used ≤ capacity) :
    let placed := plannedOn (placements activeWorkers jobs committed) workerID
    (∀ job ∈ placed, Finite job) ∧ used + total cores placed ≤ capacity := by
  induction jobs generalizing committed used with
  | nil => simpa [plannedOn, placements, total] using within
  | cons job rest ih =>
      have later := fun other member => accepted other (List.mem_cons_of_mem job member)
      simp only [placements]
      cases selected : selectWorker job activeWorkers committed with
      | none => exact ih later books within
      | some chosen =>
          by_cases own : chosen = workerID
          · subst own
            obtain ⟨worker, listed, found, eligible, named⟩ := selectWorker_some selected
            have room := (candidate_some eligible).2.2.1
            rw [named, known worker listed named, books] at room
            obtain ⟨defined, sign⟩ := accepted job List.mem_cons_self
            obtain ⟨value, isValue, fits⟩ := Double.fits_of_not_lt defined sign room
            have isCores : cores job = value := by
              rw [cores, isValue, Double.finiteValue]
            have charged : (reserve committed chosen job.resources chosen).cpuCores =
                .finite (used + value) := by
              rw [reserve, if_pos rfl, CommittedResources.add, books, isValue]
              rfl
            obtain ⟨finite, bounded⟩ := ih later charged fits
            simp only [plannedOn, List.filter_cons, decide_true, if_true, List.map_cons,
              List.forall_mem_cons]
            refine ⟨⟨?_, finite⟩, ?_⟩
            · rw [Finite, isCores, isValue]
            · simpa [plannedOn, total, isCores, add_assoc] using bounded
          · have kept : (reserve committed chosen job.resources workerID).cpuCores = .finite used := by
              rw [reserve, if_neg (Ne.symm own), books]
            have rest_fits := ih later kept within
            simpa [plannedOn, own] using rest_fits

end Planning

section Records
variable [AddCommGroup Value] [LinearOrder Value]
variable {workers : Workers.MemoryRepository (Double Value) Mem}
variable {jobs : JobStore.MemoryRepository (Double Value) Mem}

/-- The jobs on a worker are finite and fit. -/
def FitsFinite (jobs : JobStore.MemoryRepository (Double Value) Mem) (workerID : String)
    (capacity : Value) : Prop :=
  (∀ job ∈ placedOn jobs workerID, Finite job) ∧ total cores (placedOn jobs workerID) ≤ capacity

/-- Jobs on the worker fit when they are covered by jobs that do. -/
theorem covered_fits [IsOrderedAddMonoid Value] (keyed : jobs.Keyed) {workerID : String}
    {capacity : Value} {cover : List (Job (Double Value) Mem)}
    (covered : CoveredOn held jobs workerID cover) (accepted : ∀ old ∈ cover, Accepted old)
    (finite : ∀ old ∈ cover, Finite old) (bounded : total cores cover ≤ capacity) :
    FitsFinite jobs workerID capacity := by
  have matched : ∀ job ∈ placedOn jobs workerID,
      ∃ old ∈ cover, old.id = job.id ∧ old.resources = job.resources := by
    intro job member
    obtain ⟨stored, holds, assigned⟩ := mem_assignedTo.mp member
    obtain ⟨key, found⟩ := mem_jobs_iff.mp stored
    exact covered key job found holds assigned
  constructor
  · intro job member
    obtain ⟨old, listed, _, same⟩ := matched job member
    have isFinite := finite old listed
    rwa [Finite, cores, same] at isFinite
  · refine le_trans (total_le_cover Job.id Job.id ?_ ?_ ?_) bounded
    · exact (Tables.keyed_values_nodup keyed).sublist (List.filter_sublist.map Job.id)
    · exact fun old listed => Double.finiteValue_nonneg (accepted old listed).2
    · intro job member
      obtain ⟨old, listed, named, same⟩ := matched job member
      exact ⟨old, listed, named, by rw [cores, cores, same]⟩

variable [Zero Mem] [LT Mem] [DecidableLT Mem]

/-- What every stored job satisfies in runs without NaN. -/
structure Sound (workers : Workers.MemoryRepository (Double Value) Mem)
    (jobs : JobStore.MemoryRepository (Double Value) Mem) : Prop where
  keyed : jobs.Keyed
  single : ∀ key job, jobs.find key = some job → job.assignedWorkerIDs.length ≤ 1
  accepted : ∀ key job, jobs.find key = some job → Accepted job
  registered : ∀ key job, jobs.find key = some job → held job.state = true →
    ∀ id ∈ job.assignedWorkerIDs, (workers.find id).isSome

theorem sound_apply (sound : Sound workers jobs) {now : Time} {op : Op (Double Value) Mem}
    (single : SinglePlacement op) (defined : DefinedCores (.call now op : Label Value Mem))
    (known : ∀ id workerIDs, op = .assignToWorkers id workerIDs →
      ∀ workerID ∈ workerIDs, (workers.find workerID).isSome) :
    Sound workers (op.apply now jobs) where
  keyed := apply_keyed sound.keyed now op
  single := by
    refine apply_records sound.single (fun _ _ one => one) (fun _ _ _ _ => move_single) ?_ ?_
    · rintro id workerIDs job rfl _ _ _
      exact le_of_eq single
    · intro id input _ _
      simp [newJob]
  accepted := by
    refine apply_records sound.accepted (fun _ _ kept => kept) ?_ (fun _ _ _ _ _ _ kept => kept) ?_
    · intro id charged job job' moved kept
      rwa [Accepted, (move_fixed moved).2]
    · rintro id input rfl valid
      exact ⟨defined, (validateSubmit_nonneg valid).1⟩
  registered := by
    refine apply_records sound.registered (fun _ _ kept => kept) ?_ ?_ ?_
    · intro id charged job job' moved kept holds
      obtain ⟨before, same⟩ := held_occupancy.backward moved holds
      rw [same]
      exact kept before
    · intro id workerIDs job isPlace _ _ _ _
      exact known id workerIDs isPlace
    · intro id input _ _ holds
      simp [newJob, held] at holds

/-- Applying the assignments of a pass leaves on a worker what was there, and what the
pass put there. -/
theorem applyAssignments_covered {listed cover : List (Job (Double Value) Mem)} {workerID : String}
    {assignments : List Assignment} {now : Time} (sound : Sound workers jobs)
    (remembered : Remembered jobs listed) (covered : CoveredOn held jobs workerID cover)
    (known : ∀ assignment ∈ assignments, (workers.find assignment.workerID).isSome)
    (foreseen : ∀ assignment ∈ assignments, ∃ old ∈ listed, old.id = assignment.jobID ∧
      (assignment.workerID = workerID → old ∈ cover)) :
    Sound workers (applyAssignments now assignments jobs) ∧
      CoveredOn held (applyAssignments now assignments jobs) workerID cover := by
  induction assignments generalizing jobs with
  | nil => exact ⟨sound, covered⟩
  | cons assignment rest ih =>
      obtain ⟨old, isListed, named, inside⟩ := foreseen assignment List.mem_cons_self
      let after := (Op.assignToWorkers assignment.jobID [assignment.workerID]).apply now jobs
      have sound' : Sound workers after := by
        refine sound_apply sound rfl trivial ?_
        rintro id workerIDs ⟨rfl, rfl⟩ workerID' member
        rw [List.mem_singleton.mp member]
        exact known assignment List.mem_cons_self
      have covered' : CoveredOn held after workerID cover := by
        refine covered_apply held_occupancy covered ?_
        rintro id workerIDs job ⟨rfl, rfl⟩ own found
        obtain ⟨stored, isStored, same⟩ := remembered old isListed
        obtain rfl : stored = job := Option.some.inj (isStored.symm.trans (named ▸ found))
        exact ⟨old, inside (List.mem_singleton.mp own).symm,
          (sound.keyed _ _ isStored).symm, same.symm⟩
      have remembered' : Remembered after listed :=
        remembered_apply remembered fun id input isSubmit => by cases isSubmit
      exact ih sound' remembered' covered'
        (fun other member => known other (List.mem_cons_of_mem _ member))
        (fun other member => foreseen other (List.mem_cons_of_mem _ member))

end Records

section Runs
variable [AddCommGroup Value] [LinearOrder Value] [Zero Mem] [LT Mem]

structure Safe (state : State Value Mem) : Prop where
  sound : Sound state.workers state.jobs
  admissible : Admissible state.workers
  fits : ∀ id worker capacity, state.workers.find id = some worker →
    worker.cpuCapacity = .finite capacity → FitsFinite state.jobs id capacity

theorem start_safe : Safe (State.start : State Value Mem) where
  sound := ⟨Tables.keyed_empty Job.id, fun _ _ found => by simp [State.start] at found,
    fun _ _ found => by simp [State.start] at found, fun _ _ found => by simp [State.start] at found⟩
  admissible := fun id worker found => by
    cases found
  fits := fun id worker capacity found => by
    cases found

variable {state : State Value Mem}

theorem listed_sound (safe : Safe state) {job : Job (Double Value) Mem}
    (listed : job ∈ state.jobs.listActive) : Accepted job ∧ job.assignedWorkerIDs.length ≤ 1 := by
  obtain ⟨key, stored⟩ := (mem_listActive_iff.mp listed).1
  exact ⟨safe.sound.accepted key job stored, safe.sound.single key job stored⟩

theorem seen_within [IsOrderedAddMonoid Value] (safe : Safe state) {id : String} {capacity : Value}
    (bounded : total cores (placedOn state.jobs id) ≤ capacity) :
    total cores (assignedTo held state.jobs.listActive id) ≤ capacity := by
  refine le_trans (total_le_cover Job.id Job.id ?_ ?_ ?_) bounded
  · exact (listActive_ids_nodup safe.sound.keyed).sublist (List.filter_sublist.map Job.id)
  · intro job member
    obtain ⟨key, stored⟩ := mem_jobs_iff.mp (mem_assignedTo.mp member).1
    exact Double.finiteValue_nonneg (safe.sound.accepted key job stored).2
  · exact fun job member => ⟨job, seen_placed member, rfl, rfl⟩

variable [DecidableLT Mem]

/-- Every assignment of a pass is of a listed job, to a registered worker. -/
theorem mem_plan [Add Mem] [Sub Mem] [LE Mem] [DecidableLE Mem] (safe : Safe state) {now : Time}
    {assignment : Assignment}
    (member : assignment ∈ plan state.jobs.listActive state.workers.listActive now) :
    (state.workers.find assignment.workerID).isSome ∧
      ∃ placed ∈ planned state.jobs.listActive state.workers.listActive now,
        placed.1.id = assignment.jobID ∧ placed.2 = assignment.workerID := by
  obtain ⟨placed, isPlaced, rfl⟩ := List.mem_map.mp member
  obtain ⟨_, worker, listed, named, _⟩ := mem_placements isPlaced
  obtain ⟨⟨id, found⟩, _⟩ := Workers.MemoryRepository.mem_listActive_iff.mp listed
  refine ⟨?_, placed, isPlaced, rfl, rfl⟩
  rw [← named, (safe.admissible id worker found).1, found]
  rfl

theorem register_safe (safe : Safe state) {call : Registration (Double Value) Mem}
    (fresh : state.workers.find call.id = none) :
    Safe { state with workers := (register state.workers call).2 } := by
  have admissible := register_admissible safe.admissible call
  unfold register at admissible ⊢
  cases checked : validateRegister call.input with
  | error problem => exact safe
  | ok _ =>
      rw [checked] at admissible
      refine ⟨⟨safe.sound.keyed, safe.sound.single, safe.sound.accepted, ?_⟩, admissible, ?_⟩
      · intro key job stored holds id member
        rw [Workers.MemoryRepository.find_create]
        split
        · rfl
        · exact safe.sound.registered key job stored holds id member
      · intro id worker capacity found isFinite
        by_cases own : id = call.id
        · -- Nothing can have been placed on a worker that is only now registered.
          have vacant : placedOn state.jobs id = [] := by
            refine List.eq_nil_iff_forall_not_mem.mpr fun job member => ?_
            obtain ⟨stored, holds, assigned⟩ := mem_assignedTo.mp member
            obtain ⟨key, isStored⟩ := mem_jobs_iff.mp stored
            have known := safe.sound.registered key job isStored holds id assigned
            rw [own, fresh] at known
            cases known
          have sign := (admissible id worker found).2.1
          rw [isFinite] at sign
          refine ⟨by simp [vacant], ?_⟩
          rw [vacant]
          exact not_lt.mp fun negative => sign (Double.finite_lt.mpr negative)
        · rw [Workers.MemoryRepository.find_create] at found
          exact safe.fits id worker capacity ((if_neg own).symm.trans found) isFinite

variable [IsOrderedAddMonoid Value]

theorem call_safe (safe : Safe state) {now : Time} {op : Op (Double Value) Mem}
    (allowed : callable state.jobs op = true)
    (defined : DefinedCores (.call now op : Label Value Mem)) :
    Safe { state with jobs := op.apply now state.jobs } where
  sound := sound_apply safe.sound (callable_single allowed) defined fun id workerIDs isPlace =>
    absurd isPlace (callable_not_place allowed id workerIDs)
  admissible := safe.admissible
  fits := by
    intro id worker capacity found isFinite
    obtain ⟨finite, bounded⟩ := safe.fits id worker capacity found isFinite
    refine covered_fits (apply_keyed safe.sound.keyed now op)
      (covered_call held_occupancy (covered_self state.jobs id) allowed) ?_ finite bounded
    intro old member
    obtain ⟨key, stored⟩ := mem_jobs_iff.mp (mem_assignedTo.mp member).1
    exact safe.sound.accepted key old stored

variable [Add Mem] [Sub Mem] [LE Mem] [DecidableLE Mem]

/-- What a pass may leave on the worker: what it saw there, and what it puts there. -/
def cover (state : State Value Mem) (now : Time) (id : String) : List (Job (Double Value) Mem) :=
  assignedTo held state.jobs.listActive id ++
    plannedOn (planned state.jobs.listActive state.workers.listActive now) id

/-- The cover of a pass fits into a worker of finite capacity. -/
theorem cover_fits (safe : Safe state) (now : Time) {id : String}
    {worker : Worker (Double Value) Mem} {capacity : Value}
    (found : state.workers.find id = some worker) (isFinite : worker.cpuCapacity = .finite capacity) :
    (∀ job ∈ cover state now id, Finite job) ∧ total cores (cover state now id) ≤ capacity := by
  obtain ⟨finite, bounded⟩ := safe.fits id worker capacity found isFinite
  have known : ∀ other ∈ state.workers.listActive, other.id = id →
      other.cpuCapacity = .finite capacity := by
    intro other listed named
    obtain ⟨⟨key, isOther⟩, _⟩ := Workers.MemoryRepository.mem_listActive_iff.mp listed
    rw [← (safe.admissible key other isOther).1, named, found] at isOther
    rw [← Option.some.inj isOther, isFinite]
  have books : (committedByWorker state.jobs.listActive id).cpuCores =
      .finite (0 + total cores (assignedTo held state.jobs.listActive id)) :=
    committed_cores (fun job member => (listed_sound safe member).2)
      (fun job member => finite job (seen_placed member)) rfl
  rw [zero_add] at books
  obtain ⟨placed_finite, placed_bounded⟩ := placements_fit known
    (fun job member => (listed_sound safe (mem_queue.mp member).1).1) books (seen_within safe bounded)
  constructor
  · intro job member
    rcases List.mem_append.mp member with before | placed
    · exact finite job (seen_placed before)
    · exact placed_finite job placed
  · simpa [cover, total, planned] using placed_bounded

theorem pass_safe (safe : Safe state) (now : Time) :
    Safe { state with jobs := afterPass state now } := by
  have stored : ∀ job ∈ state.jobs.listActive, state.jobs.find job.id = some job := by
    intro job member
    obtain ⟨key, found⟩ := (mem_listActive_iff.mp member).1
    rwa [safe.sound.keyed key job found]
  have remembered : Remembered state.jobs state.jobs.listActive :=
    fun job member => ⟨job, stored job member, rfl⟩
  have applied : ∀ id, Sound state.workers (afterPass state now) ∧
      CoveredOn held (afterPass state now) id (cover state now id) := by
    intro id
    refine applyAssignments_covered safe.sound remembered ?_ (fun _ member => (mem_plan safe member).1) ?_
    · intro key job found holds assigned
      have active := (held_occupancy : Occupancy (Double Value) Mem held).active job.state holds
      refine ⟨job, List.mem_append_left _ (mem_assignedTo.mpr ⟨?_, holds, assigned⟩), rfl, rfl⟩
      exact mem_listActive_iff.mpr ⟨⟨key, found⟩, active⟩
    · intro assignment member
      obtain ⟨_, placed, isPlaced, named, target⟩ := mem_plan safe member
      refine ⟨placed.1, (mem_planned isPlaced).1, named, fun own => List.mem_append_right _ ?_⟩
      exact List.mem_map.mpr ⟨placed, List.mem_filter.mpr ⟨isPlaced, by simp [target, own]⟩, rfl⟩
  refine ⟨(applied "").1, safe.admissible, fun id worker capacity found isFinite => ?_⟩
  obtain ⟨finite, bounded⟩ := cover_fits safe now found isFinite
  refine covered_fits (applied id).1.keyed (applied id).2 (fun job member => ?_) finite bounded
  have listed : job ∈ state.jobs.listActive := by
    rcases List.mem_append.mp member with before | placed
    · exact (mem_assignedTo.mp before).1
    · obtain ⟨placement, isPlaced, rfl⟩ := List.mem_map.mp placed
      exact (mem_planned (List.mem_filter.mp isPlaced).1).1
  exact safe.sound.accepted job.id job (stored job listed)

theorem step_safe {label : Label Value Mem} {next : State Value Mem} (safe : Safe state)
    (defined : DefinedCores label) (stepped : step state label = some next) : Safe next := by
  cases label with
  | call now op =>
      simp only [step, Option.ite_none_right_eq_some, Option.some.injEq] at stepped
      obtain ⟨allowed, rfl⟩ := stepped
      exact call_safe safe allowed defined
  | register call =>
      simp only [step, Option.ite_none_right_eq_some, Option.some.injEq] at stepped
      obtain ⟨fresh, rfl⟩ := stepped
      exact register_safe safe (Option.isNone_iff_eq_none.mp fresh)
  | pass now =>
      obtain rfl := Option.some.inj stepped
      exact pass_safe safe now

/-- As long as no job asks for NaN cores, no pass overcommits a worker of finite
capacity. -/
theorem cpu_within {labels : List (Label Value Mem)} {state : State Value Mem}
    (ran : run step State.start labels = some state) (defined : ∀ label ∈ labels, DefinedCores label) :
    Within state := by
  have safe : Safe state := guarded_invariant (fun _ _ _ => step_safe) ran
    (along_of_labels (fun label member _ => defined label member) _) start_safe
  exact fun id worker capacity found isFinite => (safe.fits id worker capacity found isFinite).2

end Runs

/-- A worker of four cores, and three jobs of which the last two ask for three each. -/
def threeJobs (first : Double Int) : List (Label Int Int) :=
  let submit (id : String) (cpuCores : Double Int) : Label Int Int :=
    .call 1 (.submit id (submission ⟨0, 0, cpuCores, 1024⟩))
  [.register ⟨0, "worker-1", 1, ⟨"node-1", .finite 4, 4096, [], "1.0", []⟩⟩,
    submit "job-1" first, submit "job-2" (.finite 3), submit "job-3" (.finite 3), .pass 2, .pass 3]

/-- Infinitely many cores are nowhere to be had, and one of the other two jobs waits. -/
theorem infinite_job_waits : ∃ state, run step State.start (threeJobs .infinity) = some state ∧
    total cores (placedOn state.jobs "worker-1") = 3 ∧ Within state := by
  obtain ⟨state, ran, placed⟩ : ∃ state, run step State.start (threeJobs .infinity) = some state ∧
      total cores (placedOn state.jobs "worker-1") = 3 := ⟨_, rfl, rfl⟩
  refine ⟨state, ran, placed, cpu_within ran ?_⟩
  simp [threeJobs, DefinedCores, submission]

/-- After a job that asks for NaN cores, both of the others are placed as well. -/
theorem nan_job_overcommits : ∃ state, run step State.start (threeJobs .nan) = some state ∧
    total cores (placedOn state.jobs "worker-1") = 6 ∧ ¬ Within state := by
  obtain ⟨state, ran, node, placed⟩ : ∃ state, run step State.start (threeJobs .nan) = some state ∧
      (∃ worker, state.workers.find "worker-1" = some worker ∧ worker.cpuCapacity = .finite 4) ∧
      total cores (placedOn state.jobs "worker-1") = 6 := ⟨_, rfl, ⟨_, rfl, rfl⟩, rfl⟩
  obtain ⟨worker, found, isFinite⟩ := node
  refine ⟨state, ran, placed, fun within => ?_⟩
  have bounded := within "worker-1" worker 4 found isFinite
  rw [placed] at bounded
  exact absurd bounded (by decide)

end OrionQueue.CpuAdmission
