import Mathlib.Algebra.Order.Ring.Rat
import OrionQueue.Capacity

/-!
The capacity results for one scheduler: over every run of the cluster machine
the planner never oversubscribes a worker by its own accounting; counting jobs
that are being stopped as well, it does not do so only as long as no pass places
onto a worker on which it saw a stop under way.
-/

namespace OrionQueue.CapacityRuns

open Jobs JobService Workers Planner PlannerCapacity Cluster Capacity Runs
open JobStore.MemoryRepository

variable {Sched Cpu Mem : Type} {counts : Jobs.State → Bool}

/-- No assignment is written to a worker on which the snapshot shows a counted
job that the planner does not count. -/
def Clear (counts : Jobs.State → Bool) (state : Cluster.State Unit Cpu Mem)
    (label : Cluster.Label Unit Cpu Mem) : Prop :=
  ∀ now snapshot assignment rest result, label = .schedule () now →
    state.passes () = .assigning snapshot (assignment :: rest) result →
    commits state.store.jobs assignment = true → ∀ old ∈ snapshot.jobs, counts old.state = true →
      assignment.workerID ∈ old.assignedWorkerIDs → held old.state = true

/-- By the planner's own accounting every counted job is a held one. -/
theorem clear_held (state : Cluster.State Unit Cpu Mem) (label : Cluster.Label Unit Cpu Mem) :
    Clear held state label :=
  fun _ _ _ _ _ _ _ _ _ _ holds _ => holds

/-- If the step commits an assignment, the snapshot of its pass shows no job on
the target worker that is being stopped. -/
def noStopInSnapshot (state : Cluster.State Unit Cpu Mem) : Cluster.Label Unit Cpu Mem → Bool
  | .schedule _ _ =>
      match state.passes () with
      | .assigning snapshot (assignment :: _) _ =>
          !commits state.store.jobs assignment || snapshot.jobs.all fun old =>
            !(old.assignedWorkerIDs.contains assignment.workerID &&
              (old.state = .preempted || old.state = .cancelRequested))
      | _ => true
  | _ => true

theorem clear_occupied (state : Cluster.State Unit Cpu Mem) (label : Cluster.Label Unit Cpu Mem)
    (quiet : noStopInSnapshot state label = true) : Clear occupied state label := by
  intro now snapshot assignment rest result scheduled assigning committing old member counted
    assigned
  subst scheduled
  simp only [noStopInSnapshot, assigning, committing, Bool.not_true, Bool.false_or,
    List.all_eq_true] at quiet
  have stopless := quiet old member
  simp only [occupied, Bool.or_eq_true] at counted
  rcases counted with (holds | stopping) | stopping
  · exact holds
  · simp [assigned, stopping] at stopless
  · simp [assigned, stopping] at stopless

variable [AddCommGroup Cpu] [LinearOrder Cpu] [AddCommGroup Mem] [LinearOrder Mem]

structure Safe (counts : Jobs.State → Bool) (state : Cluster.State Unit Cpu Mem) : Prop where
  decent : Decent state.store.jobs
  admissible : Admissible state.store.workers
  within : ∀ id worker, state.store.workers.find id = some worker →
    Fits counts state.store.jobs.jobs id worker
  pass : PassSafe counts state.store.jobs state.store.workers (state.passes ())

theorem start_safe {workers : Workers.MemoryRepository Cpu Mem} (admissible : Admissible workers) :
    Safe counts (Cluster.State.start workers : Cluster.State Unit Cpu Mem) where
  decent := ⟨Tables.keyed_empty Job.id, fun _ _ found => by simp [State.start] at found,
    fun _ _ found => by simp [State.start] at found⟩
  admissible := admissible
  within id worker found := by
    obtain ⟨_, cores, bytes⟩ := admissible id worker found
    exact ⟨Int.natCast_nonneg _, not_lt.mp cores, not_lt.mp bytes⟩
  pass := trivial

theorem admissible_kept {workers workers' : Workers.MemoryRepository Cpu Mem}
    (admissible : Admissible workers) (kept : InventoryKept workers workers') :
    Admissible workers' := by
  intro id worker' found
  obtain ⟨worker, before, named, cores, bytes, _⟩ := kept.back id worker' found
  obtain ⟨own, enough, room⟩ := admissible id worker before
  exact ⟨named.symm.trans own, cores ▸ enough, bytes ▸ room⟩

theorem planning_founded {jobs : JobStore.MemoryRepository Cpu Mem}
    {workers : Workers.MemoryRepository Cpu Mem} (admissible : Admissible workers)
    {listed : List (Job Cpu Mem)} (grounded : Grounded jobs workers listed) (now : Time) :
    Founded jobs workers ⟨listed, workers.listActive, now⟩
      (Snapshot.assignments ⟨listed, workers.listActive, now⟩) where
  grounded := grounded
  known worker member := by
    obtain ⟨⟨id, found⟩, _⟩ := Workers.MemoryRepository.mem_listActive_iff.mp member
    exact ⟨worker, by rwa [(admissible id worker found).1], .refl worker⟩
  remaining := List.Subset.refl _

theorem planning_safe {jobs : JobStore.MemoryRepository Cpu Mem}
    {workers : Workers.MemoryRepository Cpu Mem} (admissible : Admissible workers)
    {listed : List (Job Cpu Mem)} (safe : PassSafe counts jobs workers (.listedJobs listed))
    (now : Time) :
    Underway counts jobs workers ⟨listed, workers.listActive, now⟩
      (Snapshot.assignments ⟨listed, workers.listActive, now⟩) :=
  { planning_founded admissible safe.1 now with
    covered := fun workerID => covered_mono (safe.2 workerID) (List.subset_append_left _ _) }

theorem effect_decent {state : Cluster.State Sched Cpu Mem} {label : Cluster.Label Sched Cpu Mem}
    {jobs : JobStore.MemoryRepository Cpu Mem} (decent : Decent state.store.jobs)
    (effect : JobsEffect state label jobs) : Decent jobs := by
  cases effect with
  | same unchanged => rwa [unchanged]
  | op now op allowed applied =>
      rw [applied]
      exact decent_apply decent (callable_single allowed)
  | place scheduled assigning applied =>
      rw [applied]
      exact decent_apply decent rfl

/-- A pass that does not move stays grounded in the stores, whatever a caller
does to the jobs. -/
theorem effect_pass (occupancy : Occupancy Cpu Mem counts)
    {state : Cluster.State Unit Cpu Mem} {label : Cluster.Label Unit Cpu Mem}
    {jobs : JobStore.MemoryRepository Cpu Mem} {workers : Workers.MemoryRepository Cpu Mem}
    (kept : InventoryKept state.store.workers workers) (effect : JobsEffect state label jobs)
    (others : ∀ now, label ≠ .schedule () now) {pass : Pass Cpu Mem}
    (safe : PassSafe counts state.store.jobs state.store.workers pass) :
    PassSafe counts jobs workers pass := by
  cases effect with
  | same unchanged =>
      rw [unchanged]
      exact passSafe_kept (fun _ _ covered => covered) (fun _ remembered => remembered) kept safe
  | op now op allowed applied =>
      rw [applied]
      exact passSafe_kept (fun _ _ covered => covered_call occupancy covered allowed)
        (fun _ remembered => remembered_apply remembered (callable_fresh allowed)) kept safe
  | place scheduled => exact absurd scheduled (others _)

variable [IsOrderedAddMonoid Cpu] [IsOrderedAddMonoid Mem]

/-- A fresh listing is grounded in the stores it was read from. -/
theorem listing_grounded (occupancy : Occupancy Cpu Mem counts)
    {jobs : JobStore.MemoryRepository Cpu Mem} {workers : Workers.MemoryRepository Cpu Mem}
    (decent : Decent jobs)
    (within : ∀ id worker, workers.find id = some worker → Fits counts jobs.jobs id worker) :
    Grounded jobs workers jobs.listActive := by
  have stored : ∀ job ∈ jobs.listActive, ∃ key, jobs.find key = some job :=
    fun job member => (mem_listActive_iff.mp member).1
  refine ⟨?_, ?_, ?_, ?_⟩
  · intro job member
    obtain ⟨key, found⟩ := stored job member
    exact decent.single key job found
  · intro job member
    obtain ⟨key, found⟩ := stored job member
    exact decent.nonneg key job found
  · intro job member
    obtain ⟨key, found⟩ := stored job member
    exact ⟨job, by rwa [decent.keyed key job found], rfl⟩
  · intro id worker found
    have fits := within id worker found
    have distinct : ((assignedTo held jobs.listActive id).map Job.id).Nodup :=
      (listActive_ids_nodup decent.keyed).sublist (List.filter_sublist.map Job.id)
    have larger : ∀ job ∈ assignedTo held jobs.listActive id,
        job ∈ assignedTo counts jobs.jobs id := by
      intro job member
      obtain ⟨listed, holds, assigned⟩ := mem_assignedTo.mp member
      exact mem_assignedTo.mpr
        ⟨mem_jobs_iff.mpr (stored job listed), occupancy.held job.state holds, assigned⟩
    have nonneg : ∀ job ∈ assignedTo counts jobs.jobs id, NonNegative job.resources := by
      intro job member
      obtain ⟨key, known⟩ := mem_jobs_iff.mp (mem_assignedTo.mp member).1
      exact decent.nonneg key job known
    exact fits_sublisting distinct larger nonneg fits

theorem listing_safe (occupancy : Occupancy Cpu Mem counts)
    {jobs : JobStore.MemoryRepository Cpu Mem} {workers : Workers.MemoryRepository Cpu Mem}
    (decent : Decent jobs)
    (within : ∀ id worker, workers.find id = some worker → Fits counts jobs.jobs id worker) :
    PassSafe counts jobs workers (.listedJobs jobs.listActive) := by
  refine ⟨listing_grounded occupancy decent within, ?_⟩
  intro workerID key job found holds assigned
  refine ⟨job, mem_assignedTo.mpr ⟨mem_listActive_iff.mpr ⟨⟨key, found⟩, ?_⟩, holds, assigned⟩,
    rfl, rfl⟩
  exact occupancy.active job.state holds

theorem advance_safe (occupancy : Occupancy Cpu Mem counts) {store : Store Cpu Mem}
    (decent : Decent store.jobs) (admissible : Admissible store.workers)
    (within : ∀ id worker, store.workers.find id = some worker →
      Fits counts store.jobs.jobs id worker)
    {pass : Pass Cpu Mem} (safe : PassSafe counts store.jobs store.workers pass)
    (preemptionEnabled : Bool) (now : Time) :
    PassSafe counts (pass.advance preemptionEnabled now store).2.jobs
      (pass.advance preemptionEnabled now store).2.workers
      (pass.advance preemptionEnabled now store).1 := by
  -- Only the start of a pass reads the job store; later steps write from that listing.
  cases pass with
  | idle => exact listing_safe occupancy decent within
  | returned result problem => exact listing_safe occupancy decent within
  | listedJobs listed => exact planning_safe admissible safe now
  | recording snapshot assignment rest result => exact safe
  | assigning snapshot rest result =>
      cases rest with
      | nil =>
          simp only [Pass.advance]
          split <;> trivial
      | cons assignment rest =>
          have placed : Underway counts ((Op.assignToWorkers assignment.jobID
              [assignment.workerID]).apply now store.jobs) store.workers snapshot rest :=
            underway_place decent.keyed occupancy safe
          simp only [Pass.advance, Op.apply] at placed ⊢
          split <;> rename_i outcome <;> rw [outcome] at placed
          · exact placed
          · split
            · exact placed
            · trivial
  | preempting rest result =>
      cases rest with
      | nil => trivial
      | cons preemption rest =>
          simp only [Pass.advance]
          split
          · trivial
          · split <;> trivial

/-- Callers only free capacity, and the pass places within what it has accounted
for. -/
theorem effect_fits (occupancy : Occupancy Cpu Mem counts)
    {state : Cluster.State Unit Cpu Mem} {label : Cluster.Label Unit Cpu Mem}
    {jobs : JobStore.MemoryRepository Cpu Mem} (safe : Safe counts state)
    (clear : Clear counts state label) (effect : JobsEffect state label jobs) {id : String}
    {worker : Worker Cpu Mem} (known : state.store.workers.find id = some worker) :
    Fits counts jobs.jobs id worker := by
  have fits := safe.within id worker known
  have pass := safe.pass
  have decent' := effect_decent safe.decent effect
  cases effect with
  | same unchanged => rwa [unchanged]
  | op now op allowed applied =>
      refine fits_kept safe.decent decent'.keyed ?_ fits
      rw [applied]
      exact covered_call occupancy (covered_self state.store.jobs id) allowed
  | @place _ now snapshot assignment rest result scheduled assigning applied =>
      rw [assigning] at pass
      rw [applied]
      exact place_fits safe.decent occupancy pass.founded
        (fun _ => pass.covered assignment.workerID)
        (clear now snapshot assignment rest result scheduled assigning) known fits

theorem step_safe (occupancy : Occupancy Cpu Mem counts) (preemptionEnabled : Bool)
    (state : Cluster.State Unit Cpu Mem) (label : Cluster.Label Unit Cpu Mem)
    (after : Cluster.State Unit Cpu Mem) (safe : Safe counts state)
    (clear : Clear counts state label) (stepped : step preemptionEnabled state label = some after) :
    Safe counts after := by
  have effect := step_jobs stepped
  have kept := step_workers stepped
  refine ⟨effect_decent safe.decent effect, admissible_kept safe.admissible kept, ?_, ?_⟩
  · intro id worker' found
    obtain ⟨worker, before, same⟩ := kept.back id worker' found
    exact fits_inventory (effect_fits occupancy safe clear effect before) same
  · rcases step_passes () stepped with ⟨now, _, advanced⟩ | ended | ⟨same, others⟩
    · have next := advance_safe occupancy safe.decent safe.admissible safe.within safe.pass
        preemptionEnabled now
      rwa [advanced] at next
    · rw [ended]
      trivial
    · rw [same]
      exact effect_pass occupancy kept effect others safe.pass

theorem run_safe (occupancy : Occupancy Cpu Mem counts) {preemptionEnabled : Bool}
    {registrations : List (Registration Cpu Mem)} {labels : List (Cluster.Label Unit Cpu Mem)}
    {state : Cluster.State Unit Cpu Mem}
    (ran : run (step preemptionEnabled) (State.start (registerAll registrations)) labels = some state)
    (clear : Along (step preemptionEnabled) (Clear counts) (State.start (registerAll registrations))
      labels) : Safe counts state :=
  guarded_invariant (step_safe occupancy preemptionEnabled) ran clear
    (start_safe (registerAll_admissible registrations))

def oneGPU : Registration ℚ ℤ := node [device 0 8192]

/-- One pass places job-1 on the only GPU and job-2 is submitted behind it. -/
def contendedLabels : List (Cluster.Label Unit ℚ ℤ) :=
  [.call 1 (.submit "job-1" (submission ⟨1, 0, 2, 1024⟩)), .schedule () 2, .schedule () 2,
    .schedule () 3, .schedule () 3, .schedule () 3, .call 4 (.start "job-1"),
    .call 5 (.submit "job-2" (submission ⟨1, 0, 2, 1024⟩))]

theorem held_within_capacity (preemptionEnabled : Bool) (registrations : List (Registration ℚ ℤ))
    (labels : List (Cluster.Label Unit ℚ ℤ)) (state : Cluster.State Unit ℚ ℤ)
    (ran : run (step preemptionEnabled) (State.start (registerAll registrations)) labels = some state)
    (workerID : String) (worker : Worker ℚ ℤ)
    (found : state.store.workers.find workerID = some worker) :
    Fits held state.store.jobs.jobs workerID worker :=
  (run_safe held_occupancy ran (along_always clear_held _ labels)).within workerID worker found

theorem contendedLabels_within :
    ∃ state worker, run (step false) (State.start (registerAll [oneGPU])) contendedLabels =
        some state ∧ state.store.workers.find "worker-1" = some worker ∧
      assignedTo held state.store.jobs.jobs "worker-1" ≠ [] ∧
      Fits held state.store.jobs.jobs "worker-1" worker := by
  have reached : (run (step false) (State.start (registerAll [oneGPU])) contendedLabels).any
      (fun state => (state.store.workers.find "worker-1").isSome &&
        !(assignedTo held state.store.jobs.jobs "worker-1").isEmpty) = true := by decide +kernel
  obtain ⟨state, ran, holds⟩ := (Option.any_eq_true _ _).mp reached
  simp only [Bool.and_eq_true, Bool.not_eq_true', List.isEmpty_eq_false_iff] at holds
  obtain ⟨worker, found⟩ := Option.isSome_iff_exists.mp holds.1
  exact ⟨state, worker, ran, found, holds.2,
    held_within_capacity false [oneGPU] contendedLabels state ran "worker-1" worker found⟩

theorem occupied_within_capacity (preemptionEnabled : Bool)
    (registrations : List (Registration ℚ ℤ)) (labels : List (Cluster.Label Unit ℚ ℤ))
    (state : Cluster.State Unit ℚ ℤ)
    (ran : run (step preemptionEnabled) (State.start (registerAll registrations)) labels = some state)
    (quiet : Along (step preemptionEnabled) (fun state label => noStopInSnapshot state label = true)
      (State.start (registerAll registrations)) labels)
    (workerID : String) (worker : Worker ℚ ℤ)
    (found : state.store.workers.find workerID = some worker) :
    Fits occupied state.store.jobs.jobs workerID worker :=
  (run_safe occupied_occupancy ran (along_mono clear_occupied quiet)).within workerID worker found

/-- job-1 is cancelled, stops, and only then does a pass place job-2. -/
def confirmedLabels : List (Cluster.Label Unit ℚ ℤ) :=
  contendedLabels ++ [.call 6 (.cancel "job-1"), .call 7 (.reportStopped "job-1"),
    .schedule () 8, .schedule () 8, .schedule () 9]

theorem confirmedLabels_within :
    ∃ state worker, run (step false) (State.start (registerAll [oneGPU])) confirmedLabels =
        some state ∧ state.store.workers.find "worker-1" = some worker ∧
      assignedTo occupied state.store.jobs.jobs "worker-1" ≠ [] ∧
      Fits occupied state.store.jobs.jobs "worker-1" worker := by
  have reached : (run (step false) (State.start (registerAll [oneGPU])) confirmedLabels).any
      (fun state => (state.store.workers.find "worker-1").isSome &&
        !(assignedTo occupied state.store.jobs.jobs "worker-1").isEmpty) = true := by decide +kernel
  obtain ⟨state, ran, holds⟩ := (Option.any_eq_true _ _).mp reached
  simp only [Bool.and_eq_true, Bool.not_eq_true', List.isEmpty_eq_false_iff] at holds
  obtain ⟨worker, found⟩ := Option.isSome_iff_exists.mp holds.1
  have checked : check (step false) noStopInSnapshot (State.start (registerAll [oneGPU]))
      confirmedLabels = true := by decide +kernel
  exact ⟨state, worker, ran, found, holds.2,
    occupied_within_capacity false [oneGPU] confirmedLabels state ran (check_along checked)
      "worker-1" worker found⟩

/-- The pass falls between the cancellation and its confirmation. -/
def overlappingLabels : List (Cluster.Label Unit ℚ ℤ) :=
  contendedLabels ++ [.call 6 (.cancel "job-1"), .schedule () 7, .schedule () 7, .schedule () 8]

/-- job-1 still runs on the only GPU of worker-1 when job-2 is placed on it. -/
theorem overlappingLabels_oversubscribes :
    ∃ state worker, run (step false) (State.start (registerAll [oneGPU])) overlappingLabels =
        some state ∧ state.store.workers.find "worker-1" = some worker ∧
      (assignedTo occupied state.store.jobs.jobs "worker-1").map
        (fun job => (job.id, job.state)) = [("job-2", .scheduled), ("job-1", .cancelRequested)] ∧
      ¬ Fits occupied state.store.jobs.jobs "worker-1" worker := by
  have reached : (run (step false) (State.start (registerAll [oneGPU])) overlappingLabels).any
      (fun state => (state.store.workers.find "worker-1").any fun worker =>
        (assignedTo occupied state.store.jobs.jobs "worker-1").map
          (fun job => (job.id, job.state)) = [("job-2", .scheduled), ("job-1", .cancelRequested)] &&
        (worker.gpus.length : Int) < Ledger.total (fun job => (job.resources.gpuCount : Int))
          (assignedTo occupied state.store.jobs.jobs "worker-1")) = true := by decide +kernel
  obtain ⟨state, ran, holds⟩ := (Option.any_eq_true _ _).mp reached
  obtain ⟨worker, found, exceeded⟩ := (Option.any_eq_true _ _).mp holds
  simp only [Bool.and_eq_true, decide_eq_true_eq] at exceeded
  exact ⟨state, worker, ran, found, exceeded.1, fun fits => absurd fits.gpus (not_le.mpr exceeded.2)⟩

end OrionQueue.CapacityRuns
