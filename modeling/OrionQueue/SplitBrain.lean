import OrionQueue.CapacityRuns
import OrionQueue.JobCoherence

/-!
Several schedulers over one store. The write-time check of AssignToWorkers is
about the job, not about the worker, so two passes that plan different jobs for
the same room both succeed. A placement is safe as long as its own pass has
accounted for everything that is on the worker by the time it is written: in its
listing, or in its own plan.
-/

namespace OrionQueue.SplitBrain

open Jobs JobService JobLifecycle JobCoherence Workers Planner PlannerCapacity Cluster Capacity
open CapacityRuns Runs JobStore.MemoryRepository

variable {Sched Cpu Mem : Type}

/-- The jobs that are on a worker by anyone's account. -/
def placed (state : Jobs.State) : Bool := state = .scheduled || state = .running

theorem held_of_placed {state : Jobs.State} (on : placed state = true) : held state = true := by
  cases state <;> first | rfl | simp [placed] at on

theorem shape_placed {job : Job Cpu Mem} (shape : Shape job) (holds : held job.state = true) :
    placed job.state = true := by
  cases state : job.state <;> simp_all [Shape, held, placed]

section Founding
variable [AddCommGroup Cpu] [LinearOrder Cpu] [AddCommGroup Mem] [LinearOrder Mem]

/-- If the step commits an assignment, every job held on its worker was held there
in the listing of the same pass or is planned onto it by that pass. -/
def foreseen (state : Cluster.State Sched Cpu Mem) : Cluster.Label Sched Cpu Mem → Bool
  | .schedule scheduler _ =>
      match state.passes scheduler with
      | .assigning snapshot (assignment :: _) _ =>
          !commits state.store.jobs assignment ||
            (assignedTo held state.store.jobs.jobs assignment.workerID).all fun job =>
              (assignedTo held snapshot.jobs assignment.workerID).any (fun old => old.id = job.id) ||
                snapshot.assignments.any fun own =>
                  own.workerID = assignment.workerID && own.jobID = job.id
      | _ => true
  | _ => true

def PassFounded (jobs : JobStore.MemoryRepository Cpu Mem)
    (workers : Workers.MemoryRepository Cpu Mem) : Pass Cpu Mem → Prop
  | .listedJobs listed => Grounded jobs workers listed
  | .assigning snapshot rest _ => Founded jobs workers snapshot rest
  | .recording snapshot _ rest _ => Founded jobs workers snapshot rest
  | .idle | .preempting _ _ | .returned _ _ => True

structure Safe (state : Cluster.State Sched Cpu Mem) : Prop where
  decent : Decent state.store.jobs
  admissible : Admissible state.store.workers
  within : ∀ id worker, state.store.workers.find id = some worker →
    Fits held state.store.jobs.jobs id worker
  passes : ∀ scheduler, PassFounded state.store.jobs state.store.workers (state.passes scheduler)

/-- What the condition says about the worker in the terms of the capacity argument. -/
theorem foreseen_covered {state : Cluster.State Sched Cpu Mem} {scheduler : Sched} {now : Time}
    {snapshot : Snapshot Cpu Mem} {assignment : Assignment} {rest : List Assignment}
    {result : Result} (keyed : state.store.jobs.Keyed)
    (assigning : state.passes scheduler = .assigning snapshot (assignment :: rest) result)
    (founded : Founded state.store.jobs state.store.workers snapshot (assignment :: rest))
    (seen : foreseen state (.schedule scheduler now) = true)
    (committing : commits state.store.jobs assignment = true) :
    CoveredOn held state.store.jobs assignment.workerID
      (Snapshot.cover held snapshot assignment.workerID) := by
  intro key job found holds assigned
  simp only [foreseen, assigning, committing, Bool.not_true, Bool.false_or, List.all_eq_true] at seen
  have known := seen job (mem_assignedTo.mpr ⟨mem_jobs_iff.mpr ⟨key, found⟩, holds, assigned⟩)
  -- In both cases the listing has a job of this ID, and a listed request never changes.
  have unchanged : ∀ old ∈ snapshot.jobs, old.id = job.id → old.resources = job.resources := by
    intro old listed named
    obtain ⟨record, stored, same⟩ := founded.grounded.remembered old listed
    rw [named, keyed key job found, found] at stored
    rw [Option.some.inj stored, same]
  simp only [Bool.or_eq_true, List.any_eq_true, decide_eq_true_eq, Bool.and_eq_true] at known
  rcases known with ⟨old, listed, named⟩ | ⟨own, chosen, target, named⟩
  · exact ⟨old, List.mem_append_left _ listed, named, unchanged old (mem_assignedTo.mp listed).1 named⟩
  · obtain ⟨old, planned, same⟩ := assignment_planned chosen
    rw [target] at planned
    exact ⟨old, List.mem_append_right _ planned, same.trans named,
      unchanged old (plannedOn_listed planned) (same.trans named)⟩

theorem effect_remembered {state : Cluster.State Sched Cpu Mem} {label : Cluster.Label Sched Cpu Mem}
    {jobs : JobStore.MemoryRepository Cpu Mem} (effect : JobsEffect state label jobs)
    {listed : List (Job Cpu Mem)} (remembered : Remembered state.store.jobs listed) :
    Remembered jobs listed := by
  cases effect with
  | same unchanged => rwa [unchanged]
  | op now op allowed applied =>
      rw [applied]
      exact remembered_apply remembered (callable_fresh allowed)
  | place scheduled assigning applied =>
      rw [applied]
      exact remembered_apply remembered fun _ _ isSubmit => by cases isSubmit

/-- No other scheduler takes away what a pass was planned from. -/
theorem passFounded_kept {jobs jobs' : JobStore.MemoryRepository Cpu Mem}
    {workers workers' : Workers.MemoryRepository Cpu Mem} {pass : Pass Cpu Mem}
    (remembers : ∀ listed, Remembered jobs listed → Remembered jobs' listed)
    (kept : InventoryKept workers workers') (founded : PassFounded jobs workers pass) :
    PassFounded jobs' workers' pass := by
  cases pass with
  | idle => trivial
  | returned result problem => trivial
  | preempting rest result => trivial
  | listedJobs listed => exact grounded_kept (remembers _ founded.remembered) kept founded
  | assigning snapshot rest result =>
      exact founded_kept (remembers _ founded.grounded.remembered) kept founded
  | recording snapshot assignment rest result =>
      exact founded_kept (remembers _ founded.grounded.remembered) kept founded

theorem execute_decent {repo : JobStore.MemoryRepository Cpu Mem}
    {history : List (Time × Op Cpu Mem)} (decent : Decent repo)
    (single : ∀ entry ∈ history, SinglePlacement entry.2) : Decent (execute repo history) := by
  induction history generalizing repo with
  | nil => exact decent
  | cons entry rest ih =>
      exact ih (decent_apply decent (single entry (by simp)))
        (fun other member => single other (by simp [member]))

theorem empty_decent : Decent (.empty : JobStore.MemoryRepository Cpu Mem) :=
  ⟨Tables.keyed_empty Job.id, fun _ _ found => by simp at found, fun _ _ found => by simp at found⟩

/-- A store that the service has reached, in which what is placed fits. -/
theorem reached_safe {start : Cluster.State Sched Cpu Mem} {history : List (Time × Op Cpu Mem)}
    {registrations : List (Registration Cpu Mem)}
    (reached : start.store.jobs = execute .empty history)
    (single : ∀ entry ∈ history, SinglePlacement entry.2)
    (registered : InventoryKept (registerAll registrations) start.store.workers)
    (idle : ∀ scheduler, start.passes scheduler = .idle)
    (fits : ∀ id worker, start.store.workers.find id = some worker →
      Fits placed start.store.jobs.jobs id worker) : Safe start := by
  have decent : Decent start.store.jobs := reached ▸ execute_decent empty_decent single
  have shaped : Shaped start.store.jobs := reached ▸ execute_shaped empty_shaped single
  refine ⟨decent, admissible_kept (registerAll_admissible registrations) registered, ?_, ?_⟩
  · intro id worker found
    -- CHECKPOINTING, the one state the planner counts besides, is never entered.
    have counted : assignedTo held start.store.jobs.jobs id =
        assignedTo placed start.store.jobs.jobs id := by
      refine List.filter_congr fun job member => ?_
      obtain ⟨key, stored⟩ := mem_jobs_iff.mp member
      have same : held job.state = placed job.state :=
        Bool.eq_iff_iff.mpr ⟨shape_placed (shaped key job stored), held_of_placed⟩
      rw [same]
    obtain ⟨gpus, cores, bytes⟩ := fits id worker found
    exact ⟨counted ▸ gpus, counted ▸ cores, counted ▸ bytes⟩
  · intro scheduler
    rw [idle scheduler]
    trivial

end Founding

variable [AddCommGroup Cpu] [LinearOrder Cpu] [IsOrderedAddMonoid Cpu]
variable [AddCommGroup Mem] [LinearOrder Mem] [IsOrderedAddMonoid Mem]

theorem advance_founded {store : Store Cpu Mem} (decent : Decent store.jobs)
    (admissible : Admissible store.workers)
    (within : ∀ id worker, store.workers.find id = some worker →
      Fits held store.jobs.jobs id worker)
    {pass : Pass Cpu Mem} (founded : PassFounded store.jobs store.workers pass)
    (preemptionEnabled : Bool) (now : Time) :
    PassFounded (pass.advance preemptionEnabled now store).2.jobs
      (pass.advance preemptionEnabled now store).2.workers
      (pass.advance preemptionEnabled now store).1 := by
  cases pass with
  | idle => exact listing_grounded held_occupancy decent within
  | returned result problem => exact listing_grounded held_occupancy decent within
  | listedJobs listed => exact planning_founded admissible founded now
  | recording snapshot assignment rest result => exact founded
  | assigning snapshot rest result =>
      cases rest with
      | nil =>
          simp only [Pass.advance]
          split <;> trivial
      | cons assignment rest =>
          have written : Founded ((Op.assignToWorkers assignment.jobID
              [assignment.workerID]).apply now store.jobs) store.workers snapshot rest :=
            founded_place founded
          simp only [Pass.advance, Op.apply] at written ⊢
          split <;> rename_i outcome <;> rw [outcome] at written
          · exact written
          · split
            · exact written
            · trivial
  | preempting rest result =>
      cases rest with
      | nil => trivial
      | cons preemption rest =>
          simp only [Pass.advance]
          split
          · trivial
          · split <;> trivial

theorem effect_within {state : Cluster.State Sched Cpu Mem} {label : Cluster.Label Sched Cpu Mem}
    {jobs : JobStore.MemoryRepository Cpu Mem} (safe : Safe state)
    (seen : foreseen state label = true) (effect : JobsEffect state label jobs) {id : String}
    {worker : Worker Cpu Mem} (known : state.store.workers.find id = some worker) :
    Fits held jobs.jobs id worker := by
  have fits := safe.within id worker known
  have decent' := effect_decent safe.decent effect
  cases effect with
  | same unchanged => rwa [unchanged]
  | op now op allowed applied =>
      refine fits_kept safe.decent decent'.keyed ?_ fits
      rw [applied]
      exact covered_call held_occupancy (covered_self state.store.jobs id) allowed
  | @place scheduler now snapshot assignment rest result scheduled assigning applied =>
      subst scheduled
      have founded := safe.passes scheduler
      rw [assigning] at founded
      rw [applied]
      exact place_fits safe.decent held_occupancy founded
        (foreseen_covered safe.decent.keyed assigning founded seen)
        (fun _ _ _ holds _ => holds) known fits

theorem step_within [DecidableEq Sched] (preemptionEnabled : Bool)
    (state : Cluster.State Sched Cpu Mem) (label : Cluster.Label Sched Cpu Mem)
    (after : Cluster.State Sched Cpu Mem) (safe : Safe state) (seen : foreseen state label = true)
    (stepped : step preemptionEnabled state label = some after) : Safe after := by
  have effect := step_jobs stepped
  have kept := step_workers stepped
  refine ⟨effect_decent safe.decent effect, admissible_kept safe.admissible kept, ?_, ?_⟩
  · intro id worker' found
    obtain ⟨worker, before, same⟩ := kept.back id worker' found
    exact fits_inventory (effect_within safe seen effect before) same
  · intro scheduler
    rcases step_passes scheduler stepped with ⟨now, _, advanced⟩ | ended | ⟨same, _⟩
    · have next := advance_founded safe.decent safe.admissible safe.within (safe.passes scheduler)
        preemptionEnabled now
      rwa [advanced] at next
    · rw [ended]
      trivial
    · rw [same]
      exact passFounded_kept (fun _ => effect_remembered effect) kept (safe.passes scheduler)

theorem safe_placed {state : Cluster.State Sched Cpu Mem} (safe : Safe state) {id : String}
    {worker : Worker Cpu Mem} (found : state.store.workers.find id = some worker) :
    Fits placed state.store.jobs.jobs id worker := by
  refine fits_sublisting ?_ ?_ ?_ (safe.within id worker found)
  · exact (Tables.keyed_values_nodup safe.decent.keyed).sublist (List.filter_sublist.map Job.id)
  · intro job member
    obtain ⟨stored, on, assigned⟩ := mem_assignedTo.mp member
    exact mem_assignedTo.mpr ⟨stored, held_of_placed on, assigned⟩
  · intro job member
    obtain ⟨key, stored⟩ := mem_jobs_iff.mp (mem_assignedTo.mp member).1
    exact safe.decent.nonneg key job stored

theorem foreseen_within_capacity [DecidableEq Sched] (preemptionEnabled : Bool)
    (history : List (Time × Op ℚ ℤ)) (registrations : List (Registration ℚ ℤ))
    (start : Cluster.State Sched ℚ ℤ) (reached : start.store.jobs = execute .empty history)
    (single : ∀ entry ∈ history, SinglePlacement entry.2)
    (registered : InventoryKept (registerAll registrations) start.store.workers)
    (idle : ∀ scheduler, start.passes scheduler = .idle)
    (fits : ∀ id worker, start.store.workers.find id = some worker →
      Fits placed start.store.jobs.jobs id worker)
    (labels : List (Cluster.Label Sched ℚ ℤ)) (state : Cluster.State Sched ℚ ℤ)
    (ran : run (step preemptionEnabled) start labels = some state)
    (seen : Along (step preemptionEnabled) (fun state label => foreseen state label = true) start
      labels)
    (workerID : String) (worker : Worker ℚ ℤ)
    (found : state.store.workers.find workerID = some worker) :
    Fits placed state.store.jobs.jobs workerID worker :=
  safe_placed (guarded_invariant (step_within preemptionEnabled) ran seen
    (reached_safe reached single registered idle fits)) found

/-- Both schedulers plan job-1 onto the only GPU, and one of them is first. -/
def racedLabels : List (Cluster.Label Bool ℚ ℤ) :=
  [.call 1 (.submit "job-1" (submission ⟨1, 0, 2, 1024⟩)),
    .schedule false 2, .schedule false 2, .schedule true 3, .schedule true 3,
    .schedule false 4, .schedule true 5]

/-- The second write is refused, and the one job fits. -/
theorem racedLabels_within :
    ∃ state worker, run (step false) (State.start (registerAll [oneGPU])) racedLabels =
        some state ∧ state.store.workers.find "worker-1" = some worker ∧
      assignedTo placed state.store.jobs.jobs "worker-1" ≠ [] ∧
      Fits placed state.store.jobs.jobs "worker-1" worker := by
  have reached : (run (step false) (State.start (registerAll [oneGPU])) racedLabels).any
      (fun state => (state.store.workers.find "worker-1").isSome &&
        !(assignedTo placed state.store.jobs.jobs "worker-1").isEmpty) = true := by decide +kernel
  obtain ⟨state, ran, holds⟩ := (Option.any_eq_true _ _).mp reached
  simp only [Bool.and_eq_true, Bool.not_eq_true', List.isEmpty_eq_false_iff] at holds
  obtain ⟨worker, found⟩ := Option.isSome_iff_exists.mp holds.1
  have checked : check (step false) foreseen (State.start (registerAll [oneGPU])) racedLabels =
      true := by decide +kernel
  have unoccupied : ∀ id worker, (registerAll [oneGPU]).find id = some worker →
      Fits placed (.empty : JobStore.MemoryRepository ℚ ℤ).jobs id worker := by
    intro id worker known
    obtain ⟨_, cores, bytes⟩ := registerAll_admissible [oneGPU] id worker known
    exact ⟨Int.natCast_nonneg _, not_lt.mp cores, not_lt.mp bytes⟩
  exact ⟨state, worker, ran, found, holds.2,
    foreseen_within_capacity false [] [oneGPU] (State.start (registerAll [oneGPU])) rfl (by simp)
      (inventory_refl _) (fun _ => rfl) unoccupied racedLabels state ran (check_along checked)
      "worker-1" worker found⟩

/-- The second scheduler lists after job-2, which goes before job-1, was submitted
and before the first one writes. -/
def crossedLabels : List (Cluster.Label Bool ℚ ℤ) :=
  [.call 1 (.submit "job-1" (submission ⟨1, 0, 2, 1024⟩)), .schedule false 2, .schedule false 2,
    .call 3 (.submit "job-2" { submission ⟨1, 0, 2, 1024⟩ with priority := 90 }),
    .schedule true 4, .schedule true 4, .schedule false 5, .schedule true 6]

/-- Each pass places one job, and the worker has one GPU. -/
theorem crossedLabels_oversubscribes :
    ∃ state worker, run (step false) (State.start (registerAll [oneGPU])) crossedLabels =
        some state ∧ state.store.workers.find "worker-1" = some worker ∧
      (assignedTo placed state.store.jobs.jobs "worker-1").map
        (fun job => (job.id, job.state)) = [("job-2", .scheduled), ("job-1", .scheduled)] ∧
      ¬ Fits placed state.store.jobs.jobs "worker-1" worker := by
  have reached : (run (step false) (State.start (registerAll [oneGPU])) crossedLabels).any
      (fun state => (state.store.workers.find "worker-1").any fun worker =>
        (assignedTo placed state.store.jobs.jobs "worker-1").map
          (fun job => (job.id, job.state)) = [("job-2", .scheduled), ("job-1", .scheduled)] &&
        (worker.gpus.length : Int) < Ledger.total (fun job => (job.resources.gpuCount : Int))
          (assignedTo placed state.store.jobs.jobs "worker-1")) = true := by decide +kernel
  obtain ⟨state, ran, holds⟩ := (Option.any_eq_true _ _).mp reached
  obtain ⟨worker, found, exceeded⟩ := (Option.any_eq_true _ _).mp holds
  simp only [Bool.and_eq_true, decide_eq_true_eq] at exceeded
  exact ⟨state, worker, ran, found, exceeded.1, fun fits => absurd fits.gpus (not_le.mpr exceeded.2)⟩

end OrionQueue.SplitBrain
