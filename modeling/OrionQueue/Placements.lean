import Mathlib.Algebra.GroupWithZero.Nat
import Mathlib.Algebra.Order.Group.Int
import Mathlib.Algebra.Order.Group.Multiset
import OrionQueue.Cluster
import OrionQueue.Ledger

/-!
Any number of schedulers with plans of any age. An observer runs beside the
cluster: it compares the job store before and after every step to see which jobs
were scheduled, keeps the results of the passes that have ended, and counts per
job the AssignToWorkers calls that succeeded since the job last entered QUEUED.
-/

namespace OrionQueue.Placements

open Jobs JobStore JobService JobLifecycle Workers Planner Cluster Runs
open JobStore.MemoryRepository

variable {Sched Cpu Mem : Type}

def waiting (jobs : JobStore.MemoryRepository Cpu Mem) (id : String) : Bool :=
  (jobs.find id).any fun job => job.state = .queued

def entered (before after : JobStore.MemoryRepository Cpu Mem) (id : String) : Bool :=
  waiting after id && !waiting before id

structure Placement where
  jobID : String
  workerIDs : List String
  deriving DecidableEq

/-- The jobs that the step took from QUEUED to SCHEDULED, with their workers. -/
def transitions (before after : JobStore.MemoryRepository Cpu Mem) : List Placement :=
  after.jobs.filterMap fun job =>
    if job.state = .scheduled ∧ waiting before job.id = true then
      some ⟨job.id, job.assignedWorkerIDs⟩
    else none

/-- The assignment that the next call of the pass writes, if AssignToWorkers accepts it. -/
def written (jobs : JobStore.MemoryRepository Cpu Mem) : Pass Cpu Mem → List Assignment
  | .assigning _ (assignment :: _) _ =>
      match (assignToWorkers jobs assignment.jobID [assignment.workerID]).1 with
      | .ok _ => [assignment]
      | .error _ => []
  | _ => []

def writtenBy (state : Cluster.State Sched Cpu Mem) : Cluster.Label Sched Cpu Mem → List Assignment
  | .schedule scheduler _ => written state.store.jobs (state.passes scheduler)
  | _ => []

def resultOf : Pass Cpu Mem → Option Result
  | .idle | .listedJobs _ => none
  | .assigning _ _ result | .recording _ _ _ result | .preempting _ result | .returned result _ =>
      some result

def assignedBy (pass : Pass Cpu Mem) : Nat := ((resultOf pass).map Result.assigned).getD 0

/-- The result of a pass that a new pass of the same scheduler replaces. -/
def replaced : Pass Cpu Mem → List Result
  | .returned result _ => [result]
  | _ => []

def endedBy (state : Cluster.State Sched Cpu Mem) : Cluster.Label Sched Cpu Mem → List Result
  | .schedule scheduler _ => replaced (state.passes scheduler)
  | .abandon scheduler => (resultOf (state.passes scheduler)).toList
  | _ => []

def placementOf (assignment : Assignment) : Placement :=
  ⟨assignment.jobID, [assignment.workerID]⟩

def recordedPlacement (decision : RecordedDecision) : Placement :=
  ⟨decision.jobID, [decision.workerID]⟩

/-- The placement whose decision the pass has yet to record. -/
def unrecorded : Pass Cpu Mem → Multiset Placement
  | .recording _ assignment _ _ => {placementOf assignment}
  | _ => 0

structure Observed (Sched Cpu Mem : Type) where
  cluster : Cluster.State Sched Cpu Mem
  ended : List Result
  transitions : List Placement
  successes : String → Nat

def Observed.start (workers : Workers.MemoryRepository Cpu Mem) : Observed Sched Cpu Mem :=
  ⟨State.start workers, [], [], fun _ => 0⟩

/-- Record fails, or is not reached: the pass ends between the assignment and its
audit row. -/
def recordFails (seen : Observed Sched Cpu Mem) : Cluster.Label Sched Cpu Mem → Bool
  | .abandon scheduler =>
      match seen.cluster.passes scheduler with
      | .recording _ _ _ _ => true
      | _ => false
  | _ => false

theorem move_waiting {now : Time} {charged : Bool} {job job' : Job Cpu Mem}
    (moved : Move now charged job job') (queued : job.state = .queued) :
    job'.state ≠ .scheduled := by
  cases moved <;> simp_all

/-- Only the moves that put a job back into QUEUED touch its assignment. -/
theorem move_assigned {now : Time} {charged : Bool} {job job' : Job Cpu Mem}
    (moved : Move now charged job job') :
    job'.assignedWorkerIDs = job.assignedWorkerIDs ∨ job'.state = .queued := by
  cases moved with
  | requeue | confirmPreempt => exact Or.inr rfl
  | _ => exact Or.inl rfl

theorem waiting_iff {jobs : JobStore.MemoryRepository Cpu Mem} {id : String} :
    waiting jobs id = true ↔ ∃ job, jobs.find id = some job ∧ job.state = .queued := by
  simp [waiting, Option.any_eq_true]

/-- A job that waits has not been assigned since it began to. -/
def Single (seen : Observed Sched Cpu Mem) : Prop :=
  ∀ id, seen.successes id ≤ 1 ∧
    (waiting seen.cluster.store.jobs id = true → seen.successes id = 0)

theorem start_single (workers : Workers.MemoryRepository Cpu Mem) :
    Single (Observed.start workers : Observed Sched Cpu Mem) :=
  fun _ => ⟨Nat.zero_le 1, fun _ => rfl⟩

def recordedIn (store : Store Cpu Mem) : Multiset Placement :=
  store.decisions.map recordedPlacement

section Accounts
variable [Fintype Sched]

/-- Every assignment counted by some pass is a transition that was seen, and the
store files every job under its own ID. -/
structure Accounted (seen : Observed Sched Cpu Mem) : Prop where
  keyed : seen.cluster.store.jobs.Keyed
  balanced : (seen.ended.map Result.assigned).sum +
    ∑ scheduler, assignedBy (seen.cluster.passes scheduler) = seen.transitions.length

/-- Every transition that was seen is recorded or about to be. -/
def Recorded (seen : Observed Sched Cpu Mem) : Prop :=
  recordedIn seen.cluster.store + ∑ scheduler, unrecorded (seen.cluster.passes scheduler) =
    (seen.transitions : Multiset Placement)

theorem start_accounted (workers : Workers.MemoryRepository Cpu Mem) :
    Accounted (Observed.start workers : Observed Sched Cpu Mem) where
  keyed := Tables.keyed_empty Job.id
  balanced := by simp [Observed.start, State.start, assignedBy, resultOf]

theorem start_recorded (workers : Workers.MemoryRepository Cpu Mem) :
    Recorded (Observed.start workers : Observed Sched Cpu Mem) := by
  simp [Recorded, Observed.start, State.start, recordedIn, unrecorded]

end Accounts

section Steps
variable [AddCommGroup Cpu] [LinearOrder Cpu] [AddCommGroup Mem] [LinearOrder Mem]

/-- What a step means for the jobs: one assignment was written, and its job was
QUEUED until then, or none was. -/
inductive Written (state : Cluster.State Sched Cpu Mem) (label : Cluster.Label Sched Cpu Mem)
    (after : JobStore.MemoryRepository Cpu Mem) : Prop where
  | one {assignment : Assignment} {job : Job Cpu Mem} (wrote : writtenBy state label = [assignment])
      (found : state.store.jobs.find assignment.jobID = some job) (queued : job.state = .queued)
      (stored : Stores state.store.jobs after assignment.jobID
        { job with state := .scheduled, assignedWorkerIDs := [assignment.workerID] })
  | none (wrote : writtenBy state label = [])
      (moved : after = state.store.jobs ∨ ∃ now op, callable state.store.jobs op = true ∧
        after = op.apply now state.store.jobs)

theorem effect_none {state : Cluster.State Sched Cpu Mem} {label : Cluster.Label Sched Cpu Mem}
    {after : JobStore.MemoryRepository Cpu Mem} (effect : JobsEffect state label after)
    (wrote : writtenBy state label = [])
    (elsewhere : ∀ scheduler now snapshot assignment rest result,
      label = .schedule scheduler now →
        state.passes scheduler ≠ .assigning snapshot (assignment :: rest) result) :
    Written state label after := by
  cases effect with
  | same unchanged => exact .none wrote (Or.inl unchanged)
  | op now op allowed applied => exact .none wrote (Or.inr ⟨now, op, allowed, applied⟩)
  | place scheduled assigning applied => exact absurd assigning (elsewhere _ _ _ _ _ _ scheduled)

theorem assigning_written {state : Cluster.State Sched Cpu Mem} {scheduler : Sched} {now : Time}
    {preemptionEnabled : Bool} {snapshot : Snapshot Cpu Mem} {assignment : Assignment}
    {rest : List Assignment} {result : Result}
    (assigning : state.passes scheduler = .assigning snapshot (assignment :: rest) result) :
    Written state (.schedule scheduler now)
      ((state.passes scheduler).advance preemptionEnabled now state.store).2.jobs := by
  rcases update_cases state.store.jobs assignment.jobID (assignUpdate [assignment.workerID]) with
    ⟨problem, refused⟩ | ⟨job, job', found, accepted, stored⟩
  · have answer : assignToWorkers state.store.jobs assignment.jobID [assignment.workerID] =
        (.error problem, state.store.jobs) := refused
    refine .none ?_ (Or.inl ?_)
    · simp [writtenBy, assigning, written, answer]
    · simp [assigning, Pass.advance, answer]
  · have answer : assignToWorkers state.store.jobs assignment.jobID [assignment.workerID] =
        (.ok job', state.store.jobs.put assignment.jobID job') := stored
    unfold assignUpdate at accepted
    split at accepted <;> cases accepted
    refine .one ?_ found (by assumption) ?_
    · simp [writtenBy, assigning, written, answer]
    · simp only [assigning, Pass.advance, answer]
      exact put_stores _ _ _

theorem step_written [DecidableEq Sched] {preemptionEnabled : Bool}
    {state after : Cluster.State Sched Cpu Mem} {label : Cluster.Label Sched Cpu Mem}
    (stepped : step preemptionEnabled state label = some after) :
    Written state label after.store.jobs := by
  have effect := step_jobs stepped
  cases label with
  | schedule scheduler now =>
      cases pass : state.passes scheduler with
      | assigning snapshot rest result =>
          cases rest with
          | nil =>
              refine effect_none effect (by simp [writtenBy, pass, written]) ?_
              rintro _ _ _ _ _ _ ⟨rfl, rfl⟩
              simp [pass]
          | cons assignment rest =>
              simp only [step, Option.some.injEq] at stepped
              subst stepped
              exact assigning_written pass
      | _ =>
          refine effect_none effect (by simp [writtenBy, pass, written]) ?_
          rintro _ _ _ _ _ _ ⟨rfl, rfl⟩
          simp [pass]
  | _ => exact effect_none effect rfl (by simp)

theorem effect_keyed {state : Cluster.State Sched Cpu Mem} {label : Cluster.Label Sched Cpu Mem}
    {jobs : JobStore.MemoryRepository Cpu Mem} (keyed : state.store.jobs.Keyed)
    (effect : JobsEffect state label jobs) : jobs.Keyed := by
  cases effect with
  | same unchanged => rwa [unchanged]
  | op now op allowed applied => exact applied ▸ apply_keyed keyed now op
  | place scheduled assigning applied => exact applied ▸ apply_keyed keyed _ _

/-- The observer sees exactly the assignments that AssignToWorkers accepted. -/
theorem step_transitions {state : Cluster.State Sched Cpu Mem}
    {label : Cluster.Label Sched Cpu Mem} {after : JobStore.MemoryRepository Cpu Mem}
    (keyed : after.Keyed) (change : Written state label after) :
    transitions state.store.jobs after = (writtenBy state label).map placementOf := by
  have own : ∀ job ∈ after.jobs, after.find job.id = some job := by
    intro job member
    obtain ⟨key, found⟩ := mem_jobs_iff.mp member
    rwa [keyed key job found]
  cases change with
  | @one assignment job wrote found queued stored =>
      rw [wrote]
      have kept := stores_own stored
      refine Tables.filterMap_only (Tables.keyed_values_nodup keyed).of_map
        (mem_jobs_iff.mpr ⟨_, kept⟩) ?_ ?_
      · have named := keyed _ _ kept
        simp only at named
        simp [named, waiting, found, queued, placementOf]
      · -- Any other record is as it was, and a QUEUED one is not SCHEDULED.
        intro other member different
        refine if_neg ?_
        rintro ⟨scheduled, waits⟩
        obtain ⟨old, before, idle⟩ := waiting_iff.mp waits
        have elsewhere : other.id ≠ assignment.jobID := by
          intro same
          have found' := own other member
          rw [same] at found'
          exact different (Option.some.inj (found'.symm.trans kept))
        have same := (stores_other stored elsewhere).symm.trans (own other member)
        obtain rfl := Option.some.inj (same.symm.trans before)
        simp [idle] at scheduled
  | none wrote moved =>
      rw [wrote]
      refine List.filterMap_eq_nil_iff.mpr fun job member => if_neg ?_
      rintro ⟨scheduled, waits⟩
      obtain ⟨old, before, idle⟩ := waiting_iff.mp waits
      have unscheduled : ∃ job', after.find job.id = some job' ∧ job'.state ≠ .scheduled := by
        rcases moved with same | ⟨now, op, allowed, applied⟩
        · exact ⟨old, same ▸ before, by simp [idle]⟩
        · rw [applied]
          exact apply_follows before (callable_fresh allowed job.id) (by simp [idle])
            (fun _ _ moved => move_waiting moved idle)
            fun workerIDs isPlace => absurd isPlace (callable_not_place allowed job.id workerIDs)
      obtain ⟨job', found, outside⟩ := unscheduled
      obtain rfl := Option.some.inj ((own job member).symm.trans found)
      exact outside scheduled

/-- What a pass has counted, what it leaves behind and what it writes balance. -/
theorem advance_assigned (preemptionEnabled : Bool) (now : Time) (store : Store Cpu Mem)
    (pass : Pass Cpu Mem) :
    ((replaced pass).map Result.assigned).sum +
        assignedBy (pass.advance preemptionEnabled now store).1 =
      assignedBy pass + (written store.jobs pass).length := by
  cases pass with
  | assigning snapshot rest result =>
      cases rest with
      | nil =>
          simp only [Pass.advance]
          split <;> simp [replaced, assignedBy, resultOf, written]
      | cons assignment rest =>
          simp only [Pass.advance, written]
          split <;> rename_i outcome
          · simp [replaced, assignedBy, resultOf, outcome]
          · split <;> simp [replaced, assignedBy, resultOf, outcome]
  | preempting rest result =>
      cases rest with
      | nil => simp [Pass.advance, replaced, assignedBy, resultOf, written]
      | cons preemption rest =>
          simp only [Pass.advance]
          split
          · simp [replaced, assignedBy, resultOf, written]
          · split <;> simp [replaced, assignedBy, resultOf, written]
  | _ => simp [Pass.advance, replaced, assignedBy, resultOf, written]

theorem advance_recorded (preemptionEnabled : Bool) (now : Time) (store : Store Cpu Mem)
    (pass : Pass Cpu Mem) :
    ∃ recorded, recordedIn (pass.advance preemptionEnabled now store).2 =
        recordedIn store + recorded ∧
      recorded + unrecorded (pass.advance preemptionEnabled now store).1 =
        unrecorded pass + ((written store.jobs pass).map placementOf : List Placement) := by
  cases pass with
  | recording snapshot assignment rest result =>
      refine ⟨{placementOf assignment}, ?_, ?_⟩
      · simp [Pass.advance, recordedIn, recordedPlacement, placementOf, ← Multiset.coe_add]
      · simp [Pass.advance, unrecorded, written]
  | assigning snapshot rest result =>
      refine ⟨0, ?_⟩
      cases rest with
      | nil =>
          simp only [Pass.advance]
          split <;> simp [recordedIn, unrecorded, written]
      | cons assignment rest =>
          simp only [Pass.advance, written]
          split <;> rename_i outcome
          · simp [recordedIn, unrecorded, outcome]
          · split <;> simp [recordedIn, unrecorded, outcome]
  | preempting rest result =>
      refine ⟨0, ?_⟩
      cases rest with
      | nil => simp [Pass.advance, recordedIn, unrecorded, written]
      | cons preemption rest =>
          simp only [Pass.advance]
          split
          · simp [recordedIn, unrecorded, written]
          · split <;> simp [recordedIn, unrecorded, written]
  | _ => exact ⟨0, by simp [Pass.advance, recordedIn, unrecorded, written]⟩

variable [DecidableEq Sched]

def observe (preemptionEnabled : Bool) (seen : Observed Sched Cpu Mem)
    (label : Cluster.Label Sched Cpu Mem) : Option (Observed Sched Cpu Mem) :=
  (step preemptionEnabled seen.cluster label).map fun after =>
    { cluster := after
      ended := seen.ended ++ endedBy seen.cluster label
      transitions := seen.transitions ++ transitions seen.cluster.store.jobs after.store.jobs
      successes := fun id =>
        if entered seen.cluster.store.jobs after.store.jobs id then 0
        else seen.successes id +
          ((writtenBy seen.cluster label).filter fun assignment => assignment.jobID = id).length }

theorem observe_some {preemptionEnabled : Bool} {seen next : Observed Sched Cpu Mem}
    {label : Cluster.Label Sched Cpu Mem} (observed : observe preemptionEnabled seen label = some next) :
    step preemptionEnabled seen.cluster label = some next.cluster ∧
      next.ended = seen.ended ++ endedBy seen.cluster label ∧
      next.transitions = seen.transitions ++
        transitions seen.cluster.store.jobs next.cluster.store.jobs ∧
      ∀ id, next.successes id =
        if entered seen.cluster.store.jobs next.cluster.store.jobs id then 0
        else seen.successes id +
          ((writtenBy seen.cluster label).filter fun assignment => assignment.jobID = id).length := by
  obtain ⟨after, stepped, rfl⟩ := Option.map_eq_some_iff.mp observed
  exact ⟨stepped, rfl, rfl, fun _ => rfl⟩

theorem observe_single {preemptionEnabled : Bool} (seen : Observed Sched Cpu Mem)
    (label : Cluster.Label Sched Cpu Mem) (next : Observed Sched Cpu Mem) (single : Single seen)
    (observed : observe preemptionEnabled seen label = some next) : Single next := by
  obtain ⟨stepped, _, _, counted⟩ := observe_some observed
  intro id
  obtain ⟨most, fresh⟩ := single id
  rw [counted id]
  cases step_written stepped with
  | @one assignment job wrote found queued stored =>
      rw [wrote]
      by_cases own : id = assignment.jobID
      · -- It waited, so this is the first success, and it waits no more.
        subst own
        have before : waiting seen.cluster.store.jobs assignment.jobID = true :=
          waiting_iff.mpr ⟨job, found, queued⟩
        have after : waiting next.cluster.store.jobs assignment.jobID = false := by
          simp [waiting, stores_own stored]
        simp [entered, after, fresh before]
      · have same : waiting next.cluster.store.jobs id = waiting seen.cluster.store.jobs id := by
          simp only [waiting, stores_other stored own]
        simp only [entered, same, Bool.and_not_self, Bool.false_eq_true, if_false,
          List.filter_cons, Ne.symm own, decide_false, List.filter_nil, List.length_nil, add_zero]
        exact ⟨most, fresh⟩
  | none wrote moved =>
      rw [wrote]
      simp only [List.filter_nil, List.length_nil, add_zero]
      split <;> rename_i entry
      · exact ⟨Nat.zero_le 1, fun _ => rfl⟩
      · refine ⟨most, fun waits => fresh ?_⟩
        simpa [entered, waits] using entry

/-- As long as the job does not wait, its assignment stands. -/
theorem run_assigned {preemptionEnabled : Bool} {state last : Cluster.State Sched Cpu Mem}
    {labels : List (Cluster.Label Sched Cpu Mem)} {id : String} {job : Job Cpu Mem}
    (ran : run (step preemptionEnabled) state labels = some last)
    (found : state.store.jobs.find id = some job)
    (busy : Always (step preemptionEnabled) (fun state => waiting state.store.jobs id = false)
      state labels) :
    ∃ job', last.store.jobs.find id = some job' ∧
      job'.assignedWorkerIDs = job.assignedWorkerIDs := by
  induction labels generalizing state job with
  | nil =>
      obtain rfl : state = last := by simpa [run] using ran
      exact ⟨job, found, rfl⟩
  | cons label rest ih =>
      obtain ⟨next, stepped, tail⟩ := run_cons.mp ran
      have later := busy.2 next stepped
      have placed : job.state ≠ .queued := by
        simpa [waiting, found] using busy.1
      obtain ⟨between, stored, same | queued⟩ := effect_follows (step_jobs stepped) found
        (Or.inl rfl : job.assignedWorkerIDs = job.assignedWorkerIDs ∨ job.state = .queued)
        (fun _ _ _ => move_assigned) (fun _ queued => absurd queued placed)
      · obtain ⟨job', kept, equal⟩ := ih tail stored later
        exact ⟨job', kept, equal.trans same⟩
      · have idle := always_start later
        simp [waiting, stored, queued] at idle

/-- What a step does to the passes: the next call of one, the end of one, or
nothing that the accounts see. -/
theorem step_accounts {preemptionEnabled : Bool} {state after : Cluster.State Sched Cpu Mem}
    {label : Cluster.Label Sched Cpu Mem} (stepped : step preemptionEnabled state label = some after) :
    (∃ scheduler now, label = .schedule scheduler now ∧
      after.store = ((state.passes scheduler).advance preemptionEnabled now state.store).2 ∧
      after.passes = Function.update state.passes scheduler
        ((state.passes scheduler).advance preemptionEnabled now state.store).1) ∨
    (∃ scheduler, label = .abandon scheduler ∧ after.store = state.store ∧
      after.passes = Function.update state.passes scheduler .idle) ∨
    (after.passes = state.passes ∧ after.store.decisions = state.store.decisions ∧
      endedBy state label = [] ∧ writtenBy state label = []) := by
  cases label with
  | schedule scheduler now =>
      cases stepped
      exact Or.inl ⟨scheduler, now, rfl, rfl, rfl⟩
  | abandon scheduler =>
      cases stepped
      exact Or.inr (Or.inl ⟨scheduler, rfl, rfl, rfl⟩)
  | call now op =>
      simp only [step] at stepped
      split at stepped <;> cases stepped
      exact Or.inr (Or.inr ⟨rfl, rfl, rfl, rfl⟩)
  | heartbeat now workerID newLeaseID runningJobIDs =>
      cases stepped
      exact Or.inr (Or.inr ⟨rfl, rfl, rfl, rfl⟩)
  | expire handler workerID =>
      simp only [step] at stepped
      split at stepped <;> cases stepped <;> exact Or.inr (Or.inr ⟨rfl, rfl, rfl, rfl⟩)
  | handle handler now =>
      simp only [step] at stepped
      split at stepped <;> cases stepped <;> exact Or.inr (Or.inr ⟨rfl, rfl, rfl, rfl⟩)

section Accounts
variable [Fintype Sched]

theorem step_assigned {preemptionEnabled : Bool} {state after : Cluster.State Sched Cpu Mem}
    {label : Cluster.Label Sched Cpu Mem} (stepped : step preemptionEnabled state label = some after) :
    ((endedBy state label).map Result.assigned).sum +
        ∑ scheduler, assignedBy (after.passes scheduler) =
      ∑ scheduler, assignedBy (state.passes scheduler) + (writtenBy state label).length := by
  rcases step_accounts stepped with
    ⟨scheduler, now, rfl, _, passes⟩ | ⟨scheduler, rfl, _, passes⟩ | ⟨passes, _, ended, wrote⟩
  · rw [passes]
    exact Ledger.sum_transfer assignedBy state.passes scheduler _
      (advance_assigned preemptionEnabled now state.store (state.passes scheduler))
  · rw [passes]
    refine Ledger.sum_transfer assignedBy state.passes scheduler _ ?_
    cases pass : state.passes scheduler <;> simp [endedBy, writtenBy, assignedBy, resultOf, pass]
  · simp [passes, ended, wrote]

theorem observe_accounted {preemptionEnabled : Bool} (seen : Observed Sched Cpu Mem)
    (label : Cluster.Label Sched Cpu Mem) (next : Observed Sched Cpu Mem)
    (accounted : Accounted seen) (observed : observe preemptionEnabled seen label = some next) :
    Accounted next := by
  obtain ⟨stepped, ended, seenNow, _⟩ := observe_some observed
  have keyed := effect_keyed accounted.keyed (step_jobs stepped)
  have moved := step_assigned stepped
  have before := accounted.balanced
  refine ⟨keyed, ?_⟩
  rw [ended, seenNow, step_transitions keyed (step_written stepped)]
  simp only [List.map_append, List.sum_append, List.length_append, List.length_map]
  omega

theorem step_recorded {preemptionEnabled : Bool} {seen : Observed Sched Cpu Mem}
    {after : Cluster.State Sched Cpu Mem} {label : Cluster.Label Sched Cpu Mem}
    (stepped : step preemptionEnabled seen.cluster label = some after)
    (records : recordFails seen label = false) :
    recordedIn after.store + ∑ scheduler, unrecorded (after.passes scheduler) =
      recordedIn seen.cluster.store + ∑ scheduler, unrecorded (seen.cluster.passes scheduler) +
        ((writtenBy seen.cluster label).map placementOf : List Placement) := by
  rcases step_accounts stepped with
    ⟨scheduler, now, rfl, store, passes⟩ | ⟨scheduler, rfl, store, passes⟩ |
      ⟨passes, decisions, _, wrote⟩
  · obtain ⟨recorded, added, balance⟩ :=
      advance_recorded preemptionEnabled now seen.cluster.store (seen.cluster.passes scheduler)
    have moved := Ledger.sum_transfer unrecorded seen.cluster.passes scheduler _ balance
    rw [passes, store, added, add_assoc, moved, add_assoc]
    rfl
  · -- A pass that ends here is not between its assignment and its Record.
    have balance : (0 : Multiset Placement) + unrecorded (.idle : Pass Cpu Mem) =
        unrecorded (seen.cluster.passes scheduler) + 0 := by
      cases pass : seen.cluster.passes scheduler with
      | recording snapshot assignment rest result => simp [recordFails, pass] at records
      | _ => rfl
    have moved := Ledger.sum_transfer unrecorded seen.cluster.passes scheduler _ balance
    rw [passes, store]
    simpa [writtenBy] using moved
  · simp [recordedIn, passes, decisions, wrote]

theorem observe_recorded {preemptionEnabled : Bool} (seen : Observed Sched Cpu Mem)
    (label : Cluster.Label Sched Cpu Mem) (next : Observed Sched Cpu Mem)
    (kept : Accounted seen ∧ Recorded seen) (records : recordFails seen label = false)
    (observed : observe preemptionEnabled seen label = some next) :
    Accounted next ∧ Recorded next := by
  obtain ⟨accounted, recorded⟩ := kept
  obtain ⟨stepped, _, seenNow, _⟩ := observe_some observed
  have accountedNext := observe_accounted seen label next accounted observed
  refine ⟨accountedNext, ?_⟩
  unfold Recorded at recorded ⊢
  rw [step_recorded stepped records, recorded, seenNow,
    step_transitions accountedNext.keyed (step_written stepped), Multiset.coe_add]

theorem exclusive_assignment (preemptionEnabled : Bool)
    (workers : Workers.MemoryRepository Cpu Mem) (labels : List (Cluster.Label Sched Cpu Mem))
    (seen : Observed Sched Cpu Mem)
    (ran : run (observe preemptionEnabled) (Observed.start workers) labels = some seen) :
    (∀ id, seen.successes id ≤ 1) ∧
    (∀ id job further last, seen.cluster.store.jobs.find id = some job →
      run (step preemptionEnabled) seen.cluster further = some last →
      Always (step preemptionEnabled) (fun state => waiting state.store.jobs id = false)
        seen.cluster further →
      ∃ job', last.store.jobs.find id = some job' ∧
        job'.assignedWorkerIDs = job.assignedWorkerIDs) ∧
    (seen.ended.map Result.assigned).sum +
        ∑ scheduler, assignedBy (seen.cluster.passes scheduler) = seen.transitions.length ∧
    (Along (observe preemptionEnabled) (fun seen label => recordFails seen label = false)
      (Observed.start workers) labels →
      (seen.cluster.store.decisions.map recordedPlacement : Multiset Placement) +
          ∑ scheduler, unrecorded (seen.cluster.passes scheduler) = seen.transitions) := by
  refine ⟨fun id => ?_, fun id job further last found continued busy => ?_, ?_, fun records => ?_⟩
  · exact (run_invariant observe_single ran (start_single workers) id).1
  · exact run_assigned continued found busy
  · exact (run_invariant observe_accounted ran (start_accounted workers)).balanced
  · exact (guarded_invariant observe_recorded ran records
      ⟨start_accounted workers, start_recorded workers⟩).2

end Accounts

end Steps

/-- Two schedulers plan job-1, one writes and records it, the other is refused. -/
def racedLabels : List (Cluster.Label Bool Int Int) :=
  [.call 1 (.submit "job-1" (submission ⟨0, 0, 2, 1024⟩)),
    .schedule false 2, .schedule false 2, .schedule true 3, .schedule true 3,
    .schedule false 4, .schedule true 5, .schedule false 6]

theorem racedLabels_exclusive :
    ∃ seen, run (observe false) (Observed.start (registerAll [plainNode])) racedLabels =
        some seen ∧
      seen.transitions = [⟨"job-1", ["worker-1"]⟩] ∧
      assignedBy (seen.cluster.passes false) = 1 ∧ assignedBy (seen.cluster.passes true) = 0 ∧
      (∀ id, seen.successes id ≤ 1) ∧
      (seen.ended.map Result.assigned).sum +
        ∑ scheduler, assignedBy (seen.cluster.passes scheduler) = seen.transitions.length ∧
      (seen.cluster.store.decisions.map recordedPlacement : Multiset Placement) +
        ∑ scheduler, unrecorded (seen.cluster.passes scheduler) = seen.transitions := by
  obtain ⟨seen, ran, placed, first, second⟩ : ∃ seen,
      run (observe false) (Observed.start (registerAll [plainNode])) racedLabels = some seen ∧
        seen.transitions = [⟨"job-1", ["worker-1"]⟩] ∧
        assignedBy (seen.cluster.passes false) = 1 ∧
        assignedBy (seen.cluster.passes true) = 0 := ⟨_, rfl, rfl, rfl, rfl⟩
  have recorded : check (observe false) (fun seen label => !recordFails seen label)
      (Observed.start (registerAll [plainNode])) racedLabels = true := rfl
  obtain ⟨once, _, counted, decided⟩ :=
    exclusive_assignment false (registerAll [plainNode]) racedLabels seen ran
  exact ⟨seen, ran, placed, first, second, once, counted,
    decided (along_mono (fun _ _ kept => by simpa using kept) (check_along recorded))⟩

end OrionQueue.Placements
