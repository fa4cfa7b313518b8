import Mathlib.Algebra.Order.Group.Int
import OrionQueue.Capacity
import OrionQueue.JobCoherence

/-!
What is left on a lost worker. The expiration handler marks the worker LOST and
then recovers the jobs of one listing; a scheduling pass whose snapshot still
shows the worker ACTIVE may write an assignment to it afterwards. `Unclaimed`
says that the live jobs on a worker are among those still to be recovered.
-/

namespace OrionQueue.WorkerLoss

open Jobs JobService JobLifecycle JobCoherence Workers Planner Recovery Cluster Capacity Runs
open JobStore.MemoryRepository

variable {Sched Cpu Mem : Type}

def Unclaimed (jobs : JobStore.MemoryRepository Cpu Mem) (workerID : String)
    (pending : List String) : Prop :=
  ∀ key job, jobs.find key = some job → job.state.terminal = false →
    workerID ∈ job.assignedWorkerIDs → key ∈ pending

/-- A live job on a worker was live on it before any move. -/
theorem move_live {now : Time} {charged : Bool} {job job' : Job Cpu Mem}
    (moved : Move now charged job job') (shape : Shape job) (alive : job'.state.terminal = false)
    {workerID : String} (assigned : workerID ∈ job'.assignedWorkerIDs) :
    job.state.terminal = false ∧ workerID ∈ job.assignedWorkerIDs := by
  cases moved with
  | requestCancel active =>
      refine ⟨?_, assigned⟩
      rcases active with state | state <;> simp [state, State.terminal]
  | start placed => exact ⟨by simp [placed, State.terminal], assigned⟩
  | preempt reason running allowed => exact ⟨by simp [running, State.terminal], assigned⟩
  | requeue | confirmPreempt => simp at assigned
  | retry failed left =>
      simp only [Shape, failed] at shape
      omega
  | cancel | complete | exhaust | confirmCancel => simp [State.terminal] at alive

/-- A live job on a worker is in a state LoseWorker acts on. -/
theorem shape_recoverable {job : Job Cpu Mem} (shape : Shape job)
    (alive : job.state.terminal = false) {workerID : String}
    (assigned : workerID ∈ job.assignedWorkerIDs) : job.state.recoverable = true := by
  cases state : job.state <;> simp_all [Shape, State.terminal, State.recoverable]

theorem begin_unclaimed {jobs : JobStore.MemoryRepository Cpu Mem} (shaped : Shaped jobs)
    (keyed : jobs.Keyed) (workerID : String) :
    Unclaimed jobs workerID (Call.begin jobs workerID).pending := by
  intro key job found alive assigned
  refine List.mem_map.mpr ⟨job, List.mem_filter.mpr ⟨?_, ?_⟩, keyed key job found⟩
  · exact mem_listActive_iff.mpr ⟨⟨key, found⟩, alive⟩
  · simp [shape_recoverable (shaped key job found) alive assigned, assigned]

/-- Whatever LoseWorker's callback makes of a job, it is not live on a worker. -/
theorem recoverUpdate_unclaimed {now : Time} {workerID : String} {job job' : Job Cpu Mem}
    (shape : Shape job) (accepted : recoverUpdate now workerID job = .ok job')
    (alive : job'.state.terminal = false) : job'.assignedWorkerIDs = [] := by
  obtain rfl := Except.ok.inj accepted
  cases state : job.state <;>
    simp_all [Shape, stopped, applyFailureOrRetry, State.terminal]
  all_goals split <;> simp_all

section Steps
variable [Zero Cpu] [LT Cpu] [DecidableLT Cpu] [Zero Mem] [LT Mem] [DecidableLT Mem]

theorem unclaimed_apply {now : Time} {jobs : JobStore.MemoryRepository Cpu Mem} {op : Op Cpu Mem}
    {workerID : String} {pending : List String} (shaped : Shaped jobs)
    (unclaimed : Unclaimed jobs workerID pending)
    (elsewhere : ∀ id workerIDs job, op = .assignToWorkers id workerIDs →
      jobs.find id = some job → job.state = .queued → workerID ∉ workerIDs) :
    Unclaimed (op.apply now jobs) workerID pending := by
  have before : ∀ key job, jobs.find key = some job → Shape job ∧
      (job.state.terminal = false → workerID ∈ job.assignedWorkerIDs → key ∈ pending) :=
    fun key job found => ⟨shaped key job found, unclaimed key job found⟩
  refine apply_records before (fun _ _ listed => listed.2) ?_ ?_ ?_
  · intro id charged job job' moved listed alive assigned
    obtain ⟨was, on⟩ := move_live moved listed.1 alive assigned
    exact listed.2 was on
  · intro id workerIDs job isPlace found queued _ _ assigned
    exact absurd assigned (elsewhere id workerIDs job isPlace found queued)
  · intro id input _ _ _ assigned
    simp [newJob] at assigned

theorem unclaimed_recover {now : Time} {jobs : JobStore.MemoryRepository Cpu Mem}
    {workerID id : String} {rest : List String} (shaped : Shaped jobs)
    (unclaimed : Unclaimed jobs workerID (id :: rest)) :
    Unclaimed ((Op.recover workerID id).apply now jobs) workerID rest := by
  intro key record found alive assigned
  have among : key ∈ id :: rest :=
    unclaimed_apply shaped unclaimed (fun _ _ _ isPlace => by cases isPlace) key record found alive
      assigned
  -- The job just updated is no longer live on the worker.
  refine (List.mem_cons.mp among).resolve_left ?_
  rintro rfl
  simp only [Op.apply, recover] at found
  cases before : jobs.find key with
  | none =>
      rw [update_missing before, before] at found
      cases found
  | some job =>
      obtain ⟨job', accepted⟩ : ∃ job', recoverUpdate now workerID job = .ok job' := ⟨_, rfl⟩
      rw [update_stored before accepted, find_put, if_pos rfl] at found
      obtain rfl := Option.some.inj found
      simp [recoverUpdate_unclaimed (shaped key job before) accepted alive] at assigned

end Steps

structure Sound (workerID : String) (state : Cluster.State Sched Cpu Mem) : Prop where
  keyed : state.store.jobs.Keyed
  shaped : Shaped state.store.jobs
  recovering : ∀ handler call, state.handlers handler = .recovering call →
    call.workerID = workerID → Unclaimed state.store.jobs workerID call.pending
  swept : workerID ∈ state.swept → Unclaimed state.store.jobs workerID []

/-- An assignment to the worker is committed only while no LoseWorker call for it
has taken its listing. -/
def PlacedInTime (workerID : String) (state : Cluster.State Sched Cpu Mem)
    (label : Cluster.Label Sched Cpu Mem) : Prop :=
  ∀ scheduler now snapshot assignment rest result, label = .schedule scheduler now →
    state.passes scheduler = .assigning snapshot (assignment :: rest) result →
    commits state.store.jobs assignment = true → assignment.workerID = workerID →
      workerID ∉ state.swept ∧
        ∀ handler call, state.handlers handler = .recovering call → call.workerID ≠ workerID

theorem start_sound (workerID : String) (workers : Workers.MemoryRepository Cpu Mem) :
    Sound workerID (State.start workers : Cluster.State Sched Cpu Mem) where
  keyed := Tables.keyed_empty Job.id
  shaped := empty_shaped
  recovering _ _ busy := by cases busy
  swept member := by cases member

section Cluster
variable [AddCommGroup Cpu] [LinearOrder Cpu] [AddCommGroup Mem] [LinearOrder Mem]

/-- While a recovery of the worker is under way or over, steps other than the
recovery itself bring no live job onto it. -/
theorem effect_unclaimed {workerID : String} {state : Cluster.State Sched Cpu Mem}
    {label : Cluster.Label Sched Cpu Mem} {jobs : JobStore.MemoryRepository Cpu Mem}
    (shaped : Shaped state.store.jobs) (inTime : PlacedInTime workerID state label)
    (effect : JobsEffect state label jobs)
    (recovered : workerID ∈ state.swept ∨
      ∃ handler call, state.handlers handler = .recovering call ∧ call.workerID = workerID)
    {pending : List String} (unclaimed : Unclaimed state.store.jobs workerID pending) :
    Unclaimed jobs workerID pending := by
  cases effect with
  | same unchanged => rwa [unchanged]
  | op now op allowed applied =>
      rw [applied]
      exact unclaimed_apply shaped unclaimed fun id workerIDs _ isPlace =>
        absurd isPlace (callable_not_place allowed id workerIDs)
  | @place scheduler now snapshot assignment rest result scheduled assigning applied =>
      rw [applied]
      refine unclaimed_apply shaped unclaimed ?_
      rintro id workerIDs job ⟨rfl, rfl⟩ found queued member
      have committing : commits state.store.jobs assignment = true := by
        simp [commits, found, queued]
      obtain ⟨fresh, idle⟩ := inTime scheduler now snapshot assignment rest result scheduled
        assigning committing (List.mem_singleton.mp member).symm
      rcases recovered with swept | ⟨handler, call, busy, own⟩
      · exact fresh swept
      · exact idle handler call busy own

theorem effect_stored {state : Cluster.State Sched Cpu Mem}
    {label : Cluster.Label Sched Cpu Mem} {jobs : JobStore.MemoryRepository Cpu Mem}
    (keyed : state.store.jobs.Keyed) (shaped : Shaped state.store.jobs)
    (effect : JobsEffect state label jobs) : jobs.Keyed ∧ Shaped jobs := by
  cases effect with
  | same unchanged => exact unchanged ▸ ⟨keyed, shaped⟩
  | op now op allowed applied =>
      rw [applied]
      exact ⟨apply_keyed keyed now op, apply_shaped shaped (callable_single allowed) now⟩
  | @place _ now _ assignment _ _ scheduled assigning applied =>
      have single : SinglePlacement
          (.assignToWorkers assignment.jobID [assignment.workerID] : Op Cpu Mem) := rfl
      rw [applied]
      exact ⟨apply_keyed keyed now _, apply_shaped shaped single now⟩

/-- The step of a handler inside LoseWorker: the handler itself either has nothing
left to update, or updates the first of the jobs it listed. -/
theorem handler_unclaimed {now : Time} {workerID : String}
    {repo : JobStore.MemoryRepository Cpu Mem} {current call : Recovery.Call Cpu Mem}
    (shaped : Shaped repo)
    (before : current.workerID = workerID → Unclaimed repo workerID current.pending)
    (busy : (Handler.next now repo current).1 = .recovering call)
    (own : call.workerID = workerID) :
    Unclaimed (Handler.next now repo current).2.1 workerID call.pending := by
  rcases handler_next now repo current with ⟨_, done⟩ | ⟨id, rest, pending, applied, outcome⟩
  · rw [done] at busy
    cases busy
  · rcases outcome with idle | ⟨next, continuing, worker, remaining⟩
    · rw [idle] at busy
      cases busy
    · obtain rfl : next = call := by simpa [continuing] using busy
      have unclaimed := before (worker ▸ own)
      rw [pending, ← own, worker] at unclaimed
      rw [applied, remaining, ← own, worker]
      exact unclaimed_recover shaped unclaimed

theorem step_sound [DecidableEq Sched] (preemptionEnabled : Bool) (workerID : String)
    (state : Cluster.State Sched Cpu Mem) (label : Cluster.Label Sched Cpu Mem)
    (after : Cluster.State Sched Cpu Mem) (sound : Sound workerID state)
    (inTime : PlacedInTime workerID state label)
    (stepped : step preemptionEnabled state label = some after) : Sound workerID after := by
  obtain ⟨keyed, shaped, recovering, swept⟩ := sound
  have effect := step_jobs stepped
  obtain ⟨keyed', shaped'⟩ := effect_stored keyed shaped effect
  have busyKept : ∀ handler call, state.handlers handler = .recovering call →
      call.workerID = workerID → Unclaimed after.store.jobs workerID call.pending :=
    fun handler call busy own => effect_unclaimed shaped inTime effect
      (Or.inr ⟨handler, call, busy, own⟩) (recovering handler call busy own)
  have sweptKept : workerID ∈ state.swept → Unclaimed after.store.jobs workerID [] :=
    fun member => effect_unclaimed shaped inTime effect (Or.inl member) (swept member)
  rcases step_handlers stepped with
    ⟨actor, now, current, _, working, handlers, jobs, record⟩ | ⟨each, kept⟩
  · refine ⟨keyed', shaped', fun handler call busy own => ?_, fun member => ?_⟩
    · rw [handlers] at busy
      by_cases same : handler = actor
      · subst same
        rw [Function.update_self] at busy
        rw [jobs]
        exact handler_unclaimed shaped (recovering handler current working) busy own
      · exact busyKept handler call (by simpa [same] using busy) own
    · rw [record] at member
      rcases handler_next now state.store.jobs current with
        ⟨empty, done⟩ | ⟨_, _, _, applied, _⟩
      · -- The call returns: nothing was pending, so nothing is left on its worker.
        rw [done, if_pos rfl, List.mem_cons] at member
        rcases member with own | before
        · rw [← empty]
          exact busyKept actor current working own.symm
        · exact sweptKept before
      · exact sweptKept (by simpa [applied] using member)
  · refine ⟨keyed', shaped', ?_, fun member => sweptKept (kept member)⟩
    intro handler call busy own
    rcases each handler with same | ⟨marked, other⟩ | ⟨unchanged, started, listed⟩
    · exact busyKept handler call (same ▸ busy) own
    · rw [other] at busy
      cases busy
    · -- A new listing takes in every live job on the worker.
      rw [listed] at busy
      cases busy
      subst own
      rw [unchanged]
      exact begin_unclaimed shaped keyed started

theorem lost_worker_keeps_no_live_job [DecidableEq Sched] (preemptionEnabled : Bool)
    (workerID : String) (workers : Workers.MemoryRepository Cpu Mem)
    (labels : List (Cluster.Label Sched Cpu Mem)) (state : Cluster.State Sched Cpu Mem)
    (ran : run (step preemptionEnabled) (State.start workers) labels = some state)
    (inTime : Along (step preemptionEnabled) (PlacedInTime workerID) (State.start workers) labels)
    (recovered : workerID ∈ state.swept) (id : String) (job : Job Cpu Mem)
    (found : state.store.jobs.find id = some job) (alive : job.state.terminal = false) :
    workerID ∉ job.assignedWorkerIDs := by
  have sound : Sound workerID state :=
    guarded_invariant (step_sound preemptionEnabled workerID) ran inTime
      (start_sound workerID workers)
  intro assigned
  cases sound.swept recovered id job found alive assigned

end Cluster

/-- A pass over job-1 and worker-1 has its plan; nothing is written yet. -/
def plannedLabels : List (Cluster.Label Unit Int Int) :=
  [.call 1 (.submit "job-1" (submission ⟨0, 0, 2, 1024⟩)), .schedule () 2, .schedule () 2]

/-- The assignment is written, then the lease expires and the job is recovered. -/
def recoveredLabels : List (Cluster.Label Unit Int Int) :=
  plannedLabels ++ [.schedule () 3, .expire 0 "worker-1", .handle 0 4, .handle 0 5, .handle 0 6]

theorem recoveredLabels_inTime :
    Along (step false) (PlacedInTime "worker-1") (State.start (registerAll [plainNode]))
      recoveredLabels := by
  have calm : ∀ (state : Cluster.State Unit Int Int) label, state.swept = [] →
      (∀ handler, state.handlers handler = .idle) → PlacedInTime "worker-1" state label := by
    intro state label fresh idle _ _ _ _ _ _ _ _ _ _
    exact ⟨by simp [fresh], fun handler call busy => by simp [idle handler] at busy⟩
  have handling : ∀ (state : Cluster.State Unit Int Int) label,
      (∀ now, label ≠ .schedule () now) → PlacedInTime "worker-1" state label :=
    fun _ _ other _ now _ _ _ _ scheduled => absurd scheduled (other now)
  refine ⟨calm _ _ rfl fun _ => rfl, ?_⟩
  rintro _ ⟨⟩
  refine ⟨calm _ _ rfl fun _ => rfl, ?_⟩
  rintro _ ⟨⟩
  refine ⟨calm _ _ rfl fun _ => rfl, ?_⟩
  rintro _ ⟨⟩
  refine ⟨calm _ _ rfl fun _ => rfl, fun _ _ => ?_⟩
  exact ⟨handling _ _ (by simp), fun _ _ => ⟨handling _ _ (by simp), fun _ _ =>
    ⟨handling _ _ (by simp), fun _ _ => ⟨handling _ _ (by simp), fun _ _ => trivial⟩⟩⟩⟩

theorem recoveredLabels_keeps_none :
    ∃ state job, run (step false) (State.start (registerAll [plainNode])) recoveredLabels = some state ∧
      state.store.jobs.find "job-1" = some job ∧ job.state = .queued ∧
      "worker-1" ∉ job.assignedWorkerIDs := by
  obtain ⟨state, ran⟩ : ∃ state, run (step false) (State.start (registerAll [plainNode]))
      recoveredLabels = some state := ⟨_, rfl⟩
  obtain ⟨job, found, queued, swept⟩ : ∃ job, state.store.jobs.find "job-1" = some job ∧
      job.state = .queued ∧ "worker-1" ∈ state.swept := by
    cases ran
    exact ⟨_, rfl, rfl, List.mem_singleton.mpr rfl⟩
  exact ⟨state, job, ran, found, queued, lost_worker_keeps_no_live_job false "worker-1"
    (registerAll [plainNode]) recoveredLabels state ran recoveredLabels_inTime swept "job-1" job found
    (by simp [queued, State.terminal])⟩

/-- The lease expires and the recovery is over before the pass writes its plan. -/
def lateLabels : List (Cluster.Label Unit Int Int) :=
  plannedLabels ++ [.expire 0 "worker-1", .handle 0 3, .handle 0 4, .schedule () 5]

theorem lateLabels_strands_job :
    ∃ state worker job, run (step false) (State.start (registerAll [plainNode])) lateLabels =
        some state ∧
      state.store.workers.find "worker-1" = some worker ∧ worker.status = .lost ∧
      "worker-1" ∈ state.swept ∧ state.store.jobs.find "job-1" = some job ∧
      job.state = .scheduled ∧ job.assignedWorkerIDs = ["worker-1"] :=
  ⟨_, _, _, rfl, rfl, rfl, List.mem_singleton.mpr rfl, rfl, rfl, rfl⟩

end OrionQueue.WorkerLoss
