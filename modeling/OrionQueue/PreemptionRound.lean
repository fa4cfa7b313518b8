import OrionQueue.JobCoherence
import OrionQueue.PreemptionFit
import OrionQueue.SettledPass

/-!
From stopping jobs to placing the one they were stopped for. An undisturbed RunOnce
with preemption on preempts every planned victim; when their agents have reported
them stopped, their capacity is off the books, and the next Plan places the pending
job, or else a job ranked before it takes its worker. The pending job has to pass the
tests of selectWorker on that worker without the victims, which PlanPreemptions does
not check for GPUs of the size it asks for.
-/

namespace OrionQueue.PreemptionRound

open Jobs JobService Workers Planner PlannerCapacity PlanOrder Fairness PreemptionPass
open PreemptionTurns SettledPass SharedBooks Cluster Capacity JobCoherence Runs
open JobStore.MemoryRepository

variable {Sched Cpu Mem : Type}

/-! ### What becomes of a victim -/

def halted (preemption : Preemption) (job : Job Cpu Mem) : Job Cpu Mem :=
  { job with state := .preempted, failureReason := preemption.reason }

theorem halted_id (preemption : Preemption) (job : Job Cpu Mem) : (halted preemption job).id = job.id :=
  rfl

/-- The record when Preempt and ReportStopped have both been called for it. -/
def requeued (preemption : Preemption) (job : Job Cpu Mem) : Job Cpu Mem :=
  { job with
    state := .queued
    failureReason := preemption.reason
    startedAt := none
    assignedWorkerIDs := [] }

theorem requeued_id (preemption : Preemption) (job : Job Cpu Mem) :
    (requeued preemption job).id = job.id := rfl

theorem stopped_id (now : Time) (job : Job Cpu Mem) : (stopped now job).id = job.id := by
  unfold stopped
  split <;> rfl

def halt (preemptions : List Preemption) : Job Cpu Mem → Job Cpu Mem :=
  amend Preemption.jobID preemptions halted

def release (preemptions : List Preemption) : Job Cpu Mem → Job Cpu Mem :=
  amend Preemption.jobID preemptions requeued

/-! ### The books without the victims -/

/-- The victims of the turns, each with its entry in the result of PlanPreemptions. -/
def stops (turns : List (Turn Cpu Mem)) : List (Preemption × Job Cpu Mem) :=
  turns.flatMap fun turn =>
    match turn.outcome with
    | none => []
    | some (worker, victims) =>
        victims.map fun victim => (⟨victim.id, worker.id, preemptionReason turn.pending.id⟩, victim)

theorem stops_entries (turns : List (Turn Cpu Mem)) :
    (stops turns).map Prod.fst = turns.flatMap Turn.preemptions := by
  rw [stops, List.map_flatMap]
  congr 1
  funext turn
  unfold Turn.preemptions
  cases turn.outcome with
  | none => rfl
  | some found => simp

theorem stops_on (turns : List (Turn Cpu Mem)) (workerID : String) :
    ((stops turns).filter fun stop => stop.1.workerID = workerID).map Prod.snd =
      stoppedOn turns workerID := by
  rw [stops, stoppedOn, List.filter_flatMap, List.map_flatMap]
  congr 1
  funext turn
  unfold Turn.stoppedOn
  cases turn.outcome with
  | none => rfl
  | some found =>
      by_cases here : found.1.id = workerID
      · simp [here, List.filter_map, Function.comp_def]
      · simp [here, List.filter_map, Function.comp_def]

/-- The victim is in the snapshot and holds its worker's capacity. -/
structure Victim (jobs : List (Job Cpu Mem)) (stop : Preemption × Job Cpu Mem) : Prop where
  listed : stop.2 ∈ jobs
  named : stop.2.id = stop.1.jobID
  running : stop.2.state = .running
  assigned : stop.2.assignedWorkerIDs = [stop.1.workerID]

section Books
variable [AddCommGroup Cpu] [AddCommGroup Mem]

theorem sub_reserve (committed : Committed Cpu Mem) (workerID : String)
    (request : ResourceRequest Cpu Mem) (job : Job Cpu Mem) (same : job.resources = request)
    (victims : List (Job Cpu Mem)) :
    (reserve committed workerID request workerID).sub (freedBy (job :: victims)) =
      (committed workerID).sub (freedBy victims) := by
  subst same
  rw [reserve, if_pos rfl]
  simp only [freedBy_eq, CommittedResources.sub, CommittedResources.add, Ledger.total, List.map_cons,
    List.sum_cons, CommittedResources.mk.injEq]
  have cancel : ∀ {Amount : Type} [AddCommGroup Amount] (kept own rest : Amount),
      kept + own - (own + rest) = kept - rest := by
    intro Amount _ kept own rest
    rw [add_comm kept, add_sub_add_left_eq_sub]
  exact ⟨cancel _ _ _, cancel _ _ _, cancel _ _ _⟩

/-- A running job gives its capacity back. -/
theorem committed_requeue {jobs : List (Job Cpu Mem)} (distinct : (jobs.map Job.id).Nodup)
    {stop : Preemption × Job Cpu Mem} (victim : Victim jobs stop) :
    committedByWorker jobs = reserve (committedByWorker (jobs.map fun other =>
      if stop.2.id = other.id then requeued stop.1 other else other)) stop.1.workerID
        stop.2.resources := by
  obtain ⟨others, before, after⟩ := committed_change distinct victim.listed (requeued stop.1)
  rw [before, after]
  simp [commitJob, requeued, held, victim.running, victim.assigned]

/-- The snapshot with all victims requeued has the books without what they held. -/
theorem committed_release {jobs : List (Job Cpu Mem)} (distinct : (jobs.map Job.id).Nodup)
    {stops : List (Preemption × Job Cpu Mem)}
    (once : ((stops.map Prod.fst).map Preemption.jobID).Nodup)
    (victims : ∀ stop ∈ stops, Victim jobs stop) (workerID : String) :
    committedByWorker (jobs.map (release (stops.map Prod.fst))) workerID =
      (committedByWorker jobs workerID).sub
        (freedBy ((stops.filter fun stop => stop.1.workerID = workerID).map Prod.snd)) := by
  induction stops generalizing jobs with
  | nil =>
      have same : (release [] : Job Cpu Mem → Job Cpu Mem) = id := rfl
      rw [List.map_nil, same, List.map_id]
      exact (sub_freedBy_nil _).symm
  | cons stop rest ih =>
      have victim := victims stop List.mem_cons_self
      have fresh := (List.nodup_cons.mp once).1
      let first : Job Cpu Mem → Job Cpu Mem := fun other =>
        if stop.2.id = other.id then requeued stop.1 other else other
      have firstID : ∀ other, (first other).id = other.id := by
        intro other
        simp only [first]
        split <;> rfl
      have ids : (jobs.map first).map Job.id = jobs.map Job.id := by
        simp [Function.comp_def, firstID]
      have whole : jobs.map (release ((stop :: rest).map Prod.fst)) =
          (jobs.map first).map (release (rest.map Prod.fst)) := by
        rw [List.map_map]
        refine List.map_congr_left fun other _ => ?_
        rw [List.map_cons, release, amend_cons requeued_id once, ← victim.named]
        rfl
      have later : ∀ other ∈ rest, Victim (jobs.map first) other := by
        intro other member
        obtain ⟨listed, named, running, assigned⟩ := victims other (List.mem_cons_of_mem _ member)
        refine ⟨List.mem_map.mpr ⟨other.2, listed, ?_⟩, named, running, assigned⟩
        refine if_neg fun same => fresh ?_
        rw [← victim.named, same, named]
        exact List.mem_map.mpr ⟨other.1, List.mem_map_of_mem member, rfl⟩
      have before := committed_requeue distinct victim
      rw [whole, ih (ids ▸ distinct) (List.nodup_cons.mp once).2 later]
      by_cases here : stop.1.workerID = workerID
      · rw [List.filter_cons_of_pos (by simpa using here), List.map_cons, before, ← here,
          sub_reserve _ _ _ _ rfl]
      · rw [List.filter_cons_of_neg (by simpa using here), before, reserve, if_neg (Ne.symm here)]

variable [LinearOrder Cpu] [LinearOrder Mem] [IsOrderedAddMonoid Cpu] [IsOrderedAddMonoid Mem]

/-- With less committed, a job that passed the tests still does. -/
theorem fits_freed {worker : Worker Cpu Mem} {job : Job Cpu Mem} {committed : CommittedResources Cpu Mem}
    (fits : Fits worker job committed) {more : List (Job Cpu Mem)}
    (nonneg : ∀ victim ∈ more, NonNegative victim.resources) :
    Fits worker job (committed.sub (freedBy more)) := by
  obtain ⟨cpus, memories, gpus⟩ := fits
  have cpu : 0 ≤ Ledger.total (fun victim => victim.resources.cpuCores) more :=
    Ledger.total_nonneg fun victim member => not_lt.mp (nonneg victim member).1
  have memory : 0 ≤ Ledger.total (fun victim => victim.resources.memoryBytes) more :=
    Ledger.total_nonneg fun victim member => not_lt.mp (nonneg victim member).2
  have gpu : 0 ≤ Ledger.total (fun victim => (victim.resources.gpuCount : Int)) more :=
    Ledger.total_nonneg fun victim _ => Int.natCast_nonneg _
  rw [freedBy_eq]
  refine ⟨fun short => cpus ?_, fun short => memories ?_, fun short => gpus ?_⟩
  · exact lt_of_le_of_lt (sub_le_sub_left (sub_le_self _ cpu) _) short
  · exact lt_of_le_of_lt (sub_le_sub_left (sub_le_self _ memory) _) short
  · exact lt_of_le_of_lt (freeGPUCount_anti _ _ (sub_le_self _ gpu)) short

end Books

/-! ### The next Plan -/

theorem commitPlaced_other [Add Cpu] [Add Mem] {jobs : List (Job Cpu Mem)} {assignments : List Assignment}
    {workerID : String} (elsewhere : ∀ assignment ∈ assignments, assignment.workerID ≠ workerID)
    (committed : Committed Cpu Mem) :
    commitPlaced jobs assignments committed workerID = committed workerID := by
  induction assignments generalizing committed with
  | nil => rfl
  | cons assignment rest ih =>
      have tail := ih fun other member => elsewhere other (List.mem_cons_of_mem _ member)
      have away := elsewhere assignment List.mem_cons_self
      simp only [commitPlaced, List.foldl_cons] at tail ⊢
      cases jobByID jobs assignment.jobID with
      | none => exact tail committed
      | some job => exact (tail _).trans (if_neg (Ne.symm away))

section Next
variable [AddCommGroup Cpu] [LinearOrder Cpu] [AddCommGroup Mem] [LinearOrder Mem]

/-- A worker on which a queued job passes the tests is not left idle: Plan places the
job, or puts one there that is ranked before it. -/
theorem plan_takes_room {jobs : List (Job Cpu Mem)} {workers : List (Worker Cpu Mem)} {now : Time}
    (distinct : (jobs.map Job.id).Nodup) {job : Job Cpu Mem} (listed : job ∈ jobs)
    (queued : job.state = .queued) {worker : Worker Cpu Mem} (known : worker ∈ workers)
    (active : worker.status = .active) (fits : Fits worker job (committedByWorker jobs worker.id)) :
    ∃ assignment ∈ plan jobs workers now, assignment.jobID = job.id ∨
      assignment.workerID = worker.id ∧
        ∃ other ∈ jobs, other.id = assignment.jobID ∧ rank now other < rank now job := by
  by_contra none
  push Not at none
  have unplanned := (unplanned_iff distinct listed queued).mp fun assignment member =>
    (none assignment member).1
  -- Nothing ranked before the job went to the worker, so its books are as they were.
  have books : booksBefore jobs workers now job worker.id = committedByWorker jobs worker.id := by
    refine commitPlaced_other (fun assignment member here => ?_) _
    obtain ⟨isPlanned, before⟩ := List.mem_filter.mp member
    cases found : jobByID jobs assignment.jobID with
    | none => simp [found] at before
    | some other =>
        have inside := List.mem_of_find?_eq_some found
        have named : other.id = assignment.jobID := by simpa using List.find?_some found
        exact not_le.mpr (by simpa [found] using before)
          ((none assignment isPlanned).2 here other inside named)
  refine selectWorker_none_iff.mp unplanned worker known active ?_
  rw [books]
  exact fits

variable {jobs : List (Job Cpu Mem)} {workers : List (Worker Cpu Mem)} {now : Time}

theorem pass_victim (single : SingleWorker jobs) {placed : List Assignment}
    {stop : Preemption × Job Cpu Mem} (member : stop ∈ stops (pass now jobs workers placed)) :
    Victim jobs stop ∧ stop.2.preemptible = true := by
  obtain ⟨turn, among, inside⟩ := List.mem_flatMap.mp member
  cases outcome : turn.outcome with
  | none => simp [outcome] at inside
  | some found =>
      obtain ⟨worker, victims⟩ := found
      simp only [outcome, List.mem_map] at inside
      obtain ⟨victim, taken, rfl⟩ := inside
      obtain ⟨_, shortest⟩ := (pass_outcome among).mp outcome
      obtain ⟨⟨listed, running, preemptible, assigned⟩, _⟩ :=
        mem_eligible.mp (shortest.leads.subset taken)
      obtain ⟨workerID, isOnly⟩ := single victim listed (by rw [running]; rfl)
      obtain rfl : worker.id = workerID := by simpa [isOnly] using assigned
      exact ⟨⟨listed, rfl, running, isOnly⟩, preemptible⟩

theorem stops_planned (placed : List Assignment) :
    (stops (pass now jobs workers placed)).map Prod.fst =
      planPreemptions jobs workers placed now := by
  rw [stops_entries, planPreemptions_pass]

theorem preemptions_once (distinct : (jobs.map Job.id).Nodup) (single : SingleWorker jobs)
    (placed : List Assignment) :
    ((planPreemptions jobs workers placed now).map Preemption.jobID).Nodup := by
  obtain ⟨books, sound, isResult⟩ := planPreemptions_sound distinct single workers placed now
  rw [isResult, sound.named]
  exact sound.once

/-- Assignments are for queued jobs, so they leave the victims alone. -/
theorem settle_running (distinct : (jobs.map Job.id).Nodup) {job : Job Cpu Mem} (listed : job ∈ jobs)
    (running : job.state = .running) : settle (plan jobs workers now) job = job := by
  refine settle_other fun planned => ?_
  obtain ⟨assignment, member, named⟩ := List.mem_map.mp planned
  obtain ⟨other, among, same, queued⟩ := plan_queued member
  obtain rfl := List.inj_on_of_nodup_map distinct among listed (same.trans named)
  rw [running] at queued
  cases queued

/-- A pending job is as it was when the victims are back in the queue. -/
theorem pending_unchanged (distinct : (jobs.map Job.id).Nodup) (single : SingleWorker jobs)
    {pending : Job Cpu Mem} (unplaced : Unplaced jobs (plan jobs workers now) pending) :
    release (planPreemptions jobs workers (plan jobs workers now) now)
      (settle (plan jobs workers now) pending) = pending := by
  obtain ⟨listed, queued, unassigned⟩ := unplaced
  rw [settle_other unassigned]
  refine amend_other fun stopped => ?_
  rw [← stops_planned, List.map_map] at stopped
  obtain ⟨stop, member, named⟩ := List.mem_map.mp stopped
  obtain ⟨victim, _⟩ := pass_victim single member
  have same := List.inj_on_of_nodup_map distinct victim.listed listed (victim.named.trans named)
  rw [← same, victim.running] at queued
  cases queued

variable [IsOrderedAddMonoid Cpu] [IsOrderedAddMonoid Mem]

/-- Once all victims are back in the queue, a job that passes the tests without its own
victims passes them on the books of the new snapshot. -/
theorem room_kept (distinct : (jobs.map Job.id).Nodup) (single : SingleWorker jobs)
    (nonneg : ∀ job ∈ jobs, NonNegative job.resources) {turn : Turn Cpu Mem}
    (member : turn ∈ pass now jobs workers (plan jobs workers now)) {worker : Worker Cpu Mem}
    {victims : List (Job Cpu Mem)} (outcome : turn.outcome = some (worker, victims))
    (fits : Fits worker turn.pending ((turn.books.committed worker.id).sub (freedBy victims))) :
    Fits worker turn.pending (committedByWorker ((jobs.map (settle (plan jobs workers now))).map
      (release (planPreemptions jobs workers (plan jobs workers now) now))) worker.id) := by
  let turns := pass now jobs workers (plan jobs workers now)
  have entries : (stops turns).map Prod.fst =
      planPreemptions jobs workers (plan jobs workers now) now := stops_planned _
  have once : (((stops turns).map Prod.fst).map Preemption.jobID).Nodup := by
    rw [entries]
    exact preemptions_once distinct single _
  have ids : ((jobs.map (settle (plan jobs workers now))).map Job.id).Nodup := by
    simpa [Function.comp_def, settle_id] using distinct
  have present : ∀ stop ∈ stops turns, Victim (jobs.map (settle (plan jobs workers now))) stop := by
    intro stop inside
    obtain ⟨⟨listed, named, running, assigned⟩, _⟩ := pass_victim single inside
    refine ⟨List.mem_map.mpr ⟨stop.2, listed, ?_⟩, named, running, assigned⟩
    exact settle_running distinct listed running
  have books := committed_release ids once present worker.id
  rw [entries, stops_on, committed_settle distinct (plan_once distinct workers now)
    fun _ => plan_queued] at books
  obtain ⟨earlier, later, split⟩ := List.append_of_mem member
  have own : turn.stoppedOn worker.id = victims := by simp [Turn.stoppedOn, outcome]
  have parts : stoppedOn turns worker.id =
      (stoppedOn earlier worker.id ++ victims) ++ stoppedOn later worker.id := by
    simp only [turns, split, stoppedOn, List.flatMap_append, List.flatMap_cons, own,
      List.append_assoc]
  have before := turns_committed split
  rw [books, parts, ← sub_freedBy, ← sub_freedBy]
  rw [before, remaining] at fits
  refine fits_freed fits fun victim inside => ?_
  have stopped : victim ∈ stoppedOn turns worker.id := parts ▸ List.mem_append_right _ inside
  rw [← stops_on] at stopped
  obtain ⟨stop, taken, rfl⟩ := List.mem_map.mp stopped
  exact nonneg _ (pass_victim single (List.mem_of_mem_filter taken)).1.listed

end Next

/-! ### The calls of the round -/

theorem preempt_running {jobs : JobStore.MemoryRepository Cpu Mem} {preemption : Preemption}
    {job : Job Cpu Mem} (found : jobs.find preemption.jobID = some job)
    (running : job.state = .running) (preemptible : job.preemptible = true) :
    preempt jobs preemption.jobID preemption.reason =
      (.ok (halted preemption job), jobs.put preemption.jobID (halted preemption job)) :=
  update_stored found (by simp [preemptUpdate, running, preemptible, halted])

section Calls
variable [AddCommGroup Cpu] [LinearOrder Cpu] [AddCommGroup Mem] [LinearOrder Mem]

/-- The loop over the preemptions, each of a different job that is still running. -/
theorem preempting_alone (preemptionEnabled : Bool) (now : Time) {rest : List Preemption}
    (result : Result) {store : Store Cpu Mem} (keyed : store.jobs.Keyed)
    (once : (rest.map Preemption.jobID).Nodup)
    (running : ∀ preemption ∈ rest, ∃ job, store.jobs.find preemption.jobID = some job ∧
      job.state = .running ∧ job.preemptible = true) :
    ∃ calls after, alone preemptionEnabled now calls (.preempting rest result, store) =
        (.returned { result with preempted := result.preempted + rest.length } none, after) ∧
      after.workers = store.workers ∧ after.decisions = store.decisions ∧
      ∀ id, after.jobs.find id = (store.jobs.find id).map (halt rest) := by
  induction rest generalizing result store with
  | nil => exact ⟨1, store, rfl, rfl, rfl, fun id => Option.map_id'.symm⟩
  | cons preemption rest ih =>
      obtain ⟨job, found, runs, preemptible⟩ := running preemption List.mem_cons_self
      have fresh := (List.nodup_cons.mp once).1
      let next : Store Cpu Mem :=
        { store with jobs := store.jobs.put preemption.jobID (halted preemption job) }
      have later : ∀ other ∈ rest, ∃ job, next.jobs.find other.jobID = some job ∧
          job.state = .running ∧ job.preemptible = true := by
        intro other member
        obtain ⟨victim, stored, stillRuns⟩ := running other (List.mem_cons_of_mem _ member)
        refine ⟨victim, ?_, stillRuns⟩
        rw [find_put, if_neg fun same => fresh (List.mem_map.mpr ⟨other, member, same⟩)]
        exact stored
      obtain ⟨calls, after, ran, workers, decisions, jobs⟩ :=
        ih { result with preempted := result.preempted + 1 }
          (keyed_put halted_id keyed found : next.jobs.Keyed) (List.nodup_cons.mp once).2 later
      refine ⟨calls + 1, after, ?_, workers, decisions, fun id => ?_⟩
      · have preempted : (Pass.preempting (preemption :: rest) result).advance preemptionEnabled now
            store = (.preempting rest { result with preempted := result.preempted + 1 }, next) := by
          simp only [Pass.advance, preempt_running found runs preemptible, next]
        rw [alone_succ, preempted]
        refine ran.trans ?_
        simp [Nat.add_assoc, Nat.add_comm 1]
      · rw [jobs id]
        exact find_amend halted_id keyed once found id

/-- ReportStopped for one victim after the other. -/
theorem reports_run [DecidableEq Sched] (preemptionEnabled : Bool)
    (state : Cluster.State Sched Cpu Mem) (stoppedAt : Time) {rest : List Preemption}
    (keyed : state.store.jobs.Keyed) (once : (rest.map Preemption.jobID).Nodup)
    (stored : ∀ preemption ∈ rest, ∃ job, state.store.jobs.find preemption.jobID = some job) :
    ∃ jobs, run (step preemptionEnabled) state
        (rest.map fun preemption => .call stoppedAt (.reportStopped preemption.jobID)) =
          some { state with store := { state.store with jobs := jobs } } ∧
      ∀ id, jobs.find id = (state.store.jobs.find id).map
        (amend Preemption.jobID rest fun _ => stopped stoppedAt) := by
  induction rest generalizing state with
  | nil => exact ⟨state.store.jobs, rfl, fun id => Option.map_id'.symm⟩
  | cons preemption rest ih =>
      obtain ⟨job, found⟩ := stored preemption List.mem_cons_self
      have fresh := (List.nodup_cons.mp once).1
      have keeps : ∀ (_ : Preemption) (job : Job Cpu Mem), (stopped stoppedAt job).id = job.id :=
        fun _ => stopped_id stoppedAt
      let next : Cluster.State Sched Cpu Mem :=
        { state with
          store := { state.store with
            jobs := state.store.jobs.put preemption.jobID (stopped stoppedAt job) } }
      have stepped : step preemptionEnabled state
          (.call stoppedAt (.reportStopped preemption.jobID)) = some next := by
        have reported : reportStopped state.store.jobs stoppedAt preemption.jobID =
            (.ok (stopped stoppedAt job),
              state.store.jobs.put preemption.jobID (stopped stoppedAt job)) :=
          update_stored found (by rw [reportStoppedUpdate])
        simp only [step, callable, if_true, Op.apply, reported, next]
      have later : ∀ other ∈ rest, ∃ job, next.store.jobs.find other.jobID = some job := by
        intro other member
        obtain ⟨victim, known⟩ := stored other (List.mem_cons_of_mem _ member)
        refine ⟨victim, ?_⟩
        rw [find_put, if_neg fun same => fresh (List.mem_map.mpr ⟨other, member, same⟩)]
        exact known
      obtain ⟨jobs, ran, changed⟩ :=
        ih next (keyed_put keeps keyed found) (List.nodup_cons.mp once).2 later
      refine ⟨jobs, ?_, fun id => ?_⟩
      · rw [List.map_cons]
        exact run_cons.mpr ⟨next, stepped, ran⟩
      · rw [changed id]
        exact find_amend keeps keyed once found id

/-- The job of a planned preemption, as the store has it. -/
theorem preempted_stored {jobs : JobStore.MemoryRepository Cpu Mem} (keyed : jobs.Keyed)
    (single : SingleWorker jobs.listActive) {workers : List (Worker Cpu Mem)}
    {placed : List Assignment} {now : Time} {preemption : Preemption}
    (member : preemption ∈ planPreemptions jobs.listActive workers placed now) :
    ∃ job, jobs.find preemption.jobID = some job ∧ job ∈ jobs.listActive ∧ job.state = .running ∧
      job.preemptible = true := by
  rw [← stops_planned] at member
  obtain ⟨stop, inside, rfl⟩ := List.mem_map.mp member
  obtain ⟨victim, preemptible⟩ := pass_victim single inside
  obtain ⟨⟨key, stored⟩, _⟩ := mem_listActive_iff.mp victim.listed
  refine ⟨stop.2, ?_, victim.listed, victim.running, preemptible⟩
  rw [← victim.named, keyed key stop.2 stored]
  exact stored

/-- A pass that starts when nobody else acts preempts every victim it planned. -/
theorem pass_preempts {pass : Pass Cpu Mem} (waits : pass.between = true) {store : Store Cpu Mem}
    (keyed : store.jobs.Keyed) (single : SingleWorker store.jobs.listActive) (now : Time) :
    let snapshot : Snapshot Cpu Mem := ⟨store.jobs.listActive, store.workers.listActive, now⟩
    let preemptions := planPreemptions snapshot.jobs snapshot.workers snapshot.assignments now
    ∃ calls after, alone true now calls (pass, store) =
        (.returned ⟨snapshot.considered, snapshot.assignments.length, 0, preemptions.length⟩ none,
          after) ∧
      after.workers = store.workers ∧
      ∀ id, after.jobs.find id =
        (store.jobs.find id).map fun job => halt preemptions (settle snapshot.assignments job) := by
  intro snapshot preemptions
  have distinct : (snapshot.jobs.map Job.id).Nodup := listActive_ids_nodup keyed
  obtain ⟨first, assigned, ran, workers, -, jobs⟩ := assigned_alone true waits keyed now
  have keyed' : assigned.jobs.Keyed :=
    (mapped_listing keyed (settle_id _) (fun _ _ => settle_terminal keyed) jobs).1
  have running : ∀ preemption ∈ preemptions, ∃ job,
      assigned.jobs.find preemption.jobID = some job ∧ job.state = .running ∧
        job.preemptible = true := by
    intro preemption member
    obtain ⟨job, found, listed, runs, preemptible⟩ := preempted_stored keyed single member
    refine ⟨job, ?_, runs, preemptible⟩
    rw [jobs, found, Option.map_some]
    exact congrArg some (settle_running distinct listed runs)
  obtain ⟨second, after, preempted, workers', -, halts⟩ := preempting_alone true now
    ⟨snapshot.considered, snapshot.assignments.length, 0, 0⟩ keyed'
    (preemptions_once distinct single snapshot.assignments) running
  refine ⟨first + (second + 1), after, ?_, workers'.trans workers, fun id => ?_⟩
  · rw [alone_add, ran, alone_succ]
    refine preempted.trans ?_
    simp only [Nat.zero_add, preemptions]
  · rw [halts, jobs, Option.map_map]
    rfl

end Calls

/-! ### In every reachable state -/

theorem shaped_single {jobs : JobStore.MemoryRepository Cpu Mem} (shaped : Shaped jobs) :
    SingleWorker jobs.listActive := by
  intro job listed holds
  obtain ⟨⟨key, stored⟩, _⟩ := mem_listActive_iff.mp listed
  have shape := shaped key job stored
  refine List.length_eq_one_iff.mp ?_
  cases state : job.state <;> simp_all [Shape, held]

section Results
variable [DecidableEq Sched] [AddCommGroup Cpu] [LinearOrder Cpu] [AddCommGroup Mem] [LinearOrder Mem]

theorem run_shaped {preemptionEnabled : Bool} {workers : Workers.MemoryRepository Cpu Mem}
    {labels : List (Cluster.Label Sched Cpu Mem)} {state : Cluster.State Sched Cpu Mem}
    (ran : run (step preemptionEnabled) (State.start workers) labels = some state) :
    Shaped state.store.jobs := by
  have kept : ∀ (before : Cluster.State Sched Cpu Mem) label after, Shaped before.store.jobs →
      step preemptionEnabled before label = some after → Shaped after.store.jobs := by
    intro before label after shaped stepped
    cases step_jobs stepped with
    | same unchanged => rwa [unchanged]
    | op now op allowed applied =>
        rw [applied]
        exact apply_shaped shaped (callable_single allowed) now
    | place scheduled assigning applied =>
        rw [applied]
        refine apply_shaped shaped ?_ _
        rfl
  exact run_invariant kept ran empty_shaped

/-- Neither a victim nor a planned job is or becomes terminal. -/
theorem release_terminal {jobs : JobStore.MemoryRepository Cpu Mem} (keyed : jobs.Keyed)
    (single : SingleWorker jobs.listActive) {workers : List (Worker Cpu Mem)} {now : Time} {id : String}
    {old : Job Cpu Mem} (found : jobs.find id = some old) :
    (release (planPreemptions jobs.listActive workers (plan jobs.listActive workers now) now)
      (settle (plan jobs.listActive workers now) old)).state.terminal = old.state.terminal := by
  by_cases stopped : (settle (plan jobs.listActive workers now) old).id ∈
      (planPreemptions jobs.listActive workers (plan jobs.listActive workers now) now).map
        Preemption.jobID
  · obtain ⟨preemption, member, named, released⟩ := amend_listed stopped
    obtain ⟨job, stored, _, running, _⟩ := preempted_stored keyed single member
    rw [named, settle_id, keyed id old found, found] at stored
    rw [release, released, Option.some.inj stored, running]
    rfl
  · rw [release, amend_other stopped]
    exact settle_terminal keyed found

/-- RunOnce with preemption on, and then the reports that its victims have stopped. -/
theorem round_run (state : Cluster.State Sched Cpu Mem) (keyed : state.store.jobs.Keyed)
    (single : SingleWorker state.store.jobs.listActive) (scheduler : Sched)
    (waits : (state.passes scheduler).between = true) (now stoppedAt : Time) :
    let snapshot : Snapshot Cpu Mem :=
      ⟨state.store.jobs.listActive, state.store.workers.listActive, now⟩
    let preemptions := planPreemptions snapshot.jobs snapshot.workers snapshot.assignments now
    ∃ calls after,
      run (step true) state (List.replicate calls (.schedule scheduler now) ++
        preemptions.map fun preemption => .call stoppedAt (.reportStopped preemption.jobID)) =
          some after ∧
      after.passes scheduler =
        .returned ⟨snapshot.considered, snapshot.assignments.length, 0, preemptions.length⟩ none ∧
      after.store.workers = state.store.workers ∧
      ∀ id, after.store.jobs.find id = (state.store.jobs.find id).map fun job =>
        release preemptions (settle snapshot.assignments job) := by
  intro snapshot preemptions
  have distinct : (snapshot.jobs.map Job.id).Nodup := listActive_ids_nodup keyed
  obtain ⟨calls, store, passed, workers, jobs⟩ := pass_preempts waits keyed single now
  let middle : Cluster.State Sched Cpu Mem :=
    { state with
      store := store
      passes := Function.update state.passes scheduler (.returned
        ⟨snapshot.considered, snapshot.assignments.length, 0, preemptions.length⟩ none) }
  have reached : run (step true) state (List.replicate calls (.schedule scheduler now)) =
      some middle := by
    rw [run_alone, passed]
  have keyed' : middle.store.jobs.Keyed := by
    intro id job stored
    obtain ⟨old, found, rfl⟩ := Option.map_eq_some_iff.mp ((jobs id).symm.trans stored)
    exact (amend_id halted_id _ _).trans ((settle_id _ old).trans (keyed id old found))
  have stored : ∀ preemption ∈ preemptions, ∃ job,
      middle.store.jobs.find preemption.jobID = some job := by
    intro preemption member
    obtain ⟨job, found, _⟩ := preempted_stored keyed single member
    exact ⟨_, (jobs preemption.jobID).trans (congrArg (Option.map _) found)⟩
  obtain ⟨final, reported, stops⟩ :=
    reports_run true middle stoppedAt keyed' (preemptions_once distinct single _) stored
  refine ⟨calls, _, (run_append reached _).trans reported, ?_, workers, fun id => ?_⟩
  · exact Function.update_self _ _ _
  · have written : final.find id = (store.jobs.find id).map
        (amend Preemption.jobID preemptions fun _ => stopped stoppedAt) := stops id
    rw [written, jobs, Option.map_map]
    refine congrArg (fun change => Option.map change _) (funext fun job => ?_)
    exact amend_amend halted_id preemptions _

variable [IsOrderedAddMonoid Cpu] [IsOrderedAddMonoid Mem]

/-- From every reachable state: when the victims of an undisturbed pass have stopped, the
next Plan places the job they were stopped for, or puts one on its worker that is ranked
before it. -/
theorem preemption_makes_room (preemptionEnabled : Bool)
    (registrations : List (Registration Cpu Mem)) (labels : List (Cluster.Label Sched Cpu Mem))
    (state : Cluster.State Sched Cpu Mem)
    (ran : run (step preemptionEnabled) (State.start (registerAll registrations)) labels = some state)
    (scheduler : Sched) (waits : (state.passes scheduler).between = true) (now stoppedAt : Time) :
    let snapshot : Snapshot Cpu Mem :=
      ⟨state.store.jobs.listActive, state.store.workers.listActive, now⟩
    let preemptions := planPreemptions snapshot.jobs snapshot.workers snapshot.assignments now
    ∃ calls after,
      run (step true) state (List.replicate calls (.schedule scheduler now) ++
        preemptions.map fun preemption => .call stoppedAt (.reportStopped preemption.jobID)) =
          some after ∧
      after.passes scheduler =
        .returned ⟨snapshot.considered, snapshot.assignments.length, 0, preemptions.length⟩ none ∧
      ∀ turn ∈ pass now snapshot.jobs snapshot.workers snapshot.assignments, ∀ worker victims,
        turn.outcome = some (worker, victims) →
        Fits worker turn.pending ((turn.books.committed worker.id).sub (freedBy victims)) →
        ∀ later,
          ∃ assignment ∈ plan after.store.jobs.listActive after.store.workers.listActive later,
            assignment.jobID = turn.pending.id ∨ assignment.workerID = worker.id ∧
              ∃ other ∈ after.store.jobs.listActive, other.id = assignment.jobID ∧
                rank later other < rank later turn.pending := by
  intro snapshot preemptions
  obtain ⟨decent, _⟩ := run_decent ran
  have single := shaped_single (run_shaped ran)
  have distinct : (snapshot.jobs.map Job.id).Nodup := listActive_ids_nodup decent.keyed
  obtain ⟨calls, after, reached, returned, workers, jobs⟩ :=
    round_run state decent.keyed single scheduler waits now stoppedAt
  obtain ⟨keyed, listing⟩ := mapped_listing decent.keyed
    (fun job => (amend_id requeued_id _ _).trans (settle_id _ job))
    (fun _ _ => release_terminal decent.keyed single) jobs
  refine ⟨calls, after, reached, returned, ?_⟩
  intro turn member worker victims outcome fits later
  have nonneg : ∀ job ∈ snapshot.jobs, NonNegative job.resources := by
    intro job listed
    obtain ⟨⟨key, known⟩, _⟩ := mem_listActive_iff.mp listed
    exact decent.nonneg key job known
  have unplaced := mem_unplacedJobs.mp (turns_pending member)
  have unchanged := pending_unchanged distinct single unplaced
  obtain ⟨before, behind, split, active, _⟩ := ((pass_outcome member).mp outcome).1
  have known : worker ∈ after.store.workers.listActive := by
    have inside : worker ∈ snapshot.workers := split ▸ List.mem_append_right _ List.mem_cons_self
    rw [workers]
    exact inside
  have room := room_kept distinct single nonneg member outcome fits
  rw [List.map_map] at room
  refine plan_takes_room (listActive_ids_nodup keyed) ?_ unplaced.2.1 known active ?_
  · exact listing.mem_iff.mpr (List.mem_map.mpr ⟨turn.pending, unplaced.1, unchanged⟩)
  · rw [committedByWorker_perm listing]
    exact room

end Results

/-- job-1 runs on the only device when job-2, with a higher priority, is submitted. -/
def outrankedLabels : List (Cluster.Label Unit Int Int) :=
  [.call 1 (.submit "job-1" (submission ⟨1, 0, 2, 1024⟩))] ++
    List.replicate 6 (.schedule () 2) ++
    [.call 3 (.start "job-1"),
      .call 4 (.submit "job-2" { submission ⟨1, 0, 2, 1024⟩ with priority := 90 })]

theorem outrankedLabels_placed : ∃ state calls after turn worker victim,
    run (step true) (State.start (registerAll [gpuNode])) outrankedLabels = some state ∧
    run (step true) state (List.replicate calls (.schedule () 5) ++
      [.call 6 (.reportStopped "job-1")]) = some after ∧
    turn ∈ pass 5 state.store.jobs.listActive state.store.workers.listActive [] ∧
    turn.pending.id = "job-2" ∧ turn.outcome = some (worker, [victim]) ∧ victim.id = "job-1" ∧
    ∀ later, ∃ assignment ∈ plan after.store.jobs.listActive after.store.workers.listActive later,
      assignment.jobID = "job-2" ∨ assignment.workerID = "worker-1" ∧
        ∃ other ∈ after.store.jobs.listActive, other.id = assignment.jobID ∧
          rank later other < rank later turn.pending := by
  obtain ⟨calls, after, reached, _, served⟩ :=
    preemption_makes_room true [gpuNode] outrankedLabels _ rfl () rfl 5 6
  exact ⟨_, calls, after, _, _, _, rfl, reached, List.mem_cons_self, rfl, rfl, rfl,
    served _ List.mem_cons_self _ _ rfl ⟨by decide, by decide, by decide⟩⟩

end OrionQueue.PreemptionRound
