import OrionQueue.CapacityRuns
import OrionQueue.SharedBooks

/-!
A RunOnce that nobody disturbs. It returns after finitely many calls on the stores
with every planned assignment written and recorded, and it leaves nothing to do: the
jobs that it left queued fit nowhere, with the capacity it handed out on the books,
so that a further pass plans nothing at whatever time it runs. Preemption is off.
-/

namespace OrionQueue.SettledPass

open Jobs JobService Workers Planner PlannerCapacity PlanOrder PreemptionPass SharedBooks Cluster
open Capacity Runs JobStore.MemoryRepository

variable {Sched Cpu Mem Entry : Type}

/-! ### Writing to several records -/

/-- A record after every entry has been written to the job with its key. -/
def amend (key : Entry → String) (entries : List Entry) (change : Entry → Job Cpu Mem → Job Cpu Mem)
    (job : Job Cpu Mem) : Job Cpu Mem :=
  match entries.find? fun entry => key entry = job.id with
  | none => job
  | some entry => change entry job

section Amend
variable {key : Entry → String} {change other : Entry → Job Cpu Mem → Job Cpu Mem}

theorem amend_other {entries : List Entry} {job : Job Cpu Mem} (absent : job.id ∉ entries.map key) :
    amend key entries change job = job := by
  have none : entries.find? (fun entry => key entry = job.id) = none := by
    refine List.find?_eq_none.mpr fun entry member => ?_
    simpa using fun named => absent (List.mem_map.mpr ⟨entry, member, named⟩)
  simp [amend, none]

theorem amend_listed {entries : List Entry} {job : Job Cpu Mem} (listed : job.id ∈ entries.map key) :
    ∃ entry ∈ entries, key entry = job.id ∧ amend key entries change job = change entry job := by
  obtain ⟨entry, member, named⟩ := List.mem_map.mp listed
  have found : (entries.find? fun entry => key entry = job.id).isSome :=
    List.find?_isSome.mpr ⟨entry, member, decide_eq_true named⟩
  obtain ⟨first, isFirst⟩ := Option.isSome_iff_exists.mp found
  refine ⟨first, List.mem_of_find?_eq_some isFirst, by simpa using List.find?_some isFirst, ?_⟩
  simp [amend, isFirst]

variable (keeps : ∀ entry (job : Job Cpu Mem), (change entry job).id = job.id)
include keeps

theorem amend_id (entries : List Entry) (job : Job Cpu Mem) :
    (amend key entries change job).id = job.id := by
  unfold amend
  split
  · rfl
  · exact keeps _ job

/-- Writing the first entry and then the others. -/
theorem amend_cons {entry : Entry} {rest : List Entry} (once : ((entry :: rest).map key).Nodup)
    (job : Job Cpu Mem) :
    amend key (entry :: rest) change job =
      amend key rest change (if key entry = job.id then change entry job else job) := by
  by_cases named : key entry = job.id
  · have later : (change entry job).id ∉ rest.map key := by
      rw [keeps, ← named]
      exact (List.nodup_cons.mp once).1
    rw [if_pos named, amend_other later]
    simp [amend, named]
  · simp [amend, named]

/-- Writing the same entries twice. -/
theorem amend_amend (entries : List Entry) (job : Job Cpu Mem) :
    amend key entries other (amend key entries change job) =
      amend key entries (fun entry job => other entry (change entry job)) job := by
  cases found : entries.find? fun entry => key entry = job.id with
  | none => simp [amend, found]
  | some entry => simp [amend, found, keeps]

/-- One entry is written to the store, the others still have to be. -/
theorem find_amend {jobs : JobStore.MemoryRepository Cpu Mem} (keyed : jobs.Keyed) {entry : Entry}
    {rest : List Entry} (once : ((entry :: rest).map key).Nodup) {job : Job Cpu Mem}
    (found : jobs.find (key entry) = some job) (id : String) :
    ((jobs.put (key entry) (change entry job)).find id).map (amend key rest change) =
      (jobs.find id).map (amend key (entry :: rest) change) := by
  rw [find_put]
  by_cases own : id = key entry
  · subst own
    have named := keyed (key entry) job found
    rw [if_pos rfl, found, Option.map_some, Option.map_some, amend_cons keeps once,
      if_pos named.symm]
  · rw [if_neg own]
    cases stored : jobs.find id with
    | none => rfl
    | some record =>
        have named : record.id = id := keyed id record stored
        rw [Option.map_some, Option.map_some, amend_cons keeps once, if_neg]
        exact fun same => own (named.symm.trans same.symm)

theorem keyed_put {jobs : JobStore.MemoryRepository Cpu Mem} (keyed : jobs.Keyed) {entry : Entry}
    {job : Job Cpu Mem} (found : jobs.find (key entry) = some job) :
    (jobs.put (key entry) (change entry job)).Keyed := by
  intro id record stored
  have looked := find_put jobs (key entry) id (change entry job)
  rw [find] at looked
  rw [looked] at stored
  split at stored
  case isTrue own =>
    cases stored
    rw [own, keeps]
    exact keyed (key entry) job found
  case isFalse => exact keyed id record stored

end Amend

/-! ### Assignments -/

def placed (workerID : String) (job : Job Cpu Mem) : Job Cpu Mem :=
  { job with state := .scheduled, assignedWorkerIDs := [workerID] }

/-- A job after the assignments have been written. -/
def settle (assignments : List Assignment) (job : Job Cpu Mem) : Job Cpu Mem :=
  match assignments.find? fun assignment => assignment.jobID = job.id with
  | none => job
  | some assignment => placed assignment.workerID job

theorem settle_eq (assignments : List Assignment) :
    (settle assignments : Job Cpu Mem → Job Cpu Mem) =
      amend Assignment.jobID assignments fun assignment => placed assignment.workerID := by
  funext job
  unfold settle amend
  cases assignments.find? fun assignment => assignment.jobID = job.id <;> rfl

theorem placed_id (assignment : Assignment) (job : Job Cpu Mem) :
    (placed assignment.workerID job).id = job.id := rfl

theorem settle_id (assignments : List Assignment) (job : Job Cpu Mem) :
    (settle assignments job).id = job.id := by
  rw [settle_eq]
  exact amend_id placed_id assignments job

theorem settle_other {assignments : List Assignment} {job : Job Cpu Mem}
    (absent : job.id ∉ assignments.map Assignment.jobID) : settle assignments job = job := by
  rw [settle_eq]
  exact amend_other absent

theorem commitPlaced_congr [Add Cpu] [Add Mem] {jobs others : List (Job Cpu Mem)} {assignments : List Assignment}
    (same : ∀ assignment ∈ assignments,
      (jobByID jobs assignment.jobID).map Job.resources =
        (jobByID others assignment.jobID).map Job.resources) (committed : Committed Cpu Mem) :
    commitPlaced jobs assignments committed = commitPlaced others assignments committed := by
  induction assignments generalizing committed with
  | nil => rfl
  | cons assignment rest ih =>
      have tail := ih fun other member => same other (List.mem_cons_of_mem _ member)
      have first := same assignment List.mem_cons_self
      simp only [commitPlaced, List.foldl_cons] at tail ⊢
      cases left : jobByID jobs assignment.jobID with
      | none =>
          rw [left, Option.map_none, eq_comm, Option.map_eq_none_iff] at first
          rw [first]
          exact tail committed
      | some job =>
          rw [left, Option.map_some, eq_comm, Option.map_eq_some_iff] at first
          obtain ⟨other, right, resources⟩ := first
          rw [right]
          simp only [resources]
          exact tail _

section Commitments
variable [AddCommMonoid Cpu] [AddCommMonoid Mem]

/-- The commitments of a snapshot in which one job changes: those of the other jobs,
and then those of that job before and after. -/
theorem committed_change {jobs : List (Job Cpu Mem)} (distinct : (jobs.map Job.id).Nodup)
    {job : Job Cpu Mem} (listed : job ∈ jobs) (change : Job Cpu Mem → Job Cpu Mem) :
    ∃ others : Committed Cpu Mem, committedByWorker jobs = commitJob others job ∧
      committedByWorker (jobs.map fun other => if job.id = other.id then change other else other) =
        commitJob others (change job) := by
  obtain ⟨before, after, rfl⟩ := List.append_of_mem listed
  have apart : ∀ other ∈ before ++ after, job.id ≠ other.id := by
    intro other member named
    rw [List.map_append, List.map_cons, List.nodup_middle, ← List.map_append] at distinct
    exact (List.nodup_cons.mp distinct).1 (List.mem_map.mpr ⟨other, member, named.symm⟩)
  have kept : ∀ part ⊆ before ++ after,
      (part.map fun other => if job.id = other.id then change other else other) = part := by
    intro part inside
    exact (List.map_congr_left fun other member => if_neg (apart other (inside member))).trans
      (List.map_id part)
  -- Commitments do not depend on the order, so the job may be looked at last.
  have moved : ∀ last : Job Cpu Mem, committedByWorker (before ++ last :: after) =
      commitJob (committedByWorker (before ++ after)) last := by
    intro last
    rw [committedByWorker_perm (List.perm_middle.trans (List.perm_append_singleton _ _).symm)]
    simp [committedByWorker]
  refine ⟨committedByWorker (before ++ after), moved job, ?_⟩
  rw [List.map_append, List.map_cons, kept before (List.subset_append_left _ _),
    kept after (List.subset_append_right _ _), if_pos rfl, moved]

/-- One queued job becomes a placed one. -/
theorem committed_place {jobs : List (Job Cpu Mem)} (distinct : (jobs.map Job.id).Nodup)
    {job : Job Cpu Mem} (listed : job ∈ jobs) (queued : job.state = .queued) (workerID : String) :
    committedByWorker (jobs.map fun other =>
        if job.id = other.id then placed workerID other else other) =
      reserve (committedByWorker jobs) workerID job.resources := by
  obtain ⟨others, before, after⟩ := committed_change distinct listed (placed workerID)
  rw [before, after]
  simp [commitJob, placed, held, queued]

/-- The snapshot with the assignments written has the books that PlanPreemptions
makes up from the assignments. -/
theorem committed_settle {jobs : List (Job Cpu Mem)} (distinct : (jobs.map Job.id).Nodup)
    {assignments : List Assignment} (once : (assignments.map Assignment.jobID).Nodup)
    (queued : ∀ assignment ∈ assignments, ∃ job ∈ jobs, job.id = assignment.jobID ∧
      job.state = .queued) :
    committedByWorker (jobs.map (settle assignments)) =
      commitPlaced jobs assignments (committedByWorker jobs) := by
  induction assignments generalizing jobs with
  | nil =>
      have same : jobs.map (settle []) = jobs := List.map_id jobs
      rw [same]
      rfl
  | cons assignment rest ih =>
      obtain ⟨job, listed, named, waits⟩ := queued assignment List.mem_cons_self
      let first : Job Cpu Mem → Job Cpu Mem := fun other =>
        if job.id = other.id then placed assignment.workerID other else other
      have firstID : ∀ other, (first other).id = other.id := by
        intro other
        simp only [first]
        split <;> rfl
      have ids : (jobs.map first).map Job.id = jobs.map Job.id := by
        simp [Function.comp_def, firstID]
      have whole : jobs.map (settle (assignment :: rest)) = (jobs.map first).map (settle rest) := by
        rw [List.map_map]
        refine List.map_congr_left fun other _ => ?_
        rw [settle_eq, amend_cons placed_id once, ← named, ← settle_eq]
        rfl
      have fresh := (List.nodup_cons.mp once).1
      have later : ∀ other ∈ rest, ∃ job ∈ jobs.map first, job.id = other.jobID ∧
          job.state = .queued := by
        intro other member
        obtain ⟨waiting, among, isNamed, isQueued⟩ := queued other (List.mem_cons_of_mem _ member)
        refine ⟨waiting, List.mem_map.mpr ⟨waiting, among, ?_⟩, isNamed, isQueued⟩
        refine if_neg fun same => fresh (List.mem_map.mpr ⟨other, member, ?_⟩)
        rw [← named, same, isNamed]
      have resources : ∀ other ∈ rest, (jobByID (jobs.map first) other.jobID).map Job.resources =
          (jobByID jobs other.jobID).map Job.resources := by
        intro other _
        rw [jobByID, List.find?_map, Option.map_map, jobByID]
        simp only [Function.comp_def, firstID]
        refine congrArg (fun change => Option.map change _) (funext fun found => ?_)
        simp only [first]
        split <;> rfl
      rw [whole, ih (ids ▸ distinct) (List.nodup_cons.mp once).2 later,
        commitPlaced_congr resources, committed_place distinct listed waits]
      simp only [commitPlaced, List.foldl_cons]
      rw [← named, Devices.jobByID_listed distinct listed]

end Commitments

section Books
variable [AddCommGroup Cpu] [LinearOrder Cpu] [AddCommGroup Mem] [LinearOrder Mem]

theorem plan_once {jobs : List (Job Cpu Mem)} (distinct : (jobs.map Job.id).Nodup)
    (workers : List (Worker Cpu Mem)) (now : Time) :
    ((plan jobs workers now).map Assignment.jobID).Nodup := by
  have order : ((planned jobs workers now).map Prod.fst).Sublist (queue jobs now) :=
    placements_sublist _ _
  have ids : (plan jobs workers now).map Assignment.jobID =
      ((planned jobs workers now).map Prod.fst).map Job.id := by
    simp [plan, Function.comp_def]
  rw [ids]
  refine List.Nodup.sublist (order.map Job.id) ?_
  rw [queue, sortByEffectivePriority,
    ((List.perm_insertionSort _ _).map Job.id).nodup_iff]
  exact queued_distinct distinct

theorem plan_queued {jobs : List (Job Cpu Mem)} {workers : List (Worker Cpu Mem)} {now : Time}
    {assignment : Assignment} (member : assignment ∈ plan jobs workers now) :
    ∃ job ∈ jobs, job.id = assignment.jobID ∧ job.state = .queued := by
  obtain ⟨chosen, isPlanned, rfl⟩ := List.mem_map.mp member
  obtain ⟨listed, queued⟩ := mem_planned isPlanned
  exact ⟨chosen.1, listed, rfl, queued⟩

variable [IsOrderedAddMonoid Cpu] [IsOrderedAddMonoid Mem]

end Books

/-! ### The calls of one pass -/

def decided (assignment : Assignment) : RecordedDecision :=
  ⟨assignment.jobID, assignment.workerID, assignment.reason⟩

theorem assign_queued {jobs : JobStore.MemoryRepository Cpu Mem} {id workerID : String}
    {job : Job Cpu Mem} (found : jobs.find id = some job) (queued : job.state = .queued) :
    assignToWorkers jobs id [workerID] = (.ok (placed workerID job), jobs.put id (placed workerID job)) :=
  update_stored found (by simp [assignUpdate, queued, placed])

/-- The listing of a store whose records have changed, none of them becoming or
ceasing to be terminal. -/
theorem mapped_listing {before after : JobStore.MemoryRepository Cpu Mem} (keyed : before.Keyed)
    {change : Job Cpu Mem → Job Cpu Mem} (ids : ∀ job, (change job).id = job.id)
    (terminal : ∀ id old, before.find id = some old →
      (change old).state.terminal = old.state.terminal)
    (changed : ∀ id, after.find id = (before.find id).map change) :
    after.Keyed ∧ after.listActive.Perm (before.listActive.map change) := by
  have keyed' : after.Keyed := by
    intro id job stored
    obtain ⟨old, found, rfl⟩ := Option.map_eq_some_iff.mp ((changed id).symm.trans stored)
    exact (ids old).trans (keyed id old found)
  refine ⟨keyed', (List.perm_ext_iff_of_nodup ?_ ?_).mpr fun job => ?_⟩
  · exact List.Nodup.of_map Job.id (listActive_ids_nodup keyed')
  · refine List.Nodup.of_map Job.id ?_
    simpa [Function.comp_def, ids] using listActive_ids_nodup keyed
  · rw [List.mem_map, mem_listActive_iff]
    constructor
    · rintro ⟨⟨id, stored⟩, active⟩
      obtain ⟨old, found, rfl⟩ := Option.map_eq_some_iff.mp ((changed id).symm.trans stored)
      exact ⟨old, mem_listActive_iff.mpr ⟨⟨id, found⟩, terminal id old found ▸ active⟩, rfl⟩
    · rintro ⟨old, listed, rfl⟩
      obtain ⟨⟨id, found⟩, active⟩ := mem_listActive_iff.mp listed
      exact ⟨⟨id, by rw [changed, found]; rfl⟩, (terminal id old found).trans active⟩

section Calls
variable [AddCommGroup Cpu] [LinearOrder Cpu] [AddCommGroup Mem] [LinearOrder Mem]

/-- One call of the pass after the other, with nobody in between. -/
def alone (preemptionEnabled : Bool) (now : Time) (calls : Nat)
    (position : Pass Cpu Mem × Store Cpu Mem) : Pass Cpu Mem × Store Cpu Mem :=
  (fun current => current.1.advance preemptionEnabled now current.2)^[calls] position

theorem alone_succ {preemptionEnabled : Bool} (now : Time) (calls : Nat) (position : Pass Cpu Mem × Store Cpu Mem) :
    alone preemptionEnabled now (calls + 1) position =
      alone preemptionEnabled now calls (position.1.advance preemptionEnabled now position.2) :=
  Function.iterate_succ_apply _ _ _

theorem alone_add {preemptionEnabled : Bool} (now : Time) (first second : Nat) (position : Pass Cpu Mem × Store Cpu Mem) :
    alone preemptionEnabled now (first + second) position =
      alone preemptionEnabled now second (alone preemptionEnabled now first position) := by
  rw [Nat.add_comm]
  exact Function.iterate_add_apply _ _ _ _

theorem run_alone [DecidableEq Sched] (preemptionEnabled : Bool)
    (state : Cluster.State Sched Cpu Mem) (scheduler : Sched) (now : Time) (calls : Nat) :
    run (step preemptionEnabled) state (List.replicate calls (.schedule scheduler now)) =
      some { state with
        store := (alone preemptionEnabled now calls (state.passes scheduler, state.store)).2
        passes := Function.update state.passes scheduler
          (alone preemptionEnabled now calls (state.passes scheduler, state.store)).1 } := by
  induction calls generalizing state with
  | zero => simp [run, alone]
  | succ calls ih =>
      rw [List.replicate_succ, run, step, Option.bind_some, ih]
      simp only [Function.update_self, Function.update_idem, alone_succ]

/-- The loop over the assignments, each of a different job that is still queued. -/
theorem assigning_alone (preemptionEnabled : Bool) (now : Time) (snapshot : Snapshot Cpu Mem)
    {rest : List Assignment} (result : Result) {store : Store Cpu Mem} (keyed : store.jobs.Keyed)
    (once : (rest.map Assignment.jobID).Nodup)
    (queued : ∀ assignment ∈ rest, ∃ job, store.jobs.find assignment.jobID = some job ∧
      job.state = .queued) :
    ∃ calls after, alone preemptionEnabled now calls (.assigning snapshot rest result, store) =
        (.assigning snapshot [] { result with assigned := result.assigned + rest.length }, after) ∧
      after.workers = store.workers ∧ after.decisions = store.decisions ++ rest.map decided ∧
      ∀ id, after.jobs.find id = (store.jobs.find id).map (settle rest) := by
  induction rest generalizing result store with
  | nil => exact ⟨0, store, rfl, rfl, (List.append_nil _).symm, fun id => Option.map_id'.symm⟩
  | cons assignment rest ih =>
      obtain ⟨job, found, waits⟩ := queued assignment List.mem_cons_self
      have fresh := (List.nodup_cons.mp once).1
      -- The store after the call that assigns and the call that records.
      let next : Store Cpu Mem :=
        { store with
          jobs := store.jobs.put assignment.jobID (placed assignment.workerID job)
          decisions := store.decisions ++ [decided assignment] }
      have keyed' : next.jobs.Keyed := keyed_put placed_id keyed found
      have later : ∀ other ∈ rest, ∃ job, next.jobs.find other.jobID = some job ∧
          job.state = .queued := by
        intro other member
        obtain ⟨waiting, stored, isQueued⟩ := queued other (List.mem_cons_of_mem _ member)
        refine ⟨waiting, ?_, isQueued⟩
        rw [find_put, if_neg fun same => fresh (List.mem_map.mpr ⟨other, member, same⟩)]
        exact stored
      obtain ⟨calls, after, ran, workers, decisions, jobs⟩ :=
        ih { result with assigned := result.assigned + 1 } keyed' (List.nodup_cons.mp once).2 later
      refine ⟨calls + 1 + 1, after, ?_, workers, ?_, fun id => ?_⟩
      · have assigned : (Pass.assigning snapshot (assignment :: rest) result).advance
            preemptionEnabled now store =
              (.recording snapshot assignment rest { result with assigned := result.assigned + 1 },
                { store with
                  jobs := store.jobs.put assignment.jobID (placed assignment.workerID job) }) := by
          simp only [Pass.advance, assign_queued found waits]
        rw [alone_succ, alone_succ, assigned]
        refine ran.trans ?_
        simp [Nat.add_assoc, Nat.add_comm 1]
      · simp [decisions, next]
      · rw [jobs id, settle_eq, settle_eq]
        exact find_amend placed_id keyed once found id

/-- A pass that starts when nobody else acts writes and records everything it planned. -/
theorem assigned_alone (preemptionEnabled : Bool) {pass : Pass Cpu Mem}
    (waits : pass.between = true) {store : Store Cpu Mem} (keyed : store.jobs.Keyed) (now : Time) :
    let snapshot : Snapshot Cpu Mem := ⟨store.jobs.listActive, store.workers.listActive, now⟩
    ∃ calls after, alone preemptionEnabled now calls (pass, store) =
        (.assigning snapshot [] ⟨snapshot.considered, snapshot.assignments.length, 0, 0⟩, after) ∧
      after.workers = store.workers ∧
      after.decisions = store.decisions ++ snapshot.assignments.map decided ∧
      ∀ id, after.jobs.find id = (store.jobs.find id).map (settle snapshot.assignments) := by
  intro snapshot
  have distinct := listActive_ids_nodup keyed
  have queued : ∀ assignment ∈ snapshot.assignments, ∃ job,
      store.jobs.find assignment.jobID = some job ∧ job.state = .queued := by
    intro assignment member
    obtain ⟨job, listed, named, isQueued⟩ := plan_queued member
    obtain ⟨⟨key, stored⟩, _⟩ := mem_listActive_iff.mp listed
    exact ⟨job, by rwa [← named, keyed key job stored], isQueued⟩
  obtain ⟨calls, after, ran, workers, decisions, jobs⟩ :=
    assigning_alone preemptionEnabled now snapshot ⟨snapshot.considered, 0, 0, 0⟩ keyed
      (plan_once distinct store.workers.listActive now) queued
  refine ⟨calls + 1 + 1, after, ?_, workers, decisions, jobs⟩
  have listed : pass.advance preemptionEnabled now store =
      (.listedJobs store.jobs.listActive, store) := by
    cases pass <;> first | rfl | simp [Pass.between] at waits
  calc alone preemptionEnabled now (calls + 1 + 1) (pass, store)
      = alone preemptionEnabled now calls (.assigning snapshot snapshot.assignments
          ⟨snapshot.considered, 0, 0, 0⟩, store) := by
        rw [alone_succ, listed, alone_succ]
        rfl
    _ = (.assigning snapshot [] ⟨snapshot.considered, snapshot.assignments.length, 0, 0⟩, after) := by
        rw [Nat.zero_add] at ran
        exact ran

/-- Only a listed job, which is not terminal, is planned. -/
theorem settle_terminal {jobs : JobStore.MemoryRepository Cpu Mem} (keyed : jobs.Keyed)
    {workers : List (Worker Cpu Mem)} {now : Time} {id : String} {old : Job Cpu Mem}
    (found : jobs.find id = some old) :
    (settle (plan jobs.listActive workers now) old).state.terminal = old.state.terminal := by
  by_cases planned : old.id ∈ (plan jobs.listActive workers now).map Assignment.jobID
  · obtain ⟨assignment, member, named, settled⟩ := amend_listed planned
    obtain ⟨job, listed, same, queued⟩ := plan_queued member
    obtain ⟨⟨key, stored⟩, _⟩ := mem_listActive_iff.mp listed
    have here : key = id := by
      rw [← keyed key job stored, ← keyed id old found, same, named]
    obtain rfl : job = old := Option.some.inj (stored.symm.trans (here ▸ found))
    rw [settle_eq, settled, queued]
    rfl
  · rw [settle_other planned]

end Calls

/-! ### In every reachable state -/

section Results
variable [DecidableEq Sched] [AddCommGroup Cpu] [LinearOrder Cpu] [AddCommGroup Mem] [LinearOrder Mem]

theorem run_decent {preemptionEnabled : Bool} {registrations : List (Registration Cpu Mem)}
    {labels : List (Cluster.Label Sched Cpu Mem)} {state : Cluster.State Sched Cpu Mem}
    (ran : run (step preemptionEnabled) (State.start (registerAll registrations)) labels = some state) :
    Decent state.store.jobs ∧ Admissible state.store.workers := by
  have kept : ∀ (before : Cluster.State Sched Cpu Mem) label after,
      Decent before.store.jobs ∧ Admissible before.store.workers →
        step preemptionEnabled before label = some after →
        Decent after.store.jobs ∧ Admissible after.store.workers := by
    rintro before label after ⟨decent, admissible⟩ stepped
    exact ⟨CapacityRuns.effect_decent decent (step_jobs stepped),
      CapacityRuns.admissible_kept admissible (step_workers stepped)⟩
  refine run_invariant kept ran ⟨?_, registerAll_admissible registrations⟩
  exact ⟨Tables.keyed_empty Job.id, fun _ _ found => by simp [State.start] at found,
    fun _ _ found => by simp [State.start] at found⟩

variable [IsOrderedAddMonoid Cpu] [IsOrderedAddMonoid Mem]

end Results

/-- Two jobs wait for the one device when the second scheduler has its turn; the first
one has taken its listings and stands still. -/
def waitingLabels : List (Cluster.Label Bool Int Int) :=
  [.call 1 (.submit "job-1" (submission ⟨1, 0, 2, 1024⟩)),
    .call 2 (.submit "job-2" (submission ⟨1, 0, 2, 1024⟩)), .schedule false 3, .schedule false 3]

end OrionQueue.SettledPass
