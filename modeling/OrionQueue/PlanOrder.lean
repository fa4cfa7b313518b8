import OrionQueue.Devices
import OrionQueue.Fairness

/-!
Plan as a whole. The queue has one order, by rank, and a job is decided with the
books that the jobs ranked before it have left; a job ranked behind it has no
say. From this follow who is left out, where the others go, and that the order of
the snapshot does not matter.
-/

namespace OrionQueue.PlanOrder

open Jobs Workers Planner PlannerCapacity Devices Fairness

variable {Cpu Mem Amount : Type}

theorem rank_determines {now : Time} {left right : Job Cpu Mem}
    (same : rank now left = rank now right) : left.id = right.id :=
  congrArg (fun place => (ofLex (ofLex place).2).2) same

theorem ranks_distinct {jobs : List (Job Cpu Mem)} (distinct : (jobs.map Job.id).Nodup) (now : Time) :
    (jobs.map (rank now)).Nodup :=
  List.pairwise_map.mpr ((List.pairwise_map.mp distinct).imp fun apart same =>
    apart (rank_determines same))

theorem queued_distinct {activeJobs : List (Job Cpu Mem)} (distinct : (activeJobs.map Job.id).Nodup) :
    ((activeJobs.filter fun job => job.state = .queued).map Job.id).Nodup :=
  distinct.sublist (List.filter_sublist.map Job.id)

theorem queue_eq (activeJobs : List (Job Cpu Mem)) (now : Time) :
    queue activeJobs now =
      Keyset.sortBy (rank now) (activeJobs.filter fun job => job.state = .queued) :=
  sortByEffectivePriority_eq now _

theorem queue_sorted {activeJobs : List (Job Cpu Mem)} (distinct : (activeJobs.map Job.id).Nodup)
    (now : Time) :
    (queue activeJobs now).Pairwise fun left right => rank now left < rank now right := by
  rw [queue_eq]
  exact Keyset.sortBy_strict (ranks_distinct (queued_distinct distinct) now)

/-- The queued jobs ranked before the job, as Plan goes through them. -/
def rankedBefore (activeJobs : List (Job Cpu Mem)) (now : Time) (job : Job Cpu Mem) :
    List (Job Cpu Mem) :=
  (queue activeJobs now).filter fun other => rank now other < rank now job

theorem queue_around {activeJobs : List (Job Cpu Mem)} (distinct : (activeJobs.map Job.id).Nodup)
    (now : Time) {job : Job Cpu Mem} (listed : job ∈ activeJobs) (queued : job.state = .queued) :
    ∃ after, queue activeJobs now = rankedBefore activeJobs now job ++ job :: after ∧
      ∀ other ∈ after, rank now job < rank now other :=
  Keyset.sorted_around (queue_sorted distinct now) (mem_queue.mpr ⟨listed, queued⟩)

section Selection
variable [Sub Cpu] [LT Cpu] [DecidableLT Cpu]
variable [Sub Mem] [LT Mem] [DecidableLT Mem] [LE Mem] [DecidableLE Mem]

/-- The three tests of `selectWorker`, with what is committed on the worker. -/
def Fits (worker : Worker Cpu Mem) (job : Job Cpu Mem) (books : CommittedResources Cpu Mem) : Prop :=
  ¬ worker.cpuCapacity - books.cpuCores < job.resources.cpuCores ∧
    ¬ worker.memoryCapacityBytes - books.memoryBytes < job.resources.memoryBytes ∧
    ¬ freeGPUCount worker job.resources.minGPUMemoryBytes books.gpuCount < job.resources.gpuCount

/-- The qualifying GPUs that the job would leave free. -/
def leftover (worker : Worker Cpu Mem) (job : Job Cpu Mem) (books : CommittedResources Cpu Mem) : Int :=
  freeGPUCount worker job.resources.minGPUMemoryBytes books.gpuCount - job.resources.gpuCount

theorem candidate_eq_some_iff {job : Job Cpu Mem} {committed : Committed Cpu Mem}
    {worker : Worker Cpu Mem} {found : Candidate} :
    candidate job committed worker = some found ↔
      worker.status = .active ∧ Fits worker job (committed worker.id) ∧
        found = ⟨worker.id, leftover worker job (committed worker.id)⟩ := by
  unfold candidate Fits leftover
  by_cases active : worker.status = .active
  · split_ifs <;> simp_all [eq_comm]
  · simp [active]

def candidateKey (found : Candidate) : Int ×ₗ String := toLex (found.surplus, found.workerID)

theorem candidateLess_iff (left right : Candidate) :
    candidateLess right left = false ↔ candidateKey left ≤ candidateKey right :=
  Keyset.lexLess_iff (by rw [decide_eq_false_iff_not, not_lt])

variable {job : Job Cpu Mem} {activeWorkers : List (Worker Cpu Mem)} {committed : Committed Cpu Mem}

theorem selectWorker_eq : selectWorker job activeWorkers committed =
    (Keyset.sortBy candidateKey (activeWorkers.filterMap (candidate job committed))).head?.map
      Candidate.workerID := by
  rw [selectWorker, Keyset.insertionSort_eq_sortBy candidateLess_iff]

theorem selectWorker_none_iff : selectWorker job activeWorkers committed = none ↔
    ∀ worker ∈ activeWorkers, worker.status = .active → ¬ Fits worker job (committed worker.id) := by
  rw [selectWorker_eq, Option.map_eq_none_iff, Keyset.sortBy_head_none, List.filterMap_eq_nil_iff]
  refine forall₂_congr fun worker _ => ?_
  rw [Option.eq_none_iff_forall_ne_some]
  simp only [ne_eq, candidate_eq_some_iff]
  exact ⟨fun refused active fits => refused _ ⟨active, fits, rfl⟩,
    fun refused _ passed => refused passed.1 passed.2.1⟩

/-- No worker that passes the tests has fewer GPUs to spare, or as many and a
smaller ID. -/
theorem selectWorker_best {workerID : String}
    (selected : selectWorker job activeWorkers committed = some workerID) :
    ∃ worker ∈ activeWorkers, worker.id = workerID ∧ worker.status = .active ∧
      Fits worker job (committed worker.id) ∧
      ∀ other ∈ activeWorkers, other.status = .active → Fits other job (committed other.id) →
        toLex (leftover worker job (committed worker.id), worker.id) ≤
          toLex (leftover other job (committed other.id), other.id) := by
  rw [selectWorker_eq] at selected
  obtain ⟨best, leads, rfl⟩ := Option.map_eq_some_iff.mp selected
  obtain ⟨member, least⟩ := Keyset.sortBy_head leads
  obtain ⟨worker, listed, eligible⟩ := List.mem_filterMap.mp member
  obtain ⟨active, fits, rfl⟩ := candidate_eq_some_iff.mp eligible
  refine ⟨worker, listed, rfl, active, fits, fun other among active' fits' => ?_⟩
  exact least _ (List.mem_filterMap.mpr ⟨other, among, candidate_eq_some_iff.mpr ⟨active', fits', rfl⟩⟩)

/-- The choice does not depend on the order of the workers. -/
theorem selectWorker_perm {others : List (Worker Cpu Mem)} (same : activeWorkers.Perm others) :
    selectWorker job activeWorkers committed = selectWorker job others committed := by
  cases selected : selectWorker job activeWorkers committed with
  | none =>
      have refused := selectWorker_none_iff.mp selected
      refine (selectWorker_none_iff.mpr fun worker listed => ?_).symm
      exact refused worker (same.mem_iff.mpr listed)
  | some workerID =>
      obtain ⟨worker, listed, isID, active, fits, least⟩ := selectWorker_best selected
      cases selected' : selectWorker job others committed with
      | none =>
          have unfit := selectWorker_none_iff.mp selected' worker (same.mem_iff.mp listed) active
          exact absurd fits unfit
      | some workerID' =>
          obtain ⟨worker', listed', isID', active', fits', least'⟩ := selectWorker_best selected'
          have tied := le_antisymm (least worker' (same.mem_iff.mpr listed') active' fits')
            (least' worker (same.mem_iff.mp listed) active fits)
          rw [← isID, ← isID']
          exact congrArg (fun key => some (ofLex key).2) tied

end Selection

section Loop
variable [Add Cpu] [Sub Cpu] [LT Cpu] [DecidableLT Cpu]
variable [Add Mem] [Sub Mem] [LT Mem] [DecidableLT Mem] [LE Mem] [DecidableLE Mem]

/-- What is committed after Plan's loop has been through the jobs. -/
def booksAfter (activeWorkers : List (Worker Cpu Mem)) :
    List (Job Cpu Mem) → Committed Cpu Mem → Committed Cpu Mem
  | [], committed => committed
  | job :: rest, committed =>
      match selectWorker job activeWorkers committed with
      | none => booksAfter activeWorkers rest committed
      | some workerID => booksAfter activeWorkers rest (reserve committed workerID job.resources)

variable {activeWorkers : List (Worker Cpu Mem)}

theorem placements_append (earlier later : List (Job Cpu Mem)) (committed : Committed Cpu Mem) :
    placements activeWorkers (earlier ++ later) committed =
      placements activeWorkers earlier committed ++
        placements activeWorkers later (booksAfter activeWorkers earlier committed) := by
  induction earlier generalizing committed with
  | nil => rfl
  | cons job rest ih =>
      simp only [List.cons_append, placements, booksAfter]
      cases selectWorker job activeWorkers committed with
      | none => exact ih committed
      | some workerID => exact congrArg (List.cons _) (ih _)

theorem booksAfter_append (earlier later : List (Job Cpu Mem)) (committed : Committed Cpu Mem) :
    booksAfter activeWorkers (earlier ++ later) committed =
      booksAfter activeWorkers later (booksAfter activeWorkers earlier committed) := by
  induction earlier generalizing committed with
  | nil => rfl
  | cons job rest ih =>
      simp only [List.cons_append, booksAfter]
      cases selectWorker job activeWorkers committed with
      | none => exact ih committed
      | some workerID => exact ih _

theorem placements_perm {others : List (Worker Cpu Mem)} (same : activeWorkers.Perm others)
    (jobs : List (Job Cpu Mem)) (committed : Committed Cpu Mem) :
    placements activeWorkers jobs committed = placements others jobs committed := by
  induction jobs generalizing committed with
  | nil => rfl
  | cons job rest ih =>
      simp only [placements, selectWorker_perm same]
      cases selectWorker job others committed with
      | none => exact ih committed
      | some workerID => exact congrArg (List.cons _) (ih _)

theorem placements_sublist (jobs : List (Job Cpu Mem)) (committed : Committed Cpu Mem) :
    ((placements activeWorkers jobs committed).map Prod.fst).Sublist jobs := by
  induction jobs generalizing committed with
  | nil => exact List.Sublist.refl _
  | cons job rest ih =>
      simp only [placements]
      cases selectWorker job activeWorkers committed with
      | none => exact (ih committed).cons job
      | some workerID => exact (ih _).cons_cons job

/-- A job decides for itself where it stands in the queue. -/
theorem mem_placements_middle {earlier later : List (Job Cpu Mem)} {job : Job Cpu Mem}
    (early : job ∉ earlier) (late : job ∉ later) {committed : Committed Cpu Mem} {workerID : String} :
    (job, workerID) ∈ placements activeWorkers (earlier ++ job :: later) committed ↔
      selectWorker job activeWorkers (booksAfter activeWorkers earlier committed) = some workerID := by
  rw [placements_append, List.mem_append]
  have before : (job, workerID) ∉ placements activeWorkers earlier committed :=
    fun member => early (mem_placements member).1
  have after : ∀ books, (job, workerID) ∉ placements activeWorkers later books :=
    fun books member => late (mem_placements member).1
  simp only [before, false_or, placements]
  cases selectWorker job activeWorkers (booksAfter activeWorkers earlier committed) with
  | none => simp [after]
  | some chosen => simp [after, eq_comm]

/-- Plan's assignments, read back as PlanPreemptions does, give the same books. -/
theorem commitPlaced_placements {activeJobs : List (Job Cpu Mem)}
    (distinct : (activeJobs.map Job.id).Nodup) {jobs : List (Job Cpu Mem)}
    (listed : ∀ job ∈ jobs, job ∈ activeJobs) (committed : Committed Cpu Mem) :
    commitPlaced activeJobs ((placements activeWorkers jobs committed).map fun placed =>
        ⟨placed.1.id, placed.2, eligibleReason⟩) committed =
      booksAfter activeWorkers jobs committed := by
  induction jobs generalizing committed with
  | nil => rfl
  | cons job rest ih =>
      have tail : ∀ other ∈ rest, other ∈ activeJobs :=
        fun other member => listed other (List.mem_cons_of_mem _ member)
      simp only [placements, booksAfter]
      cases selectWorker job activeWorkers committed with
      | none => exact ih tail committed
      | some workerID =>
          simp only [commitPlaced, List.map_cons, List.foldl_cons,
            jobByID_listed distinct (listed job (by simp))]
          exact ih tail _

end Loop

section Plan
variable [Zero Cpu] [Add Cpu] [Sub Cpu] [LT Cpu] [DecidableLT Cpu]
variable [Zero Mem] [Add Mem] [Sub Mem] [LT Mem] [DecidableLT Mem] [LE Mem] [DecidableLE Mem]
variable (activeJobs : List (Job Cpu Mem)) (activeWorkers : List (Worker Cpu Mem)) (now : Time)

/-- What Plan has assigned to jobs ranked before the job. -/
def assignmentsBefore (job : Job Cpu Mem) : List Assignment :=
  (plan activeJobs activeWorkers now).filter fun assignment =>
    (jobByID activeJobs assignment.jobID).any fun other => rank now other < rank now job

/-- The commitments of the snapshot and of those assignments. -/
def booksBefore (job : Job Cpu Mem) : Committed Cpu Mem :=
  commitPlaced activeJobs (assignmentsBefore activeJobs activeWorkers now job)
    (committedByWorker activeJobs)

variable {activeJobs activeWorkers now} {job : Job Cpu Mem}

theorem mem_planned_iff (distinct : (activeJobs.map Job.id).Nodup) (listed : job ∈ activeJobs)
    (queued : job.state = .queued) {workerID : String} :
    (job, workerID) ∈ planned activeJobs activeWorkers now ↔
      selectWorker job activeWorkers (booksAfter activeWorkers (rankedBefore activeJobs now job)
        (committedByWorker activeJobs)) = some workerID := by
  obtain ⟨after, split, above⟩ := queue_around distinct now listed queued
  rw [planned, split]
  refine mem_placements_middle (fun early => ?_) fun late => lt_irrefl _ (above job late)
  simp [rankedBefore] at early

theorem mem_plan_iff (distinct : (activeJobs.map Job.id).Nodup) (listed : job ∈ activeJobs)
    {assignment : Assignment} (named : assignment.jobID = job.id) :
    assignment ∈ plan activeJobs activeWorkers now ↔
      (job, assignment.workerID) ∈ planned activeJobs activeWorkers now ∧
        assignment.reason = eligibleReason := by
  rw [plan, List.mem_map]
  constructor
  · rintro ⟨placed, member, rfl⟩
    have isJob := List.inj_on_of_nodup_map distinct (mem_planned member).1 listed named
    exact ⟨isJob ▸ member, rfl⟩
  · rintro ⟨member, reason⟩
    refine ⟨_, member, ?_⟩
    cases assignment
    simp_all

theorem assignmentsBefore_eq (distinct : (activeJobs.map Job.id).Nodup) (listed : job ∈ activeJobs)
    (queued : job.state = .queued) :
    assignmentsBefore activeJobs activeWorkers now job =
      (placements activeWorkers (rankedBefore activeJobs now job) (committedByWorker activeJobs)).map
        fun placed => ⟨placed.1.id, placed.2, eligibleReason⟩ := by
  obtain ⟨after, split, above⟩ := queue_around distinct now listed queued
  have known : ∀ other ∈ queue activeJobs now, jobByID activeJobs other.id = some other :=
    fun other member => jobByID_listed distinct (mem_queue.mp member).1
  have earlier : ∀ placed ∈ placements activeWorkers (rankedBefore activeJobs now job)
      (committedByWorker activeJobs),
      (jobByID activeJobs placed.1.id).any fun other => rank now other < rank now job := by
    intro placed member
    have inside := (mem_placements member).1
    rw [known placed.1 (List.mem_of_mem_filter inside)]
    exact (List.mem_filter.mp inside).2
  have later : ∀ books, ∀ placed ∈ placements activeWorkers (job :: after) books,
      ¬ ((jobByID activeJobs placed.1.id).any fun other => rank now other < rank now job) := by
    intro books placed member
    have inside := (mem_placements member).1
    rw [known placed.1 (split ▸ List.mem_append_right _ inside)]
    rcases List.mem_cons.mp inside with isJob | behind
    · simp [isJob]
    · simpa using (above _ behind).le
  rw [assignmentsBefore, plan, List.filter_map, planned, split, placements_append, List.filter_append]
  simp only [Function.comp_def]
  rw [List.filter_eq_self.mpr earlier, List.filter_eq_nil_iff.mpr (later _), List.append_nil]

/-- The books that Plan decides the job with. -/
theorem booksAfter_rankedBefore (distinct : (activeJobs.map Job.id).Nodup) (listed : job ∈ activeJobs)
    (queued : job.state = .queued) :
    booksAfter activeWorkers (rankedBefore activeJobs now job) (committedByWorker activeJobs) =
      booksBefore activeJobs activeWorkers now job := by
  rw [booksBefore, assignmentsBefore_eq distinct listed queued, commitPlaced_placements distinct]
  intro other member
  exact (mem_queue.mp (List.mem_of_mem_filter member)).1

theorem mem_planned_iff_books (distinct : (activeJobs.map Job.id).Nodup) (listed : job ∈ activeJobs)
    (queued : job.state = .queued) {workerID : String} :
    (job, workerID) ∈ planned activeJobs activeWorkers now ↔
      selectWorker job activeWorkers (booksBefore activeJobs activeWorkers now job) = some workerID := by
  rw [mem_planned_iff distinct listed queued, booksAfter_rankedBefore distinct listed queued]

theorem unplanned_iff (distinct : (activeJobs.map Job.id).Nodup) (listed : job ∈ activeJobs)
    (queued : job.state = .queued) :
    (∀ assignment ∈ plan activeJobs activeWorkers now, assignment.jobID ≠ job.id) ↔
      selectWorker job activeWorkers (booksBefore activeJobs activeWorkers now job) = none := by
  rw [Option.eq_none_iff_forall_ne_some]
  constructor
  · intro absent workerID selected
    have member := (mem_planned_iff_books distinct listed queued).mpr selected
    exact absent ⟨job.id, workerID, eligibleReason⟩
      ((mem_plan_iff distinct listed rfl).mpr ⟨member, rfl⟩) rfl
  · intro refused assignment member named
    have placed := ((mem_plan_iff distinct listed named).mp member).1
    exact refused _ ((mem_planned_iff_books distinct listed queued).mp placed)

/-- No job waits for the sake of a job ranked behind it, and none waits while a
worker has room for it. -/
theorem plan_greedy (activeJobs : List (Job Cpu Mem)) (activeWorkers : List (Worker Cpu Mem))
    (now : Time) (jobIDs : (activeJobs.map Job.id).Nodup) :
    ((plan activeJobs activeWorkers now).map Assignment.jobID).Nodup ∧
      (∀ assignment ∈ plan activeJobs activeWorkers now,
        ∃ job ∈ activeJobs, job.id = assignment.jobID ∧ job.state = .queued) ∧
      ∀ job ∈ activeJobs, job.state = .queued →
        ((∀ assignment ∈ plan activeJobs activeWorkers now, assignment.jobID ≠ job.id) ↔
          ∀ worker ∈ activeWorkers, worker.status = .active →
            ¬ Fits worker job (booksBefore activeJobs activeWorkers now job worker.id)) ∧
        ∀ assignment ∈ plan activeJobs activeWorkers now, assignment.jobID = job.id →
          ∃ worker ∈ activeWorkers, worker.id = assignment.workerID ∧ worker.status = .active ∧
            Fits worker job (booksBefore activeJobs activeWorkers now job worker.id) ∧
            ∀ other ∈ activeWorkers, other.status = .active →
              Fits other job (booksBefore activeJobs activeWorkers now job other.id) →
              toLex (leftover worker job (booksBefore activeJobs activeWorkers now job worker.id),
                  worker.id) ≤
                toLex (leftover other job (booksBefore activeJobs activeWorkers now job other.id),
                  other.id) := by
  refine ⟨?_, ?_, fun job listed queued => ⟨?_, ?_⟩⟩
  · have ids : (plan activeJobs activeWorkers now).map Assignment.jobID =
        ((planned activeJobs activeWorkers now).map Prod.fst).map Job.id := by
      rw [plan, List.map_map, List.map_map]
      rfl
    have queued : ((queue activeJobs now).map Job.id).Nodup := by
      rw [queue_eq, ((Keyset.sortBy_perm _).map Job.id).nodup_iff]
      exact queued_distinct jobIDs
    rw [ids]
    exact queued.sublist ((placements_sublist _ _).map Job.id)
  · intro assignment member
    obtain ⟨placed, isPlaced, rfl⟩ := List.mem_map.mp member
    exact ⟨placed.1, (mem_planned isPlaced).1, rfl, (mem_planned isPlaced).2⟩
  · rw [unplanned_iff jobIDs listed queued, selectWorker_none_iff]
  · intro assignment member named
    have placed := ((mem_plan_iff jobIDs listed named).mp member).1
    exact selectWorker_best ((mem_planned_iff_books jobIDs listed queued).mp placed)

end Plan

def waiting (id : String) (minGPUMemoryBytes : Int) : Job Int Int :=
  JobService.newJob 0 id (submission ⟨1, minGPUMemoryBytes, 2, 16⟩)

/-- job-1 runs on the worker; of the others, job-2 asks for the largest GPU. -/
def mixedJobs : List (Job Int Int) :=
  [{ waiting "job-1" 0 with state := .running, assignedWorkerIDs := ["worker-1"] },
    waiting "job-2" 80, waiting "job-3" 40, waiting "job-4" 0]

/-- job-2 is left out for want of a large GPU, although smaller ones are free. -/
theorem job2_left_out :
    (plan mixedJobs [mixedWorker] 0).map Assignment.jobID = ["job-3", "job-4"] ∧
      ¬ Fits mixedWorker (waiting "job-2" 80)
        (booksBefore mixedJobs [mixedWorker] 0 (waiting "job-2" 80) "worker-1") := by
  have decided := (plan_greedy mixedJobs [mixedWorker] 0 (by decide)).2.2 (waiting "job-2" 80)
    (by simp [mixedJobs]) rfl
  exact ⟨by decide, decided.1.mp (by decide) mixedWorker (by simp) rfl⟩

section Order
variable [Add Cpu] [Std.Associative fun left right : Cpu => left + right]
  [Std.Commutative fun left right : Cpu => left + right]
variable [Add Mem] [Std.Associative fun left right : Mem => left + right]
  [Std.Commutative fun left right : Mem => left + right]

theorem sum_swapped {Amount : Type} [Add Amount]
    [associative : Std.Associative fun left right : Amount => left + right]
    [commutative : Std.Commutative fun left right : Amount => left + right]
    (sum left right : Amount) : sum + left + right = sum + right + left := by
  calc sum + left + right = sum + (left + right) := associative.assoc sum left right
    _ = sum + (right + left) := congrArg (sum + ·) (commutative.comm left right)
    _ = sum + right + left := (associative.assoc sum right left).symm

theorem add_swapped (committed : CommittedResources Cpu Mem)
    (first second : ResourceRequest Cpu Mem) :
    (committed.add first).add second = (committed.add second).add first := by
  simp only [CommittedResources.add, sum_swapped committed.cpuCores,
    sum_swapped committed.memoryBytes, add_right_comm committed.gpuCount]

theorem reserve_comm (committed : Committed Cpu Mem) (left right : String)
    (first second : ResourceRequest Cpu Mem) :
    reserve (reserve committed left first) right second =
      reserve (reserve committed right second) left first := by
  funext id
  simp only [reserve]
  split <;> split
  · exact add_swapped _ _ _
  all_goals rfl

theorem commitJob_reserve (committed : Committed Cpu Mem) (workerID : String)
    (request : ResourceRequest Cpu Mem) (job : Job Cpu Mem) :
    commitJob (reserve committed workerID request) job =
      reserve (commitJob committed job) workerID request := by
  unfold commitJob
  split
  · induction job.assignedWorkerIDs generalizing committed with
    | nil => rfl
    | cons id rest ih => rw [List.foldl_cons, List.foldl_cons, reserve_comm, ih]
  · rfl

theorem commitJob_comm (committed : Committed Cpu Mem) (left right : Job Cpu Mem) :
    commitJob (commitJob committed left) right = commitJob (commitJob committed right) left := by
  by_cases holds : held left.state
  · simp only [commitJob.eq_def _ left, if_pos holds]
    induction left.assignedWorkerIDs generalizing committed with
    | nil => rfl
    | cons id rest ih => rw [List.foldl_cons, List.foldl_cons, ih, commitJob_reserve]
  · simp only [commitJob.eq_def _ left, if_neg holds]

variable [Zero Cpu] [Zero Mem]

theorem committedByWorker_perm {activeJobs others : List (Job Cpu Mem)}
    (same : activeJobs.Perm others) :
    committedByWorker activeJobs = committedByWorker others :=
  same.foldl_eq' (fun left _ right _ committed => commitJob_comm committed left right) _

variable [Sub Cpu] [LT Cpu] [DecidableLT Cpu]
variable [Sub Mem] [LT Mem] [DecidableLT Mem] [LE Mem] [DecidableLE Mem]

/-- Plan does not depend on the order in which the snapshot lists jobs and workers. -/
theorem plan_perm {activeJobs otherJobs : List (Job Cpu Mem)}
    {activeWorkers otherWorkers : List (Worker Cpu Mem)} (jobIDs : (activeJobs.map Job.id).Nodup)
    (sameJobs : activeJobs.Perm otherJobs) (sameWorkers : activeWorkers.Perm otherWorkers) (now : Time) :
    plan activeJobs activeWorkers now = plan otherJobs otherWorkers now := by
  have queued : queue activeJobs now = queue otherJobs now := by
    rw [queue_eq, queue_eq]
    exact Keyset.sortBy_congr (sameJobs.filter _) (ranks_distinct (queued_distinct jobIDs) now)
  rw [plan, plan, planned, planned, queued, committedByWorker_perm sameJobs,
    placements_perm sameWorkers]

end Order

theorem mixedJobs_reversed :
    plan mixedJobs [mixedWorker, { mixedWorker with id := "worker-2" }] 0 =
      plan mixedJobs.reverse [{ mixedWorker with id := "worker-2" }, mixedWorker] 0 :=
  plan_perm (by decide) (List.reverse_perm mixedJobs).symm (List.Perm.swap _ _ _) 0

end OrionQueue.PlanOrder
