import OrionQueue.PlanOrder

/-!
What a raise in priority changes. The jobs ahead of the new place are decided as
before, with the same books. The raised job meets books with no more on them than
at its old place, so a worker that had room for it still has.
-/

namespace OrionQueue.PriorityRaise

open Jobs Workers Planner PlannerCapacity Devices Fairness PlanOrder

variable {Cpu Mem Amount : Type}

/-- The snapshot with another priority for one job. -/
def reprioritize (activeJobs : List (Job Cpu Mem)) (id : String) (priority : Int) :
    List (Job Cpu Mem) :=
  activeJobs.map fun job => if job.id = id then { job with priority := priority } else job

theorem reprioritize_ids (activeJobs : List (Job Cpu Mem)) (id : String) (priority : Int) :
    (reprioritize activeJobs id priority).map Job.id = activeJobs.map Job.id := by
  rw [reprioritize, List.map_map]
  refine List.map_congr_left fun job _ => ?_
  simp only [Function.comp_apply]
  split <;> rfl

theorem reprioritize_distinct {activeJobs : List (Job Cpu Mem)}
    (distinct : (activeJobs.map Job.id).Nodup) (id : String) (priority : Int) :
    ((reprioritize activeJobs id priority).map Job.id).Nodup := by
  rw [reprioritize_ids]
  exact distinct

theorem mem_reprioritize {activeJobs : List (Job Cpu Mem)} (distinct : (activeJobs.map Job.id).Nodup)
    {job : Job Cpu Mem} (listed : job ∈ activeJobs) {priority : Int} {other : Job Cpu Mem} :
    other ∈ reprioritize activeJobs job.id priority ↔
      other = { job with priority := priority } ∨ other ∈ activeJobs ∧ other.id ≠ job.id := by
  rw [reprioritize, List.mem_map]
  constructor
  · rintro ⟨source, member, rfl⟩
    by_cases same : source.id = job.id
    · rw [if_pos same, List.inj_on_of_nodup_map distinct member listed same]
      exact .inl rfl
    · rw [if_neg same]
      exact .inr ⟨member, same⟩
  · rintro (rfl | ⟨member, apart⟩)
    · exact ⟨job, listed, if_pos rfl⟩
    · exact ⟨other, member, if_neg apart⟩

theorem committedByWorker_reprioritize [Zero Cpu] [Add Cpu] [Zero Mem] [Add Mem]
    (activeJobs : List (Job Cpu Mem)) (id : String) (priority : Int) :
    committedByWorker (reprioritize activeJobs id priority) = committedByWorker activeJobs := by
  have same : ∀ (committed : Committed Cpu Mem) (job : Job Cpu Mem),
      commitJob committed (if job.id = id then { job with priority := priority } else job) =
        commitJob committed job := by
    intro committed job
    split <;> rfl
  simp only [committedByWorker, reprioritize, List.foldl_map, same]

/-- A higher effective priority moves the job ahead. -/
theorem rank_raised {now : Time} {job : Job Cpu Mem} {priority : Int}
    (raised : jobPriority now job ≤ jobPriority now { job with priority := priority }) :
    rank now { job with priority := priority } ≤ rank now job := by
  rw [rank, rank, Prod.Lex.toLex_le_toLex, OrderDual.toDual_lt_toDual, OrderDual.toDual_inj]
  rcases lt_or_eq_of_le raised with above | same
  · exact .inl above
  · exact .inr ⟨same.symm, le_rfl⟩

/-- The jobs ahead of the new place are the same ones, in the same order. -/
theorem rankedBefore_reprioritize {activeJobs : List (Job Cpu Mem)}
    (distinct : (activeJobs.map Job.id).Nodup) {job : Job Cpu Mem} (listed : job ∈ activeJobs)
    {now : Time} {priority : Int}
    (raised : jobPriority now job ≤ jobPriority now { job with priority := priority })
    {other : Job Cpu Mem} (ahead : rank now other ≤ rank now { job with priority := priority }) :
    rankedBefore (reprioritize activeJobs job.id priority) now other =
      rankedBefore activeJobs now other := by
  have distinct' := reprioritize_distinct distinct job.id priority
  refine Keyset.strict_unique ((queue_sorted distinct' now).filter _)
    ((queue_sorted distinct now).filter _) fun first => ?_
  simp only [rankedBefore, List.mem_filter, mem_queue, mem_reprioritize distinct listed,
    decide_eq_true_eq]
  constructor
  · rintro ⟨⟨isRaised | ⟨member, _⟩, queued⟩, less⟩
    · exact absurd (isRaised ▸ less) (not_lt.mpr ahead)
    · exact ⟨⟨member, queued⟩, less⟩
  · rintro ⟨⟨member, queued⟩, less⟩
    refine ⟨⟨.inr ⟨member, fun same => ?_⟩, queued⟩, less⟩
    obtain rfl := List.inj_on_of_nodup_map distinct member listed same
    exact absurd less (not_lt.mpr (ahead.trans (rank_raised raised)))

/-- The jobs that the raised job passes stand between its two places. -/
theorem rankedBefore_split {activeJobs : List (Job Cpu Mem)} (distinct : (activeJobs.map Job.id).Nodup)
    {now : Time} {first second : Job Cpu Mem} (ahead : rank now first ≤ rank now second) :
    ∃ between, rankedBefore activeJobs now second = rankedBefore activeJobs now first ++ between ∧
      ∀ job ∈ between, job ∈ activeJobs := by
  have sorted := (queue_sorted distinct now).filter fun job => decide (rank now job < rank now second)
  have split := Keyset.sorted_split sorted (rank now first)
  refine ⟨_, split.trans (congrArg (· ++ _) ?_), fun job member => ?_⟩
  · rw [List.filter_filter, rankedBefore]
    refine List.filter_congr fun job _ => ?_
    by_cases less : rank now job < rank now first
    · simp [less, less.trans_le ahead]
    · simp [less]
  · exact (mem_queue.mp (List.mem_of_mem_filter (List.mem_of_mem_filter member))).1

section Books
variable [AddCommGroup Cpu] [LinearOrder Cpu] [AddCommGroup Mem] [LinearOrder Mem]

/-- Whatever the loop does, it takes nothing off the books. -/
theorem booksAfter_grow [AddCommGroup Amount] [LinearOrder Amount] [IsOrderedAddMonoid Amount]
    (dimension : Dimension Cpu Mem Amount) {activeWorkers : List (Worker Cpu Mem)}
    {jobs : List (Job Cpu Mem)} (nonneg : ∀ job ∈ jobs, NonNegative job.resources)
    (committed : Committed Cpu Mem) (id : String) :
    dimension.part (committed id) ≤ dimension.part (booksAfter activeWorkers jobs committed id) := by
  induction jobs generalizing committed with
  | nil => exact le_rfl
  | cons job rest ih =>
      have tail := ih fun other member => nonneg other (List.mem_cons_of_mem _ member)
      unfold booksAfter
      cases selectWorker job activeWorkers committed with
      | none => exact tail committed
      | some workerID =>
          refine le_trans ?_ (tail (reserve committed workerID job.resources))
          have booked := congrFun (reserve_charge dimension committed workerID job.resources) id
          simp only [Ledger.charge] at booked
          rw [booked]
          split
          · exact le_add_of_nonneg_right (dimension.need_nonneg _ (nonneg job List.mem_cons_self))
          · exact le_rfl

end Books

section Raise
variable [AddCommGroup Cpu] [LinearOrder Cpu] [IsOrderedAddMonoid Cpu]
variable [AddCommGroup Mem] [LinearOrder Mem] [IsOrderedAddMonoid Mem]

/-- A worker with less committed passes the tests all the more. -/
theorem fits_anti {worker : Worker Cpu Mem} {job : Job Cpu Mem}
    {fewer more : CommittedResources Cpu Mem}
    (gpus : fewer.gpuCount ≤ more.gpuCount) (cpus : fewer.cpuCores ≤ more.cpuCores)
    (memories : fewer.memoryBytes ≤ more.memoryBytes) (fits : Fits worker job more) :
    Fits worker job fewer := by
  obtain ⟨cpuRoom, memoryRoom, gpuRoom⟩ := fits
  refine ⟨?_, ?_, ?_⟩
  · exact not_lt.mpr ((not_lt.mp cpuRoom).trans (sub_le_sub_left cpus _))
  · exact not_lt.mpr ((not_lt.mp memoryRoom).trans (sub_le_sub_left memories _))
  · exact not_lt.mpr ((not_lt.mp gpuRoom).trans (freeGPUCount_anti worker _ gpus))

/-- A job that found a worker behind the others finds one in front of them. -/
theorem selectWorker_earlier {activeJobs : List (Job Cpu Mem)}
    {activeWorkers : List (Worker Cpu Mem)} {now : Time} (distinct : (activeJobs.map Job.id).Nodup)
    (nonneg : ∀ job ∈ activeJobs, NonNegative job.resources) {job first second : Job Cpu Mem}
    (ahead : rank now first ≤ rank now second) {committed : Committed Cpu Mem}
    (selected : selectWorker job activeWorkers
      (booksAfter activeWorkers (rankedBefore activeJobs now second) committed) ≠ none) :
    selectWorker job activeWorkers
      (booksAfter activeWorkers (rankedBefore activeJobs now first) committed) ≠ none := by
  obtain ⟨between, split, listed⟩ := rankedBefore_split distinct ahead
  rw [split, booksAfter_append] at selected
  intro refused
  refine selected (selectWorker_none_iff.mpr fun worker member active fits => ?_)
  have passed : ∀ job ∈ between, NonNegative job.resources :=
    fun job inside => nonneg job (listed job inside)
  exact selectWorker_none_iff.mp refused worker member active
    (fits_anti (booksAfter_grow gpu passed _ _) (booksAfter_grow cpu passed _ _)
      (booksAfter_grow memory passed _ _) fits)

/-- Raising the priority of an assigned job keeps it assigned, and everything ahead
of its new place stays as it was. -/
theorem raise_keeps (activeJobs : List (Job Cpu Mem)) (activeWorkers : List (Worker Cpu Mem))
    (now : Time) (jobIDs : (activeJobs.map Job.id).Nodup)
    (nonneg : ∀ job ∈ activeJobs, NonNegative job.resources) (job : Job Cpu Mem)
    (listed : job ∈ activeJobs) (queued : job.state = .queued) (priority : Int)
    (raised : jobPriority now job ≤ jobPriority now { job with priority := priority })
    (assigned : ∃ assignment ∈ plan activeJobs activeWorkers now, assignment.jobID = job.id) :
    (∃ assignment ∈ plan (reprioritize activeJobs job.id priority) activeWorkers now,
        assignment.jobID = job.id) ∧
      ∀ other ∈ activeJobs, other.state = .queued →
        rank now other < rank now { job with priority := priority } →
        ∀ assignment : Assignment, assignment.jobID = other.id →
          (assignment ∈ plan (reprioritize activeJobs job.id priority) activeWorkers now ↔
            assignment ∈ plan activeJobs activeWorkers now) := by
  have jobIDs' := reprioritize_distinct jobIDs job.id priority
  constructor
  · obtain ⟨assignment, member, named⟩ := assigned
    have listed' : ({ job with priority := priority } : Job Cpu Mem) ∈
        reprioritize activeJobs job.id priority := (mem_reprioritize jobIDs listed).mpr (.inl rfl)
    have isPlanned := ((mem_plan_iff jobIDs listed named).mp member).1
    have placed := (mem_planned_iff jobIDs listed queued).mp isPlanned
    have found : selectWorker job activeWorkers (booksAfter activeWorkers
        (rankedBefore activeJobs now { job with priority := priority })
        (committedByWorker activeJobs)) ≠ none := by
      refine selectWorker_earlier jobIDs nonneg (rank_raised raised) ?_
      rw [placed]
      exact Option.some_ne_none _
    obtain ⟨workerID, isWorker⟩ := Option.ne_none_iff_exists'.mp found
    refine ⟨⟨job.id, workerID, eligibleReason⟩, (mem_plan_iff jobIDs' listed' rfl).mpr ⟨?_, rfl⟩, rfl⟩
    rw [mem_planned_iff jobIDs' listed' queued, committedByWorker_reprioritize,
      rankedBefore_reprioritize jobIDs listed raised le_rfl]
    exact isWorker
  · intro other member isQueued ahead assignment named
    have listed' : other ∈ reprioritize activeJobs job.id priority := by
      refine (mem_reprioritize jobIDs listed).mpr (.inr ⟨member, fun same => ?_⟩)
      obtain rfl := List.inj_on_of_nodup_map jobIDs member listed same
      exact absurd ahead (not_lt.mpr (rank_raised raised))
    rw [mem_plan_iff jobIDs' listed' named, mem_plan_iff jobIDs member named,
      mem_planned_iff jobIDs' listed' isQueued, mem_planned_iff jobIDs member isQueued,
      committedByWorker_reprioritize, rankedBefore_reprioritize jobIDs listed raised ahead.le]

end Raise

/-- Three jobs that differ in priority only. -/
def contendingJobs : List (Job Int Int) :=
  [{ waiting "job-1" 0 with priority := 50 }, { waiting "job-2" 0 with priority := 1 },
    { waiting "job-3" 0 with priority := 0 }]

theorem contendingJobs_nonneg : ∀ job ∈ contendingJobs, NonNegative job.resources := by
  simp [contendingJobs, waiting, JobService.newJob, submission, NonNegative]

/-- job-3 passes job-2 and stays behind job-1. -/
theorem job3_raised :
    (∃ assignment ∈ plan (reprioritize contendingJobs "job-3" 5) [mixedWorker] 0,
        assignment.jobID = "job-3") ∧
      (⟨"job-1", "worker-1", eligibleReason⟩ ∈
          plan (reprioritize contendingJobs "job-3" 5) [mixedWorker] 0 ↔
        ⟨"job-1", "worker-1", eligibleReason⟩ ∈ plan contendingJobs [mixedWorker] 0) := by
  have kept := raise_keeps contendingJobs [mixedWorker] 0 (by decide) contendingJobs_nonneg
    { waiting "job-3" 0 with priority := 0 } (by simp [contendingJobs]) rfl 5
    (effectivePriority_mono (by decide) (by decide) (by decide) 0 0) (by decide)
  exact ⟨kept.1, kept.2 { waiting "job-1" 0 with priority := 50 } (by simp [contendingJobs]) rfl
    (by decide) _ rfl⟩

def singleWorker : Worker Int Int := { mixedWorker with gpus := [device 0 16] }

/-- After ten minutes the largest int32 plus the bonus is negative. -/
theorem raise_overflows :
    (contendingJobs.map Job.id).Nodup ∧ (∀ job ∈ contendingJobs, NonNegative job.resources) ∧
      (∀ job ∈ contendingJobs, job.state = .queued ∧ job.priority < 2 ^ 31 - 1) ∧
      (∃ assignment ∈ plan contendingJobs [singleWorker] (600 * 1000000000),
        assignment.jobID = "job-1") ∧
      ¬ ∃ assignment ∈ plan (reprioritize contendingJobs "job-1" (2 ^ 31 - 1)) [singleWorker]
          (600 * 1000000000), assignment.jobID = "job-1" :=
  ⟨by decide, contendingJobs_nonneg, by decide, by decide +kernel, by decide +kernel⟩

end OrionQueue.PriorityRaise
