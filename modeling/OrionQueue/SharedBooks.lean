import OrionQueue.Doubles
import OrionQueue.PreemptionTurns

/-!
Plan and PlanPreemptions account for the same snapshot in different ways: the one
charges a job when its turn in the queue comes, the other looks up the jobs of the
assignments. Both arrive at the same books. A job that Plan could not place has no
room in them either, as the placements behind it only took more, so that whatever
room PlanPreemptions finds was made by itself.
-/

namespace OrionQueue.SharedBooks

open Jobs Workers Planner PlannerCapacity PlanOrder PreemptionPass PreemptionTurns Doubles

variable {Cpu Mem : Type}

section Exit
variable [Zero Cpu] [Add Cpu] [Sub Cpu] [LT Cpu] [DecidableLT Cpu] [LE Cpu] [DecidableLE Cpu]
variable [Zero Mem] [Add Mem] [Sub Mem] [LT Mem] [DecidableLT Mem] [LE Mem] [DecidableLE Mem]
variable (now : Time) (activeJobs : List (Job Cpu Mem))

/-- The worker at which the loop for a pending job breaks because the job already
fits there. -/
def alreadyFits (pending : Job Cpu Mem) :
    List (Worker Cpu Mem) → PreemptionBooks Cpu Mem → Option (Worker Cpu Mem)
  | [], _ => none
  | worker :: rest, books =>
      if worker.status ≠ .active then alreadyFits pending rest books
      else if fitsNow (freeFor books pending worker) pending.resources then some worker
      else if tooLittle (freeFor books pending worker)
        (freedBy (victimsOn now activeJobs books pending worker)) pending.resources then
          alreadyFits pending rest books
      else none

variable {now activeJobs} {pending : Job Cpu Mem} {workers : List (Worker Cpu Mem)}
  {books : PreemptionBooks Cpu Mem} {worker : Worker Cpu Mem}

theorem alreadyFits_some (exits : alreadyFits now activeJobs pending workers books = some worker) :
    worker ∈ workers ∧ worker.status = .active ∧
      fitsNow (freeFor books pending worker) pending.resources = true ∧
      preemptFor now activeJobs pending workers books = books := by
  rw [preemptFor_eq]
  induction workers with
  | nil => cases exits
  | cons first rest ih =>
      have later := fun found => (ih found).imp (List.mem_cons_of_mem first) id
      unfold alreadyFits at exits
      unfold served
      by_cases inactive : first.status ≠ .active
      · rw [if_pos inactive] at exits ⊢
        exact later exits
      · rw [if_neg inactive] at exits ⊢
        by_cases fits : fitsNow (freeFor books pending first) pending.resources = true
        · rw [if_pos fits] at exits ⊢
          cases exits
          exact ⟨List.mem_cons_self, not_not.mp inactive, fits, rfl⟩
        · rw [if_neg fits] at exits ⊢
          split at exits
          · rw [if_pos ‹_›]
            exact later exits
          · cases exits

end Exit

theorem fitsNow_iff [LE Cpu] [DecidableLE Cpu] [LE Mem] [DecidableLE Mem]
    {free : CommittedResources Cpu Mem} {request : ResourceRequest Cpu Mem} :
    fitsNow free request = true ↔ request.cpuCores ≤ free.cpuCores ∧
      request.memoryBytes ≤ free.memoryBytes ∧ (request.gpuCount : Int) ≤ free.gpuCount := by
  simp only [fitsNow, Bool.and_eq_true, decide_eq_true_eq, and_assoc]

section Charge
variable [Zero Cpu] [Add Cpu] [Sub Cpu] [LT Cpu] [LE Cpu] [DecidableLE Cpu] [Accounting Cpu]
variable [Zero Mem] [Add Mem] [Sub Mem] [LT Mem] [LE Mem] [DecidableLE Mem] [Accounting Mem]

/-- Where PlanPreemptions sees room, `selectWorker` would have seen it. -/
theorem fits_of_fitsNow {committed : Committed Cpu Mem} {job : Job Cpu Mem}
    {worker : Worker Cpu Mem}
    (room : fitsNow (freeOn committed worker job.resources.minGPUMemoryBytes) job.resources = true) :
    Fits worker job (committed worker.id) := by
  obtain ⟨cpu, memory, gpus⟩ := fitsNow_iff.mp room
  exact ⟨Accounting.not_short cpu, Accounting.not_short memory, not_lt.mpr gpus⟩

/-- A charge that the worker's own tests have admitted makes no room on it. -/
theorem fitsNow_before_reserve {committed : Committed Cpu Mem} {job : Job Cpu Mem}
    {workerID : String} {worker : Worker Cpu Mem} (nonneg : NonNegative job.resources)
    (admitted : worker.id = workerID → Fits worker job (committed worker.id)) {minMemoryBytes : Mem}
    {request : ResourceRequest Cpu Mem}
    (room : fitsNow (freeOn (reserve committed workerID job.resources) worker minMemoryBytes)
      request = true) :
    fitsNow (freeOn committed worker minMemoryBytes) request = true := by
  by_cases here : worker.id = workerID
  · obtain ⟨cpuShort, memoryShort, _⟩ := admitted here
    have charged : reserve committed workerID job.resources worker.id =
        (committed worker.id).add job.resources := if_pos here
    obtain ⟨cpu, memory, gpus⟩ := fitsNow_iff.mp room
    simp only [freeOn, charged] at cpu memory gpus
    refine fitsNow_iff.mpr ⟨Accounting.fits_before nonneg.1 cpuShort cpu,
      Accounting.fits_before nonneg.2 memoryShort memory, gpus.trans ?_⟩
    exact freeGPUCount_anti _ _ (Int.le_add_of_nonneg_right (Int.natCast_nonneg _))
  · have kept : reserve committed workerID job.resources worker.id = committed worker.id := if_neg here
    simp only [freeOn, kept] at room
    exact room

end Charge

section Books
variable [Zero Cpu] [Add Cpu] [Sub Cpu] [LT Cpu] [DecidableLT Cpu]
variable [Zero Mem] [Add Mem] [Sub Mem] [LT Mem] [DecidableLT Mem] [LE Mem] [DecidableLE Mem]
variable {activeJobs : List (Job Cpu Mem)} {activeWorkers : List (Worker Cpu Mem)} {now : Time}

/-- The assignments, looked up by ID, give the books with which Plan's loop ended. -/
theorem openBooks_plan (jobIDs : (activeJobs.map Job.id).Nodup) :
    (openBooks activeJobs (plan activeJobs activeWorkers now)).committed =
      booksAfter activeWorkers (queue activeJobs now) (committedByWorker activeJobs) :=
  commitPlaced_placements jobIDs (fun _ member => (mem_queue.mp member).1) _

variable [LE Cpu] [DecidableLE Cpu] [Accounting Cpu] [Accounting Mem]

/-- So does none of the charges that Plan's loop goes on to make. -/
theorem fitsNow_before_books (workerIDs : (activeWorkers.map Worker.id).Nodup)
    {worker : Worker Cpu Mem} (listed : worker ∈ activeWorkers) {jobs : List (Job Cpu Mem)}
    (nonneg : ∀ job ∈ jobs, NonNegative job.resources) {committed : Committed Cpu Mem}
    {minMemoryBytes : Mem} {request : ResourceRequest Cpu Mem}
    (room : fitsNow (freeOn (booksAfter activeWorkers jobs committed) worker minMemoryBytes)
      request = true) :
    fitsNow (freeOn committed worker minMemoryBytes) request = true := by
  induction jobs generalizing committed with
  | nil => exact room
  | cons job rest ih =>
      have tail : ∀ other ∈ rest, NonNegative other.resources :=
        fun other member => nonneg other (List.mem_cons_of_mem _ member)
      unfold booksAfter at room
      cases selected : selectWorker job activeWorkers committed with
      | none =>
          rw [selected] at room
          exact ih tail room
      | some workerID =>
          rw [selected] at room
          refine fitsNow_before_reserve (nonneg job List.mem_cons_self) (fun here => ?_) (ih tail room)
          -- The worker that was charged under this ID is this one.
          obtain ⟨chosen, among, isID, _, fits, _⟩ := selectWorker_best selected
          obtain rfl := List.inj_on_of_nodup_map workerIDs among listed (isID.trans here.symm)
          exact fits

/-- The job was refused with the books at its turn, and the books at the end have no
more room for it. -/
theorem unplaced_no_room (jobIDs : (activeJobs.map Job.id).Nodup)
    (workerIDs : (activeWorkers.map Worker.id).Nodup)
    (nonneg : ∀ job ∈ activeJobs, NonNegative job.resources) {job : Job Cpu Mem}
    (unplaced : Unplaced activeJobs (plan activeJobs activeWorkers now) job)
    {worker : Worker Cpu Mem} (listed : worker ∈ activeWorkers) (active : worker.status = .active) :
    fitsNow (freeFor (openBooks activeJobs (plan activeJobs activeWorkers now)) job worker)
      job.resources = false := by
  obtain ⟨known, queued, unassigned⟩ := unplaced
  have absent : ∀ assignment ∈ plan activeJobs activeWorkers now, assignment.jobID ≠ job.id :=
    fun assignment member named => unassigned (List.mem_map.mpr ⟨assignment, member, named⟩)
  have refused := (unplanned_iff jobIDs known queued).mp absent
  rw [← booksAfter_rankedBefore jobIDs known queued] at refused
  obtain ⟨after, split, _⟩ := queue_around jobIDs now known queued
  rw [Bool.eq_false_iff]
  intro room
  rw [freeFor, openBooks_plan jobIDs, split, booksAfter_append, booksAfter, refused] at room
  have behind : ∀ other ∈ after, NonNegative other.resources := by
    intro other member
    have inQueue : other ∈ queue activeJobs now := by
      rw [split]
      exact List.mem_append_right _ (List.mem_cons_of_mem _ member)
    exact nonneg other (mem_queue.mp inQueue).1
  have earlier := fitsNow_before_books workerIDs listed behind room
  exact selectWorker_none_iff.mp refused worker listed active (fits_of_fitsNow earlier)

end Books

/-- The pass has changed the books of no worker on which it has stopped nothing. -/
def Untouched (opened : Committed Cpu Mem) (books : PreemptionBooks Cpu Mem) : Prop :=
  ∀ id, (∀ preemption ∈ books.preemptions, preemption.workerID ≠ id) → books.committed id = opened id

section Stop
variable [Zero Cpu] [Add Cpu] [Sub Cpu] [LT Cpu] [LE Cpu] [Accounting Cpu]
variable [Zero Mem] [Add Mem] [Sub Mem] [LT Mem] [LE Mem] [Accounting Mem]

theorem stop_untouched {opened : Committed Cpu Mem} {books : PreemptionBooks Cpu Mem}
    (untouched : Untouched opened books) (pending : Job Cpu Mem) (worker : Worker Cpu Mem)
    (victims : List (Job Cpu Mem)) :
    Untouched opened (stop books pending worker victims) := by
  intro id absent
  have before : books.committed id = opened id :=
    untouched id fun preemption member => absent preemption (List.mem_append_left _ member)
  by_cases here : id = worker.id
  · -- Then there are no victims, and nothing is taken off the books.
    have none : victims = [] := by
      refine List.eq_nil_iff_forall_not_mem.mpr fun victim member => ?_
      exact absent _ (List.mem_append_right _ (List.mem_map_of_mem member)) here.symm
    have kept : (books.committed id).sub (freedBy ([] : List (Job Cpu Mem))) = books.committed id := by
      simp only [freedBy, List.foldl_nil, CommittedResources.sub, CommittedResources.zero,
        Accounting.keeps]
    have taken : (stop books pending worker []).committed id = (books.committed id).sub (freedBy []) :=
      if_pos here
    rw [none, taken, kept, before]
  · rw [← before]
    exact if_neg here

end Stop

section Pass
variable [Zero Cpu] [Add Cpu] [Sub Cpu] [LT Cpu] [DecidableLT Cpu] [LE Cpu] [DecidableLE Cpu]
variable [Zero Mem] [Add Mem] [Sub Mem] [LT Mem] [DecidableLT Mem] [LE Mem] [DecidableLE Mem]
variable {activeJobs : List (Job Cpu Mem)} {activeWorkers : List (Worker Cpu Mem)} {now : Time}
variable [Accounting Cpu] [Accounting Mem] {opened : Committed Cpu Mem}

theorem preemptFor_untouched (pending : Job Cpu Mem) (books : PreemptionBooks Cpu Mem)
    (untouched : Untouched opened books) :
    Untouched opened (preemptFor now activeJobs pending activeWorkers books) := by
  rw [preemptFor_eq]
  cases served now activeJobs pending activeWorkers books with
  | none => exact untouched
  | some found => exact stop_untouched untouched pending found.1 found.2

/-- At any turn of the pass, an unplaced job has room only on workers on which the
pass has stopped something. -/
theorem room_is_made (jobIDs : (activeJobs.map Job.id).Nodup)
    (workerIDs : (activeWorkers.map Worker.id).Nodup)
    (nonneg : ∀ job ∈ activeJobs, NonNegative job.resources) {turn : Turn Cpu Mem}
    (member : turn ∈ pass now activeJobs activeWorkers (plan activeJobs activeWorkers now))
    {job : Job Cpu Mem} (unplaced : Unplaced activeJobs (plan activeJobs activeWorkers now) job)
    {worker : Worker Cpu Mem} (listed : worker ∈ activeWorkers) (active : worker.status = .active)
    (room : fitsNow (freeFor turn.books job worker) job.resources = true) :
    ∃ preemption ∈ turn.books.preemptions, preemption.workerID = worker.id := by
  by_contra absent
  push Not at absent
  have start : Untouched (openBooks activeJobs (plan activeJobs activeWorkers now)).committed
      (openBooks activeJobs (plan activeJobs activeWorkers now)) := fun _ _ => rfl
  have unchanged := turns_invariant preemptFor_untouched start member worker.id absent
  have full := unplaced_no_room jobIDs workerIDs nonneg unplaced listed active
  simp only [freeFor, freeOn, unchanged] at room full
  rw [room] at full
  exact Bool.noConfusion full

/-- PlanPreemptions opens with the books with which Plan ended. Where no request is below
zero, no unplaced job fits on an active worker until it stops a job, and where it leaves
a job alone because the job fits, it has stopped something on that worker before. -/
theorem passes_share_books (activeJobs : List (Job Cpu Mem)) (activeWorkers : List (Worker Cpu Mem))
    (now : Time) (jobIDs : (activeJobs.map Job.id).Nodup)
    (workerIDs : (activeWorkers.map Worker.id).Nodup) :
    (∀ workerID, commitPlaced activeJobs (plan activeJobs activeWorkers now)
        (committedByWorker activeJobs) workerID =
      booksAfter activeWorkers (queue activeJobs now) (committedByWorker activeJobs) workerID) ∧
    ((∀ job ∈ activeJobs, NonNegative job.resources) →
      (∀ turn ∈ pass now activeJobs activeWorkers (plan activeJobs activeWorkers now),
        turn.books.preemptions = [] →
          ∀ job, Unplaced activeJobs (plan activeJobs activeWorkers now) job →
            ∀ worker ∈ activeWorkers, worker.status = .active →
              fitsNow (freeFor turn.books job worker) job.resources = false) ∧
      (∀ turn ∈ pass now activeJobs activeWorkers (plan activeJobs activeWorkers now), ∀ worker,
        alreadyFits now activeJobs turn.pending activeWorkers turn.books = some worker →
          ∃ preemption ∈ turn.books.preemptions, preemption.workerID = worker.id)) := by
  refine ⟨fun workerID => congrFun (openBooks_plan jobIDs) workerID, fun nonneg => ⟨?_, ?_⟩⟩
  · intro turn member none job unplaced worker listed active
    rw [Bool.eq_false_iff]
    intro room
    obtain ⟨preemption, stopped, _⟩ :=
      room_is_made jobIDs workerIDs nonneg member unplaced listed active room
    rw [none] at stopped
    cases stopped
  · intro turn member worker exits
    obtain ⟨listed, active, room, _⟩ := alreadyFits_some exits
    have unplaced := mem_unplacedJobs.mp (turns_pending member)
    exact room_is_made jobIDs workerIDs nonneg member unplaced listed active room

end Pass

/-- A queued job, with its CPUs as a double and its memory as an int64. -/
def cpuJob (id : String) (priority cpuCores : Int) : Job (Double Int) Int64 :=
  { JobService.newJob 0 id (submission ⟨0, 0, .finite cpuCores, 1⟩) with priority := priority }

/-- job-1 holds the three CPUs of the worker; job-2 wants two of them, job-3 one. -/
def freedJobs : List (Job (Double Int) Int64) :=
  [{ cpuJob "job-1" 10 3 with state := .running, assignedWorkerIDs := ["worker-1"] },
    cpuJob "job-2" 90 2, cpuJob "job-3" 80 1]

def freedWorker : Worker (Double Int) Int64 where
  id := "worker-1"
  hostname := "node-1"
  status := .active
  leaseID := none
  cpuCapacity := .finite 3
  memoryCapacityBytes := 64
  gpus := []
  softwareVersion := ""
  labels := []
  runningJobIDs := []
  registeredAt := 0
  lastHeartbeatAt := 0

/-- job-1 is stopped for job-2, and job-3 then fits on the worker already. -/
theorem freed_room_shared :
    ∃ turn ∈ pass 0 freedJobs [freedWorker] (plan freedJobs [freedWorker] 0),
      turn.pending.id = "job-3" ∧
      alreadyFits 0 freedJobs turn.pending [freedWorker] turn.books = some freedWorker ∧
      ∃ preemption ∈ turn.books.preemptions, preemption.workerID = "worker-1" := by
  have nonneg : ∀ job ∈ freedJobs, NonNegative job.resources := by
    unfold NonNegative
    decide
  have member : (⟨cpuJob "job-3" 80 1, _, _⟩ : Turn (Double Int) Int64) ∈
      pass 0 freedJobs [freedWorker] (plan freedJobs [freedWorker] 0) :=
    List.mem_cons_of_mem _ (List.mem_singleton.mpr rfl)
  exact ⟨_, member, rfl, rfl, ((passes_share_books freedJobs [freedWorker] 0 (by decide)
    (by decide)).2 nonneg).2 _ member freedWorker rfl⟩

/-- job-1 asks for more memory than the worker has, job-2 for less than none. -/
def negativeJobs : List (Job (Double Int) Int64) :=
  [JobService.newJob 0 "job-1" (submission ⟨0, 0, .finite 1, 10⟩),
    JobService.newJob 0 "job-2" (submission ⟨0, 0, .finite 1, -10⟩)]

def smallWorker : Worker (Double Int) Int64 := { freedWorker with memoryCapacityBytes := 5 }

/-- Plan refuses job-1 and then places job-2, whose charge makes room for job-1. -/
theorem negative_request_makes_room :
    (negativeJobs.map Job.id).Nodup ∧
    ∃ turn ∈ pass 0 negativeJobs [smallWorker] (plan negativeJobs [smallWorker] 0),
      turn.pending.id = "job-1" ∧ turn.books.preemptions = [] ∧
      Unplaced negativeJobs (plan negativeJobs [smallWorker] 0) turn.pending ∧
      fitsNow (freeFor turn.books turn.pending smallWorker) turn.pending.resources = true ∧
      alreadyFits 0 negativeJobs turn.pending [smallWorker] turn.books = some smallWorker := by
  have member : (⟨JobService.newJob 0 "job-1" (submission ⟨0, 0, .finite 1, 10⟩), _, _⟩ :
      Turn (Double Int) Int64) ∈
        pass 0 negativeJobs [smallWorker] (plan negativeJobs [smallWorker] 0) :=
    List.mem_singleton.mpr rfl
  exact ⟨by decide, _, member, rfl, rfl, ⟨List.mem_cons_self, rfl, by decide⟩, rfl, rfl⟩

end OrionQueue.SharedBooks
