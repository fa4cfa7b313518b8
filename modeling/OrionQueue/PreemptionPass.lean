import OrionQueue.Devices
import OrionQueue.Fairness
import OrionQueue.Stopping

/-!
PlanPreemptions, one pending job at a time. On a worker it takes the jobs that may
be stopped for the pending job, lowest first, until they free enough. What a pass
has stopped is always at the lower end of a worker's jobs, and nothing is stopped
for a job that is not above it.
-/

namespace OrionQueue.PreemptionPass

open Jobs Workers Planner Fairness

variable {Cpu Mem : Type}

/-- The order in which the jobs of a worker are taken. -/
def victimKey (now : Time) (job : Job Cpu Mem) : Int ×ₗ String := toLex (jobPriority now job, job.id)

theorem victimLess_iff (now : Time) (left right : Job Cpu Mem) :
    victimLess now right left = false ↔ victimKey now left ≤ victimKey now right :=
  Keyset.lexLess_iff (by rw [decide_eq_false_iff_not, not_lt])

theorem jobPriority_le_of_key {now : Time} {left right : Job Cpu Mem}
    (ordered : victimKey now left ≤ victimKey now right) :
    jobPriority now left ≤ jobPriority now right := by
  rcases Prod.Lex.toLex_le_toLex.mp ordered with less | ⟨same, _⟩
  · exact less.le
  · exact same.le

/-- The jobs of the worker that any pass may stop. -/
def Stoppable (activeJobs : List (Job Cpu Mem)) (workerID : String) (job : Job Cpu Mem) : Prop :=
  job ∈ activeJobs ∧ job.state = .running ∧ job.preemptible = true ∧ workerID ∈ job.assignedWorkerIDs

theorem mem_runningPreemptibleByWorker {activeJobs : List (Job Cpu Mem)} {workerID : String}
    {job : Job Cpu Mem} :
    job ∈ runningPreemptibleByWorker activeJobs workerID ↔ Stoppable activeJobs workerID job := by
  simp only [runningPreemptibleByWorker, Stoppable, List.mem_flatMap, List.mem_filter, List.mem_map,
    Bool.and_eq_true, decide_eq_true_eq]
  constructor
  · rintro ⟨source, ⟨listed, running, preemptible⟩, id, ⟨assigned, rfl⟩, rfl⟩
    exact ⟨listed, running, preemptible, assigned⟩
  · rintro ⟨listed, running, preemptible, assigned⟩
    exact ⟨job, ⟨listed, running, preemptible⟩, workerID, ⟨assigned, rfl⟩, rfl⟩

/-- Every held job has one worker. -/
def SingleWorker (activeJobs : List (Job Cpu Mem)) : Prop :=
  ∀ job ∈ activeJobs, held job.state = true → ∃ workerID, job.assignedWorkerIDs = [workerID]

theorem runningPreemptible_distinct {activeJobs : List (Job Cpu Mem)}
    (distinct : (activeJobs.map Job.id).Nodup) (single : SingleWorker activeJobs) (workerID : String) :
    ((runningPreemptibleByWorker activeJobs workerID).map Job.id).Nodup := by
  have sub : ∀ jobs : List (Job Cpu Mem), (∀ job ∈ jobs, ∃ id, job.assignedWorkerIDs = [id]) →
      (jobs.flatMap fun job => (job.assignedWorkerIDs.filter fun id => id = workerID).map
        fun _ => job).Sublist jobs := by
    intro jobs once
    induction jobs with
    | nil => exact List.Sublist.refl _
    | cons job rest ih =>
        have tail := ih fun other member => once other (List.mem_cons_of_mem _ member)
        obtain ⟨id, isID⟩ := once job List.mem_cons_self
        by_cases here : id = workerID
        · simpa [isID, here] using tail.cons_cons job
        · simpa [isID, here] using tail.cons job
  refine distinct.sublist ((sub _ fun job member => ?_).trans List.filter_sublist |>.map Job.id)
  simp only [List.mem_filter, Bool.and_eq_true, decide_eq_true_eq] at member
  exact single job member.1 (by rw [member.2.1]; rfl)

/-- The jobs of the worker in the order in which they are taken. -/
def candidatesOn (now : Time) (activeJobs : List (Job Cpu Mem)) (workerID : String) :
    List (Job Cpu Mem) :=
  Keyset.sortBy (victimKey now) (runningPreemptibleByWorker activeJobs workerID)

/-- The job is still running in this pass and below the pending one. -/
def mayStop (now : Time) (preempted : List String) (pending cand : Job Cpu Mem) : Bool :=
  !preempted.contains cand.id && jobPriority now cand < jobPriority now pending

/-- Those of them that may be stopped for the pending job. -/
def eligible (now : Time) (activeJobs : List (Job Cpu Mem)) (preempted : List String)
    (pending : Job Cpu Mem) (workerID : String) : List (Job Cpu Mem) :=
  (candidatesOn now activeJobs workerID).filter (mayStop now preempted pending)

theorem mem_eligible {now : Time} {activeJobs : List (Job Cpu Mem)} {preempted : List String}
    {pending : Job Cpu Mem} {workerID : String} {job : Job Cpu Mem} :
    job ∈ eligible now activeJobs preempted pending workerID ↔
      Stoppable activeJobs workerID job ∧ job.id ∉ preempted ∧
        jobPriority now job < jobPriority now pending := by
  rw [eligible, List.mem_filter, candidatesOn, (Keyset.sortBy_perm _).mem_iff,
    mem_runningPreemptibleByWorker, mayStop]
  simp

theorem eligible_sorted (now : Time) (activeJobs : List (Job Cpu Mem)) (preempted : List String)
    (pending : Job Cpu Mem) (workerID : String) :
    (eligible now activeJobs preempted pending workerID).Pairwise fun left right =>
      victimKey now left ≤ victimKey now right :=
  (Keyset.sortBy_sorted _).sublist List.filter_sublist

theorem eligible_distinct {activeJobs : List (Job Cpu Mem)} (distinct : (activeJobs.map Job.id).Nodup)
    (single : SingleWorker activeJobs) (now : Time) (preempted : List String) (pending : Job Cpu Mem)
    (workerID : String) : ((eligible now activeJobs preempted pending workerID).map Job.id).Nodup := by
  have found := runningPreemptible_distinct distinct single workerID
  have all : ((candidatesOn now activeJobs workerID).map Job.id).Nodup :=
    ((Keyset.sortBy_perm _).map Job.id).nodup_iff.mpr found
  exact all.sublist (List.filter_sublist.map Job.id)

/-- The jobs that PlanPreemptions works for. -/
def Unplaced (activeJobs : List (Job Cpu Mem)) (placed : List Assignment) (job : Job Cpu Mem) : Prop :=
  job ∈ activeJobs ∧ job.state = .queued ∧ job.id ∉ placed.map Assignment.jobID

/-- They are considered in the order of their ranks. -/
def unplacedJobs (activeJobs : List (Job Cpu Mem)) (placed : List Assignment) (now : Time) :
    List (Job Cpu Mem) :=
  sortByEffectivePriority now (activeJobs.filter fun job =>
    job.state = .queued && !(placed.map Assignment.jobID).contains job.id)

theorem mem_unplacedJobs {activeJobs : List (Job Cpu Mem)} {now : Time} {placed : List Assignment}
    {job : Job Cpu Mem} :
    job ∈ unplacedJobs activeJobs placed now ↔ Unplaced activeJobs placed job := by
  rw [unplacedJobs, sortByEffectivePriority_eq, (Keyset.sortBy_perm _).mem_iff]
  simp [Unplaced]

/-- What holds of everything that a pass has stopped so far. -/
structure Sound (now : Time) (activeJobs : List (Job Cpu Mem)) (activeWorkers : List (Worker Cpu Mem))
    (Pending : Job Cpu Mem → Prop) (books : PreemptionBooks Cpu Mem) : Prop where
  named : books.preemptions.map Preemption.jobID = books.preempted
  once : books.preempted.Nodup
  entitled : ∀ preemption ∈ books.preemptions, ∃ victim worker pending,
    preemption = ⟨victim.id, worker.id, preemptionReason pending.id⟩ ∧
      Stoppable activeJobs worker.id victim ∧ worker ∈ activeWorkers ∧ worker.status = .active ∧
      Pending pending ∧ jobPriority now victim < jobPriority now pending
  lowest : ∀ preemption ∈ books.preemptions, ∀ victim ∈ activeJobs, victim.id = preemption.jobID →
    ∀ other, Stoppable activeJobs preemption.workerID other →
      jobPriority now other < jobPriority now victim → other.id ∈ books.preempted

section Victims
variable [Zero Cpu] [Add Cpu] [Zero Mem] [Add Mem]

/-- What the victims give back. -/
def freedBy (victims : List (Job Cpu Mem)) : CommittedResources Cpu Mem :=
  victims.foldl (fun freed victim => freed.add victim.resources) .zero

theorem freedBy_snoc (victims : List (Job Cpu Mem)) (victim : Job Cpu Mem) :
    freedBy (victims ++ [victim]) = (freedBy victims).add victim.resources := by
  simp [freedBy]

variable [LE Cpu] [DecidableLE Cpu] [LE Mem] [DecidableLE Mem]

/-- Whether stopping the victims makes room for the request. -/
def relieves (free : CommittedResources Cpu Mem) (request : ResourceRequest Cpu Mem)
    (victims : List (Job Cpu Mem)) : Bool :=
  enough free (freedBy victims) request

/-- The loop over the candidates is a run through those that may be stopped. -/
theorem collectVictims_eq (now : Time) (pending : Job Cpu Mem) (free : CommittedResources Cpu Mem)
    (preempted : List String) {candidates : List (Job Cpu Mem)}
    (sorted : candidates.Pairwise fun left right => victimKey now left ≤ victimKey now right)
    (victims : List (Job Cpu Mem)) :
    collectVictims now pending free preempted candidates victims (freedBy victims) =
      (Stopping.takeUntil (relieves free pending.resources) victims
          (candidates.filter (mayStop now preempted pending)),
        freedBy (Stopping.takeUntil (relieves free pending.resources) victims
          (candidates.filter (mayStop now preempted pending)))) := by
  induction candidates generalizing victims with
  | nil => rfl
  | cons cand rest ih =>
      obtain ⟨above, tail⟩ := List.pairwise_cons.mp sorted
      unfold collectVictims
      by_cases stopped : preempted.contains cand.id = true
      · have passed : ¬ mayStop now preempted pending cand = true := by rw [mayStop, stopped]; simp
        rw [if_pos stopped, ih tail, List.filter_cons_of_neg passed]
      · rw [if_neg stopped]
        by_cases high : jobPriority now pending ≤ jobPriority now cand
        · -- The loop breaks, and the rest has no lower priority.
          have none : (cand :: rest).filter (mayStop now preempted pending) = [] := by
            refine List.filter_eq_nil_iff.mpr fun other member => ?_
            have higher : jobPriority now cand ≤ jobPriority now other := by
              rcases List.mem_cons.mp member with rfl | later
              · exact le_rfl
              · exact jobPriority_le_of_key (above other later)
            simp [mayStop, not_lt.mpr (high.trans higher)]
          rw [if_pos high, none]
          rfl
        · have taken : mayStop now preempted pending cand = true := by
            simpa [mayStop, not_le.mp high] using stopped
          rw [if_neg high, List.filter_cons_of_pos taken, Stopping.takeUntil, ← freedBy_snoc, ih tail]
          by_cases reached : enough free (freedBy (victims ++ [cand])) pending.resources = true
          · have reached' : relieves free pending.resources (victims ++ [cand]) = true := reached
            rw [if_pos reached, if_pos reached']
          · have short : ¬ relieves free pending.resources (victims ++ [cand]) = true := reached
            rw [if_neg reached, if_neg short]

end Victims

section Stop
variable [Zero Cpu] [Add Cpu] [Sub Cpu] [Zero Mem] [Add Mem] [Sub Mem]

/-- The books after the victims have been stopped. -/
def stop (books : PreemptionBooks Cpu Mem) (pending : Job Cpu Mem) (worker : Worker Cpu Mem)
    (victims : List (Job Cpu Mem)) : PreemptionBooks Cpu Mem where
  committed id :=
    if id = worker.id then (books.committed id).sub (freedBy victims) else books.committed id
  preempted := books.preempted ++ victims.map Job.id
  preemptions := books.preemptions ++
    victims.map fun victim => ⟨victim.id, worker.id, preemptionReason pending.id⟩

variable {now : Time} {activeJobs : List (Job Cpu Mem)} {activeWorkers : List (Worker Cpu Mem)}
  {Pending : Job Cpu Mem → Prop} {books : PreemptionBooks Cpu Mem}

theorem stop_sound (distinct : (activeJobs.map Job.id).Nodup) (single : SingleWorker activeJobs)
    (sound : Sound now activeJobs activeWorkers Pending books) {pending : Job Cpu Mem}
    (isPending : Pending pending) {worker : Worker Cpu Mem} (listed : worker ∈ activeWorkers)
    (active : worker.status = .active) {victims : List (Job Cpu Mem)}
    (leads : victims <+: eligible now activeJobs books.preempted pending worker.id) :
    Sound now activeJobs activeWorkers Pending (stop books pending worker victims) where
  named := by simp [stop, sound.named, Function.comp_def]
  once := by
    have own : (victims.map Job.id).Nodup :=
      (eligible_distinct distinct single _ _ _ _).sublist (leads.sublist.map Job.id)
    refine List.nodup_append'.mpr ⟨sound.once, own, fun id before again => ?_⟩
    obtain ⟨victim, member, rfl⟩ := List.mem_map.mp again
    exact (mem_eligible.mp (leads.subset member)).2.1 before
  entitled preemption member := by
    rcases List.mem_append.mp member with before | new
    · exact sound.entitled preemption before
    · obtain ⟨victim, isVictim, rfl⟩ := List.mem_map.mp new
      obtain ⟨stoppable, _, below⟩ := mem_eligible.mp (leads.subset isVictim)
      exact ⟨victim, worker, pending, rfl, stoppable, listed, active, isPending, below⟩
  lowest preemption member victim inside isNamed other stoppable lower := by
    rcases List.mem_append.mp member with before | new
    · have known := sound.lowest preemption before victim inside isNamed other stoppable lower
      exact List.mem_append_left _ known
    · obtain ⟨taken, isTaken, rfl⟩ := List.mem_map.mp new
      obtain ⟨known, _, below⟩ := mem_eligible.mp (leads.subset isTaken)
      obtain rfl := List.inj_on_of_nodup_map distinct inside known.1 isNamed
      by_cases earlier : other.id ∈ books.preempted
      · exact List.mem_append_left _ earlier
      · -- The other job stands before the victim, so the run has taken it as well.
        have inLine : other ∈ eligible now activeJobs books.preempted pending worker.id :=
          mem_eligible.mpr ⟨stoppable, earlier, lower.trans below⟩
        have first : victimKey now other < victimKey now victim :=
          Prod.Lex.toLex_lt_toLex.mpr (.inl lower)
        have taken := Keyset.sorted_front (eligible_sorted _ _ _ _ _) leads isTaken inLine first
        exact List.mem_append_right _ (List.mem_map_of_mem taken)

end Stop

section Pass
variable [Zero Cpu] [Add Cpu] [Sub Cpu] [LT Cpu] [DecidableLT Cpu] [LE Cpu] [DecidableLE Cpu]
variable [Zero Mem] [Add Mem] [Sub Mem] [LT Mem] [DecidableLT Mem] [LE Mem] [DecidableLE Mem]
variable (now : Time) (activeJobs : List (Job Cpu Mem))

/-- What is free for the pending job on the worker, by the books of the pass. -/
def freeFor (books : PreemptionBooks Cpu Mem) (pending : Job Cpu Mem) (worker : Worker Cpu Mem) :
    CommittedResources Cpu Mem :=
  freeOn books.committed worker pending.resources.minGPUMemoryBytes

/-- The victims that the worker would yield to the pending job. -/
def victimsOn (books : PreemptionBooks Cpu Mem) (pending : Job Cpu Mem) (worker : Worker Cpu Mem) :
    List (Job Cpu Mem) :=
  Stopping.takeUntil (relieves (freeFor books pending worker) pending.resources) []
    (eligible now activeJobs books.preempted pending worker.id)

/-- The worker on which the pending job is served, with its victims. -/
def served (pending : Job Cpu Mem) :
    List (Worker Cpu Mem) → PreemptionBooks Cpu Mem → Option (Worker Cpu Mem × List (Job Cpu Mem))
  | [], _ => none
  | worker :: rest, books =>
      if worker.status ≠ .active then served pending rest books
      else if fitsNow (freeFor books pending worker) pending.resources then none
      else if tooLittle (freeFor books pending worker)
        (freedBy (victimsOn now activeJobs books pending worker)) pending.resources then
          served pending rest books
      else some (worker, victimsOn now activeJobs books pending worker)

/-- One turn of the pass: it stops the victims of `served`, or nothing. -/
theorem preemptFor_eq (pending : Job Cpu Mem) (workers : List (Worker Cpu Mem))
    (books : PreemptionBooks Cpu Mem) :
    preemptFor now activeJobs pending workers books =
      match served now activeJobs pending workers books with
      | none => books
      | some (worker, victims) => stop books pending worker victims := by
  induction workers with
  | nil => rfl
  | cons worker rest ih =>
      have sorted : (runningPreemptibleByWorker activeJobs worker.id).insertionSort
          (fun left right => victimLess now right left = false) =
            candidatesOn now activeJobs worker.id :=
        Keyset.insertionSort_eq_sortBy (victimLess_iff now) _
      have collected : collectVictims now pending (freeFor books pending worker) books.preempted
          (candidatesOn now activeJobs worker.id) [] .zero =
            (victimsOn now activeJobs books pending worker,
              freedBy (victimsOn now activeJobs books pending worker)) :=
        collectVictims_eq now pending (freeFor books pending worker) books.preempted
          (Keyset.sortBy_sorted _) []
      unfold preemptFor served
      rw [sorted, ← freeFor]
      simp only [collected]
      by_cases inactive : worker.status ≠ .active
      · simp only [if_pos inactive]
        exact ih
      · simp only [if_neg inactive]
        split
        · rfl
        · split
          · exact ih
          · rfl

variable {now activeJobs}

theorem served_some {pending : Job Cpu Mem} {workers : List (Worker Cpu Mem)}
    {books : PreemptionBooks Cpu Mem} {worker : Worker Cpu Mem} {victims : List (Job Cpu Mem)}
    (isServed : served now activeJobs pending workers books = some (worker, victims)) :
    worker ∈ workers ∧ worker.status = .active ∧
      victims <+: eligible now activeJobs books.preempted pending worker.id := by
  induction workers with
  | nil => cases isServed
  | cons first rest ih =>
      have later := fun found => (ih found).imp (List.mem_cons_of_mem first) id
      unfold served at isServed
      by_cases inactive : first.status ≠ .active
      · rw [if_pos inactive] at isServed
        exact later isServed
      · rw [if_neg inactive] at isServed
        split at isServed
        · cases isServed
        · split at isServed
          · exact later isServed
          · cases isServed
            exact ⟨List.mem_cons_self, not_not.mp inactive, Stopping.takeUntil_leads _ _⟩

variable {activeWorkers : List (Worker Cpu Mem)} {Pending : Job Cpu Mem → Prop}
  {books : PreemptionBooks Cpu Mem}

theorem preemptFor_sound (distinct : (activeJobs.map Job.id).Nodup) (single : SingleWorker activeJobs)
    (sound : Sound now activeJobs activeWorkers Pending books) {pending : Job Cpu Mem}
    (isPending : Pending pending) :
    Sound now activeJobs activeWorkers Pending
      (preemptFor now activeJobs pending activeWorkers books) := by
  rw [preemptFor_eq]
  cases isServed : served now activeJobs pending activeWorkers books with
  | none => exact sound
  | some found =>
      obtain ⟨listed, active, leads⟩ := served_some isServed
      exact stop_sound distinct single sound isPending listed active leads

theorem pass_sound (distinct : (activeJobs.map Job.id).Nodup) (single : SingleWorker activeJobs)
    {pendings : List (Job Cpu Mem)} (allPending : ∀ pending ∈ pendings, Pending pending)
    (sound : Sound now activeJobs activeWorkers Pending books) :
    Sound now activeJobs activeWorkers Pending (pendings.foldl
      (fun books job => preemptFor now activeJobs job activeWorkers books) books) := by
  induction pendings generalizing books with
  | nil => exact sound
  | cons pending rest ih =>
      exact ih (fun other member => allPending other (List.mem_cons_of_mem _ member))
        (preemptFor_sound distinct single sound (allPending pending List.mem_cons_self))

/-- The books that the pass starts from. -/
def openBooks (activeJobs : List (Job Cpu Mem)) (placed : List Assignment) : PreemptionBooks Cpu Mem :=
  ⟨commitPlaced activeJobs placed (committedByWorker activeJobs), [], []⟩

theorem planPreemptions_sound (distinct : (activeJobs.map Job.id).Nodup)
    (single : SingleWorker activeJobs) (activeWorkers : List (Worker Cpu Mem))
    (placed : List Assignment) (now : Time) :
    ∃ books, Sound now activeJobs activeWorkers (Unplaced activeJobs placed) books ∧
      planPreemptions activeJobs activeWorkers placed now = books.preemptions := by
  have opened : Sound now activeJobs activeWorkers (Unplaced activeJobs placed)
      (openBooks activeJobs placed) :=
    ⟨rfl, List.nodup_nil, fun _ member => (by cases member), fun _ member => (by cases member)⟩
  exact ⟨_, pass_sound distinct single (fun _ => mem_unplacedJobs.mp) opened, rfl⟩

/-- A preemption stops a running job that may be stopped, below the job it is for,
and not before every such job of the worker with a lower priority. -/
theorem preemptions_safe (activeJobs : List (Job Cpu Mem)) (activeWorkers : List (Worker Cpu Mem))
    (placed : List Assignment) (now : Time) (jobIDs : (activeJobs.map Job.id).Nodup)
    (single : SingleWorker activeJobs) :
    (∀ preemption ∈ planPreemptions activeJobs activeWorkers placed now,
        ∃ victim ∈ activeJobs, ∃ worker ∈ activeWorkers, ∃ pending ∈ activeJobs,
          preemption = ⟨victim.id, worker.id, preemptionReason pending.id⟩ ∧
            victim.state = .running ∧ victim.preemptible = true ∧
            victim.assignedWorkerIDs = [worker.id] ∧ worker.status = .active ∧
            pending.state = .queued ∧ pending.id ∉ placed.map Assignment.jobID ∧
            jobPriority now victim < jobPriority now pending) ∧
      ((planPreemptions activeJobs activeWorkers placed now).map Preemption.jobID).Nodup ∧
      ∀ preemption ∈ planPreemptions activeJobs activeWorkers placed now,
        ∀ victim ∈ activeJobs, victim.id = preemption.jobID →
          ∀ other ∈ activeJobs, other.state = .running → other.preemptible = true →
            preemption.workerID ∈ other.assignedWorkerIDs →
            jobPriority now other < jobPriority now victim →
            ∃ also ∈ planPreemptions activeJobs activeWorkers placed now, also.jobID = other.id := by
  obtain ⟨books, sound, isResult⟩ := planPreemptions_sound jobIDs single activeWorkers placed now
  rw [isResult]
  refine ⟨?_, ?_, ?_⟩
  · intro preemption member
    obtain ⟨victim, worker, pending, isEntry, ⟨listed, running, preemptible, assigned⟩, known, active,
      ⟨isListed, queued, unplaced⟩, below⟩ := sound.entitled preemption member
    obtain ⟨workerID, isOnly⟩ := single victim listed (by rw [running]; rfl)
    obtain rfl : worker.id = workerID := by simpa [isOnly] using assigned
    exact ⟨victim, listed, worker, known, pending, isListed, isEntry, running, preemptible, isOnly,
      active, queued, unplaced, below⟩
  · rw [sound.named]
    exact sound.once
  · intro preemption member victim listed isNamed other inside running preemptible assigned lower
    have stopped := sound.lowest preemption member victim listed isNamed other
      ⟨inside, running, preemptible, assigned⟩ lower
    rw [← sound.named] at stopped
    exact List.mem_map.mp stopped

end Pass

def waitingJob (id : String) (priority : Int) (gpuCount : Nat) (minGPUMemoryBytes : Int) :
    Job Int Int :=
  { JobService.newJob 0 id (submission ⟨gpuCount, minGPUMemoryBytes, 1, 1⟩) with
    priority := priority }

def runningJob (id : String) (priority : Int) (gpuCount : Nat) (workerID : String) : Job Int Int :=
  { waitingJob id priority gpuCount 0 with
    state := .running
    preemptible := true
    assignedWorkerIDs := [workerID] }

/-- A worker with these GPUs and as much of everything else as the jobs here need. -/
def gpuWorker (id : String) (sizes : List Int) : Worker Int Int :=
  { Devices.mixedWorker with id := id, gpus := sizes.map (device 0) }

/-- Three running jobs on three GPUs, and one that needs two of them. -/
def crowdedJobs : List (Job Int Int) :=
  [runningJob "job-1" 20 1 "worker-1", runningJob "job-2" 10 1 "worker-1",
    runningJob "job-3" 60 1 "worker-1", waitingJob "job-4" 50 2 0]

theorem crowdedJobs_preempted :
    (planPreemptions crowdedJobs [gpuWorker "worker-1" [16, 16, 16]] [] 0).map Preemption.jobID =
        ["job-2", "job-1"] ∧
      ((planPreemptions crowdedJobs [gpuWorker "worker-1" [16, 16, 16]] [] 0).map
        Preemption.jobID).Nodup := by
  have single : SingleWorker crowdedJobs := by
    simp [SingleWorker, crowdedJobs, runningJob, waitingJob, JobService.newJob, held]
  exact ⟨by decide, (preemptions_safe crowdedJobs [gpuWorker "worker-1" [16, 16, 16]] [] 0 (by decide)
    single).2.1⟩

section Aging
variable [Zero Cpu] [Add Cpu] [Sub Cpu] [LT Cpu] [DecidableLT Cpu] [LE Cpu] [DecidableLE Cpu]
variable [Zero Mem] [Add Mem] [Sub Mem] [LT Mem] [DecidableLT Mem] [LE Mem] [DecidableLE Mem]

/-- The reason names the job. -/
theorem preemptionReason_inj {left right : String}
    (same : preemptionReason left = preemptionReason right) : left = right := by
  unfold preemptionReason at same
  exact String.append_right_inj _ |>.mp same

/-- Aging never turns two jobs around: once the younger one was above the older one,
the older one is not preferred again, and no pass stops the younger one for it,
whatever else has become of the two jobs. -/
theorem never_turned_around {older younger : Job Cpu Mem} {early late : Int}
    (created : older.createdAt ≤ younger.createdAt) (validOlder : ValidPriority older.priority)
    (validYounger : ValidPriority younger.priority) (started : younger.createdAt ≤ early)
    (ordered : early ≤ late) (above : jobPriority early older < jobPriority early younger) :
    jobPriority late older ≤ jobPriority late younger ∧
      ∀ (activeJobs : List (Job Cpu Mem)) (activeWorkers : List (Worker Cpu Mem))
        (placed : List Assignment), (activeJobs.map Job.id).Nodup → SingleWorker activeJobs →
        ∀ waiting ∈ activeJobs, waiting.priority = older.priority → waiting.createdAt = older.createdAt →
        ∀ running ∈ activeJobs, running.priority = younger.priority →
          running.createdAt = younger.createdAt →
        ∀ preemption ∈ planPreemptions activeJobs activeWorkers placed late,
          preemption.jobID = running.id → preemption.reason ≠ preemptionReason waiting.id := by
  have level : jobPriority late older ≤ jobPriority late younger := by
    have gap := agingBonus_gap created started ordered
    unfold jobPriority at above ⊢
    rw [valid_effectivePriority validOlder, valid_effectivePriority validYounger] at above ⊢
    omega
  refine ⟨level, ?_⟩
  intro activeJobs activeWorkers placed jobIDs single waiting listed samePriority sameCreation
    running listed' samePriority' sameCreation' preemption member stopped cause
  obtain ⟨books, sound, isResult⟩ := planPreemptions_sound jobIDs single activeWorkers placed late
  rw [isResult] at member
  obtain ⟨victim, worker, pending, rfl, stoppable, _, _, unplaced, below⟩ :=
    sound.entitled preemption member
  obtain rfl := List.inj_on_of_nodup_map jobIDs stoppable.1 listed' stopped
  obtain rfl := List.inj_on_of_nodup_map jobIDs unplaced.1 listed (preemptionReason_inj cause)
  unfold jobPriority at level below
  rw [samePriority, sameCreation, samePriority', sameCreation'] at below
  exact absurd below (not_lt.mpr level)

end Aging

/-- Half a minute in, the older job has caught up with the younger one and no more. -/
theorem job2_not_turned_around :
    jobPriority 1000000000 (waitingJob "job-1" 4 1 0) <
        jobPriority 1000000000 { waitingJob "job-2" 5 1 0 with createdAt := 1000000000 } ∧
      jobPriority 30000000000 (waitingJob "job-1" 4 1 0) ≤
        jobPriority 30000000000 { waitingJob "job-2" 5 1 0 with createdAt := 1000000000 } :=
  ⟨by decide, (never_turned_around (by decide) ⟨by decide, by decide⟩ ⟨by decide, by decide⟩
    (by decide) (by decide : (1000000000 : Int) ≤ 30000000000) (by decide)).1⟩

end OrionQueue.PreemptionPass
