import OrionQueue.MachineExact

/-!
The second pass on the machine. The books carry whatever is held on a worker and
not yet preempted in the pass. So what the victims on a worker give back is part
of what is committed there, and neither the difference nor the room they would
leave can overflow.
-/

namespace OrionQueue.MachinePreemptions

open Jobs Workers Planner PlannerCapacity PlanOrder PreemptionPass Ledger MachineExact
open MachinePlanner hiding reserve commitJob committedByWorker freeGPUCount freeOn candidate
  selectWorker placements plan collectVictims preemptFor commitPlaced planPreemptions

variable {Cpu : Type}

section Holding
variable {capacity : String → Int} {activeJobs : List (Job Cpu Int)}
  {activeWorkers : List (Worker Cpu Int)}

/-- What is held on the worker and not yet preempted in the pass. -/
def stillOn (activeJobs : List (Job Cpu Int)) (preempted : List String) (workerID : String) :
    List (Job Cpu Int) :=
  (onWorker (holdings activeJobs) workerID).filter fun job => !preempted.contains job.id

theorem onWorker_holdings (jobs : List (Job Cpu Int)) (workerID : String) :
    onWorker (holdings jobs) workerID = (jobs.filter fun job => held job.state).flatMap fun job =>
      (job.assignedWorkerIDs.filter fun id => id = workerID).map fun _ => job := by
  rw [onWorker, holdings, List.filter_flatMap, List.map_flatMap]
  refine List.flatMap_congr fun job _ => ?_
  rw [List.filter_map, List.map_map]
  rfl

/-- The candidates for preemption are held on their worker. -/
theorem candidates_sublist (jobs : List (Job Cpu Int)) (workerID : String) :
    (runningPreemptibleByWorker jobs workerID).Sublist (onWorker (holdings jobs) workerID) := by
  rw [onWorker_holdings, runningPreemptibleByWorker]
  refine List.Sublist.flatMap (List.monotone_filter_right _ fun job running => ?_) _
  simp only [Bool.and_eq_true, decide_eq_true_eq] at running
  rw [running.1]
  rfl

theorem mem_onWorker {jobs : List (Job Cpu Int)} {workerID : String} {job : Job Cpu Int}
    (member : job ∈ onWorker (holdings jobs) workerID) : job ∈ jobs := by
  obtain ⟨entry, inside, rfl⟩ := List.mem_map.mp member
  exact (mem_holdings (List.mem_filter.mp inside).1).1

theorem stillOn_append (activeJobs : List (Job Cpu Int)) (preempted : List String)
    (victims : List (Job Cpu Int)) (workerID : String) :
    stillOn activeJobs (preempted ++ victims.map Job.id) workerID =
      (stillOn activeJobs preempted workerID).filter fun job =>
        !(victims.map Job.id).contains job.id := by
  rw [stillOn, stillOn, List.filter_filter]
  refine List.filter_congr fun job _ => ?_
  rw [List.contains_append, Bool.not_or, Bool.and_comm]

/-- Items taken out of a list, and what is left once all of their name are gone. -/
theorem total_parted {weight : Job Cpu Int → Int} {taken jobs : List (Job Cpu Int)}
    (sub : taken.Subperm jobs) (nonneg : ∀ job ∈ jobs, 0 ≤ weight job) :
    total weight (jobs.filter fun job => !(taken.map Job.id).contains job.id) + total weight taken ≤
      total weight jobs := by
  have named : taken.Subperm (jobs.filter fun job => (taken.map Job.id).contains job.id) := by
    have filtered := sub.filter fun job => (taken.map Job.id).contains job.id
    rwa [List.filter_eq_self.mpr fun job member => by
      simpa using ⟨job, member, rfl⟩] at filtered
  have first := total_subperm named fun job member => nonneg job (List.mem_filter.mp member).1
  have parts := List.filter_append_perm (fun job => (taken.map Job.id).contains job.id) jobs
  have sums := (parts.map weight).sum_eq
  rw [List.map_append, List.sum_append] at sums
  simp only [total] at first ⊢
  omega

/-- Victims are held on their worker, and were not preempted before. -/
theorem victims_held {now : Time} {pending : Job Cpu Int} {preempted : List String}
    {workerID : String} {victims : List (Job Cpu Int)}
    (leads : victims <+: eligible now activeJobs preempted pending workerID) :
    victims.Subperm (stillOn activeJobs preempted workerID) := by
  have running : (candidatesOn now activeJobs workerID).Perm
      (runningPreemptibleByWorker activeJobs workerID) := Keyset.sortBy_perm _
  have unstopped : (eligible now activeJobs preempted pending workerID).Sublist
      ((candidatesOn now activeJobs workerID).filter fun job => !preempted.contains job.id) := by
    refine List.monotone_filter_right _ fun job may => ?_
    rw [mayStop, Bool.and_eq_true] at may
    exact may.1
  exact (leads.sublist.trans unstopped).subperm.trans ((running.filter _).subperm.trans
    ((candidates_sublist activeJobs workerID).filter _).subperm)

end Holding

section Preempting
variable {capacity : String → Int} {activeJobs : List (Job Cpu Int)}
  {activeWorkers : List (Worker Cpu Int)} {int : Arithmetic} {now : Time} {pending : Job Cpu Int}

/-- Books within their limits that still carry whatever is held and not preempted. -/
structure Backed (capacity : String → Int) (activeJobs : List (Job Cpu Int))
    (books : PreemptionBooks Cpu Int) : Prop where
  limits : InLimits capacity books.committed
  carried : ∀ (counter : Counter) id,
    total (fun job => counter.need job.resources) (stillOn activeJobs books.preempted id) ≤
      counter.part (books.committed id)

/-- The candidates of a worker give back no more than is committed to it. -/
theorem candidates_backed (fitting : Fitting capacity activeJobs activeWorkers)
    {books : PreemptionBooks Cpu Int} (backed : Backed capacity activeJobs books) (workerID : String)
    {candidates : List (Job Cpu Int)}
    (permuted : candidates.Perm (runningPreemptibleByWorker activeJobs workerID)) (counter : Counter) :
    total (fun job => counter.need job.resources)
        (candidates.filter fun job => !books.preempted.contains job.id) ≤
      counter.part (books.committed workerID) := by
  have kept : (candidates.filter fun job => !books.preempted.contains job.id).Subperm
      (stillOn activeJobs books.preempted workerID) :=
    (permuted.filter _).subperm.trans ((candidates_sublist activeJobs workerID).filter _).subperm
  refine le_trans (total_subperm kept fun job member => ?_) (backed.carried counter workerID)
  exact fitting.need_nonneg (mem_onWorker (List.mem_filter.mp member).1) counter

/-- Whatever of a worker's commitments comes back, its room stays countable. -/
theorem spare_room [Sub Cpu] {committed : Committed Cpu Int}
    (fitting : Fitting capacity activeJobs activeWorkers) (limits : InLimits capacity committed)
    {worker : Worker Cpu Int} (listed : worker ∈ activeWorkers) (minMemoryBytes : Int)
    (counter : Counter) (amount : Int) (nonneg : 0 ≤ amount)
    (most : amount ≤ counter.part (committed worker.id)) :
    InRange (counter.part (freeOn committed worker minMemoryBytes) + amount) := by
  have range := limits counter worker.id
  have top := limit_lt (fun id => (fitting.capacities id).2) counter worker.id
  cases counter with
  | memoryBytes =>
      have size := fitting.capacities worker.id
      simp only [Counter.part, limit, freeOn, fitting.known worker listed] at *
      exact ⟨by omega, by omega⟩
  | gpuCount =>
      have bounds := freeGPUCount_bounds worker minMemoryBytes (committed worker.id).gpuCount range.1
      have inventory := fitting.inventories worker listed
      simp only [Counter.part, limit, freeOn] at *
      exact ⟨by omega, by omega⟩

theorem freedBy_part [Zero Cpu] [Add Cpu] (counter : Counter) (victims : List (Job Cpu Int)) :
    counter.part (freedBy victims) = total (fun job => counter.need job.resources) victims := by
  induction victims using List.reverseRecOn with
  | nil => exact zero_part counter
  | append_singleton earlier victim ih =>
      rw [freedBy_snoc, add_part, ih]
      simp [total]

/-- What has been freed, and whatever the candidates can still add to it, stays within a
budget. -/
structure Affordable (budget : Counter → Int) (preempted : List String)
    (candidates : List (Job Cpu Int)) (freed : CommittedResources Cpu Int) : Prop where
  nonneg : ∀ cand ∈ candidates, ∀ counter : Counter, 0 ≤ counter.need cand.resources
  start : ∀ counter : Counter, 0 ≤ counter.part freed
  bounded : ∀ counter : Counter, counter.part freed +
    total (fun job => counter.need job.resources)
      (candidates.filter fun job => !preempted.contains job.id) ≤ budget counter

section Budget
variable {budget : Counter → Int} {preempted : List String} {cand : Job Cpu Int}
  {candidates rest : List (Job Cpu Int)} {freed : CommittedResources Cpu Int}

theorem Affordable.within (affordable : Affordable budget preempted candidates freed)
    (counter : Counter) : counter.part freed ≤ budget counter := by
  refine le_of_add_total (fun job member => ?_) (affordable.bounded counter)
  exact affordable.nonneg job (List.mem_filter.mp member).1 counter

theorem Affordable.skip (affordable : Affordable budget preempted (cand :: rest) freed)
    (stopped : preempted.contains cand.id = true) : Affordable budget preempted rest freed where
  nonneg other member := affordable.nonneg other (List.mem_cons_of_mem cand member)
  start := affordable.start
  bounded counter := by
    have bound := affordable.bounded counter
    rwa [List.filter_cons_of_neg (by simpa using stopped)] at bound

theorem Affordable.take [Add Cpu] (affordable : Affordable budget preempted (cand :: rest) freed)
    (unstopped : ¬ preempted.contains cand.id = true) :
    Affordable budget preempted rest (freed.add cand.resources) where
  nonneg other member := affordable.nonneg other (List.mem_cons_of_mem cand member)
  start counter := by
    rw [add_part]
    exact add_nonneg (affordable.start counter) (affordable.nonneg cand List.mem_cons_self counter)
  bounded counter := by
    have bound := affordable.bounded counter
    rw [List.filter_cons_of_pos (by simpa using unstopped)] at bound
    simpa [total, add_part, add_assoc] using bound

theorem Affordable.settled (affordable : Affordable budget preempted candidates freed) :
    Affordable budget preempted [] freed where
  nonneg := by simp
  start := affordable.start
  bounded counter := by simpa [total] using affordable.within counter

/-- The loop over the candidates, where the budget is countable and leaves room on top of
what is free. -/
theorem collectVictims_exact [Add Cpu] [LE Cpu] [DecidableLE Cpu] (faithful : Faithful int)
    {free : CommittedResources Cpu Int} (small : ∀ counter, budget counter < 2 ^ 63)
    (spare : ∀ (counter : Counter) amount, 0 ≤ amount → amount ≤ budget counter →
      InRange (counter.part free + amount))
    {victims : List (Job Cpu Int)} (affordable : Affordable budget preempted candidates freed) :
    MachinePlanner.collectVictims int now pending free preempted candidates victims freed =
        some (collectVictims now pending free preempted candidates victims freed) ∧
      Affordable budget preempted []
        (collectVictims now pending free preempted candidates victims freed).2 := by
  induction candidates generalizing victims freed with
  | nil => exact ⟨rfl, affordable⟩
  | cons cand rest ih =>
      unfold MachinePlanner.collectVictims collectVictims
      by_cases stopped : preempted.contains cand.id = true
      · simp only [if_pos stopped]
        exact ih (affordable.skip stopped)
      simp only [if_neg stopped]
      by_cases high : jobPriority now pending ≤ jobPriority now cand
      · simp only [if_pos high]
        exact ⟨trivial, affordable.settled⟩
      simp only [if_neg high]
      have more := affordable.take stopped
      have sum : add int freed cand.resources = _ := add_exact faithful fun counter => by
        rw [← add_part]
        exact ⟨by have low := more.start counter; omega,
          lt_of_le_of_lt (more.within counter) (small counter)⟩
      have room : together int free (freed.add cand.resources) = _ := together_exact faithful
        fun counter => spare counter _ (more.start counter) (more.within counter)
      simp only [sum, room, Option.bind_eq_bind, Option.bind_some]
      by_cases reached : enough free (freed.add cand.resources) pending.resources = true
      · have fits : fitsNow ⟨_, _, _⟩ pending.resources = true := reached
        simp only [if_pos reached, if_pos fits]
        exact ⟨rfl, more.settled⟩
      · have short : ¬ fitsNow ⟨_, _, _⟩ pending.resources = true := reached
        simp only [if_neg reached, if_neg short]
        exact ih more

end Budget

/-- Stopping victims keeps the books: they lose what the victims held, and no more than
what is held is carried on. -/
theorem backed_stop [Zero Cpu] [Add Cpu] [Sub Cpu]
    (fitting : Fitting capacity activeJobs activeWorkers)
    {books : PreemptionBooks Cpu Int} (backed : Backed capacity activeJobs books)
    {worker : Worker Cpu Int} {victims : List (Job Cpu Int)}
    (leads : victims <+: eligible now activeJobs books.preempted pending worker.id) :
    Backed capacity activeJobs (stop books pending worker victims) := by
  have nonneg : ∀ (counter : Counter) preempted id, ∀ job ∈ stillOn activeJobs preempted id,
      0 ≤ counter.need job.resources := fun counter preempted id job member =>
    fitting.need_nonneg (mem_onWorker (List.mem_filter.mp member).1) counter
  have taken := victims_held leads
  have part_sub : ∀ (counter : Counter) (committed : CommittedResources Cpu Int),
      counter.part (committed.sub (freedBy victims)) = counter.part committed -
        total (fun job => counter.need job.resources) victims := by
    intro counter committed
    rw [← freedBy_part]
    cases counter <;> rfl
  constructor
  · intro counter id
    have before := backed.limits counter id
    by_cases own : id = worker.id
    · have given := total_subperm taken (nonneg counter books.preempted worker.id)
      have carried := backed.carried counter worker.id
      have sign := total_nonneg fun job member =>
        nonneg counter books.preempted worker.id job (taken.subset member)
      subst own
      simp only [stop, if_true, part_sub]
      omega
    · simpa only [stop, if_neg own] using before
  · intro counter id
    have carried := backed.carried counter id
    by_cases own : id = worker.id
    · subst own
      have parted := total_parted taken (nonneg counter books.preempted worker.id)
      simp only [stop, if_true, part_sub, stillOn_append]
      omega
    · simp only [stop, if_neg own, stillOn_append]
      refine le_trans (total_subperm List.filter_sublist.subperm ?_) carried
      exact nonneg counter books.preempted id

/-- Read back from its assignments, a plan is charged as it was placed. -/
theorem commitPlaced_entries [Add Cpu] (int : Arithmetic) {placed : List (Job Cpu Int × String)}
    (known : ∀ placement ∈ placed, jobByID activeJobs placement.1.id = some placement.1)
    (committed : Committed Cpu Int) :
    let assignments : List Assignment :=
      placed.map fun placement => ⟨placement.1.id, placement.2, eligibleReason⟩
    commitPlaced activeJobs assignments committed = chargeAll committed (placed.map Prod.swap) ∧
      MachinePlanner.commitPlaced int activeJobs assignments committed =
        (placed.map Prod.swap).foldlM (fun current entry =>
          MachinePlanner.reserve int current entry.1 entry.2.resources) committed := by
  constructor
  · induction placed generalizing committed with
    | nil => rfl
    | cons placement rest ih =>
        simp only [commitPlaced, List.map_cons, List.foldl_cons, known placement List.mem_cons_self]
        exact ih (fun other member => known other (List.mem_cons_of_mem _ member)) _
  · induction placed generalizing committed with
    | nil => rfl
    | cons placement rest ih =>
        simp only [MachinePlanner.commitPlaced, List.map_cons, List.foldlM_cons,
          known placement List.mem_cons_self]
        refine congrArg _ (funext fun next => ?_)
        exact ih (fun other member => known other (List.mem_cons_of_mem _ member)) next

/-- What PlanPreemptions starts from: the books that Plan has left. -/
theorem opened_exact [Zero Cpu] [Add Cpu] [Sub Cpu] [LT Cpu] [DecidableLT Cpu]
    (faithful : Faithful int) (fitting : Fitting capacity activeJobs activeWorkers) (now : Time) :
    let placed := plan activeJobs activeWorkers now
    let opened := commitPlaced activeJobs placed (committedByWorker activeJobs)
    MachinePlanner.commitPlaced int activeJobs placed (committedByWorker activeJobs) = some opened ∧
      Backed capacity activeJobs ⟨opened, [], []⟩ := by
  intro placed opened
  have known : ∀ placement ∈ planned activeJobs activeWorkers now,
      jobByID activeJobs placement.1.id = some placement.1 :=
    fun placement member => Devices.jobByID_listed fitting.distinct (mem_planned member).1
  have listed : ∀ job ∈ queue activeJobs now, job ∈ activeJobs :=
    fun job member => (mem_queue.mp member).1
  obtain ⟨_, start⟩ := committed_exact faithful fitting
  obtain ⟨charged, machine⟩ := commitPlaced_entries int known (committedByWorker activeJobs)
  have isOpened : opened = chargeAll (committedByWorker activeJobs)
      ((planned activeJobs activeWorkers now).map Prod.swap) := charged
  have limits : InLimits capacity opened := by
    have final := (placements_exact faithful fitting listed start).2
    rwa [← commitPlaced_placements fitting.distinct listed] at final
  have nonneg : ∀ entry ∈ (planned activeJobs activeWorkers now).map Prod.swap,
      ∀ counter : Counter, 0 ≤ counter.need entry.2.resources := by
    intro entry member
    obtain ⟨placement, isPlaced, rfl⟩ := List.mem_map.mp member
    exact fitting.need_nonneg (mem_planned isPlaced).1
  refine ⟨?_, limits, fun counter id => ?_⟩
  · rw [isOpened] at limits ⊢
    exact machine.trans (chargeAll_exact faithful (fun id => (fitting.capacities id).2) nonneg
      (fun counter id => (start counter id).1) limits)
  · have all : stillOn activeJobs [] id = onWorker (holdings activeJobs) id := by
      simp [stillOn]
    have held : counter.part (committedByWorker activeJobs id) =
        total (fun job => counter.need job.resources) (onWorker (holdings activeJobs) id) := by
      rw [committedByWorker, committed_holdings, chargeAll_part, zero_part, zero_add]
    have placed_nonneg : 0 ≤ total (fun job => counter.need job.resources)
        (onWorker ((planned activeJobs activeWorkers now).map Prod.swap) id) := by
      refine total_nonneg fun job member => ?_
      obtain ⟨entry, inside, rfl⟩ := List.mem_map.mp member
      exact nonneg entry (List.mem_filter.mp inside).1 counter
    simp only [all, isOpened, chargeAll_part, held]
    omega

/-- On one worker: the search for victims, the room they would leave, and what remains
committed without them. -/
theorem search_exact [Zero Cpu] [Add Cpu] [Sub Cpu] [LE Cpu] [DecidableLE Cpu] (now : Time)
    (pending : Job Cpu Int) (faithful : Faithful int)
    (fitting : Fitting capacity activeJobs activeWorkers) {books : PreemptionBooks Cpu Int}
    (backed : Backed capacity activeJobs books) {worker : Worker Cpu Int}
    (listed : worker ∈ activeWorkers) :
    let free := freeOn books.committed worker pending.resources.minGPUMemoryBytes
    let candidates := (runningPreemptibleByWorker activeJobs worker.id).insertionSort
      fun left right => victimLess now right left = false
    let found := collectVictims now pending free books.preempted candidates [] .zero
    MachinePlanner.collectVictims int now pending free books.preempted candidates [] .zero =
        some found ∧
      together int free found.2 = some ⟨free.gpuCount + found.2.gpuCount,
        free.cpuCores + found.2.cpuCores, free.memoryBytes + found.2.memoryBytes⟩ ∧
      sub int (books.committed worker.id) found.2 = some ((books.committed worker.id).sub found.2) := by
  intro free candidates found
  have permuted : candidates.Perm (runningPreemptibleByWorker activeJobs worker.id) :=
    List.perm_insertionSort _ _
  have small := fun counter : Counter => lt_of_le_of_lt (backed.limits counter worker.id).2
    (limit_lt (fun id => (fitting.capacities id).2) counter worker.id)
  have spare := spare_room fitting backed.limits listed pending.resources.minGPUMemoryBytes
  -- The budget is what is committed to the worker.
  have affordable : Affordable (fun counter => counter.part (books.committed worker.id))
      books.preempted candidates .zero :=
    { nonneg := fun cand member => fitting.need_nonneg
        (mem_onWorker ((candidates_sublist activeJobs worker.id).subset (permuted.subset member)))
      start := fun counter => (zero_part counter).ge
      bounded := fun counter => by
        rw [zero_part, zero_add]
        exact candidates_backed fitting backed worker.id permuted counter }
  obtain ⟨collected, settled⟩ : _ ∧ Affordable _ _ [] found.2 :=
    collectVictims_exact faithful small spare affordable
  refine ⟨collected, together_exact faithful fun counter => ?_, sub_exact faithful fun counter => ?_⟩
  · exact spare counter _ (settled.start counter) (settled.within counter)
  · have low := settled.start counter
    have high := settled.within counter
    have top := small counter
    exact ⟨by omega, by omega⟩

variable [Zero Cpu] [Add Cpu] [Sub Cpu] [LT Cpu] [DecidableLT Cpu] [LE Cpu] [DecidableLE Cpu]

theorem preemptFor_exact (faithful : Faithful int)
    (fitting : Fitting capacity activeJobs activeWorkers) {books : PreemptionBooks Cpu Int}
    (backed : Backed capacity activeJobs books) {workers : List (Worker Cpu Int)}
    (listed : ∀ worker ∈ workers, worker ∈ activeWorkers) :
    MachinePlanner.preemptFor int now activeJobs pending workers books =
      some (preemptFor now activeJobs pending workers books) := by
  induction workers with
  | nil => rfl
  | cons worker rest ih =>
      have isWorker := listed worker List.mem_cons_self
      have onward := ih fun other member => listed other (List.mem_cons_of_mem worker member)
      obtain ⟨collected, room, entry⟩ :=
        search_exact now pending faithful fitting backed isWorker
      unfold MachinePlanner.preemptFor preemptFor
      by_cases inactive : worker.status ≠ .active
      · simp only [if_pos inactive]
        exact onward
      simp only [if_neg inactive, freeOn_exact faithful fitting backed.limits isWorker,
        Option.bind_eq_bind, Option.bind_some]
      generalize freeOn books.committed worker pending.resources.minGPUMemoryBytes = free at *
      by_cases fits : fitsNow free pending.resources = true
      · simp only [if_pos fits]
        rfl
      simp only [if_neg fits, collected, Option.bind_some]
      generalize collectVictims now pending free books.preempted _ [] .zero = found at *
      simp only [room, Option.bind_some]
      by_cases short : tooLittle free found.2 pending.resources = true
      · have short' : fallsShort ⟨_, _, _⟩ pending.resources = true := short
        simp only [if_pos short, if_pos short']
        exact onward
      · have enough' : ¬ fallsShort ⟨_, _, _⟩ pending.resources = true := short
        simp only [if_neg short, if_neg enough', entry, Option.bind_some]
        congr 2
        funext id
        by_cases own : id = worker.id
        · simp [own]
        · simp [own]

theorem preemptFor_backed (fitting : Fitting capacity activeJobs activeWorkers)
    {books : PreemptionBooks Cpu Int} (backed : Backed capacity activeJobs books)
    (workers : List (Worker Cpu Int)) :
    Backed capacity activeJobs (preemptFor now activeJobs pending workers books) := by
  rw [preemptFor_eq]
  cases isServed : served now activeJobs pending workers books with
  | none => exact backed
  | some chosen => exact backed_stop fitting backed (served_some isServed).2.2

theorem pass_exact (faithful : Faithful int) (fitting : Fitting capacity activeJobs activeWorkers)
    (pendings : List (Job Cpu Int)) {books : PreemptionBooks Cpu Int}
    (backed : Backed capacity activeJobs books) :
    pendings.foldlM (fun books job =>
        MachinePlanner.preemptFor int now activeJobs job activeWorkers books) books =
      some (pendings.foldl (fun books job => preemptFor now activeJobs job activeWorkers books)
        books) := by
  induction pendings generalizing books with
  | nil => rfl
  | cons pending rest ih =>
      rw [List.foldlM_cons, preemptFor_exact faithful fitting backed fun _ member => member]
      exact ih (preemptFor_backed fitting backed activeWorkers)

theorem planPreemptions_exact (faithful : Faithful int)
    (fitting : Fitting capacity activeJobs activeWorkers) (now : Time) :
    let placed := plan activeJobs activeWorkers now
    MachinePlanner.planPreemptions int activeJobs activeWorkers placed now =
      some (planPreemptions activeJobs activeWorkers placed now) := by
  intro placed
  obtain ⟨books, _⟩ := committed_exact faithful fitting
  obtain ⟨opened, backed⟩ := opened_exact faithful fitting now
  simp only [MachinePlanner.planPreemptions, books, opened, Option.bind_eq_bind, Option.bind_some,
    pass_exact faithful fitting _ backed, placed]
  rfl

end Preempting

section Results
variable [Zero Cpu] [Add Cpu] [Sub Cpu] [LT Cpu] [DecidableLT Cpu] [LE Cpu] [DecidableLE Cpu]

theorem agrees {int : Arithmetic} (faithful : Faithful int) {capacity : String → Int}
    {activeJobs : List (Job Cpu Int)} {activeWorkers : List (Worker Cpu Int)}
    (fitting : Fitting capacity activeJobs activeWorkers) (now : Time) :
    Agrees int activeJobs activeWorkers now :=
  ⟨plan_exact faithful fitting now, planPreemptions_exact faithful fitting now⟩

/-- With numbers that passed validation and workers that hold no more than fits, 64-bit
integers give the plans of unbounded ones, and no sum of either pass overflows. -/
theorem machine_arithmetic_exact {capacity : String → Int} {activeJobs : List (Job Cpu Int)}
    {activeWorkers : List (Worker Cpu Int)} (fitting : Fitting capacity activeJobs activeWorkers)
    (now : Time) :
    Agrees wrapping activeJobs activeWorkers now ∧ Agrees checked activeJobs activeWorkers now :=
  ⟨agrees wrapping_faithful fitting now, agrees checked_faithful fitting now⟩

end Results

/-- Almost all of the memory is held by two jobs, and a third asks for all of it. -/
def heavyJobs : List (Job Int Int) :=
  [{ runningJob "job-1" 10 1 "worker-1" with resources := ⟨1, 0, 1, 2 ^ 62⟩ },
    { runningJob "job-2" 20 1 "worker-1" with resources := ⟨1, 0, 1, 2 ^ 62 - 1⟩ },
    { waitingJob "job-3" 90 1 0 with resources := ⟨1, 0, 1, 2 ^ 63 - 1⟩ }]

def heavyWorker : Worker Int Int :=
  { gpuWorker "worker-1" [16, 16] with memoryCapacityBytes := 2 ^ 63 - 1 }

theorem heavyJobs_fitting : Fitting (fun _ => 2 ^ 63 - 1) heavyJobs [heavyWorker] where
  distinct := by decide
  requests := by decide
  capacities _ := by decide
  known := by decide
  within id := by
    by_cases own : "worker-1" = id
    · subst own
      decide
    · simp [heldMemory, onWorker, holdings, heavyJobs, runningJob, waitingJob, JobService.newJob, held,
        own, total]
  assignments := by decide
  inventories := by decide

/-- Both running jobs give way, by sums that just stay within 64 bits. -/
theorem heavyJobs_preempted :
    (MachinePlanner.planPreemptions wrapping heavyJobs [heavyWorker]
        (plan heavyJobs [heavyWorker] 0) 0).map (fun preemptions => preemptions.map Preemption.jobID) =
      some ["job-1", "job-2"] ∧
      Agrees wrapping heavyJobs [heavyWorker] 0 ∧ Agrees checked heavyJobs [heavyWorker] 0 := by
  have exact := machine_arithmetic_exact heavyJobs_fitting 0
  refine ⟨?_, exact⟩
  rw [exact.1.2]
  decide

end OrionQueue.MachinePreemptions
