import OrionQueue.PlanOrder
import OrionQueue.PreemptionPass

/-!
The turns of a preemption pass. With exact arithmetic, a pending job is served on
the first worker of the list that has no room for it and can be relieved, unless
one with room comes first; its victims are the shortest run of the worker's
eligible jobs that makes room.
-/

namespace OrionQueue.PreemptionTurns

open Jobs Workers Planner PlannerCapacity PreemptionPass

variable {Cpu Mem Amount : Type}

/-- A turn: a pending job, the books when it is considered, and where it is served. -/
structure Turn (Cpu Mem : Type) where
  pending : Job Cpu Mem
  books : PreemptionBooks Cpu Mem
  outcome : Option (Worker Cpu Mem × List (Job Cpu Mem))

/-- What the turn adds to the preemptions. -/
def Turn.preemptions (turn : Turn Cpu Mem) : List Preemption :=
  match turn.outcome with
  | none => []
  | some (worker, victims) =>
      victims.map fun victim => ⟨victim.id, worker.id, preemptionReason turn.pending.id⟩

/-- The victims of the turn on a worker. -/
def Turn.stoppedOn (turn : Turn Cpu Mem) (workerID : String) : List (Job Cpu Mem) :=
  match turn.outcome with
  | none => []
  | some (worker, victims) => if worker.id = workerID then victims else []

/-- Those of several turns. -/
def stoppedOn (turns : List (Turn Cpu Mem)) (workerID : String) : List (Job Cpu Mem) :=
  turns.flatMap fun turn => turn.stoppedOn workerID

/-- The commitments without the jobs that the turns have stopped. -/
def remaining [Zero Cpu] [Add Cpu] [Sub Cpu] [Zero Mem] [Add Mem] [Sub Mem]
    (committed : Committed Cpu Mem) (turns : List (Turn Cpu Mem)) : Committed Cpu Mem :=
  fun id => (committed id).sub (freedBy (stoppedOn turns id))

section Turns
variable [Zero Cpu] [Add Cpu] [Sub Cpu] [LT Cpu] [DecidableLT Cpu] [LE Cpu] [DecidableLE Cpu]
variable [Zero Mem] [Add Mem] [Sub Mem] [LT Mem] [DecidableLT Mem] [LE Mem] [DecidableLE Mem]
variable (now : Time) (activeJobs : List (Job Cpu Mem)) (activeWorkers : List (Worker Cpu Mem))

def turns : List (Job Cpu Mem) → PreemptionBooks Cpu Mem → List (Turn Cpu Mem)
  | [], _ => []
  | pending :: rest, books =>
      ⟨pending, books, served now activeJobs pending activeWorkers books⟩ ::
        turns rest (preemptFor now activeJobs pending activeWorkers books)

/-- The turns of one call of PlanPreemptions. -/
def pass (placed : List Assignment) : List (Turn Cpu Mem) :=
  turns now activeJobs activeWorkers (unplacedJobs activeJobs placed now) (openBooks activeJobs placed)

theorem turns_preemptions (pendings : List (Job Cpu Mem)) (books : PreemptionBooks Cpu Mem) :
    (pendings.foldl (fun books job => preemptFor now activeJobs job activeWorkers books)
      books).preemptions =
        books.preemptions ++ (turns now activeJobs activeWorkers pendings books).flatMap
          Turn.preemptions := by
  induction pendings generalizing books with
  | nil => simp [turns]
  | cons pending rest ih =>
      have added : (preemptFor now activeJobs pending activeWorkers books).preemptions =
          books.preemptions ++ Turn.preemptions
            ⟨pending, books, served now activeJobs pending activeWorkers books⟩ := by
        rw [preemptFor_eq]
        unfold Turn.preemptions
        cases served now activeJobs pending activeWorkers books with
        | none => exact (List.append_nil _).symm
        | some found => rfl
      rw [List.foldl_cons, ih, added, turns, List.flatMap_cons, List.append_assoc]

/-- The turns account for everything that PlanPreemptions returns. -/
theorem planPreemptions_pass (placed : List Assignment) :
    planPreemptions activeJobs activeWorkers placed now =
      (pass now activeJobs activeWorkers placed).flatMap Turn.preemptions :=
  turns_preemptions now activeJobs activeWorkers _ (openBooks activeJobs placed)

variable {now activeJobs activeWorkers}

theorem turns_outcome {pendings : List (Job Cpu Mem)} {books : PreemptionBooks Cpu Mem}
    {turn : Turn Cpu Mem} (member : turn ∈ turns now activeJobs activeWorkers pendings books) :
    turn.outcome = served now activeJobs turn.pending activeWorkers turn.books := by
  induction pendings generalizing books with
  | nil => cases member
  | cons pending rest ih =>
      rcases List.mem_cons.mp member with rfl | later
      · rfl
      · exact ih later

theorem turns_pendings (pendings : List (Job Cpu Mem)) (books : PreemptionBooks Cpu Mem) :
    (turns now activeJobs activeWorkers pendings books).map Turn.pending = pendings := by
  induction pendings generalizing books with
  | nil => rfl
  | cons pending rest ih => rw [turns, List.map_cons, ih]

theorem turns_pending {pendings : List (Job Cpu Mem)} {books : PreemptionBooks Cpu Mem}
    {turn : Turn Cpu Mem} (member : turn ∈ turns now activeJobs activeWorkers pendings books) :
    turn.pending ∈ pendings := by
  have listed := List.mem_map_of_mem (f := Turn.pending) member
  rwa [turns_pendings] at listed

/-- What every turn keeps holds of the books at each turn. -/
theorem turns_invariant {Invariant : PreemptionBooks Cpu Mem → Prop}
    (keeps : ∀ pending books, Invariant books →
      Invariant (preemptFor now activeJobs pending activeWorkers books))
    {pendings : List (Job Cpu Mem)} {books : PreemptionBooks Cpu Mem} (holds : Invariant books)
    {turn : Turn Cpu Mem} (member : turn ∈ turns now activeJobs activeWorkers pendings books) :
    Invariant turn.books := by
  induction pendings generalizing books with
  | nil => cases member
  | cons pending rest ih =>
      rcases List.mem_cons.mp member with rfl | later
      · exact holds
      · exact ih (keeps pending books holds) later

end Turns

section Totals
variable [AddCommGroup Cpu] [AddCommGroup Mem]

/-- What a list of victims gives back is the total of what they hold. -/
theorem freedBy_eq (victims : List (Job Cpu Mem)) :
    freedBy victims =
      ⟨Ledger.total (fun victim => (victim.resources.gpuCount : Int)) victims,
        Ledger.total (fun victim => victim.resources.cpuCores) victims,
        Ledger.total (fun victim => victim.resources.memoryBytes) victims⟩ := by
  induction victims using List.reverseRecOn with
  | nil => rfl
  | append_singleton earlier victim ih =>
      rw [freedBy_snoc, ih]
      simp [CommittedResources.add, Ledger.total]

theorem sub_freedBy (committed : CommittedResources Cpu Mem) (earlier later : List (Job Cpu Mem)) :
    (committed.sub (freedBy earlier)).sub (freedBy later) =
      committed.sub (freedBy (earlier ++ later)) := by
  simp [freedBy_eq, CommittedResources.sub, Ledger.total, sub_sub]

theorem sub_freedBy_nil (committed : CommittedResources Cpu Mem) :
    committed.sub (freedBy []) = committed := by
  simp [freedBy_eq, CommittedResources.sub, Ledger.total]

end Totals

section Exact
variable [AddCommGroup Cpu] [LinearOrder Cpu] [AddCommGroup Mem] [LinearOrder Mem]
variable (now : Time) (activeJobs : List (Job Cpu Mem))

/-- The worker has room for the pending job as it is. -/
def HasRoom (books : PreemptionBooks Cpu Mem) (pending : Job Cpu Mem) (worker : Worker Cpu Mem) :
    Prop :=
  fitsNow (freeFor books pending worker) pending.resources = true

/-- Stopping some of its eligible jobs, lowest first, would make room. -/
def Relievable (books : PreemptionBooks Cpu Mem) (pending : Job Cpu Mem) (worker : Worker Cpu Mem) :
    Prop :=
  ∃ run, run <+: eligible now activeJobs books.preempted pending worker.id ∧ run ≠ [] ∧
    relieves (freeFor books pending worker) pending.resources run = true

/-- The first active worker that has room or can be relieved, if it has no room. -/
def Chooses (books : PreemptionBooks Cpu Mem) (pending : Job Cpu Mem)
    (workers : List (Worker Cpu Mem)) (worker : Worker Cpu Mem) : Prop :=
  ∃ before after, workers = before ++ worker :: after ∧ worker.status = .active ∧
    ¬ HasRoom books pending worker ∧ Relievable now activeJobs books pending worker ∧
    ∀ other ∈ before, other.status = .active →
      ¬ HasRoom books pending other ∧ ¬ Relievable now activeJobs books pending other

/-- The run that is stopped there. -/
def ShortestRun (books : PreemptionBooks Cpu Mem) (pending : Job Cpu Mem) (worker : Worker Cpu Mem)
    (run : List (Job Cpu Mem)) : Prop :=
  Stopping.Shortest (relieves (freeFor books pending worker) pending.resources)
    (eligible now activeJobs books.preempted pending worker.id) run

theorem tooLittle_eq (free freed : CommittedResources Cpu Mem) (request : ResourceRequest Cpu Mem) :
    tooLittle free freed request = !enough free freed request := by
  simp [tooLittle, enough, Bool.not_and, ← decide_not]

theorem fitsNow_eq (free : CommittedResources Cpu Mem) (request : ResourceRequest Cpu Mem) :
    fitsNow free request = relieves free request [] := by
  simp [fitsNow, relieves, enough, freedBy, CommittedResources.zero]

variable {now activeJobs} {books : PreemptionBooks Cpu Mem} {pending : Job Cpu Mem}
  {worker : Worker Cpu Mem} {workers : List (Worker Cpu Mem)}

theorem not_relieved (full : ¬ HasRoom books pending worker) :
    relieves (freeFor books pending worker) pending.resources [] = false := by
  rw [← fitsNow_eq]
  exact Bool.eq_false_of_not_eq_true full

/-- On a worker without room, the victims suffice if any run does. -/
theorem relievable_iff (full : ¬ HasRoom books pending worker) :
    Relievable now activeJobs books pending worker ↔
      relieves (freeFor books pending worker) pending.resources
        (victimsOn now activeJobs books pending worker) = true := by
  constructor
  · rintro ⟨run, leads, nonempty, relieved⟩
    by_contra short
    have refused := Stopping.takeUntil_insufficient (Bool.eq_false_of_not_eq_true short) leads nonempty
    rw [relieved] at refused
    cases refused
  · intro relieved
    refine ⟨_, Stopping.takeUntil_leads _ _, fun none => ?_, relieved⟩
    change victimsOn now activeJobs books pending worker = [] at none
    rw [none, not_relieved full] at relieved
    cases relieved

theorem victimsOn_shortest (full : ¬ HasRoom books pending worker)
    (relievable : Relievable now activeJobs books pending worker) :
    ShortestRun now activeJobs books pending worker
      (victimsOn now activeJobs books pending worker) := by
  refine Stopping.takeUntil_shortest ?_ ((relievable_iff full).mp relievable)
  obtain ⟨run, leads, nonempty, _⟩ := relievable
  exact fun none => nonempty (List.prefix_nil.mp (none ▸ leads))

theorem served_idle (passed : worker.status = .active →
      ¬ HasRoom books pending worker ∧ ¬ Relievable now activeJobs books pending worker) :
    served now activeJobs pending (worker :: workers) books =
      served now activeJobs pending workers books := by
  rw [served]
  by_cases inactive : worker.status ≠ .active
  · rw [if_pos inactive]
  · obtain ⟨full, stuck⟩ := passed (not_not.mp inactive)
    have short : tooLittle (freeFor books pending worker)
        (freedBy (victimsOn now activeJobs books pending worker)) pending.resources = true := by
      rw [tooLittle_eq, ← relieves, Bool.not_eq_true']
      exact Bool.eq_false_of_not_eq_true fun relieved => stuck ((relievable_iff full).mpr relieved)
    unfold HasRoom at full
    rw [if_neg inactive, if_neg full, if_pos short]

theorem served_room (active : worker.status = .active) (room : HasRoom books pending worker) :
    served now activeJobs pending (worker :: workers) books = none := by
  unfold HasRoom at room
  rw [served, if_neg (not_not.mpr active), if_pos room]

theorem served_relief (active : worker.status = .active) (full : ¬ HasRoom books pending worker)
    (relievable : Relievable now activeJobs books pending worker) :
    served now activeJobs pending (worker :: workers) books =
      some (worker, victimsOn now activeJobs books pending worker) := by
  have enough : ¬ tooLittle (freeFor books pending worker)
      (freedBy (victimsOn now activeJobs books pending worker)) pending.resources = true := by
    rw [tooLittle_eq, ← relieves, (relievable_iff full).mp relievable]
    simp
  unfold HasRoom at full
  rw [served, if_neg (not_not.mpr active), if_neg full, if_neg enough]

theorem served_skip {before : List (Worker Cpu Mem)}
    (passed : ∀ other ∈ before, other.status = .active →
      ¬ HasRoom books pending other ∧ ¬ Relievable now activeJobs books pending other) :
    served now activeJobs pending (before ++ workers) books =
      served now activeJobs pending workers books := by
  induction before with
  | nil => rfl
  | cons first rest ih =>
      rw [List.cons_append, served_idle (passed first List.mem_cons_self)]
      exact ih fun other member => passed other (List.mem_cons_of_mem _ member)

theorem served_of_chooses (chosen : Chooses now activeJobs books pending workers worker) :
    served now activeJobs pending workers books =
      some (worker, victimsOn now activeJobs books pending worker) := by
  obtain ⟨before, after, rfl, active, full, relievable, passed⟩ := chosen
  rw [served_skip passed, served_relief active full relievable]

theorem chooses_of_served {victims : List (Job Cpu Mem)}
    (isServed : served now activeJobs pending workers books = some (worker, victims)) :
    Chooses now activeJobs books pending workers worker := by
  induction workers with
  | nil => cases isServed
  | cons first rest ih =>
      by_cases passed : first.status = .active →
          ¬ HasRoom books pending first ∧ ¬ Relievable now activeJobs books pending first
      · rw [served_idle passed] at isServed
        obtain ⟨before, after, rfl, active, full, relievable, others⟩ := ih isServed
        refine ⟨first :: before, after, rfl, active, full, relievable, ?_⟩
        simpa using ⟨passed, others⟩
      · rw [Classical.not_imp, not_and_or, not_not, not_not] at passed
        obtain ⟨active, decided⟩ := passed
        by_cases room : HasRoom books pending first
        · rw [served_room active room] at isServed
          cases isServed
        · have relievable := decided.resolve_left room
          rw [served_relief active room relievable] at isServed
          cases isServed
          exact ⟨[], rest, rfl, active, room, relievable, by simp⟩

/-- Where a pending job is served, and what is stopped for it. -/
theorem served_iff {victims : List (Job Cpu Mem)} :
    served now activeJobs pending workers books = some (worker, victims) ↔
      Chooses now activeJobs books pending workers worker ∧
        ShortestRun now activeJobs books pending worker victims := by
  constructor
  · intro isServed
    have chosen := chooses_of_served isServed
    rw [served_of_chooses chosen] at isServed
    obtain ⟨_, _, _, _, full, relievable, _⟩ := id chosen
    cases isServed
    exact ⟨chosen, victimsOn_shortest full relievable⟩
  · rintro ⟨chosen, shortest⟩
    obtain ⟨_, _, _, _, full, relievable, _⟩ := id chosen
    rw [served_of_chooses chosen,
      Stopping.shortest_unique shortest (victimsOn_shortest full relievable)]

theorem pass_outcome {placed : List Assignment} {turn : Turn Cpu Mem}
    (member : turn ∈ pass now activeJobs workers placed) {victims : List (Job Cpu Mem)} :
    turn.outcome = some (worker, victims) ↔
      Chooses now activeJobs turn.books turn.pending workers worker ∧
        ShortestRun now activeJobs turn.books turn.pending worker victims := by
  rw [turns_outcome member, served_iff]

theorem preemptFor_committed (pending : Job Cpu Mem) (workers : List (Worker Cpu Mem))
    (books : PreemptionBooks Cpu Mem) (id : String) :
    (preemptFor now activeJobs pending workers books).committed id =
      (books.committed id).sub (freedBy (Turn.stoppedOn
        ⟨pending, books, served now activeJobs pending workers books⟩ id)) := by
  rw [preemptFor_eq, Turn.stoppedOn]
  cases served now activeJobs pending workers books with
  | none => exact (sub_freedBy_nil _).symm
  | some found =>
      obtain ⟨worker, victims⟩ := found
      by_cases here : id = worker.id
      · simp [stop, here]
      · simp [stop, here, Ne.symm here, sub_freedBy_nil]

/-- When a job is considered, the commitments lack what the turns before have stopped. -/
theorem turns_committed {pendings : List (Job Cpu Mem)} {earlier later : List (Turn Cpu Mem)}
    {turn : Turn Cpu Mem}
    (split : turns now activeJobs workers pendings books = earlier ++ turn :: later) :
    turn.books.committed = remaining books.committed earlier := by
  induction earlier generalizing pendings books with
  | nil =>
      cases pendings with
      | nil => cases split
      | cons pending rest =>
          cases split
          funext id
          exact (sub_freedBy_nil _).symm
  | cons first between ih =>
      cases pendings with
      | nil => cases split
      | cons pending rest =>
          obtain ⟨rfl, onward⟩ := List.cons.inj split
          rw [ih onward]
          funext id
          rw [remaining, preemptFor_committed, sub_freedBy]
          rfl

end Exact

end OrionQueue.PreemptionTurns
