import OrionQueue.PreemptionTurns

/-!
What PlanPreemptions leaves open between stopping jobs and placing the one they
were stopped for. A worker may have fewer GPUs that qualify than are committed on
it, which the clamped count hides; the victims are the shortest run, not a
smallest set; and a worker with room further down the list is not looked at.
-/

namespace OrionQueue.PreemptionFit

open Jobs Workers Planner PlannerCapacity PlanOrder PreemptionPass PreemptionTurns

variable {Cpu Mem : Type}

section Exact
variable [AddCommGroup Cpu] [LinearOrder Cpu] [AddCommGroup Mem] [LinearOrder Mem]
variable (now : Time) (activeJobs : List (Job Cpu Mem)) (activeWorkers : List (Worker Cpu Mem))
variable (placed : List Assignment)

variable {now activeJobs activeWorkers placed}

/-- Nothing is stopped for a job while some active worker has room for it. -/
def SparesWhereRoom (now : Time) (activeJobs : List (Job Cpu Mem))
    (activeWorkers : List (Worker Cpu Mem)) (placed : List Assignment) : Prop :=
  ∀ turn ∈ pass now activeJobs activeWorkers placed,
    (∃ worker ∈ activeWorkers, worker.status = .active ∧ HasRoom turn.books turn.pending worker) →
      turn.preemptions = []

/-- No worker that could be relieved stands before the first one with room. -/
def RoomComesFirst (now : Time) (activeJobs : List (Job Cpu Mem))
    (activeWorkers : List (Worker Cpu Mem)) (turn : Turn Cpu Mem) : Prop :=
  ∀ before worker after, activeWorkers = before ++ worker :: after → worker.status = .active →
    HasRoom turn.books turn.pending worker →
    (∀ other ∈ before, other.status = .active → ¬ HasRoom turn.books turn.pending other) →
    ∀ other ∈ before, other.status = .active →
      ¬ Relievable now activeJobs turn.books turn.pending other

theorem preemptions_nil_iff {turn : Turn Cpu Mem}
    (member : turn ∈ pass now activeJobs activeWorkers placed) :
    turn.preemptions = [] ↔ served now activeJobs turn.pending activeWorkers turn.books = none := by
  rw [← turns_outcome member, Turn.preemptions]
  cases isServed : turn.outcome with
  | none => simp
  | some found =>
      have shortest := ((pass_outcome member).mp isServed).2
      simpa using shortest.nonempty

/-- Room is found exactly where no worker ahead of it could be relieved. -/
theorem sparesWhereRoom_iff :
    SparesWhereRoom now activeJobs activeWorkers placed ↔
      ∀ turn ∈ pass now activeJobs activeWorkers placed,
        RoomComesFirst now activeJobs activeWorkers turn := by
  refine forall₂_congr fun turn member => ?_
  rw [preemptions_nil_iff member]
  constructor
  · intro spares before worker after split active room full other listed isActive relievable
    have none := spares ⟨worker, by simp [split], active, room⟩
    -- Among the workers ahead, the first that can be relieved would be chosen.
    have found : ∃ other ∈ before, other.status = .active ∧
        Relievable now activeJobs turn.books turn.pending other := ⟨other, listed, isActive, relievable⟩
    obtain ⟨front, chosen, back, rfl, ⟨isActive', relievable'⟩, passed⟩ := Stopping.exists_first found
    have chooses : Chooses now activeJobs turn.books turn.pending activeWorkers chosen := by
      have split' : activeWorkers = front ++ chosen :: (back ++ worker :: after) := by
        rw [split, List.append_assoc, List.cons_append]
      refine ⟨front, _, split', isActive', full chosen (by simp) isActive', relievable', ?_⟩
      intro other' ahead active'
      exact ⟨full other' (by simp [ahead]) active',
        fun relieved => passed other' ahead ⟨active', relieved⟩⟩
    rw [served_of_chooses chooses] at none
    cases none
  · intro first room
    obtain ⟨before, worker, after, split, ⟨active, has⟩, passed⟩ := Stopping.exists_first room
    have full : ∀ other ∈ before, other.status = .active → ¬ HasRoom turn.books turn.pending other :=
      fun other listed isActive has' => passed other listed ⟨isActive, has'⟩
    have stuck := first before worker after split active has full
    rw [split, served_skip fun other listed isActive =>
      ⟨full other listed isActive, stuck other listed isActive⟩]
    exact served_room active has

end Exact

/-- job-3 needs two of the three GPUs of worker-2, job-4 needs one anywhere. -/
def spreadJobs : List (Job Int Int) :=
  [runningJob "job-1" 10 1 "worker-1", runningJob "job-2" 10 3 "worker-2", waitingJob "job-3" 90 2 0,
    waitingJob "job-4" 80 1 0]

def spreadWorkers : List (Worker Int Int) :=
  [gpuWorker "worker-1" [16], gpuWorker "worker-2" [16, 16, 16]]

/-- job-1 is stopped for job-4, although stopping job-2 has left a GPU for it. -/
theorem spread_stops_despite_room :
    ¬ SparesWhereRoom 0 spreadJobs spreadWorkers (plan spreadJobs spreadWorkers 0) := by
  intro spares
  have none := spares ⟨waitingJob "job-4" 80 1 0, _, _⟩
    (List.mem_cons_of_mem _ (List.mem_singleton.mpr rfl))
    ⟨gpuWorker "worker-2" [16, 16, 16], by simp [spreadWorkers], rfl, by unfold HasRoom; decide⟩
  revert none
  decide

end OrionQueue.PreemptionFit
