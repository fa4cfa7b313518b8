import OrionQueue.Leases

/-!
What the status and the lease of a worker record say about the worker. A
heartbeat writes ACTIVE whatever it finds, but a lease number only when it was
granted one; `renewsUnlost` is exactly the condition under which ACTIVE keeps
meaning that the record names a lease.
-/

namespace OrionQueue.Liveness

open Jobs Workers MemoryRepository Leases Runs

variable {Cpu Mem : Type}

def beaten (now : Time) (newLeaseID : Option LeaseID) (beat : Beat Cpu Mem)
    (worker : Worker Cpu Mem) : Worker Cpu Mem :=
  heard now newLeaseID beat.gpus beat.runningJobIDs worker

theorem find_heartbeat (now : Time) (newLeaseID : Option LeaseID) (beat : Beat Cpu Mem)
    (records : MemoryRepository Cpu Mem) (workerID other : String) :
    (records.update workerID
        (heartbeatUpdate now newLeaseID beat.gpus beat.runningJobIDs)).2.find other =
      if other = workerID then (records.find workerID).map (beaten now newLeaseID beat)
      else records.find other :=
  find_update records workerID (fun _ => rfl) other

theorem find_markLost (records : MemoryRepository Cpu Mem) (workerID other : String) :
    (markLost records workerID).find other =
      if other = workerID then (records.find workerID).map lost else records.find other :=
  find_update records workerID (fun _ => rfl) other

def Leased (worker : Worker Cpu Mem) : Prop := worker.status = .active ↔ worker.leaseID.isSome

def AllLeased (state : State Cpu Mem) : Prop :=
  ∀ id worker, state.records.find id = some worker → Leased worker

/-- A heartbeat that only renewed finds the worker not marked lost when it
writes. -/
def renewsUnlost (state : State Cpu Mem) : Label Cpu Mem → Bool
  | .advance call _ =>
      match state.calls call with
      | .renewed workerID _ => (state.records.find workerID).all fun worker => worker.status ≠ .lost
      | _ => true
  | _ => true

theorem leased_granted (now : Time) (leaseID : LeaseID) (beat : Beat Cpu Mem)
    (worker : Worker Cpu Mem) : Leased (beaten now (some leaseID) beat worker) := by
  simp [Leased, beaten, heard]

theorem leased_renewed (now : Time) (beat : Beat Cpu Mem) {worker : Worker Cpu Mem}
    (leased : Leased worker) :
    Leased (beaten now none beat worker) ↔ worker.status ≠ .lost := by
  cases status : worker.status <;> simp_all [Leased, beaten, heard]

theorem leased_lost {worker : Worker Cpu Mem} (leased : Leased worker) : Leased (lost worker) := by
  unfold lost
  split
  · exact leased
  · simp [Leased]

/-- A write of one record keeps the property when the new record has it. -/
theorem allLeased_write {state next : State Cpu Mem} {workerID : String}
    {result : Worker Cpu Mem → Worker Cpu Mem} (leased : AllLeased state)
    (stored : ∀ other, next.records.find other =
      if other = workerID then (state.records.find workerID).map result
      else state.records.find other) :
    AllLeased next ↔
      ∀ worker, state.records.find workerID = some worker → Leased (result worker) := by
  constructor
  · intro later worker found
    exact later workerID (result worker) (by simp [stored, found])
  · intro written id worker found
    rw [stored id] at found
    by_cases own : id = workerID
    · simp only [own, if_true, Option.map_eq_some_iff] at found
      obtain ⟨before, known, rfl⟩ := found
      exact written before known
    · exact leased id worker (by simpa [own] using found)

theorem allLeased_markLost {state next : State Cpu Mem} {workerID : String}
    (leased : AllLeased state) (stored : next.records = markLost state.records workerID) :
    AllLeased next := by
  refine (allLeased_write leased fun other => ?_).mpr
    fun worker found => leased_lost (leased workerID worker found)
  rw [stored, find_markLost]

theorem allLeased_finish {now : Time} {state next : State Cpu Mem} {workerID : String}
    {leaseID : LeaseID} {task : Task Cpu Mem} (leased : AllLeased state)
    (stored : next.records = finish now state.records workerID leaseID task) :
    AllLeased next := by
  cases task with
  | registration input =>
      intro id worker found
      rw [stored, finish, find_create] at found
      split at found
      · obtain rfl := Option.some.inj found
        simp [Leased, registered]
      · exact leased id worker found
  | heartbeat beat =>
      have written : ∀ other, next.records.find other =
          if other = workerID then
            (state.records.find workerID).map (beaten now (some leaseID) beat)
          else state.records.find other := by
        intro other
        rw [stored, finish, find_heartbeat]
      exact (allLeased_write leased written).mpr
        fun worker _ => leased_granted now leaseID beat worker

theorem advance_exact {state next : State Cpu Mem} {call : Nat} {now : Time}
    (leased : AllLeased state) (stepped : advance state call now = some next) :
    AllLeased next ↔ renewsUnlost state (.advance call now) = true := by
  unfold advance at stepped
  cases known : state.calls call with
  | idle => simp [known] at stepped
  | read workerID beat current =>
      simp only [known] at stepped
      have same : next.records = state.records := by
        split at stepped
        · cases stepped; rfl
        · split at stepped <;> cases stepped <;> rfl
      simpa [renewsUnlost, known, AllLeased, same] using leased
  | granting workerID task =>
      simp only [known] at stepped
      cases stepped
      simpa [renewsUnlost, known, AllLeased, State.setCall] using leased
  | granted workerID task leaseID =>
      simp only [known] at stepped
      have same : next.records = state.records := by
        split at stepped <;> cases stepped <;> rfl
      simpa [renewsUnlost, known, AllLeased, same] using leased
  | bound workerID task leaseID =>
      simp only [known] at stepped
      cases stepped
      simpa [renewsUnlost, known] using allLeased_finish leased rfl
  | renewed workerID beat =>
      simp only [known] at stepped
      cases stepped
      -- The one write that sets a status without a lease.
      rw [allLeased_write leased (find_heartbeat now none beat state.records workerID)]
      simp only [renewsUnlost, known]
      cases found : state.records.find workerID with
      | none => simp
      | some worker =>
          have renewed := leased_renewed now beat (leased workerID worker found)
          simpa using renewed

theorem start_allLeased : AllLeased (State.start : State Cpu Mem) := by
  intro id worker found
  simp [State.start] at found

section Machine
variable [Zero Cpu] [LT Cpu] [DecidableLT Cpu] [Zero Mem] [LT Mem] [DecidableLT Mem]

theorem step_exact (state : State Cpu Mem) (label : Label Cpu Mem) (next : State Cpu Mem)
    (leased : AllLeased state) (stepped : step state label = some next) :
    AllLeased next ↔ renewsUnlost state label = true := by
  have unchanged (same : next.records = state.records) : AllLeased next := by
    intro id worker found
    exact leased id worker (same ▸ found)
  cases label with
  | advance call now => exact advance_exact leased stepped
  | register call id input =>
      refine iff_of_true (unchanged ?_) rfl
      simp only [step] at stepped
      split at stepped
      · cases stepped
      · split at stepped <;> obtain ⟨_, rfl⟩ := whenIdle_some stepped <;> rfl
  | heartbeat call workerID beat =>
      refine iff_of_true (unchanged ?_) rfl
      simp only [step] at stepped
      split at stepped <;> obtain ⟨_, rfl⟩ := whenIdle_some stepped <;> rfl
  | abandon call =>
      cases stepped
      exact iff_of_true (unchanged rfl) rfl
  | expire leaseID =>
      obtain ⟨key, _, rfl⟩ := Option.map_eq_some_iff.mp stepped
      exact iff_of_true (unchanged rfl) rfl
  | deliver key =>
      refine iff_of_true ?_ rfl
      simp only [step] at stepped
      split at stepped
      · cases stepped
        cases parsed : workerIDFromLeaseKey key with
        | none => exact unchanged (by simp [watchExpirations, parsed])
        | some workerID =>
            have marked : watchExpirations state.records key = markLost state.records workerID := by
              simp [watchExpirations, parsed]
            exact allLeased_markLost leased marked
      · cases stepped
  | markLost workerID =>
      cases stepped
      exact iff_of_true (allLeased_markLost leased rfl) rfl

/-- ACTIVE means "names a lease" in every state of a run exactly when no
heartbeat that only renewed its lease writes over a worker marked lost since. -/
theorem active_iff_leased (labels : List (Label Cpu Mem)) (state : State Cpu Mem)
    (ran : run step State.start labels = some state) :
    Always step AllLeased State.start labels ↔
      Along step (fun state label => renewsUnlost state label = true) State.start labels :=
  always_iff_along step_exact ran start_allLeased

end Machine

def joinLabels : List (Label Int Int) :=
  [.register 0 "w" plainNode.input, .advance 0 0, .advance 0 0, .advance 0 1]

/-- A renewal, an expiry with its delivery, and a heartbeat that grants anew. -/
def renewalLabels : List (Label Int Int) := joinLabels ++
  [.heartbeat 0 "w" ⟨none, none⟩, .advance 0 2, .advance 0 3, .expire 1, .deliver (leaseKey "w"),
    .heartbeat 0 "w" ⟨none, none⟩, .advance 0 4, .advance 0 4, .advance 0 4, .advance 0 5]

theorem renewalLabels_leased : Always step AllLeased State.start renewalLabels :=
  (active_iff_leased renewalLabels _ rfl).mpr (check_along rfl)

/-- The lease expires and its event is delivered between the renewal and the
write of one heartbeat. -/
theorem renewal_revives_without_lease : ∃ state worker,
    run step State.start (joinLabels ++ [.heartbeat 0 "w" ⟨none, none⟩, .advance 0 2, .expire 1,
      .deliver (leaseKey "w"), .advance 0 3]) = some state ∧
      state.records.find "w" = some worker ∧ worker.status = .active ∧ worker.leaseID = none :=
  ⟨_, _, rfl, rfl, rfl, rfl⟩

end OrionQueue.Liveness
