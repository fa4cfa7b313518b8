import OrionQueue.Liveness

/-!
One worker among many in the machine of `Leases`. Until its Register call is granted a
lease nothing in the records or in etcd names the worker; from then on everything that
names it names that lease, for as long as the lease does not expire. Nothing that other
workers, late heartbeats or the expiration watch do can change this.
-/

namespace OrionQueue.LeaseHolding

open Jobs Workers MemoryRepository Leases Liveness Runs

variable {Cpu Mem : Type}

/-- Only the worker's Register call is under way, and it has no lease yet. -/
structure Unclaimed (state : State Cpu Mem) (workerID : String) : Prop where
  absent : state.records.find workerID = none
  silent : leaseKey workerID ∉ state.etcd.events
  unbound : state.etcd.bound (leaseKey workerID) = none
  joining : ∀ call, (state.calls call).workerID = some workerID →
    workerID ∈ state.issuedIDs ∧ ∃ input, state.calls call = .granting workerID (.registration input)
  alone : ∀ call other, (state.calls call).workerID = some workerID →
    (state.calls other).workerID = some workerID → call = other

/-- What a call of the worker may be while it holds the lease. -/
def Concerns (leaseID : LeaseID) : Call Cpu Mem → Prop
  | .read _ _ current => current.leaseID = some leaseID
  | .granted _ (.registration _) id | .bound _ (.registration _) id => id = leaseID
  | .renewed _ _ => True
  | _ => False

/-- Whatever names the worker names the lease, which is alive. Where `recorded` holds,
the worker has a record. -/
structure Holds (recorded : Prop) (state : State Cpu Mem) (workerID : String) (leaseID : LeaseID) :
    Prop where
  issued : workerID ∈ state.issuedIDs
  numbered : leaseID ≤ state.etcd.nextID
  alive : state.etcd.Alive leaseID
  record : ∀ worker, state.records.find workerID = some worker →
    worker.status = .active ∧ worker.leaseID = some leaseID
  stored : recorded → (state.records.find workerID).isSome
  silent : leaseKey workerID ∉ state.etcd.events
  bound : ∀ id, state.etcd.bound (leaseKey workerID) = some id → id = leaseID
  calls : ∀ call, (state.calls call).workerID = some workerID → Concerns leaseID (state.calls call)

theorem start_unclaimed (workerID : String) : Unclaimed (State.start : State Cpu Mem) workerID := by
  constructor <;> simp [State.start, Etcd.empty, Call.workerID]

section Steps
variable {state : State Cpu Mem} {workerID : String} {leaseID : LeaseID} {recorded : Prop}

/-! ### A worker that holds a lease -/

/-- A call moves on to something that has to do with the lease or with another worker. -/
theorem setCall_holds (holds : Holds recorded state workerID leaseID) {call : Nat}
    {next : Call Cpu Mem} (concerns : next.workerID = some workerID → Concerns leaseID next) :
    Holds recorded (state.setCall call next) workerID leaseID where
  issued := holds.issued
  numbered := holds.numbered
  alive := holds.alive
  record := holds.record
  stored := holds.stored
  silent := holds.silent
  bound := holds.bound
  calls other := by
    rw [State.calls_setCall]
    split
    · exact concerns
    · exact holds.calls other

theorem idle_holds (holds : Holds recorded state workerID leaseID) (call : Nat) :
    Holds recorded (state.setCall call .idle) workerID leaseID := by
  apply setCall_holds holds
  intro own
  cases own

/-- The records change, and with them that of the worker by what keeps its lease. -/
theorem records_holds (holds : Holds recorded state workerID leaseID)
    {records : MemoryRepository Cpu Mem}
    (kept : ∀ worker, records.find workerID = some worker →
      worker.status = .active ∧ worker.leaseID = some leaseID)
    (stays : (state.records.find workerID).isSome → (records.find workerID).isSome) :
    Holds recorded { state with records := records } workerID leaseID :=
  { holds with record := kept, stored := fun isRecorded => stays (holds.stored isRecorded) }

theorem etcd_holds (holds : Holds recorded state workerID leaseID) {etcd : Etcd}
    (numbered : state.etcd.nextID ≤ etcd.nextID) (alive : etcd.Alive leaseID)
    (silent : leaseKey workerID ∉ etcd.events)
    (bound : ∀ id, etcd.bound (leaseKey workerID) = some id → id = leaseID) :
    Holds recorded { state with etcd := etcd } workerID leaseID :=
  { holds with numbered := holds.numbered.trans numbered, alive := alive, silent := silent, bound := bound }

theorem other_records {workerID other : String} {records records' : MemoryRepository Cpu Mem}
    {result : Worker Cpu Mem → Worker Cpu Mem} (apart : workerID ≠ other)
    (written : ∀ id, records'.find id =
      if id = other then (records.find other).map result else records.find id) :
    records'.find workerID = records.find workerID := by
  rw [written, if_neg apart]

theorem finish_other {now : Time} {records : MemoryRepository Cpu Mem} {workerID other : String}
    {id : LeaseID} {task : Task Cpu Mem} (apart : workerID ≠ other) :
    (finish now records other id task).find workerID = records.find workerID := by
  cases task with
  | registration input => rw [finish, find_create, registered, if_neg apart]
  | heartbeat beat => exact other_records apart (find_heartbeat now (some id) beat records other)

theorem same_holds (holds : Holds recorded state workerID leaseID)
    {records : MemoryRepository Cpu Mem} (same : records.find workerID = state.records.find workerID) :
    Holds recorded { state with records := records } workerID leaseID :=
  records_holds holds (fun worker found => holds.record worker (same ▸ found)) fun isSome => same ▸ isSome

theorem grant_holds (holds : Holds recorded state workerID leaseID) (key : String) :
    Holds recorded { state with etcd := (state.etcd.grant key).2 } workerID leaseID := by
  refine etcd_holds holds (Int.le_add_one le_rfl) ?_ holds.silent holds.bound
  have older : leaseID ≠ state.etcd.nextID + 1 := (Int.lt_add_one_of_le holds.numbered).ne
  simpa [Etcd.Alive, Etcd.grant, Function.update_of_ne older] using holds.alive

/-- Only the lease itself takes the key of the worker with it. -/
theorem expire_holds (holds : Holds recorded state workerID leaseID) {id : LeaseID} (key : String)
    (other : id ≠ leaseID) :
    Holds recorded { state with etcd := state.etcd.expire id key } workerID leaseID := by
  have alive : (state.etcd.expire id key).Alive leaseID := by
    have kept : Function.update state.etcd.keyByID id none leaseID = state.etcd.keyByID leaseID :=
      Function.update_of_ne (Ne.symm other) _ _
    have alive : (state.etcd.keyByID leaseID).isSome = true := holds.alive
    unfold Etcd.expire Etcd.Alive
    split <;> simpa [kept] using alive
  unfold Etcd.expire at alive ⊢
  split at alive <;> rename_i deleted
  · rw [if_pos deleted]
    have elsewhere : leaseKey workerID ≠ key := by
      rintro rfl
      exact other (holds.bound id deleted)
    refine etcd_holds holds le_rfl alive ?_ ?_
    · simpa [elsewhere] using holds.silent
    · simpa [elsewhere] using holds.bound
  · rw [if_neg deleted]
    exact etcd_holds holds le_rfl alive holds.silent holds.bound

/-- A call puts the key of its worker; for this worker that is the lease it was granted. -/
theorem put_holds (holds : Holds recorded state workerID leaseID) {other : String} {id : LeaseID}
    {etcd : Etcd} (own : other = workerID → id = leaseID)
    (put : state.etcd.put (leaseKey other) id = some etcd) :
    Holds recorded { state with etcd := etcd } workerID leaseID := by
  unfold Etcd.put at put
  split at put <;> cases put
  refine etcd_holds holds le_rfl holds.alive holds.silent fun bound isBound => ?_
  by_cases same : other = workerID
  · subst same
    rw [← own rfl]
    simpa using isBound.symm
  · have elsewhere : leaseKey workerID ≠ leaseKey other := fun keys => same (leaseKey_injective keys).symm
    exact holds.bound bound (by simpa [Function.update_of_ne elsewhere] using isBound)

theorem finish_holds (holds : Holds recorded state workerID leaseID) {now : Time} {other : String}
    {id : LeaseID} {task : Task Cpu Mem}
    (own : other = workerID → Concerns leaseID (.bound other task id)) :
    Holds recorded { state with records := finish now state.records other id task } workerID leaseID := by
  by_cases same : other = workerID
  · subst same
    cases task with
    | heartbeat beat => exact False.elim (own rfl)
    | registration input =>
        obtain rfl : id = leaseID := own rfl
        have found : (finish now state.records other id (.registration input)).find other =
            some (registered now other id input) := by
          rw [finish, find_create]
          exact if_pos rfl
        refine records_holds holds (fun worker isWorker => ?_) fun _ => by rw [found]; rfl
        obtain rfl := Option.some.inj (found.symm.trans isWorker)
        exact ⟨rfl, rfl⟩
  · exact same_holds holds (finish_other (Ne.symm same))

theorem renewed_holds (holds : Holds recorded state workerID leaseID) (now : Time) (other : String)
    (beat : Beat Cpu Mem) :
    Holds recorded { state with records := (state.records.update other
      (heartbeatUpdate now none beat.gpus beat.runningJobIDs)).2 } workerID leaseID := by
  have written := find_heartbeat now none beat state.records other
  by_cases same : workerID = other
  · subst same
    have found := written workerID
    rw [if_pos rfl] at found
    refine records_holds holds (fun worker isWorker => ?_) fun isSome => ?_
    · rw [found, Option.map_eq_some_iff] at isWorker
      obtain ⟨before, known, rfl⟩ := isWorker
      exact ⟨rfl, (holds.record before known).2⟩
    · rwa [found, Option.isSome_map]
  · exact same_holds holds (other_records same written)

theorem markLost_holds (holds : Holds recorded state workerID leaseID) {other : String}
    (apart : workerID ≠ other) :
    Holds recorded { state with records := markLost state.records other } workerID leaseID :=
  same_holds holds (other_records apart (find_markLost state.records other))

theorem advance_holds {next : State Cpu Mem} (holds : Holds recorded state workerID leaseID)
    {call : Nat} {now : Time} (stepped : advance state call now = some next) :
    Holds recorded next workerID leaseID := by
  have concerns := holds.calls call
  unfold advance at stepped
  cases known : state.calls call with
  | idle => simp [known] at stepped
  | read other beat current =>
      simp only [known] at stepped
      by_cases same : other = workerID
      · -- The lease that the call has read is alive, so that it renews.
        have lease : current.leaseID = some leaseID := by
          rw [known] at concerns
          exact concerns (congrArg some same)
        simp only [lease, if_pos holds.alive] at stepped
        cases stepped
        exact setCall_holds holds fun _ => trivial
      · have apart {after : Call Cpu Mem} (its : after.workerID = some other) :
            after.workerID = some workerID → Concerns leaseID after :=
          fun isOwn => absurd (Option.some.inj (its.symm.trans isOwn)) same
        split at stepped
        · cases stepped
          exact setCall_holds holds (apart rfl)
        · split at stepped <;> cases stepped <;> exact setCall_holds holds (apart rfl)
  | granting other task =>
      rw [known] at concerns
      have apart : other ≠ workerID := fun same => concerns (congrArg some same)
      simp only [known] at stepped
      cases stepped
      exact setCall_holds (grant_holds holds _) fun isOwn => absurd (Option.some.inj isOwn) apart
  | granted other task id =>
      rw [known] at concerns
      have own : other = workerID → Concerns leaseID (.granted other task id) :=
        fun same => concerns (congrArg some same)
      simp only [known] at stepped
      split at stepped
      · cases stepped
        exact idle_holds holds call
      · rename_i etcd put
        cases stepped
        have lease : other = workerID → id = leaseID := by
          intro same
          cases task with
          | heartbeat beat => exact False.elim (own same)
          | registration input => exact own same
        refine setCall_holds (put_holds holds lease put) fun isOwn => ?_
        have isLease := own (Option.some.inj isOwn)
        cases task with
        | heartbeat beat => exact False.elim isLease
        | registration input => exact isLease
  | bound other task id =>
      rw [known] at concerns
      simp only [known] at stepped
      cases stepped
      exact idle_holds (finish_holds holds fun same => concerns (congrArg some same)) call
  | renewed other beat =>
      simp only [known] at stepped
      cases stepped
      exact idle_holds (renewed_holds holds now other beat) call

theorem get_found {records : MemoryRepository Cpu Mem} {id : String} {worker : Worker Cpu Mem}
    (got : records.get id = .ok worker) : records.find id = some worker := by
  unfold MemoryRepository.get at got
  split at got
  · cases got
  · rename_i found
    rw [found, Except.ok.inj got]

/-! ### A worker that is being registered -/

theorem setCall_unclaimed (unclaimed : Unclaimed state workerID) {call : Nat} {next : Call Cpu Mem}
    (apart : next.workerID ≠ some workerID) : Unclaimed (state.setCall call next) workerID where
  absent := unclaimed.absent
  silent := unclaimed.silent
  unbound := unclaimed.unbound
  joining other := by
    rw [State.calls_setCall]
    split
    · exact fun own => absurd own apart
    · exact unclaimed.joining other
  alone first second := by
    rw [State.calls_setCall, State.calls_setCall]
    split
    · exact fun own => absurd own apart
    · split
      · exact fun _ own => absurd own apart
      · exact unclaimed.alone first second

theorem idle_unclaimed (unclaimed : Unclaimed state workerID) (call : Nat) :
    Unclaimed (state.setCall call .idle) workerID := by
  apply setCall_unclaimed unclaimed
  intro own
  cases own

theorem records_unclaimed (unclaimed : Unclaimed state workerID) {records : MemoryRepository Cpu Mem}
    (same : records.find workerID = state.records.find workerID) :
    Unclaimed { state with records := records } workerID :=
  { unclaimed with absent := same.trans unclaimed.absent }

theorem etcd_unclaimed (unclaimed : Unclaimed state workerID) {etcd : Etcd}
    (silent : leaseKey workerID ∉ etcd.events) (unbound : etcd.bound (leaseKey workerID) = none) :
    Unclaimed { state with etcd := etcd } workerID :=
  { unclaimed with silent := silent, unbound := unbound }

theorem expire_unclaimed (unclaimed : Unclaimed state workerID) (id : LeaseID) (key : String) :
    Unclaimed { state with etcd := state.etcd.expire id key } workerID := by
  unfold Etcd.expire
  split <;> rename_i deleted
  · have elsewhere : leaseKey workerID ≠ key := by
      rintro rfl
      exact absurd (unclaimed.unbound.symm.trans deleted) (by simp)
    refine etcd_unclaimed unclaimed ?_ ?_
    · simpa [elsewhere] using unclaimed.silent
    · simpa [elsewhere] using unclaimed.unbound
  · exact etcd_unclaimed unclaimed unclaimed.silent unclaimed.unbound

theorem put_unclaimed (unclaimed : Unclaimed state workerID) {other : String} {id : LeaseID}
    {etcd : Etcd} (apart : workerID ≠ other) (put : state.etcd.put (leaseKey other) id = some etcd) :
    Unclaimed { state with etcd := etcd } workerID := by
  unfold Etcd.put at put
  split at put <;> cases put
  have elsewhere : leaseKey workerID ≠ leaseKey other := fun keys => apart (leaseKey_injective keys)
  refine etcd_unclaimed unclaimed unclaimed.silent ?_
  simpa [Function.update_of_ne elsewhere] using unclaimed.unbound

/-- The Register call of the worker is granted a lease. -/
theorem granted_holds (unclaimed : Unclaimed state workerID) {call : Nat}
    {input : RegisterInput Cpu Mem} (known : state.calls call = .granting workerID (.registration input)) :
    Holds False ({ state with etcd := (state.etcd.grant (leaseKey workerID)).2 }.setCall call
      (.granted workerID (.registration input) (state.etcd.nextID + 1))) workerID
        (state.etcd.nextID + 1) where
  issued := (unclaimed.joining call (by rw [known]; rfl)).1
  numbered := le_rfl
  alive := by simp [Etcd.Alive, Etcd.grant, State.setCall]
  record worker found := absurd (unclaimed.absent.symm.trans found) (by simp)
  stored := False.elim
  silent := unclaimed.silent
  bound id isBound := absurd (unclaimed.unbound.symm.trans isBound) (by simp)
  calls other := by
    rw [State.calls_setCall]
    split
    · exact fun _ => rfl
    · rename_i apart
      intro own
      exact absurd (unclaimed.alone other call own (by rw [known]; rfl)) apart

/-- What is read off a call that is not the worker's. -/
theorem unclaimed_apart (unclaimed : Unclaimed state workerID) {call : Nat} {its : Call Cpu Mem}
    (known : state.calls call = its)
    (other : ∀ input, its ≠ .granting workerID (.registration input)) : its.workerID ≠ some workerID := by
  intro own
  obtain ⟨-, input, joining⟩ := unclaimed.joining call (by rw [known, own])
  exact other input (known.symm.trans joining)

theorem advance_unclaimed {next : State Cpu Mem} (unclaimed : Unclaimed state workerID)
    {call : Nat} {now : Time} (stepped : advance state call now = some next) :
    Unclaimed next workerID ∨
      (∃ input, state.calls call = .granting workerID (.registration input)) ∧
        Holds False next workerID (state.etcd.nextID + 1) := by
  unfold advance at stepped
  cases known : state.calls call with
  | idle => simp [known] at stepped
  | read other beat current =>
      have apart := unclaimed_apart unclaimed known (by simp)
      simp only [known] at stepped
      left
      split at stepped
      · cases stepped
        exact setCall_unclaimed unclaimed apart
      · split at stepped <;> cases stepped <;> exact setCall_unclaimed unclaimed apart
  | granting other task =>
      simp only [known] at stepped
      cases stepped
      by_cases own : other = workerID
      · subst own
        obtain ⟨-, input, joining⟩ := unclaimed.joining call (by rw [known]; rfl)
        obtain ⟨-, rfl⟩ := Call.granting.inj (known.symm.trans joining)
        exact Or.inr ⟨⟨input, rfl⟩, granted_holds unclaimed known⟩
      · refine Or.inl (setCall_unclaimed ?_ fun isOwn => own (Option.some.inj isOwn))
        exact etcd_unclaimed unclaimed unclaimed.silent unclaimed.unbound
  | granted other task id =>
      have apart := unclaimed_apart unclaimed known (by simp)
      have differs : workerID ≠ other := fun same => apart (congrArg some same.symm)
      simp only [known] at stepped
      left
      split at stepped
      · cases stepped
        exact idle_unclaimed unclaimed call
      · rename_i etcd put
        cases stepped
        exact setCall_unclaimed (put_unclaimed unclaimed differs put) apart
  | bound other task id =>
      have apart := unclaimed_apart unclaimed known (by simp)
      have differs : workerID ≠ other := fun same => apart (congrArg some same.symm)
      simp only [known] at stepped
      cases stepped
      exact Or.inl (idle_unclaimed (records_unclaimed unclaimed (finish_other differs)) call)
  | renewed other beat =>
      have apart := unclaimed_apart unclaimed known (by simp)
      have differs : workerID ≠ other := fun same => apart (congrArg some same.symm)
      simp only [known] at stepped
      cases stepped
      exact Or.inl (idle_unclaimed (records_unclaimed unclaimed
        (other_records differs (find_heartbeat now none beat state.records other))) call)

theorem register_unclaimed (unclaimed : Unclaimed state workerID) {call : Nat} {id : String}
    {input : RegisterInput Cpu Mem} (fresh : id ∉ state.issuedIDs) :
    Unclaimed ({ state with
      issuedIDs := id :: state.issuedIDs }.setCall call (.granting id (.registration input))) workerID := by
  have more : Unclaimed { state with issuedIDs := id :: state.issuedIDs } workerID :=
    { unclaimed with
      joining := fun other own =>
        have ⟨issued, joining⟩ := unclaimed.joining other own
        ⟨List.mem_cons_of_mem _ issued, joining⟩ }
  by_cases own : id = workerID
  · subst own
    have none : ∀ other, (state.calls other).workerID ≠ some id :=
      fun other busy => fresh (unclaimed.joining other busy).1
    refine ⟨more.absent, more.silent, more.unbound, fun other => ?_, fun first second => ?_⟩
    · rw [State.calls_setCall]
      split
      · exact fun _ => ⟨List.mem_cons_self, input, rfl⟩
      · exact fun busy => absurd busy (none other)
    · rw [State.calls_setCall, State.calls_setCall]
      split
      · split
        · rename_i here there
          exact fun _ _ => here.trans there.symm
        · exact fun _ busy => absurd busy (none second)
      · exact fun busy => absurd busy (none first)
  · exact setCall_unclaimed more fun isOwn => own (Option.some.inj isOwn)

theorem advance_issuedIDs {next : State Cpu Mem} {call : Nat} {now : Time}
    (stepped : advance state call now = some next) :
    next.issuedIDs = state.issuedIDs := by
  unfold advance at stepped
  split at stepped
  case h_1 => cases stepped
  case h_2 =>
    split at stepped
    · cases stepped
      rfl
    · split at stepped <;> cases stepped <;> rfl
  case h_4 => split at stepped <;> cases stepped <;> rfl
  all_goals
    cases stepped
    rfl

end Steps

section Machine
variable [Zero Cpu] [LT Cpu] [DecidableLT Cpu] [Zero Mem] [LT Mem] [DecidableLT Mem]
  {state next : State Cpu Mem} {workerID : String} {leaseID : LeaseID} {recorded : Prop}

/-- The worker keeps its lease through every step but the end of the lease. MarkLost is
called by WatchExpirations alone. -/
theorem step_holds (holds : Holds recorded state workerID leaseID) {label : Label Cpu Mem}
    (stepped : step state label = some next) (unexpired : label ≠ .expire leaseID)
    (watched : ∀ other, label ≠ .markLost other) : Holds recorded next workerID leaseID := by
  cases label with
  | advance call now => exact advance_holds holds stepped
  | register call id input =>
      simp only [step] at stepped
      split at stepped
      · cases stepped
      · rename_i fresh
        have apart : id ≠ workerID := fun same => fresh (same ▸ holds.issued)
        split at stepped <;> obtain ⟨-, rfl⟩ := whenIdle_some stepped
        · exact holds
        · have more : Holds recorded { state with issuedIDs := id :: state.issuedIDs } workerID leaseID :=
            { holds with issued := List.mem_cons_of_mem _ holds.issued }
          exact setCall_holds more fun isOwn => absurd (Option.some.inj isOwn) apart
  | heartbeat call other beat =>
      simp only [step] at stepped
      split at stepped <;> obtain ⟨-, rfl⟩ := whenIdle_some stepped
      · exact holds
      · rename_i current got
        refine setCall_holds holds fun isOwn => ?_
        obtain rfl : other = workerID := Option.some.inj isOwn
        exact (holds.record current (get_found got)).2
  | abandon call =>
      cases stepped
      exact idle_holds holds call
  | expire id =>
      obtain ⟨key, -, rfl⟩ := Option.map_eq_some_iff.mp stepped
      exact expire_holds holds key fun same => unexpired (congrArg _ same)
  | deliver key =>
      simp only [step] at stepped
      split at stepped
      · rename_i waiting
        cases stepped
        have fewer : Holds recorded { state with
            etcd := { state.etcd with events := state.etcd.events.erase key } } workerID leaseID :=
          etcd_holds holds le_rfl holds.alive (fun left => holds.silent (List.mem_of_mem_erase left))
            holds.bound
        unfold watchExpirations
        split
        · exact fewer
        · rename_i other parsed
          refine markLost_holds fewer ?_
          rintro rfl
          exact holds.silent (workerIDFromLeaseKey_some parsed ▸ waiting)
      · cases stepped
  | markLost other => exact absurd rfl (watched other)

/-- A worker without a lease stays so until the Grant of its Register call. -/
theorem step_unclaimed (unclaimed : Unclaimed state workerID) {label : Label Cpu Mem}
    (stepped : step state label = some next) (watched : ∀ other, label ≠ .markLost other) :
    Unclaimed next workerID ∨
      (∃ call now input, label = .advance call now ∧
        state.calls call = .granting workerID (.registration input)) ∧
        Holds False next workerID (state.etcd.nextID + 1) := by
  cases label with
  | advance call now =>
      rcases advance_unclaimed unclaimed stepped with still | ⟨⟨input, granting⟩, holds⟩
      · exact Or.inl still
      · exact Or.inr ⟨⟨call, now, input, rfl, granting⟩, holds⟩
  | register call id input =>
      simp only [step] at stepped
      split at stepped
      · cases stepped
      · rename_i fresh
        split at stepped <;> obtain ⟨-, rfl⟩ := whenIdle_some stepped
        · exact Or.inl unclaimed
        · exact Or.inl (register_unclaimed unclaimed fresh)
  | heartbeat call other beat =>
      simp only [step] at stepped
      split at stepped <;> obtain ⟨-, rfl⟩ := whenIdle_some stepped
      · exact Or.inl unclaimed
      · rename_i current got
        refine Or.inl (setCall_unclaimed unclaimed fun isOwn => ?_)
        obtain rfl : other = workerID := Option.some.inj isOwn
        exact absurd (unclaimed.absent.symm.trans (get_found got)) (by simp)
  | abandon call =>
      cases stepped
      exact Or.inl (idle_unclaimed unclaimed call)
  | expire id =>
      obtain ⟨key, -, rfl⟩ := Option.map_eq_some_iff.mp stepped
      exact Or.inl (expire_unclaimed unclaimed id key)
  | deliver key =>
      simp only [step] at stepped
      split at stepped
      · rename_i waiting
        cases stepped
        have fewer : Unclaimed { state with
            etcd := { state.etcd with events := state.etcd.events.erase key } } workerID :=
          etcd_unclaimed unclaimed (fun left => unclaimed.silent (List.mem_of_mem_erase left))
            unclaimed.unbound
        left
        unfold watchExpirations
        split
        · exact fewer
        · rename_i other parsed
          have apart : workerID ≠ other := by
            rintro rfl
            exact unclaimed.silent (workerIDFromLeaseKey_some parsed ▸ waiting)
          exact records_unclaimed fewer (other_records apart (find_markLost state.records other))
      · cases stepped
  | markLost other => exact absurd rfl (watched other)

/-- Only a Register call hands out an ID. -/
theorem step_issuedIDs {label : Label Cpu Mem} (stepped : step state label = some next)
    (fresh : workerID ∉ state.issuedIDs) (other : ∀ call input, label ≠ .register call workerID input) :
    workerID ∉ next.issuedIDs := by
  cases label with
  | advance call now => rwa [advance_issuedIDs stepped]
  | register call id input =>
      have apart : workerID ≠ id := fun same => other call input (same ▸ rfl)
      simp only [step] at stepped
      split at stepped
      · cases stepped
      · split at stepped <;> obtain ⟨-, rfl⟩ := whenIdle_some stepped
        · exact fresh
        · simpa [State.setCall, apart] using fresh
  | heartbeat call id beat =>
      simp only [step] at stepped
      split at stepped <;> obtain ⟨-, rfl⟩ := whenIdle_some stepped <;> exact fresh
  | abandon call | markLost id =>
      cases stepped
      exact fresh
  | expire id =>
      obtain ⟨key, -, rfl⟩ := Option.map_eq_some_iff.mp stepped
      exact fresh
  | deliver key =>
      simp only [step] at stepped
      split at stepped <;> cases stepped
      exact fresh

end Machine

end OrionQueue.LeaseHolding
