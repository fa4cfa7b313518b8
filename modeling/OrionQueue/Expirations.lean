import OrionQueue.Liveness

/-!
Which lease an expiration event is about. The event names a key, and the key may
have been bound to a newer lease since, or have been bound by a call that has yet
to write the lease down. `GrantsInTurn` is a condition under which an event that
is still to be delivered never concerns a lease that is alive.
-/

namespace OrionQueue.Expirations

open Jobs Workers MemoryRepository Leases Liveness Runs

variable {Cpu Mem : Type}

/-- Nothing that concerns the worker is under way apart from `call`: no event for
its key is waiting, no other call holds a lease it has bound to the key, and the
lease in the record, if any, is gone. -/
structure Quiet (state : State Cpu Mem) (call : Nat) (workerID : String) : Prop where
  delivered : leaseKey workerID ∉ state.etcd.events
  alone : ∀ other leaseID, (state.calls other).holds = some (workerID, leaseID) → other = call
  gone : ∀ worker leaseID, state.records.find workerID = some worker →
    worker.leaseID = some leaseID → ¬ state.etcd.Alive leaseID

/-- A heartbeat puts a worker's key only when the worker is quiet, and writes
ACTIVE without a new lease only over a worker not marked lost. MarkLost is called
by WatchExpirations alone. -/
def GrantsInTurn (state : State Cpu Mem) (label : Label Cpu Mem) : Prop :=
  renewsUnlost state label = true ∧
    match label with
    | .advance call _ =>
        ∀ workerID beat leaseID, state.calls call = .granted workerID (.heartbeat beat) leaseID →
          Quiet state call workerID
    | .markLost _ => False
    | _ => True

/-- The lease is either gone or what the worker's key is bound to, with no event
for the key under way. -/
def Current (etcd : Etcd) (workerID : String) (leaseID : LeaseID) : Prop :=
  etcd.Alive leaseID →
    etcd.bound (leaseKey workerID) = some leaseID ∧ leaseKey workerID ∉ etcd.events

/-- A worker ID is in use by nothing but the call. -/
structure Untouched (state : State Cpu Mem) (call : Nat) (workerID : String) : Prop where
  absent : state.records.find workerID = none
  silent : leaseKey workerID ∉ state.etcd.events
  unbound : state.etcd.bound (leaseKey workerID) = none
  alone : ∀ other, (state.calls other).workerID = some workerID → other = call

structure Sound (state : State Cpu Mem) : Prop where
  stored : ∀ workerID worker leaseID, state.records.find workerID = some worker →
    worker.leaseID = some leaseID → leaseID ≤ state.etcd.nextID ∧
      Current state.etcd workerID leaseID ∧
      (state.etcd.Alive leaseID → ∀ call other, (state.calls call).holds ≠ some (workerID, other))
  held : ∀ call workerID leaseID, (state.calls call).holds = some (workerID, leaseID) →
    Current state.etcd workerID leaseID ∧
      ∀ other leaseID', (state.calls other).holds = some (workerID, leaseID') → other = call
  numbered : ∀ call leaseID, (state.calls call).lease = some leaseID →
    leaseID ≤ state.etcd.nextID
  newcomers : ∀ call workerID, (state.calls call).newcomer = some workerID →
    Untouched state call workerID
  recordsIssued : ∀ workerID worker, state.records.find workerID = some worker →
    workerID ∈ state.issuedIDs
  callsIssued : ∀ call workerID, (state.calls call).workerID = some workerID →
    workerID ∈ state.issuedIDs
  boundIssued : ∀ key leaseID, state.etcd.bound key = some leaseID →
    ∃ workerID ∈ state.issuedIDs, key = leaseKey workerID
  eventsIssued : ∀ key ∈ state.etcd.events, ∃ workerID ∈ state.issuedIDs, key = leaseKey workerID

theorem start_sound : Sound (State.start : State Cpu Mem) := by
  constructor <;>
    simp [State.start, Etcd.empty, Call.holds, Call.lease, Call.newcomer, Call.workerID]

/-- What is read off a call after one call moved on. -/
theorem setCall_cases {Value : Type} (read : Call Cpu Mem → Option Value)
    {state : State Cpu Mem} {call other : Nat} {next : Call Cpu Mem} {value : Value}
    (seen : read ((state.setCall call next).calls other) = some value) :
    (other = call ∧ read next = some value) ∨
      (other ≠ call ∧ read (state.calls other) = some value) := by
  rw [State.calls_setCall] at seen
  split at seen
  · exact Or.inl ⟨by assumption, seen⟩
  · exact Or.inr ⟨by assumption, seen⟩

/-- A call may move on to hold the key of a quiet worker, or to hold none. -/
theorem setCall_sound {state : State Cpu Mem} {call : Nat} {next : Call Cpu Mem}
    (sound : Sound state)
    (takes : ∀ workerID leaseID, next.holds = some (workerID, leaseID) →
      state.etcd.bound (leaseKey workerID) = some leaseID ∧ Quiet state call workerID)
    (numbered : ∀ leaseID, next.lease = some leaseID → leaseID ≤ state.etcd.nextID)
    (newcomer : ∀ workerID, next.newcomer = some workerID → Untouched state call workerID)
    (known : ∀ workerID, next.workerID = some workerID → workerID ∈ state.issuedIDs ∧
      ∀ other, (state.calls other).newcomer = some workerID → other = call) :
    Sound (state.setCall call next) where
  stored workerID worker leaseID found named := by
    obtain ⟨issued, current, unheld⟩ := sound.stored workerID worker leaseID found named
    refine ⟨issued, current, fun alive other leaseID' holds => ?_⟩
    rcases setCall_cases Call.holds holds with ⟨_, own⟩ | ⟨_, before⟩
    · exact (takes workerID leaseID' own).2.gone worker leaseID found named alive
    · exact unheld alive other leaseID' before
  held other workerID leaseID holds := by
    rcases setCall_cases Call.holds holds with ⟨rfl, own⟩ | ⟨apart, before⟩
    · obtain ⟨bound, quiet⟩ := takes workerID leaseID own
      refine ⟨fun _ => ⟨bound, quiet.delivered⟩, fun third leaseID' holds' => ?_⟩
      rcases setCall_cases Call.holds holds' with ⟨same, _⟩ | ⟨_, before⟩
      · exact same
      · exact quiet.alone third leaseID' before
    · obtain ⟨current, alone⟩ := sound.held other workerID leaseID before
      refine ⟨current, fun third leaseID' holds' => ?_⟩
      rcases setCall_cases Call.holds holds' with ⟨_, own⟩ | ⟨_, before'⟩
      · exact absurd ((takes workerID leaseID' own).2.alone other leaseID before) apart
      · exact alone third leaseID' before'
  numbered other leaseID carried := by
    rcases setCall_cases Call.lease carried with ⟨_, own⟩ | ⟨_, before⟩
    · exact numbered leaseID own
    · exact sound.numbered other leaseID before
  newcomers other workerID new := by
    -- Whichever call the newcomer is, a call that uses its ID is that same call.
    rcases setCall_cases Call.newcomer new with ⟨rfl, own⟩ | ⟨_, before⟩
    · have untouched := newcomer workerID own
      refine ⟨untouched.absent, untouched.silent, untouched.unbound, fun third busy => ?_⟩
      rcases setCall_cases Call.workerID busy with ⟨same, _⟩ | ⟨_, earlier⟩
      · exact same
      · exact untouched.alone third earlier
    · have untouched := sound.newcomers other workerID before
      refine ⟨untouched.absent, untouched.silent, untouched.unbound, fun third busy => ?_⟩
      rcases setCall_cases Call.workerID busy with ⟨rfl, own⟩ | ⟨_, earlier⟩
      · exact ((known workerID own).2 other before).symm
      · exact untouched.alone third earlier
  recordsIssued := sound.recordsIssued
  callsIssued other workerID busy := by
    rcases setCall_cases Call.workerID busy with ⟨_, own⟩ | ⟨_, before⟩
    · exact (known workerID own).1
    · exact sound.callsIssued other workerID before
  boundIssued := sound.boundIssued
  eventsIssued := sound.eventsIssued

theorem idle_sound {state : State Cpu Mem} (sound : Sound state) (call : Nat) :
    Sound (state.setCall call .idle) :=
  setCall_sound sound (by simp [Call.holds]) (by simp [Call.lease]) (by simp [Call.newcomer])
    (by simp [Call.workerID])

/-- A call that goes on for the same worker. -/
theorem continue_sound {state : State Cpu Mem} {call : Nat} {next : Call Cpu Mem}
    (sound : Sound state) (free : next.holds = none)
    (numbered : ∀ leaseID, next.lease = some leaseID → leaseID ≤ state.etcd.nextID)
    (newcomer : next.newcomer = none ∨ next.newcomer = (state.calls call).newcomer)
    (same : next.workerID = (state.calls call).workerID) :
    Sound (state.setCall call next) := by
  refine setCall_sound sound (by simp [free]) numbered (fun workerID new => ?_)
    fun workerID busy => ?_
  · rcases newcomer with old | kept
    · rw [old] at new
      cases new
    · exact sound.newcomers call workerID (kept ▸ new)
  · rw [same] at busy
    exact ⟨sound.callsIssued call workerID busy, fun other new =>
      ((sound.newcomers other workerID new).alone call busy).symm⟩

/-- A record may be rewritten as long as it names no other lease than before. -/
theorem rewrite_sound {state : State Cpu Mem} {records : MemoryRepository Cpu Mem}
    {workerID : String} {result : Worker Cpu Mem → Worker Cpu Mem} (sound : Sound state)
    (written : ∀ other, records.find other =
      if other = workerID then (state.records.find workerID).map result
      else state.records.find other)
    (lease : ∀ worker leaseID, (result worker).leaseID = some leaseID →
      worker.leaseID = some leaseID) :
    Sound { state with records := records } := by
  have before : ∀ id worker, records.find id = some worker →
      ∃ earlier, state.records.find id = some earlier ∧
        ∀ leaseID, worker.leaseID = some leaseID → earlier.leaseID = some leaseID := by
    intro id worker found
    rw [written id] at found
    by_cases own : id = workerID
    · simp only [own, if_true, Option.map_eq_some_iff] at found
      obtain ⟨earlier, known, rfl⟩ := found
      exact ⟨earlier, own ▸ known, lease earlier⟩
    · exact ⟨worker, by simpa [own] using found, fun _ named => named⟩
  exact {
    stored := fun id worker leaseID found named =>
      have ⟨earlier, known, same⟩ := before id worker found
      sound.stored id earlier leaseID known (same leaseID named)
    held := sound.held
    numbered := sound.numbered
    newcomers := fun call id new => by
      have untouched := sound.newcomers call id new
      refine ⟨?_, untouched.silent, untouched.unbound, untouched.alone⟩
      cases found : records.find id with
      | none => rfl
      | some worker =>
          obtain ⟨earlier, known, _⟩ := before id worker found
          exact absurd (untouched.absent.symm.trans known) (by simp)
    recordsIssued := fun id worker found =>
      have ⟨earlier, known, _⟩ := before id worker found
      sound.recordsIssued id earlier known
    callsIssued := sound.callsIssued
    boundIssued := sound.boundIssued
    eventsIssued := sound.eventsIssued }

theorem markLost_sound {state : State Cpu Mem} (sound : Sound state) (workerID : String) :
    Sound { state with records := markLost state.records workerID } := by
  refine rewrite_sound sound (find_markLost state.records workerID) fun worker leaseID named => ?_
  unfold lost at named
  split at named
  · exact named
  · cases named

theorem events_sound {state : State Cpu Mem} {events : List String} (sound : Sound state)
    (fewer : ∀ key ∈ events, key ∈ state.etcd.events) :
    Sound { state with etcd := { state.etcd with events := events } } where
  stored workerID worker leaseID found named := by
    obtain ⟨issued, current, unheld⟩ := sound.stored workerID worker leaseID found named
    exact ⟨issued, fun alive => ⟨(current alive).1, fun waiting =>
      (current alive).2 (fewer _ waiting)⟩, unheld⟩
  held call workerID leaseID holds := by
    obtain ⟨current, alone⟩ := sound.held call workerID leaseID holds
    exact ⟨fun alive => ⟨(current alive).1, fun waiting =>
      (current alive).2 (fewer _ waiting)⟩, alone⟩
  numbered := sound.numbered
  newcomers call workerID new :=
    have untouched := sound.newcomers call workerID new
    ⟨untouched.absent, fun waiting => untouched.silent (fewer _ waiting), untouched.unbound,
      untouched.alone⟩
  recordsIssued := sound.recordsIssued
  callsIssued := sound.callsIssued
  boundIssued := sound.boundIssued
  eventsIssued key waiting := sound.eventsIssued key (fewer key waiting)

theorem grant_alive {etcd : Etcd} {key : String} {leaseID : LeaseID}
    (issued : leaseID ≤ etcd.nextID) (alive : (etcd.grant key).2.Alive leaseID) :
    etcd.Alive leaseID := by
  have other : leaseID ≠ etcd.nextID + 1 := (Int.lt_add_one_of_le issued).ne
  simpa [Etcd.Alive, Etcd.grant, Function.update_of_ne other] using alive

theorem grant_sound {state : State Cpu Mem} (sound : Sound state) (key : String) :
    Sound { state with etcd := (state.etcd.grant key).2 } where
  stored workerID worker leaseID found named := by
    obtain ⟨issued, current, unheld⟩ := sound.stored workerID worker leaseID found named
    exact ⟨Int.le_add_one issued, fun alive => current (grant_alive issued alive),
      fun alive => unheld (grant_alive issued alive)⟩
  held call workerID leaseID holds := by
    obtain ⟨current, alone⟩ := sound.held call workerID leaseID holds
    have issued : leaseID ≤ state.etcd.nextID := by
      apply sound.numbered call leaseID
      cases known : state.calls call <;> simp_all [Call.holds, Call.lease]
    exact ⟨fun alive => current (grant_alive issued alive), alone⟩
  numbered call leaseID carried := Int.le_add_one (sound.numbered call leaseID carried)
  newcomers call workerID new :=
    have untouched := sound.newcomers call workerID new
    ⟨untouched.absent, untouched.silent, untouched.unbound, untouched.alone⟩
  recordsIssued := sound.recordsIssued
  callsIssued := sound.callsIssued
  boundIssued := sound.boundIssued
  eventsIssued := sound.eventsIssued

theorem expire_nextID (etcd : Etcd) (gone : LeaseID) (key : String) :
    (etcd.expire gone key).nextID = etcd.nextID := by
  unfold Etcd.expire
  split <;> rfl

theorem expire_alive {etcd : Etcd} {key : String} {leaseID gone : LeaseID}
    (alive : (etcd.expire gone key).Alive leaseID) : leaseID ≠ gone ∧ etcd.Alive leaseID := by
  unfold Etcd.expire Etcd.Alive at alive
  unfold Etcd.Alive
  by_cases same : leaseID = gone
  · split at alive <;> simp [same] at alive
  · refine ⟨same, ?_⟩
    split at alive <;> simpa [Function.update_of_ne same] using alive

/-- A lease that is still alive is not the one that expired, so its key stays. -/
theorem expire_current {etcd : Etcd} {workerID key : String} {leaseID gone : LeaseID}
    (current : Current etcd workerID leaseID) :
    Current (etcd.expire gone key) workerID leaseID := by
  intro alive
  obtain ⟨other, before⟩ := expire_alive alive
  obtain ⟨bound, silent⟩ := current before
  unfold Etcd.expire
  split
  · rename_i deleted
    have elsewhere : leaseKey workerID ≠ key := by
      rintro rfl
      exact other (Option.some.inj (bound.symm.trans deleted))
    simp [bound, silent, elsewhere]
  · exact ⟨bound, silent⟩

theorem expire_bound {etcd : Etcd} {key other : String} {leaseID gone : LeaseID}
    (bound : (etcd.expire gone key).bound other = some leaseID) :
    etcd.bound other = some leaseID := by
  unfold Etcd.expire at bound
  split at bound
  · by_cases same : other = key
    · simp [same] at bound
    · simpa [Function.update_of_ne same] using bound
  · exact bound

theorem expire_events {etcd : Etcd} {key other : String} {gone : LeaseID}
    (waiting : other ∈ (etcd.expire gone key).events) :
    other ∈ etcd.events ∨ etcd.bound other = some gone := by
  unfold Etcd.expire at waiting
  split at waiting
  · rename_i deleted
    rcases List.mem_append.mp waiting with earlier | new
    · exact Or.inl earlier
    · exact Or.inr ((List.mem_singleton.mp new) ▸ deleted)
  · exact Or.inl waiting

theorem expire_sound {state : State Cpu Mem} (sound : Sound state) (gone : LeaseID)
    (key : String) : Sound { state with etcd := state.etcd.expire gone key } where
  stored workerID worker leaseID found named := by
    obtain ⟨issued, current, unheld⟩ := sound.stored workerID worker leaseID found named
    exact ⟨expire_nextID state.etcd gone key ▸ issued, expire_current current,
      fun alive => unheld (expire_alive alive).2⟩
  held call workerID leaseID holds := by
    obtain ⟨current, alone⟩ := sound.held call workerID leaseID holds
    exact ⟨expire_current current, alone⟩
  numbered call leaseID carried :=
    expire_nextID state.etcd gone key ▸ sound.numbered call leaseID carried
  newcomers call workerID new := by
    have untouched := sound.newcomers call workerID new
    refine ⟨untouched.absent, fun waiting => ?_, ?_, untouched.alone⟩
    · rcases expire_events waiting with earlier | bound
      · exact untouched.silent earlier
      · exact absurd (untouched.unbound.symm.trans bound) (by simp)
    · cases bound : (state.etcd.expire gone key).bound (leaseKey workerID) with
      | none => rfl
      | some leaseID =>
          exact absurd (untouched.unbound.symm.trans (expire_bound bound)) (by simp)
  recordsIssued := sound.recordsIssued
  callsIssued := sound.callsIssued
  boundIssued other leaseID bound := sound.boundIssued other leaseID (expire_bound bound)
  eventsIssued other waiting := by
    rcases expire_events waiting with earlier | bound
    · exact sound.eventsIssued other earlier
    · exact sound.boundIssued other gone bound

/-- A key is bound to a lease. What held of the other workers' keys still holds. -/
theorem bind_current {etcd : Etcd} {workerID other : String} {leaseID lease : LeaseID}
    (differs : other ≠ workerID) (current : Current etcd other lease) :
    Current { etcd with bound := Function.update etcd.bound (leaseKey workerID) (some leaseID) }
      other lease := by
  intro alive
  have elsewhere : leaseKey other ≠ leaseKey workerID := fun same =>
    differs (leaseKey_injective same)
  simpa [Function.update_of_ne elsewhere] using current alive

/-- The key of a worker that no call has to do with may be bound, once the lease in
the worker's record is gone. -/
theorem bind_sound {state : State Cpu Mem} {workerID : String} (leaseID : LeaseID)
    (sound : Sound state) (issued : workerID ∈ state.issuedIDs)
    (gone : ∀ worker lease, state.records.find workerID = some worker →
      worker.leaseID = some lease → ¬ state.etcd.Alive lease)
    (unheld : ∀ call lease, (state.calls call).holds ≠ some (workerID, lease))
    (joined : ∀ call, (state.calls call).newcomer ≠ some workerID) :
    Sound { state with etcd := { state.etcd with
      bound := Function.update state.etcd.bound (leaseKey workerID) (some leaseID) } } where
  stored other worker lease found named := by
    obtain ⟨granted, current, free⟩ := sound.stored other worker lease found named
    by_cases own : other = workerID
    · subst own
      have dead := gone worker lease found named
      exact ⟨granted, fun alive => absurd alive dead, fun alive => absurd alive dead⟩
    · exact ⟨granted, bind_current own current, free⟩
  held call other lease holds := by
    obtain ⟨current, alone⟩ := sound.held call other lease holds
    have own : other ≠ workerID := by
      rintro rfl
      exact unheld call lease holds
    exact ⟨bind_current own current, alone⟩
  numbered := sound.numbered
  newcomers call other new := by
    have untouched := sound.newcomers call other new
    have elsewhere : leaseKey other ≠ leaseKey workerID := fun same =>
      joined call (leaseKey_injective same ▸ new)
    refine ⟨untouched.absent, untouched.silent, ?_, untouched.alone⟩
    simpa [Function.update_of_ne elsewhere] using untouched.unbound
  recordsIssued := sound.recordsIssued
  callsIssued := sound.callsIssued
  boundIssued key lease bound := by
    by_cases own : key = leaseKey workerID
    · exact ⟨workerID, issued, own⟩
    · exact sound.boundIssued key lease (by simpa [own] using bound)
  eventsIssued := sound.eventsIssued

theorem put_some {etcd after : Etcd} {key : String} {leaseID : LeaseID}
    (put : etcd.put key leaseID = some after) :
    after = { etcd with bound := Function.update etcd.bound key (some leaseID) } := by
  unfold Etcd.put at put
  split at put
  · exact (Option.some.inj put).symm
  · cases put

theorem setCall_rested (state : State Cpu Mem) (etcd : Etcd) (call : Nat) (next : Call Cpu Mem) :
    { state.setCall call .idle with etcd := etcd }.setCall call next =
      { state with etcd := etcd }.setCall call next := by
  simp [State.setCall]

/-- A quiet worker's key may be bound to the new lease. -/
theorem put_sound {state : State Cpu Mem} {call : Nat} {workerID : String}
    {task : Task Cpu Mem} {leaseID : LeaseID} {etcd : Etcd} (sound : Sound state)
    (known : state.calls call = .granted workerID task leaseID)
    (quiet : Quiet state call workerID)
    (put : state.etcd.put (leaseKey workerID) leaseID = some etcd) :
    Sound ({ state with etcd := etcd }.setCall call (.bound workerID task leaseID)) := by
  obtain rfl := put_some put
  have busy : (state.calls call).workerID = some workerID := by rw [known]; rfl
  have issued : workerID ∈ state.issuedIDs := sound.callsIssued call workerID busy
  have others : ∀ other, (state.calls other).newcomer = some workerID → other = call :=
    fun other new => ((sound.newcomers other workerID new).alone call busy).symm
  -- The call lets go of the worker, the key is bound, and the call takes it up again.
  have rested : Sound (state.setCall call .idle) := idle_sound sound call
  have unheld : ∀ other lease, ((state.setCall call .idle).calls other).holds ≠
      some (workerID, lease) := by
    intro other lease holds
    rcases setCall_cases Call.holds holds with ⟨_, own⟩ | ⟨apart, before⟩
    · cases own
    · exact apart (quiet.alone other lease before)
  have joined : ∀ other, ((state.setCall call .idle).calls other).newcomer ≠ some workerID := by
    intro other new
    rcases setCall_cases Call.newcomer new with ⟨_, own⟩ | ⟨apart, before⟩
    · cases own
    · exact apart (others other before)
  have bound := bind_sound leaseID rested issued quiet.gone unheld joined
  rw [← setCall_rested]
  refine setCall_sound bound ?_ ?_ (by simp [Call.newcomer]) ?_
  · rintro _ _ ⟨⟩
    exact ⟨by simp, quiet.delivered, fun other lease holds => absurd holds (unheld other lease),
      quiet.gone⟩
  · rintro _ ⟨⟩
    exact sound.numbered call leaseID (by rw [known]; rfl)
  · rintro _ ⟨⟩
    exact ⟨issued, fun other new => absurd new (joined other)⟩

theorem finish_find {now : Time} {records : MemoryRepository Cpu Mem} {workerID other : String}
    {leaseID : LeaseID} {task : Task Cpu Mem} {worker : Worker Cpu Mem}
    (found : (finish now records workerID leaseID task).find other = some worker) :
    (other = workerID ∧ worker.leaseID = some leaseID) ∨
      (other ≠ workerID ∧ records.find other = some worker) := by
  cases task with
  | registration input =>
      rw [finish, find_create] at found
      split at found
      · rename_i own
        obtain rfl := Option.some.inj found
        exact Or.inl ⟨own, rfl⟩
      · exact Or.inr ⟨by assumption, found⟩
  | heartbeat beat =>
      rw [finish, find_heartbeat] at found
      split at found
      · rename_i own
        obtain ⟨earlier, _, rfl⟩ := Option.map_eq_some_iff.mp found
        exact Or.inl ⟨own, rfl⟩
      · exact Or.inr ⟨by assumption, found⟩

/-- The write that ends a call hands the lease over from the call to the record. -/
theorem finish_sound {now : Time} {state : State Cpu Mem} {call : Nat} {workerID : String}
    {task : Task Cpu Mem} {leaseID : LeaseID} (sound : Sound state)
    (known : state.calls call = .bound workerID task leaseID) :
    Sound ({ state with
      records := finish now state.records workerID leaseID task }.setCall call .idle) := by
  have holds : (state.calls call).holds = some (workerID, leaseID) := by rw [known]; rfl
  have busy : (state.calls call).workerID = some workerID := by rw [known]; rfl
  obtain ⟨current, alone⟩ := sound.held call workerID leaseID holds
  have rested := idle_sound sound call
  exact {
    stored := fun other worker lease found named => by
      rcases finish_find found with ⟨rfl, own⟩ | ⟨differs, before⟩
      · obtain rfl : leaseID = lease := Option.some.inj (own.symm.trans named)
        have granted : leaseID ≤ state.etcd.nextID :=
          sound.numbered call leaseID (by rw [known]; rfl)
        refine ⟨granted, current, fun _ third lease' taken => ?_⟩
        rcases setCall_cases Call.holds taken with ⟨_, own⟩ | ⟨apart, before⟩
        · cases own
        · exact apart (alone third lease' before)
      · exact rested.stored other worker lease before named
    held := rested.held
    numbered := rested.numbered
    newcomers := fun third other new => by
      have untouched := rested.newcomers third other new
      refine ⟨?_, untouched.silent, untouched.unbound, untouched.alone⟩
      cases found : (finish now state.records workerID leaseID task).find other with
      | none => exact found
      | some worker =>
          rcases finish_find found with ⟨rfl, _⟩ | ⟨_, before⟩
          · rcases setCall_cases Call.newcomer new with ⟨_, own⟩ | ⟨apart, before⟩
            · cases own
            · exact absurd ((sound.newcomers third other before).alone call busy).symm apart
          · exact absurd (untouched.absent.symm.trans before) (by simp)
    recordsIssued := fun other worker found => by
      rcases finish_find found with ⟨rfl, _⟩ | ⟨_, before⟩
      · exact sound.callsIssued call other busy
      · exact sound.recordsIssued other worker before
    callsIssued := rested.callsIssued
    boundIssued := rested.boundIssued
    eventsIssued := rested.eventsIssued }

/-- The key of a worker being registered is bound by nobody else. -/
theorem untouched_quiet {state : State Cpu Mem} {call : Nat} {workerID : String}
    (untouched : Untouched state call workerID) : Quiet state call workerID where
  delivered := untouched.silent
  alone other leaseID holds := by
    apply untouched.alone other
    cases known : state.calls other <;> simp_all [Call.holds, Call.workerID]
  gone worker leaseID found _ := by
    rw [untouched.absent] at found
    cases found

theorem advance_sound {state next : State Cpu Mem} {call : Nat} {now : Time}
    (sound : Sound state) (inTurn : GrantsInTurn state (.advance call now))
    (stepped : advance state call now = some next) : Sound next := by
  unfold advance at stepped
  cases known : state.calls call with
  | idle => simp [known] at stepped
  | read workerID beat current =>
      have kept : ∀ after : Call Cpu Mem, after.holds = none → after.lease = none →
          after.newcomer = none → after.workerID = some workerID →
          Sound (state.setCall call after) := by
        intro after free unleased old same
        exact continue_sound sound free (by simp [unleased]) (Or.inl old) (by rw [known, same]; rfl)
      simp only [known] at stepped
      split at stepped
      · cases stepped
        exact kept _ rfl rfl rfl rfl
      · split at stepped <;> cases stepped <;> exact kept _ rfl rfl rfl rfl
  | granting workerID task =>
      simp only [known] at stepped
      cases stepped
      refine continue_sound (grant_sound sound (leaseKey workerID)) rfl ?_ (Or.inr ?_) ?_
      · rintro _ ⟨⟩
        exact le_rfl
      · rw [known]
        cases task <;> rfl
      · rw [known]
        rfl
  | granted workerID task leaseID =>
      have quiet : Quiet state call workerID := by
        cases task with
        | registration input =>
            exact untouched_quiet (sound.newcomers call workerID (by rw [known]; rfl))
        | heartbeat beat => exact inTurn.2 workerID beat leaseID known
      simp only [known] at stepped
      split at stepped
      · cases stepped
        exact idle_sound sound call
      · rename_i etcd bound
        cases stepped
        exact put_sound sound known quiet bound
  | bound workerID task leaseID =>
      simp only [known] at stepped
      cases stepped
      exact finish_sound sound known
  | renewed workerID beat =>
      simp only [known] at stepped
      cases stepped
      have written := find_heartbeat now none beat state.records workerID
      exact idle_sound (rewrite_sound sound written fun worker leaseID named => named) call

theorem newcomer_workerID {call : Call Cpu Mem} {workerID : String}
    (new : call.newcomer = some workerID) : call.workerID = some workerID := by
  unfold Call.newcomer at new
  split at new
  · exact new
  · exact new
  · cases new

theorem issue_sound {state : State Cpu Mem} (sound : Sound state) (id : String) :
    Sound { state with issuedIDs := id :: state.issuedIDs } where
  stored := sound.stored
  held := sound.held
  numbered := sound.numbered
  newcomers call workerID new :=
    have untouched := sound.newcomers call workerID new
    ⟨untouched.absent, untouched.silent, untouched.unbound, untouched.alone⟩
  recordsIssued workerID worker found :=
    List.mem_cons_of_mem _ (sound.recordsIssued workerID worker found)
  callsIssued call workerID busy := List.mem_cons_of_mem _ (sound.callsIssued call workerID busy)
  boundIssued key leaseID bound :=
    have ⟨workerID, issued, same⟩ := sound.boundIssued key leaseID bound
    ⟨workerID, List.mem_cons_of_mem _ issued, same⟩
  eventsIssued key waiting :=
    have ⟨workerID, issued, same⟩ := sound.eventsIssued key waiting
    ⟨workerID, List.mem_cons_of_mem _ issued, same⟩

theorem heartbeat_sound {state : State Cpu Mem} {call : Nat} {workerID : String}
    {beat : Beat Cpu Mem} {current : Worker Cpu Mem} (sound : Sound state)
    (got : state.records.get workerID = .ok current) :
    Sound (state.setCall call (.read workerID beat current)) := by
  have found : state.records.find workerID = some current := by
    unfold MemoryRepository.get at got
    split at got
    · cases got
    · rename_i worker known
      rw [known, Except.ok.inj got]
  refine setCall_sound sound (by simp [Call.holds]) (by simp [Call.lease])
    (by simp [Call.newcomer]) ?_
  rintro _ ⟨⟩
  refine ⟨sound.recordsIssued workerID current found, fun other new => ?_⟩
  exact absurd ((sound.newcomers other workerID new).absent.symm.trans found) (by simp)

theorem register_sound {state : State Cpu Mem} {call : Nat} {id : String}
    {input : RegisterInput Cpu Mem} (sound : Sound state) (fresh : id ∉ state.issuedIDs) :
    Sound ({ state with
      issuedIDs := id :: state.issuedIDs }.setCall call (.granting id (.registration input))) := by
  have unknown : leaseKey id ∉ state.etcd.events ∧ state.etcd.bound (leaseKey id) = none := by
    constructor
    · intro waiting
      obtain ⟨workerID, issued, same⟩ := sound.eventsIssued (leaseKey id) waiting
      exact fresh (leaseKey_injective same ▸ issued)
    · cases bound : state.etcd.bound (leaseKey id) with
      | none => rfl
      | some leaseID =>
          obtain ⟨workerID, issued, same⟩ := sound.boundIssued (leaseKey id) leaseID bound
          exact absurd (leaseKey_injective same ▸ issued) fresh
  have absent : state.records.find id = none := by
    cases found : state.records.find id with
    | none => rfl
    | some worker => exact absurd (sound.recordsIssued id worker found) fresh
  have issued : Sound { state with issuedIDs := id :: state.issuedIDs } :=
    issue_sound sound id
  refine setCall_sound issued (by simp [Call.holds]) (by simp [Call.lease]) ?_ ?_
  · rintro _ ⟨⟩
    exact ⟨absent, unknown.1, unknown.2, fun other busy =>
      absurd (sound.callsIssued other id busy) fresh⟩
  · rintro _ ⟨⟩
    refine ⟨List.mem_cons_self, fun other new => ?_⟩
    have busy : (state.calls other).workerID = some id := newcomer_workerID new
    exact absurd (sound.callsIssued other id busy) fresh

section Machine
variable [Zero Cpu] [LT Cpu] [DecidableLT Cpu] [Zero Mem] [LT Mem] [DecidableLT Mem]

theorem step_sound (state : State Cpu Mem) (label : Label Cpu Mem) (next : State Cpu Mem)
    (sound : Sound state) (inTurn : GrantsInTurn state label)
    (stepped : step state label = some next) : Sound next := by
  cases label with
  | advance call now => exact advance_sound sound inTurn stepped
  | register call id input =>
      simp only [step] at stepped
      split at stepped
      · cases stepped
      · rename_i fresh
        split at stepped
        · obtain ⟨_, rfl⟩ := whenIdle_some stepped
          exact sound
        · obtain ⟨_, rfl⟩ := whenIdle_some stepped
          exact register_sound sound fresh
  | heartbeat call workerID beat =>
      simp only [step] at stepped
      split at stepped
      · obtain ⟨_, rfl⟩ := whenIdle_some stepped
        exact sound
      · rename_i current got
        obtain ⟨_, rfl⟩ := whenIdle_some stepped
        exact heartbeat_sound sound got
  | abandon call =>
      cases stepped
      exact idle_sound sound call
  | expire leaseID =>
      obtain ⟨key, _, rfl⟩ := Option.map_eq_some_iff.mp stepped
      exact expire_sound sound leaseID key
  | deliver key =>
      simp only [step] at stepped
      split at stepped
      · cases stepped
        have fewer := events_sound sound fun other => List.mem_of_mem_erase (a := other) (b := key)
        cases parsed : workerIDFromLeaseKey key with
        | none => simpa [watchExpirations, parsed] using fewer
        | some workerID => simpa [watchExpirations, parsed] using markLost_sound fewer workerID
      · cases stepped
  | markLost workerID => exact absurd inTurn.2 id

/-- A delivery that marks a worker lost is that of an event for its key. -/
theorem deliver_marks {state after : State Cpu Mem} {key workerID : String}
    {worker worker' : Worker Cpu Mem}
    (delivered : step state (.deliver key) = some after)
    (found : state.records.find workerID = some worker) (active : worker.status = .active)
    (stored : after.records.find workerID = some worker') (marked : worker'.status = .lost) :
    leaseKey workerID ∈ state.etcd.events := by
  have changed : state.records.find workerID ≠ after.records.find workerID := by
    intro same
    rw [found, stored] at same
    cases same
    rw [active] at marked
    cases marked
  simp only [step] at delivered
  split at delivered
  · rename_i waiting
    cases delivered
    cases parsed : workerIDFromLeaseKey key with
    | none => exact absurd (by simp [watchExpirations, parsed]) changed
    | some id =>
        rw [workerIDFromLeaseKey_some parsed] at waiting
        by_cases own : workerID = id
        · exact own ▸ waiting
        · exact absurd (by simp [watchExpirations, parsed, find_markLost, own]) changed
  · cases delivered

/-- Where heartbeats grant leases in turn, an event turns a worker from ACTIVE to
LOST only when the lease its record names has expired. -/
theorem lost_only_when_expired (labels : List (Label Cpu Mem)) (state after : State Cpu Mem)
    (key workerID : String) (worker worker' : Worker Cpu Mem)
    (ran : run step State.start labels = some state)
    (inTurn : Along step GrantsInTurn State.start labels)
    (delivered : step state (.deliver key) = some after)
    (found : state.records.find workerID = some worker) (active : worker.status = .active)
    (stored : after.records.find workerID = some worker') (marked : worker'.status = .lost) :
    ∃ leaseID, worker.leaseID = some leaseID ∧ state.etcd.Expired leaseID := by
  have sound : Sound state := guarded_invariant step_sound ran inTurn start_sound
  have leased : AllLeased state :=
    guarded_invariant (fun state label next holds inTurn stepped =>
      (step_exact state label next holds stepped).mpr inTurn.1) ran inTurn start_allLeased
  obtain ⟨leaseID, named⟩ := Option.isSome_iff_exists.mp ((leased workerID worker found).mp active)
  obtain ⟨issued, current, _⟩ := sound.stored workerID worker leaseID found named
  have waiting : leaseKey workerID ∈ state.etcd.events :=
    deliver_marks delivered found active stored marked
  exact ⟨leaseID, named, issued, fun alive => (current alive).2 waiting⟩

end Machine

/-- The worker joins, is lost, and comes back with a heartbeat that finds its event
delivered; then it is lost again. -/
def rejoinLabels : List (Label Int Int) := joinLabels ++
  [.expire 1, .deliver (leaseKey "w"), .heartbeat 0 "w" ⟨none, none⟩, .advance 0 2, .advance 0 2,
    .advance 0 2, .advance 0 3, .expire 2]

theorem rejoinLabels_inTurn : Along step GrantsInTurn State.start rejoinLabels := by
  refine ⟨⟨rfl, trivial⟩, ?_⟩
  rintro _ ⟨⟩
  iterate 3
    refine ⟨⟨rfl, by rintro _ _ _ ⟨⟩⟩, ?_⟩
    rintro _ ⟨⟩
  iterate 3
    refine ⟨⟨rfl, trivial⟩, ?_⟩
    rintro _ ⟨⟩
  iterate 2
    refine ⟨⟨rfl, by rintro _ _ _ ⟨⟩⟩, ?_⟩
    rintro _ ⟨⟩
  -- The Put of the heartbeat that follows the delivery.
  refine ⟨⟨rfl, ?_⟩, ?_⟩
  · rintro _ _ _ ⟨⟩
    refine ⟨by decide, fun other leaseID holds => ?_, by rintro _ _ ⟨⟩ ⟨⟩⟩
    by_contra apart
    simp [State.setCall, State.start, apart, Call.holds] at holds
  rintro _ ⟨⟩
  refine ⟨⟨rfl, by rintro _ _ _ ⟨⟩⟩, ?_⟩
  rintro _ ⟨⟩
  exact ⟨⟨rfl, trivial⟩, fun _ _ => trivial⟩

theorem rejoinLabels_expired : ∃ state after worker worker',
    run step State.start rejoinLabels = some state ∧
      step state (.deliver (leaseKey "w")) = some after ∧
      state.records.find "w" = some worker ∧ worker.status = .active ∧
      after.records.find "w" = some worker' ∧ worker'.status = .lost ∧
      ∃ leaseID, worker.leaseID = some leaseID ∧ state.etcd.Expired leaseID :=
  ⟨_, _, _, _, rfl, rfl, rfl, rfl, rfl, rfl,
    lost_only_when_expired rejoinLabels _ _ (leaseKey "w") "w" _ _ rfl rejoinLabels_inTurn
      rfl rfl rfl rfl rfl⟩

/-- The heartbeat is granted a new lease and writes it before the event of the
old one is delivered. -/
def staleLabels : List (Label Int Int) := joinLabels ++
  [.expire 1, .heartbeat 0 "w" ⟨none, none⟩, .advance 0 2, .advance 0 2, .advance 0 2, .advance 0 3]

theorem staleLabels_marks_live_worker : ∃ state after worker worker' leaseID,
    run step State.start staleLabels = some state ∧
      step state (.deliver (leaseKey "w")) = some after ∧
      state.records.find "w" = some worker ∧ worker.status = .active ∧
      after.records.find "w" = some worker' ∧ worker'.status = .lost ∧
      worker.leaseID = some leaseID ∧ state.etcd.Alive leaseID :=
  ⟨_, _, _, _, _, rfl, rfl, rfl, rfl, rfl, rfl, rfl, rfl⟩

end OrionQueue.Expirations
