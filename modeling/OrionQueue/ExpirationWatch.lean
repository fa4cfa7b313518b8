import OrionQueue.Expirations
import OrionQueue.WorkerLoss

/-!
The API process's handling of lease expirations: WatchExpirations takes one event
after the other, marks the worker LOST and has LoseWorker recover its jobs. The
lease manager sends one event per expiry, to the watch that is registered at that
moment. Every call on a repository may fail, and the process may stop and start
its watch again. An event is handled once, whatever comes of it.
-/

namespace OrionQueue.ExpirationWatch

open Jobs JobService JobLifecycle JobCoherence Workers Recovery Leases WorkerLoss Runs
open Cluster (Handler)
open Liveness (beaten find_heartbeat)
open Expirations (finish_find)

variable {Cpu Mem : Type}

/-- `leases.FakeManager` with at most one watch; `watcher` is what its channel holds. -/
structure FakeManager where
  nextID : LeaseID
  keyByID : LeaseID → Option String
  watcher : Option (List String)

namespace FakeManager

def empty : FakeManager := ⟨0, fun _ => none, none⟩

def grant (manager : FakeManager) (key : String) : LeaseID × FakeManager :=
  (manager.nextID + 1, { manager with
    nextID := manager.nextID + 1
    keyByID := Function.update manager.keyByID (manager.nextID + 1) (some key) })

def alive (manager : FakeManager) (id : LeaseID) : Bool := (manager.keyByID id).isSome

/-- The lease is gone, and its key goes to the watch, if there is one. -/
def expire (manager : FakeManager) (id : LeaseID) (key : String) : FakeManager :=
  { manager with
    keyByID := Function.update manager.keyByID id none
    watcher := manager.watcher.map (· ++ [key]) }

def waiting (manager : FakeManager) : List String := manager.watcher.getD []

end FakeManager

/-- Where a Register or Heartbeat call stands. -/
inductive Call (Cpu Mem : Type) where
  | idle
  | read (workerID : String) (beat : Beat Cpu Mem) (current : Worker Cpu Mem)
  | granted (workerID : String) (task : Task Cpu Mem) (leaseID : LeaseID)
  | renewed (workerID : String) (beat : Beat Cpu Mem)

structure State (Cpu Mem : Type) where
  workers : Workers.MemoryRepository Cpu Mem
  jobs : JobStore.MemoryRepository Cpu Mem
  leases : FakeManager
  calls : Nat → Call Cpu Mem
  handler : Handler Cpu Mem

def State.start : State Cpu Mem := ⟨.empty, .empty, .empty, fun _ => .idle, .idle⟩

inductive Label (Cpu Mem : Type) where
  | register (call : Nat) (id : String) (input : RegisterInput Cpu Mem)
  | heartbeat (call : Nat) (workerID : String) (beat : Beat Cpu Mem)
  | advance (call : Nat) (now : Time)
  | abandon (call : Nat)
  | job (now : Time) (op : Op Cpu Mem)
  | expire (leaseID : LeaseID)
  | watch
  /-- The process stops: what its channel holds and what it is doing is gone. -/
  | stop
  /-- The loop of WatchExpirations takes an event and calls MarkLost. -/
  | receive (failing : Bool)
  /-- The next call on the job repository inside LoseWorker. -/
  | handle (now : Time) (failing : Bool)

/-- Any call on the job service. The generator does not hand out an ID that is in
use, and RunOnce assigns a job to one worker. -/
def allowed (jobs : JobStore.MemoryRepository Cpu Mem) : Op Cpu Mem → Bool
  | .assignToWorkers _ workerIDs => workerIDs.length = 1
  | .submit id _ => (jobs.find id).isNone
  | _ => true

def State.setCall (state : State Cpu Mem) (call : Nat) (next : Call Cpu Mem) : State Cpu Mem :=
  { state with calls := Function.update state.calls call next }

/-- Grant, with what the call does next. -/
def State.grant (state : State Cpu Mem) (call : Nat) (workerID : String) (task : Task Cpu Mem) :
    State Cpu Mem :=
  let lease := state.leases.grant (leaseKey workerID)
  { state with leases := lease.2 }.setCall call (.granted workerID task lease.1)

def advance (state : State Cpu Mem) (call : Nat) (now : Time) : Option (State Cpu Mem) :=
  match state.calls call with
  | .idle => none
  | .read workerID beat current =>
      match current.leaseID with
      | none => some (state.grant call workerID (.heartbeat beat))
      | some leaseID =>
          if state.leases.alive leaseID then some (state.setCall call (.renewed workerID beat))
          else some (state.grant call workerID (.heartbeat beat))
  | .granted workerID task leaseID =>
      some ({ state with
        workers := finish now state.workers workerID leaseID task }.setCall call .idle)
  | .renewed workerID beat =>
      some ({ state with
        workers := (state.workers.update workerID
          (heartbeatUpdate now none beat.gpus beat.runningJobIDs)).2 }.setCall call .idle)

/-- MarkLost for the worker of the key, and where the loop stands after it. -/
def markLost (workers : Workers.MemoryRepository Cpu Mem) (key : String) :
    Handler Cpu Mem × Workers.MemoryRepository Cpu Mem :=
  match workerIDFromLeaseKey key with
  | none => (.idle, workers)
  | some workerID =>
      match workers.update workerID markLostUpdate with
      | (.ok _, after) => (.marked workerID, after)
      -- ErrNotFound is skipped, any other error reported; both are the end of the event.
      | (.error _, after) => (.idle, after)

section Machine
variable [Zero Cpu] [LT Cpu] [DecidableLT Cpu] [Zero Mem] [LT Mem] [DecidableLT Mem]

def step (state : State Cpu Mem) : Label Cpu Mem → Option (State Cpu Mem)
  | .register call id input =>
      match state.calls call, validateRegister input with
      | .idle, .ok () => if id = "" then none else some (state.grant call id (.registration input))
      | .idle, .error _ => some state
      | _, _ => none
  | .heartbeat call workerID beat =>
      match state.calls call, state.workers.get workerID with
      | .idle, .ok current => some (state.setCall call (.read workerID beat current))
      | .idle, .error _ => some state
      | _, _ => none
  | .advance call now => advance state call now
  | .abandon call => some (state.setCall call .idle)
  | .job now op =>
      if allowed state.jobs op then some { state with jobs := op.apply now state.jobs } else none
  | .expire leaseID =>
      (state.leases.keyByID leaseID).map fun key =>
        { state with leases := state.leases.expire leaseID key }
  | .watch =>
      match state.leases.watcher with
      | none => some { state with leases := { state.leases with watcher := some [] } }
      | some _ => none
  | .stop =>
      some { state with leases := { state.leases with watcher := none }, handler := .idle }
  | .receive failing =>
      match state.handler, state.leases.watcher with
      | .idle, some (key :: rest) =>
          let received := { state with leases := { state.leases with watcher := some rest } }
          if failing then some received
          else
            let marked := markLost state.workers key
            some { received with workers := marked.2, handler := marked.1 }
      | _, _ => none
  | .handle now failing =>
      match state.handler with
      | .idle => none
      | .marked workerID =>
          some { state with
            handler := if failing then .idle else .recovering (Recovery.Call.begin state.jobs workerID) }
      | .recovering call =>
          -- An Update that fails ends the call; with none left, nothing can fail.
          if failing ∧ call.pending ≠ [] then some { state with handler := .idle }
          else
            let next := Handler.next now state.jobs call
            some { state with jobs := next.2.1, handler := next.1 }

end Machine

/-- The event is with the loop: in its channel, or what it is at work on. -/
def Waiting (state : State Cpu Mem) (workerID : String) : Prop :=
  leaseKey workerID ∈ state.leases.waiting ∨ state.handler = .marked workerID ∨
    ∃ call, state.handler = .recovering call ∧ call.workerID = workerID

def Leased (manager : FakeManager) (worker : Worker Cpu Mem) : Prop :=
  ∃ leaseID, worker.leaseID = some leaseID ∧ manager.alive leaseID = true

/-- A worker without a live lease is LOST and rid of its jobs, or its event waits. -/
def Detected (state : State Cpu Mem) : Prop :=
  ∀ workerID worker, state.workers.find workerID = some worker → ¬ Leased state.leases worker →
    (worker.status = .lost ∧ ∀ id job, state.jobs.find id = some job →
      job.state.recoverable = true → workerID ∉ job.assignedWorkerIDs) ∨
    Waiting state workerID

/-- A watch is registered at every expiry, no call made for an event fails, and the
process does not stop while there is an event to handle. A call writes a lease only
while that lease is alive or its event waits, a heartbeat that renewed writes only
over a worker that is not LOST, and no job is assigned to a LOST worker. -/
def unfailing (state : State Cpu Mem) : Label Cpu Mem → Bool
  | .expire _ => state.leases.watcher.isSome
  | .receive failing => !failing
  | .handle _ failing => !failing
  | .stop =>
      match state.handler with
      | .idle => state.leases.waiting.isEmpty
      | _ => false
  | .advance call _ =>
      match state.calls call with
      | .granted workerID _ leaseID =>
          state.leases.alive leaseID || state.leases.waiting.contains (leaseKey workerID)
      | .renewed workerID _ =>
          (state.workers.find workerID).all fun worker => worker.status ≠ .lost
      | _ => true
  | .job _ (.assignToWorkers id workerIDs) =>
      !((state.jobs.find id).any fun job => job.state = .queued) || workerIDs.all fun workerID =>
        (state.workers.find workerID).all fun worker => worker.status ≠ .lost
  | _ => true

/-- A lease granted for the worker: numbered, and gone or filed under the worker's key. -/
structure Issued (manager : FakeManager) (workerID : String) (leaseID : LeaseID) : Prop where
  numbered : leaseID ≤ manager.nextID
  filed : ∀ key, manager.keyByID leaseID = some key → key = leaseKey workerID

def CallSound (manager : FakeManager) : Call Cpu Mem → Prop
  | .idle | .renewed _ _ => True
  | .read workerID _ _ => workerID ≠ ""
  | .granted workerID _ leaseID => workerID ≠ "" ∧ Issued manager workerID leaseID

/-- The live jobs on the worker are none, or those that the loop is to recover. -/
def Claimed (jobs : JobStore.MemoryRepository Cpu Mem) (handler : Handler Cpu Mem)
    (workerID : String) : Prop :=
  Unclaimed jobs workerID [] ∨ handler = .marked workerID ∨
    ∃ call, handler = .recovering call ∧ call.workerID = workerID ∧
      Unclaimed jobs workerID call.pending

def Tended (state : State Cpu Mem) (workerID : String) (worker : Worker Cpu Mem) : Prop :=
  Leased state.leases worker ∨ leaseKey workerID ∈ state.leases.waiting ∨
    (worker.status = .lost ∧ Claimed state.jobs state.handler workerID)

structure Sound (state : State Cpu Mem) : Prop where
  keyed : state.jobs.Keyed
  shaped : Shaped state.jobs
  named : ∀ workerID worker, state.workers.find workerID = some worker → workerID ≠ ""
  stored : ∀ workerID worker leaseID, state.workers.find workerID = some worker →
    worker.leaseID = some leaseID → Issued state.leases workerID leaseID
  calls : ∀ call, CallSound state.leases (state.calls call)
  pending : ∀ call, state.handler = .recovering call → ∀ id ∈ call.pending,
    ∃ job, state.jobs.find id = some job
  tended : ∀ workerID worker, state.workers.find workerID = some worker →
    Tended state workerID worker

theorem start_sound : Sound (State.start : State Cpu Mem) where
  keyed := Tables.keyed_empty Job.id
  shaped := empty_shaped
  named _ _ found := by simp [State.start] at found
  stored _ _ _ found := by simp [State.start] at found
  calls _ := trivial
  pending _ busy := by cases busy
  tended _ _ found := by simp [State.start] at found

theorem sound_detected {state : State Cpu Mem} (sound : Sound state) : Detected state := by
  intro workerID worker found unleased
  rcases sound.tended workerID worker found with leased | waiting | ⟨lost, none | marked | busy⟩
  · exact absurd leased unleased
  · exact Or.inr (Or.inl waiting)
  · refine Or.inl ⟨lost, fun id job stored active assigned => ?_⟩
    have live : job.state.terminal = false := by
      cases state : job.state <;> simp_all [State.recoverable, State.terminal]
    cases none id job stored live assigned
  · exact Or.inr (Or.inr (Or.inl marked))
  · obtain ⟨call, recovering, own, _⟩ := busy
    exact Or.inr (Or.inr (Or.inr ⟨call, recovering, own⟩))

/-- Calls come and go without touching anything else. -/
theorem setCall_sound {state : State Cpu Mem} (sound : Sound state) {call : Nat}
    {next : Call Cpu Mem} (fine : CallSound state.leases next) : Sound (state.setCall call next) where
  keyed := sound.keyed
  shaped := sound.shaped
  named := sound.named
  stored := sound.stored
  calls other := by
    by_cases own : other = call
    · simpa [State.setCall, own] using fine
    · simpa [State.setCall, own] using sound.calls other
  pending := sound.pending
  tended := sound.tended

/-- What may become of the lease manager: leases stay filed as they were or go, a
worker that loses its lease by that has an event waiting, and a worker whose event
goes is tended to without it. -/
theorem leases_sound {state : State Cpu Mem} {leases : FakeManager} (sound : Sound state)
    (issued : ∀ workerID leaseID, Issued state.leases workerID leaseID →
      Issued leases workerID leaseID)
    (kept : ∀ workerID worker, state.workers.find workerID = some worker →
      leaseKey workerID ∈ state.leases.waiting →
        Tended { state with leases := leases } workerID worker)
    (seen : ∀ workerID leaseID, Issued state.leases workerID leaseID →
      state.leases.alive leaseID = true →
        leases.alive leaseID = true ∨ leaseKey workerID ∈ leases.waiting) :
    Sound { state with leases := leases } where
  keyed := sound.keyed
  shaped := sound.shaped
  named := sound.named
  stored workerID worker leaseID found named :=
    issued workerID leaseID (sound.stored workerID worker leaseID found named)
  calls call := by
    have fine := sound.calls call
    cases held : state.calls call with
    | granted workerID task leaseID =>
        rw [held] at fine
        exact ⟨fine.1, issued workerID leaseID fine.2⟩
    | read workerID beat current =>
        rw [held] at fine
        exact fine
    | _ => trivial
  pending := sound.pending
  tended workerID worker found := by
    rcases sound.tended workerID worker found with ⟨leaseID, named, alive⟩ | waiting | lost
    · rcases seen workerID leaseID (sound.stored workerID worker leaseID found named) alive with
        still | told
      · exact Or.inl ⟨leaseID, named, still⟩
      · exact Or.inr (Or.inl told)
    · exact kept workerID worker found waiting
    · exact Or.inr (Or.inr lost)

theorem grant_issued {manager : FakeManager} {workerID key : String} {leaseID : LeaseID}
    (issued : Issued manager workerID leaseID) : Issued (manager.grant key).2 workerID leaseID := by
  obtain ⟨numbered, filed⟩ := issued
  have older : leaseID ≠ manager.nextID + 1 := by
    rintro rfl
    exact absurd numbered (by simp)
  refine ⟨numbered.trans (Int.le_add_one le_rfl), fun found held => filed found ?_⟩
  simpa [FakeManager.grant, older] using held

theorem grant_sound {state : State Cpu Mem} (sound : Sound state) {call : Nat} {workerID : String}
    {task : Task Cpu Mem} (named : workerID ≠ "") : Sound (state.grant call workerID task) := by
  refine setCall_sound (leases_sound sound (fun _ _ => grant_issued)
    (fun _ _ _ waiting => Or.inr (Or.inl waiting)) ?_) ?_
  · intro other leaseID _ alive
    refine Or.inl ?_
    by_cases new : leaseID = state.leases.nextID + 1
    · simp [FakeManager.grant, FakeManager.alive, new]
    · simpa [FakeManager.grant, FakeManager.alive, new] using alive
  · refine ⟨named, le_rfl, fun key held => ?_⟩
    simpa [FakeManager.grant, eq_comm] using held

theorem expire_sound {state : State Cpu Mem} (sound : Sound state) {gone : LeaseID} {key : String}
    (held : state.leases.keyByID gone = some key) (watched : state.leases.watcher.isSome = true) :
    Sound { state with leases := state.leases.expire gone key } := by
  obtain ⟨queue, listening⟩ := Option.isSome_iff_exists.mp watched
  refine leases_sound sound ?_ ?_ ?_
  · rintro workerID leaseID ⟨numbered, filed⟩
    refine ⟨numbered, fun other found => filed other ?_⟩
    by_cases same : leaseID = gone
    · simp [FakeManager.expire, same] at found
    · simpa [FakeManager.expire, same] using found
  · intro workerID worker found member
    refine Or.inr (Or.inl ?_)
    simp only [FakeManager.waiting, FakeManager.expire, listening, Option.getD_some,
      Option.map_some] at member ⊢
    exact List.mem_append_left _ member
  · -- The one lease that goes is filed under the key of the worker that has it.
    intro workerID leaseID issued alive
    by_cases same : leaseID = gone
    · subst same
      refine Or.inr ?_
      rw [← issued.filed key held]
      simp [FakeManager.waiting, FakeManager.expire, listening]
    · exact Or.inl (by simpa [FakeManager.expire, FakeManager.alive, same] using alive)

/-- A write to worker records, each of which is as before or tended to by itself. -/
theorem workers_sound {state : State Cpu Mem} {workers : Workers.MemoryRepository Cpu Mem}
    (sound : Sound state)
    (each : ∀ id worker, workers.find id = some worker →
      state.workers.find id = some worker ∨
        (id ≠ "" ∧ (∀ leaseID, worker.leaseID = some leaseID → Issued state.leases id leaseID) ∧
          Tended state id worker)) :
    Sound { state with workers := workers } where
  keyed := sound.keyed
  shaped := sound.shaped
  named id worker found := by
    rcases each id worker found with before | ⟨named, _⟩
    · exact sound.named id worker before
    · exact named
  stored id worker leaseID found carries := by
    rcases each id worker found with before | ⟨_, issued, _⟩
    · exact sound.stored id worker leaseID before carries
    · exact issued leaseID carries
  calls := sound.calls
  pending := sound.pending
  tended id worker found := by
    rcases each id worker found with before | ⟨_, _, tended⟩
    · exact sound.tended id worker before
    · exact tended

/-- The record that ends a grant carries the lease, which is alive or has its
expiration waiting. -/
theorem granted_sound {state : State Cpu Mem} {now : Time} {workerID : String} {task : Task Cpu Mem}
    {leaseID : LeaseID} (sound : Sound state) (named : workerID ≠ "")
    (issued : Issued state.leases workerID leaseID)
    (leased : state.leases.alive leaseID = true ∨ leaseKey workerID ∈ state.leases.waiting) :
    Sound { state with workers := finish now state.workers workerID leaseID task } := by
  refine workers_sound sound fun id worker found => ?_
  rcases finish_find found with ⟨rfl, carries⟩ | ⟨_, before⟩
  · refine Or.inr ⟨named, fun other same => ?_, ?_⟩
    · rw [← Option.some.inj (carries.symm.trans same)]
      exact issued
    · rcases leased with alive | waiting
      · exact Or.inl ⟨leaseID, carries, alive⟩
      · exact Or.inr (Or.inl waiting)
  · exact Or.inl before

/-- A renewal keeps the lease of the record, and so the way in which a worker that is
not LOST is tended to. -/
theorem renewed_sound {state : State Cpu Mem} {now : Time} {workerID : String} {beat : Beat Cpu Mem}
    (sound : Sound state)
    (unlost : ∀ worker, state.workers.find workerID = some worker → worker.status ≠ .lost) :
    Sound { state with workers := (state.workers.update workerID
      (heartbeatUpdate now none beat.gpus beat.runningJobIDs)).2 } := by
  refine workers_sound sound fun id worker found => ?_
  rw [find_heartbeat] at found
  split at found
  · rename_i own
    subst own
    obtain ⟨earlier, before, rfl⟩ := Option.map_eq_some_iff.mp found
    refine Or.inr ⟨sound.named id earlier before, fun leaseID carries => ?_, ?_⟩
    · exact sound.stored id earlier leaseID before (by simpa [beaten, heard] using carries)
    · rcases sound.tended id earlier before with leased | waiting | ⟨isLost, _⟩
      · exact Or.inl (by simpa [Leased, beaten, heard] using leased)
      · exact Or.inr (Or.inl waiting)
      · exact absurd isLost (unlost earlier before)
  · exact Or.inl found

theorem advance_sound {state after : State Cpu Mem} {call : Nat} {now : Time} (sound : Sound state)
    (kept : unfailing state (.advance call now) = true)
    (stepped : advance state call now = some after) : Sound after := by
  have fine := sound.calls call
  unfold advance at stepped
  cases held : state.calls call with
  | idle => simp [held] at stepped
  | read workerID beat current =>
      rw [held] at fine
      simp only [held] at stepped
      split at stepped
      · cases stepped
        exact grant_sound sound fine
      · split at stepped <;> cases stepped
        · exact setCall_sound sound trivial
        · exact grant_sound sound fine
  | granted workerID task leaseID =>
      rw [held] at fine
      simp only [held, Option.some.injEq] at stepped
      subst stepped
      have leased : state.leases.alive leaseID = true ∨ leaseKey workerID ∈ state.leases.waiting := by
        simpa only [unfailing, held, Bool.or_eq_true, List.contains_iff_mem] using kept
      exact setCall_sound (granted_sound sound fine.1 fine.2 leased) trivial
  | renewed workerID beat =>
      simp only [held, Option.some.injEq] at stepped
      subst stepped
      refine setCall_sound (renewed_sound sound fun worker found => ?_) trivial
      simpa [unfailing, held, found] using kept

/-- A change of the jobs, of where the loop stands, or of both. -/
theorem work_sound {state : State Cpu Mem} {jobs : JobStore.MemoryRepository Cpu Mem}
    {handler : Handler Cpu Mem} (sound : Sound state) (keyed : jobs.Keyed) (shaped : Shaped jobs)
    (pending : ∀ call, handler = .recovering call → ∀ id ∈ call.pending,
      ∃ job, jobs.find id = some job)
    (claimed : ∀ workerID worker, state.workers.find workerID = some worker →
      worker.status = .lost → Claimed state.jobs state.handler workerID →
        Claimed jobs handler workerID) :
    Sound { state with jobs := jobs, handler := handler } where
  keyed := keyed
  shaped := shaped
  named := sound.named
  stored := sound.stored
  calls := sound.calls
  pending := pending
  tended workerID worker found := by
    rcases sound.tended workerID worker found with leased | waiting | ⟨isLost, busy⟩
    · exact Or.inl leased
    · exact Or.inr (Or.inl waiting)
    · exact Or.inr (Or.inr ⟨isLost, claimed workerID worker found isLost busy⟩)

/-- An idle loop takes up a worker, which claims no worker's jobs that were not
claimed before. -/
theorem mark_sound {state : State Cpu Mem} (sound : Sound state) (idle : state.handler = .idle)
    (workerID : String) : Sound { state with handler := .marked workerID } := by
  refine work_sound sound sound.keyed sound.shaped (fun _ busy => by cases busy) ?_
  rintro other worker _ _ (none | marked | ⟨call, busy, _⟩)
  · exact Or.inl none
  · simp [idle] at marked
  · simp [idle] at busy

theorem lost_status (worker : Worker Cpu Mem) : (lost worker).status = .lost := by
  unfold lost
  split
  · assumption
  · rfl

theorem lost_leaseID {worker : Worker Cpu Mem} {leaseID : LeaseID}
    (carries : (lost worker).leaseID = some leaseID) : worker.leaseID = some leaseID := by
  unfold lost at carries
  split at carries
  · exact carries
  · cases carries

/-- Once the loop has taken up the worker, its record may say LOST. -/
theorem lost_sound {state : State Cpu Mem} {workerID : String} (sound : Sound state)
    (marked : state.handler = .marked workerID) :
    Sound { state with workers := (state.workers.update workerID markLostUpdate).2 } := by
  refine workers_sound sound fun id worker found => ?_
  rw [show (state.workers.update workerID markLostUpdate).2 =
    Leases.markLost state.workers workerID from rfl, Liveness.find_markLost] at found
  split at found
  · rename_i own
    subst own
    obtain ⟨earlier, before, rfl⟩ := Option.map_eq_some_iff.mp found
    refine Or.inr ⟨sound.named id earlier before, fun leaseID carries => ?_, ?_⟩
    · exact sound.stored id earlier leaseID before (lost_leaseID carries)
    · exact Or.inr (Or.inr ⟨lost_status earlier, Or.inr (Or.inl marked)⟩)
  · exact Or.inl found

/-- An event leaves the channel when its worker is tended to without it. -/
theorem take_sound {state : State Cpu Mem} {key : String} {rest : List String} (sound : Sound state)
    (queue : state.leases.watcher = some (key :: rest))
    (tended : ∀ workerID worker, state.workers.find workerID = some worker →
      key = leaseKey workerID →
        worker.status = .lost ∧ Claimed state.jobs state.handler workerID) :
    Sound { state with leases := { state.leases with watcher := some rest } } := by
  refine leases_sound sound (fun _ _ issued => ⟨issued.numbered, issued.filed⟩) ?_
    (fun _ _ _ alive => Or.inl alive)
  intro workerID worker found waiting
  simp only [FakeManager.waiting, queue, Option.getD_some, List.mem_cons] at waiting
  rcases waiting with own | later
  · exact Or.inr (Or.inr (tended workerID worker found own.symm))
  · exact Or.inr (Or.inl later)

/-- A watch begins to listen, or ends with nothing to listen to. -/
theorem watcher_sound {state : State Cpu Mem} (sound : Sound state)
    (silent : state.leases.waiting = []) (watcher : Option (List String)) :
    Sound { state with leases := { state.leases with watcher := watcher } } := by
  refine leases_sound sound (fun _ _ issued => ⟨issued.numbered, issued.filed⟩) ?_
    (fun _ _ _ alive => Or.inl alive)
  intro workerID worker _ waiting
  simp [silent] at waiting

/-- An event is either about no stored worker, or its worker is marked. -/
theorem markLost_cases (workers : Workers.MemoryRepository Cpu Mem) (key : String) :
    (markLost workers key = (.idle, workers) ∧
      ∀ workerID, key = leaseKey workerID → workerID ≠ "" → workers.find workerID = none) ∨
    ∃ workerID, key = leaseKey workerID ∧
      markLost workers key = (.marked workerID, (workers.update workerID markLostUpdate).2) := by
  unfold markLost
  cases parsed : workerIDFromLeaseKey key with
  | none =>
      refine Or.inl ⟨rfl, fun workerID own named => ?_⟩
      rw [own, workerIDFromLeaseKey_leaseKey named] at parsed
      cases parsed
  | some workerID =>
      have own := workerIDFromLeaseKey_some parsed
      cases found : workers.find workerID with
      | none =>
          refine Or.inl ⟨by simp [Workers.MemoryRepository.update, found], fun other same _ => ?_⟩
          rwa [leaseKey_injective (same.symm.trans own)]
      | some worker =>
          exact Or.inr ⟨workerID, own, by
            simp [Workers.MemoryRepository.update, found, markLostUpdate]⟩

theorem receive_sound {state : State Cpu Mem} {key : String} {rest : List String}
    (sound : Sound state) (idle : state.handler = .idle)
    (queue : state.leases.watcher = some (key :: rest)) :
    Sound { state with
      leases := { state.leases with watcher := some rest }
      workers := (markLost state.workers key).2
      handler := (markLost state.workers key).1 } := by
  rcases markLost_cases state.workers key with ⟨skips, unknown⟩ | ⟨workerID, own, marks⟩
  · have skipped := take_sound sound queue fun workerID worker found same => by
      rw [unknown workerID same (sound.named workerID worker found)] at found
      cases found
    simpa [skips, idle] using skipped
  · have marked := lost_sound (mark_sound sound idle workerID) rfl
    have taken := take_sound marked queue fun other worker found same => by
      obtain rfl := leaseKey_injective (own.symm.trans same)
      have after := Liveness.find_markLost state.workers workerID workerID
      rw [if_pos rfl] at after
      obtain ⟨earlier, _, rfl⟩ := Option.map_eq_some_iff.mp (after.symm.trans found)
      exact ⟨lost_status earlier, Or.inr (Or.inl rfl)⟩
    simpa [marks] using taken

theorem allowed_single {jobs : JobStore.MemoryRepository Cpu Mem} {op : Op Cpu Mem}
    (permitted : allowed jobs op = true) : SinglePlacement op := by
  cases op with
  | assignToWorkers id workerIDs => simpa [allowed, SinglePlacement] using permitted
  | _ => trivial

theorem allowed_fresh {jobs : JobStore.MemoryRepository Cpu Mem} {op : Op Cpu Mem}
    (permitted : allowed jobs op = true) (id : String) (input : SubmitInput Cpu Mem)
    (isSubmit : op = .submit id input) : jobs.find id = none := by
  subst isSubmit
  simpa [allowed] using permitted

/-- LoseWorker takes its listing. -/
theorem begin_sound {state : State Cpu Mem} {workerID : String} (sound : Sound state)
    (marked : state.handler = .marked workerID) :
    Sound { state with handler := .recovering (Recovery.Call.begin state.jobs workerID) } := by
  refine work_sound sound sound.keyed sound.shaped ?_ ?_
  · rintro call busy id member
    cases busy
    obtain ⟨job, stored, _⟩ := (begin_pending sound.keyed workerID).2 id member
    exact ⟨job, stored⟩
  · rintro other worker _ _ (none | same | ⟨call, busy, _⟩)
    · exact Or.inl none
    · obtain rfl : workerID = other := by simpa [marked] using same
      exact Or.inr (Or.inr ⟨_, rfl, rfl, begin_unclaimed sound.shaped sound.keyed workerID⟩)
    · simp [marked] at busy

section Machine
variable [Zero Cpu] [LT Cpu] [DecidableLT Cpu] [Zero Mem] [LT Mem] [DecidableLT Mem]

theorem apply_kept {jobs : JobStore.MemoryRepository Cpu Mem} {op : Op Cpu Mem} {now : Time}
    (permitted : allowed jobs op = true) {id : String} (found : ∃ job, jobs.find id = some job) :
    ∃ job, (op.apply now jobs).find id = some job := by
  obtain ⟨job, stored⟩ := found
  obtain ⟨job', after, _⟩ := apply_follows stored (fun input => allowed_fresh permitted id input)
    trivial (fun _ _ _ => trivial) (fun _ _ _ => trivial)
  exact ⟨job', after⟩

theorem job_sound {state : State Cpu Mem} {op : Op Cpu Mem} {now : Time} (sound : Sound state)
    (permitted : allowed state.jobs op = true) (kept : unfailing state (.job now op) = true) :
    Sound { state with jobs := op.apply now state.jobs } := by
  refine work_sound sound (apply_keyed sound.keyed now op)
    (apply_shaped sound.shaped (allowed_single permitted) now) ?_ ?_
  · intro call busy id member
    exact apply_kept permitted (sound.pending call busy id member)
  · intro workerID worker found isLost claimed
    have elsewhere : ∀ id workerIDs job, op = .assignToWorkers id workerIDs →
        state.jobs.find id = some job → job.state = .queued → workerID ∉ workerIDs := by
      rintro id workerIDs job rfl stored queued member
      simp only [unfailing, stored, Option.any_some, queued, decide_true, Bool.not_true,
        Bool.false_or, List.all_eq_true] at kept
      simpa [found, isLost] using kept workerID member
    rcases claimed with none | marked | ⟨call, busy, own, listed⟩
    · exact Or.inl (unclaimed_apply sound.shaped none elsewhere)
    · exact Or.inr (Or.inl marked)
    · exact Or.inr (Or.inr ⟨call, busy, own, unclaimed_apply sound.shaped listed elsewhere⟩)

/-- One Update of LoseWorker, or its return. -/
theorem recover_sound {state : State Cpu Mem} {call : Recovery.Call Cpu Mem} {now : Time}
    (sound : Sound state) (busy : state.handler = .recovering call) :
    Sound { state with
      jobs := (Handler.next now state.jobs call).2.1
      handler := (Handler.next now state.jobs call).1 } := by
  cases pending : call.pending with
  | nil =>
      rw [Cluster.handler_returns now state.jobs pending]
      refine work_sound sound sound.keyed sound.shaped (fun _ working => by cases working) ?_
      rintro workerID worker _ _ (none | marked | ⟨current, working, own, listed⟩)
      · exact Or.inl none
      · simp [busy] at marked
      · obtain rfl : call = current := by simpa [busy] using working
        exact Or.inl (pending ▸ listed)
  | cons id rest =>
      -- A listed job is still stored, so its Update does not fail.
      obtain ⟨job, stored⟩ := sound.pending call busy id (by simp [pending])
      obtain ⟨next, continued, worker, remaining⟩ := Cluster.handler_continues now pending stored
      rw [continued]
      have permitted : allowed state.jobs (.recover call.workerID id) = true := rfl
      refine work_sound sound (apply_keyed sound.keyed now _)
        (apply_shaped sound.shaped (allowed_single permitted) now) ?_ ?_
      · rintro _ ⟨⟩ other member
        rw [remaining] at member
        exact apply_kept permitted (sound.pending call busy other (by simp [pending, member]))
      · rintro workerID worker' _ _ (none | marked | ⟨current, working, own, listed⟩)
        · exact Or.inl (unclaimed_apply sound.shaped none fun _ _ _ isPlace => by cases isPlace)
        · simp [busy] at marked
        · obtain rfl : call = current := by simpa [busy] using working
          subst own
          rw [pending] at listed
          refine Or.inr (Or.inr ⟨next, rfl, worker, ?_⟩)
          rw [remaining]
          exact unclaimed_recover sound.shaped listed

theorem step_sound (state : State Cpu Mem) (label : Label Cpu Mem) (after : State Cpu Mem)
    (sound : Sound state) (kept : unfailing state label = true)
    (stepped : step state label = some after) : Sound after := by
  cases label with
  | register call id input =>
      simp only [step] at stepped
      split at stepped
      · split at stepped <;> cases stepped
        exact grant_sound sound (by assumption)
      · cases stepped
        exact sound
      · cases stepped
  | heartbeat call workerID beat =>
      simp only [step] at stepped
      split at stepped
      · rename_i current _ read
        cases stepped
        refine setCall_sound sound ?_
        cases found : state.workers.find workerID with
        | none => simp [Workers.MemoryRepository.get, found] at read
        | some worker => exact sound.named workerID worker found
      · cases stepped
        exact sound
      · cases stepped
  | advance call now => exact advance_sound sound kept stepped
  | abandon call =>
      cases stepped
      exact setCall_sound sound trivial
  | job now op =>
      simp only [step] at stepped
      split at stepped <;> cases stepped
      exact job_sound sound (by assumption) kept
  | expire leaseID =>
      obtain ⟨key, held, rfl⟩ := Option.map_eq_some_iff.mp stepped
      exact expire_sound sound held kept
  | watch =>
      simp only [step] at stepped
      split at stepped <;> cases stepped
      rename_i unwatched
      exact watcher_sound sound (by simp [FakeManager.waiting, unwatched]) (some [])
  | stop =>
      cases stepped
      cases idle : state.handler with
      | idle =>
          have stopped := watcher_sound sound (by simpa [unfailing, idle] using kept) none
          simpa [idle] using stopped
      | _ => simp [unfailing, idle] at kept
  | receive failing =>
      obtain rfl : failing = false := by simpa [unfailing] using kept
      simp only [step] at stepped
      split at stepped <;> cases stepped
      exact receive_sound sound (by assumption) (by assumption)
  | handle now failing =>
      obtain rfl : failing = false := by simpa [unfailing] using kept
      simp only [step] at stepped
      split at stepped
      · cases stepped
      · cases stepped
        exact begin_sound sound (by assumption)
      · simp only [Bool.false_eq_true, false_and, if_false] at stepped
        cases stepped
        exact recover_sound sound (by assumption)

theorem no_expiration_dropped (labels : List (Label Cpu Mem)) (state : State Cpu Mem)
    (ran : run step State.start labels = some state)
    (kept : Along step (fun state label => unfailing state label = true) State.start labels) :
    Detected state :=
  sound_detected (guarded_invariant step_sound ran kept start_sound)

end Machine

/-- worker-1 registers under lease 1 while the process watches, and job-1 runs on it. -/
def busyLabels : List (Label Int Int) :=
  [.watch, .register 0 "worker-1" Workers.plainNode.input, .advance 0 1,
    .job 2 (.submit "job-1" (submission ⟨0, 0, 2, 1024⟩)),
    .job 3 (.assignToWorkers "job-1" ["worker-1"]), .job 4 (.start "job-1")]

/-- The lease expires, and every call that its event leads to succeeds. -/
def handledLabels : List (Label Int Int) :=
  busyLabels ++ [.expire 1, .receive false, .handle 5 false, .handle 6 false, .handle 7 false]

theorem handledLabels_detected : ∃ state worker job,
    run step State.start handledLabels = some state ∧
      state.workers.find "worker-1" = some worker ∧ worker.status = .lost ∧
      state.jobs.find "job-1" = some job ∧ job.state = .queued ∧ Detected state := by
  obtain ⟨state, worker, job, ran, known, isLost, found, queued⟩ : ∃ state worker job,
      run step State.start handledLabels = some state ∧
        state.workers.find "worker-1" = some worker ∧ worker.status = .lost ∧
        state.jobs.find "job-1" = some job ∧ job.state = .queued :=
    ⟨_, _, _, rfl, rfl, rfl, rfl, rfl⟩
  have kept : check step unfailing State.start handledLabels = true := rfl
  exact ⟨state, worker, job, ran, known, isLost, found, queued,
    no_expiration_dropped handledLabels state ran (check_along kept)⟩

/-- MarkLost fails once. -/
def unmarkedLabels : List (Label Int Int) := busyLabels ++ [.expire 1, .receive true]

/-- The first Update of LoseWorker fails once. -/
def unrecoveredLabels : List (Label Int Int) :=
  busyLabels ++ [.expire 1, .receive false, .handle 5 false, .handle 6 true]

/-- The lease expires between the end of one watch and the start of the next. -/
def unwatchedLabels : List (Label Int Int) := busyLabels ++ [.stop, .expire 1, .watch]

theorem stranded_undetected {state : State Cpu Mem} {workerID id : String} {worker : Worker Cpu Mem}
    {job : Job Cpu Mem} (idle : state.handler = .idle) (silent : state.leases.waiting = [])
    (known : state.workers.find workerID = some worker)
    (expired : worker.leaseID.all (fun leaseID => !state.leases.alive leaseID) = true)
    (stored : state.jobs.find id = some job) (active : job.state.recoverable = true)
    (assigned : job.assignedWorkerIDs = [workerID]) :
    ¬ Waiting state workerID ∧ ¬ Detected state := by
  have unattended : ¬ Waiting state workerID := by
    simp [Waiting, idle, silent]
  have unleased : ¬ Leased state.leases worker := by
    rintro ⟨leaseID, carries, alive⟩
    simp [carries, alive] at expired
  refine ⟨unattended, fun detected => ?_⟩
  rcases detected workerID worker known unleased with ⟨_, rid⟩ | waiting
  · exact rid id job stored active (by simp [assigned])
  · exact unattended waiting

/-- The run leaves job-1 RUNNING on a worker that is gone, and no event to find
it by. -/
def Drops (labels : List (Label Int Int)) : Prop :=
  ∃ state job, run step State.start labels = some state ∧ state.jobs.find "job-1" = some job ∧
    job.state = .running ∧ job.assignedWorkerIDs = ["worker-1"] ∧
    ¬ Waiting state "worker-1" ∧ ¬ Detected state

theorem drops_of_stranded {labels : List (Label Int Int)}
    (stranded : ∃ state worker job, run step State.start labels = some state ∧
      state.handler = .idle ∧ state.leases.waiting = [] ∧
      state.workers.find "worker-1" = some worker ∧
      worker.leaseID.all (fun leaseID => !state.leases.alive leaseID) = true ∧
      state.jobs.find "job-1" = some job ∧ job.state = .running ∧
      job.assignedWorkerIDs = ["worker-1"]) : Drops labels := by
  obtain ⟨state, worker, job, ran, idle, silent, known, expired, stored, running, assigned⟩ := stranded
  exact ⟨state, job, ran, stored, running, assigned,
    stranded_undetected idle silent known expired stored (by simp [running, State.recoverable])
      assigned⟩

theorem expiration_dropped :
    Drops unmarkedLabels ∧ Drops unrecoveredLabels ∧ Drops unwatchedLabels := by
  refine ⟨drops_of_stranded ?_, drops_of_stranded ?_, drops_of_stranded ?_⟩
  · exact ⟨_, _, _, rfl, rfl, rfl, rfl, rfl, rfl, rfl, rfl⟩
  · exact ⟨_, _, _, rfl, rfl, rfl, rfl, rfl, rfl, rfl, rfl⟩
  · exact ⟨_, _, _, rfl, rfl, rfl, rfl, rfl, rfl, rfl, rfl⟩

end OrionQueue.ExpirationWatch
