import Mathlib.Logic.Function.Basic
import OrionQueue.Runs
import OrionQueue.Worker

/-!
Worker liveness: the leases etcd keeps, and the calls of Register, Heartbeat and
MarkLost that act on them, cut at every access to etcd or to the repository.
Any number of calls overlap. A lease may expire in any state; the deletion event
of its key stays undelivered for as long as the run likes.
-/

namespace OrionQueue.Leases

open Jobs Workers MemoryRepository Runs

variable {Cpu Mem : Type}

def leaseKeyPrefix : String := "/orionqueue/workers/leases/"

def leaseKey (workerID : String) : String := leaseKeyPrefix ++ workerID

def workerIDFromLeaseKey (key : String) : Option String :=
  if leaseKeyPrefix.toList.isPrefixOf key.toList then
    let id := String.ofList (key.toList.drop leaseKeyPrefix.toList.length)
    if id = "" then none else some id
  else none

theorem leaseKey_injective {left right : String} (same : leaseKey left = leaseKey right) :
    left = right := by
  have lists := congrArg String.toList same
  simp only [leaseKey, String.toList_append, List.append_cancel_left_eq] at lists
  exact String.toList_injective lists

theorem workerIDFromLeaseKey_some {key id : String} (parsed : workerIDFromLeaseKey key = some id) :
    key = leaseKey id := by
  unfold workerIDFromLeaseKey at parsed
  split at parsed
  · rename_i shaped
    obtain ⟨rest, whole⟩ := List.isPrefixOf_iff_prefix.mp shaped
    have dropped : key.toList.drop leaseKeyPrefix.toList.length = rest := by
      rw [← whole, List.drop_left]
    simp only [dropped] at parsed
    split at parsed
    · cases parsed
    · obtain rfl := Option.some.inj parsed
      apply String.toList_injective
      rw [leaseKey, String.toList_append, String.toList_ofList, whole]
  · cases parsed

/-- The watcher reads back the ID of every worker whose key it is told about. -/
theorem workerIDFromLeaseKey_leaseKey {id : String} (named : id ≠ "") :
    workerIDFromLeaseKey (leaseKey id) = some id := by
  have shaped : leaseKeyPrefix.toList.isPrefixOf (leaseKey id).toList = true := by
    rw [List.isPrefixOf_iff_prefix, leaseKey, String.toList_append]
    exact List.prefix_append _ _
  have dropped : (leaseKey id).toList.drop leaseKeyPrefix.toList.length = id.toList := by
    rw [leaseKey, String.toList_append, List.drop_left]
  simp [workerIDFromLeaseKey, shaped, dropped, named]

/-- Leases by number with the key each was granted for, the lease every key is
bound to, and the deletion events WatchExpirations has yet to receive. -/
structure Etcd where
  nextID : LeaseID
  keyByID : LeaseID → Option String
  bound : String → Option LeaseID
  events : List String

namespace Etcd

def empty : Etcd := ⟨0, fun _ => none, fun _ => none, []⟩

def Alive (etcd : Etcd) (id : LeaseID) : Prop := (etcd.keyByID id).isSome

instance (etcd : Etcd) (id : LeaseID) : Decidable (etcd.Alive id) :=
  inferInstanceAs (Decidable ((etcd.keyByID id).isSome = true))

/-- A lease that was granted once and is gone. -/
def Expired (etcd : Etcd) (id : LeaseID) : Prop := id ≤ etcd.nextID ∧ ¬ etcd.Alive id

/-- The first request of EtcdManager.Grant. -/
def grant (etcd : Etcd) (key : String) : LeaseID × Etcd :=
  (etcd.nextID + 1, { etcd with
    nextID := etcd.nextID + 1
    keyByID := Function.update etcd.keyByID (etcd.nextID + 1) (some key) })

/-- The second request of EtcdManager.Grant; etcd refuses a Put with a dead lease. -/
def put (etcd : Etcd) (key : String) (id : LeaseID) : Option Etcd :=
  if etcd.Alive id then some { etcd with bound := Function.update etcd.bound key (some id) }
  else none

/-- Expiry of a lease deletes its key, unless the key has been bound anew. -/
def expire (etcd : Etcd) (id : LeaseID) (key : String) : Etcd :=
  let gone := { etcd with keyByID := Function.update etcd.keyByID id none }
  if etcd.bound key = some id then
    { gone with
      bound := Function.update etcd.bound key none
      events := etcd.events ++ [key] }
  else gone

end Etcd

/-- What a heartbeat reports; `none` is Go's nil slice. -/
structure Beat (Cpu Mem : Type) where
  gpus : Option (List (GPU Cpu Mem))
  runningJobIDs : Option (List String)

inductive Task (Cpu Mem : Type) where
  | registration (input : RegisterInput Cpu Mem)
  | heartbeat (beat : Beat Cpu Mem)

/-- Where a Register or Heartbeat call stands. -/
inductive Call (Cpu Mem : Type) where
  | idle
  | read (workerID : String) (beat : Beat Cpu Mem) (current : Worker Cpu Mem)
  | granting (workerID : String) (task : Task Cpu Mem)
  | granted (workerID : String) (task : Task Cpu Mem) (leaseID : LeaseID)
  | bound (workerID : String) (task : Task Cpu Mem) (leaseID : LeaseID)
  | renewed (workerID : String) (beat : Beat Cpu Mem)

def Call.workerID : Call Cpu Mem → Option String
  | .idle => none
  | .read workerID _ _ => some workerID
  | .granting workerID _ => some workerID
  | .granted workerID _ _ => some workerID
  | .bound workerID _ _ => some workerID
  | .renewed workerID _ => some workerID

/-- The lease the call has been granted and has not written yet. -/
def Call.lease : Call Cpu Mem → Option LeaseID
  | .granted _ _ leaseID => some leaseID
  | .bound _ _ leaseID => some leaseID
  | _ => none

/-- The worker whose key the call has bound to a lease it has not written yet. -/
def Call.holds : Call Cpu Mem → Option (String × LeaseID)
  | .bound workerID _ leaseID => some (workerID, leaseID)
  | _ => none

/-- The worker a Register call is for, as long as its key is not put. -/
def Call.newcomer : Call Cpu Mem → Option String
  | .granting workerID (.registration _) => some workerID
  | .granted workerID (.registration _) _ => some workerID
  | _ => none

/-- `issuedIDs` are the worker IDs the generator has handed out. -/
structure State (Cpu Mem : Type) where
  records : MemoryRepository Cpu Mem
  etcd : Etcd
  calls : Nat → Call Cpu Mem
  issuedIDs : List String

def State.start : State Cpu Mem := ⟨.empty, .empty, fun _ => .idle, []⟩

def State.setCall (state : State Cpu Mem) (call : Nat) (next : Call Cpu Mem) : State Cpu Mem :=
  { state with calls := Function.update state.calls call next }

theorem State.calls_setCall (state : State Cpu Mem) (call : Nat) (next : Call Cpu Mem)
    (other : Nat) :
    (state.setCall call next).calls other = if other = call then next else state.calls other :=
  Function.update_apply state.calls call next other

/-- A call slot takes a new call only when it has none under way. -/
def State.whenIdle (state : State Cpu Mem) (call : Nat) (next : State Cpu Mem) :
    Option (State Cpu Mem) :=
  match state.calls call with
  | .idle => some next
  | _ => none

theorem whenIdle_some {state next after : State Cpu Mem} {call : Nat}
    (begun : state.whenIdle call next = some after) : state.calls call = .idle ∧ after = next := by
  unfold State.whenIdle at begun
  split at begun
  · exact ⟨by assumption, (Option.some.inj begun).symm⟩
  · cases begun

inductive Label (Cpu Mem : Type) where
  | register (call : Nat) (id : String) (input : RegisterInput Cpu Mem)
  | heartbeat (call : Nat) (workerID : String) (beat : Beat Cpu Mem)
  | advance (call : Nat) (now : Time)
  | abandon (call : Nat)
  | expire (leaseID : LeaseID)
  | deliver (key : String)
  | markLost (workerID : String)

/-- The records after the write that ends a call. -/
def finish (now : Time) (records : MemoryRepository Cpu Mem) (workerID : String)
    (newLeaseID : LeaseID) : Task Cpu Mem → MemoryRepository Cpu Mem
  | .registration input => records.create (registered now workerID newLeaseID input)
  | .heartbeat beat =>
      (records.update workerID
        (heartbeatUpdate now (some newLeaseID) beat.gpus beat.runningJobIDs)).2

/-- The next access of a call to etcd or to the repository. -/
def advance (state : State Cpu Mem) (call : Nat) (now : Time) : Option (State Cpu Mem) :=
  match state.calls call with
  | .idle => none
  | .read workerID beat current =>
      match current.leaseID with
      | none => some (state.setCall call (.granting workerID (.heartbeat beat)))
      | some leaseID =>
          -- Renew answers ErrLeaseNotFound for a lease that is gone.
          if state.etcd.Alive leaseID then some (state.setCall call (.renewed workerID beat))
          else some (state.setCall call (.granting workerID (.heartbeat beat)))
  | .granting workerID task =>
      let lease := state.etcd.grant (leaseKey workerID)
      some ({ state with etcd := lease.2 }.setCall call (.granted workerID task lease.1))
  | .granted workerID task leaseID =>
      match state.etcd.put (leaseKey workerID) leaseID with
      | none => some (state.setCall call .idle)
      | some etcd => some ({ state with etcd := etcd }.setCall call (.bound workerID task leaseID))
  | .bound workerID task leaseID =>
      some ({ state with
        records := finish now state.records workerID leaseID task }.setCall call .idle)
  | .renewed workerID beat =>
      some ({ state with
        records := (state.records.update workerID
          (heartbeatUpdate now none beat.gpus beat.runningJobIDs)).2 }.setCall call .idle)

def markLost (records : MemoryRepository Cpu Mem) (workerID : String) :
    MemoryRepository Cpu Mem :=
  (records.update workerID markLostUpdate).2

/-- One event taken by WatchExpirations, a key of another shape being skipped. -/
def watchExpirations (records : MemoryRepository Cpu Mem) (key : String) :
    MemoryRepository Cpu Mem :=
  match workerIDFromLeaseKey key with
  | none => records
  | some workerID => markLost records workerID

section Machine
variable [Zero Cpu] [LT Cpu] [DecidableLT Cpu] [Zero Mem] [LT Mem] [DecidableLT Mem]

def step (state : State Cpu Mem) : Label Cpu Mem → Option (State Cpu Mem)
  | .register call id input =>
      -- The generator hands out every ID once.
      if id ∈ state.issuedIDs then none
      else match validateRegister input with
        | .error _ => state.whenIdle call state
        | .ok () => state.whenIdle call ({ state with
            issuedIDs := id :: state.issuedIDs }.setCall call (.granting id (.registration input)))
  | .heartbeat call workerID beat =>
      match state.records.get workerID with
      | .error _ => state.whenIdle call state
      | .ok current => state.whenIdle call (state.setCall call (.read workerID beat current))
  | .advance call now => advance state call now
  -- A failing request or a cancelled context ends a call between two accesses.
  | .abandon call => some (state.setCall call .idle)
  | .expire leaseID =>
      (state.etcd.keyByID leaseID).map fun key =>
        { state with etcd := state.etcd.expire leaseID key }
  | .deliver key =>
      if key ∈ state.etcd.events then some { state with
        etcd := { state.etcd with events := state.etcd.events.erase key }
        records := watchExpirations state.records key }
      else none
  | .markLost workerID => some { state with records := markLost state.records workerID }

end Machine

end OrionQueue.Leases
