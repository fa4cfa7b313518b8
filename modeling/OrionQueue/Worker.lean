import Mathlib.Data.List.Sort
import OrionQueue.Job
import OrionQueue.Tables

/-!
The worker records of internal/workers: registration checks, the in-memory
repository and the callbacks that Heartbeat and MarkLost hand to Update. As for
jobs, each repository method runs under one mutex and is one function. Lease
handling is in `Leases`.
-/

namespace OrionQueue.Workers

open Jobs Tables

inductive Status where
  | active | lost
  deriving DecidableEq

def Status.name : Status → String
  | .active => "ACTIVE"
  | .lost => "LOST"

inductive GPUHealthState where
  | healthy | degraded | unhealthy
  deriving DecidableEq

structure GPU (Cpu Mem : Type) where
  id : String
  deviceIndex : Int
  uuid : String
  totalMemoryBytes : Mem
  allocatedMemoryBytes : Mem
  utilizationPercent : Cpu
  temperatureCelsius : Option Cpu
  migProfile : String
  healthState : GPUHealthState
  deriving DecidableEq

abbrev LeaseID := Int

structure Worker (Cpu Mem : Type) where
  id : String
  hostname : String
  status : Status
  leaseID : Option LeaseID
  cpuCapacity : Cpu
  memoryCapacityBytes : Mem
  gpus : List (GPU Cpu Mem)
  softwareVersion : String
  labels : List (String × String)
  runningJobIDs : List String
  registeredAt : Time
  lastHeartbeatAt : Time
  deriving DecidableEq

structure RegisterInput (Cpu Mem : Type) where
  hostname : String
  cpuCapacity : Cpu
  memoryCapacityBytes : Mem
  gpus : List (GPU Cpu Mem)
  softwareVersion : String
  labels : List (String × String)
  deriving DecidableEq

inductive WorkerError where
  | validation (problems : List String)
  | notFound
  deriving DecidableEq

def WorkerError.message : WorkerError → String
  | .validation problems => "invalid request: " ++ "; ".intercalate problems
  | .notFound => "worker not found"

def maxHostnameLength : Nat := 253

variable {Cpu Mem : Type}

section Validation
variable [Zero Cpu] [LT Cpu] [DecidableLT Cpu] [Zero Mem] [LT Mem] [DecidableLT Mem]

def gpuField (index : Nat) : String := "gpus[" ++ toString index ++ "]."

/-- `seen` holds the device indices of the entries before this one. -/
def gpuProblems (index : Nat) (seen : List Int) (gpu : GPU Cpu Mem) : List String :=
  problemWhen (gpu.deviceIndex < 0) (gpuField index ++ "device_index must not be negative") ++
    problemWhen (seen.contains gpu.deviceIndex)
      (gpuField index ++ "device_index " ++ toString gpu.deviceIndex ++ " is a duplicate") ++
    problemWhen (gpu.totalMemoryBytes < 0)
      (gpuField index ++ "total_memory_bytes must not be negative") ++
    problemWhen (gpu.allocatedMemoryBytes < 0)
      (gpuField index ++ "allocated_memory_bytes must not be negative") ++
    problemWhen (gpu.totalMemoryBytes < gpu.allocatedMemoryBytes)
      (gpuField index ++ "allocated_memory_bytes must not exceed total_memory_bytes")

def gpuListProblems : Nat → List Int → List (GPU Cpu Mem) → List String
  | _, _, [] => []
  | index, seen, gpu :: rest =>
      gpuProblems index seen gpu ++ gpuListProblems (index + 1) (gpu.deviceIndex :: seen) rest

def registerProblems (input : RegisterInput Cpu Mem) : List String :=
  requiredText "hostname" input.hostname maxHostnameLength ++
    problemWhen (input.cpuCapacity < 0) "cpu_capacity must not be negative" ++
    problemWhen (input.memoryCapacityBytes < 0) "memory_capacity_bytes must not be negative" ++
    problemWhen (maxGPUCount < input.gpus.length)
      ("gpus must have at most " ++ toString maxGPUCount ++ " entries") ++
    gpuListProblems 0 [] input.gpus

def validateRegister (input : RegisterInput Cpu Mem) : Except WorkerError Unit :=
  match registerProblems input with
  | [] => .ok ()
  | problems => .error (.validation problems)

theorem validateRegister_nonneg {input : RegisterInput Cpu Mem}
    (accepted : validateRegister input = .ok ()) :
    ¬ input.cpuCapacity < 0 ∧ ¬ input.memoryCapacityBytes < 0 := by
  have clean : registerProblems input = [] := by
    cases found : registerProblems input with
    | nil => rfl
    | cons problem rest => simp [validateRegister, found] at accepted
  simp only [registerProblems, List.append_eq_nil_iff, problemWhen_nil,
    decide_eq_false_iff_not] at clean
  exact ⟨clean.1.1.1.2, clean.1.1.2⟩

end Validation

/-- The record Register creates. -/
def registered (now : Time) (id : String) (leaseID : LeaseID) (input : RegisterInput Cpu Mem) :
    Worker Cpu Mem where
  id := id
  hostname := input.hostname
  status := .active
  leaseID := some leaseID
  cpuCapacity := input.cpuCapacity
  memoryCapacityBytes := input.memoryCapacityBytes
  gpus := input.gpus
  softwareVersion := input.softwareVersion
  labels := input.labels
  runningJobIDs := []
  registeredAt := now
  lastHeartbeatAt := now

/-- What a heartbeat makes of the record. Go's nil slices and nil lease are `none`. -/
def heard (now : Time) (newLeaseID : Option LeaseID) (gpus : Option (List (GPU Cpu Mem)))
    (runningJobIDs : Option (List String)) (worker : Worker Cpu Mem) : Worker Cpu Mem :=
  { worker with
    status := .active
    lastHeartbeatAt := now
    leaseID := newLeaseID.or worker.leaseID
    gpus := gpus.getD worker.gpus
    runningJobIDs := runningJobIDs.getD worker.runningJobIDs }

/-- The callback of Heartbeat. -/
def heartbeatUpdate (now : Time) (newLeaseID : Option LeaseID) (gpus : Option (List (GPU Cpu Mem)))
    (runningJobIDs : Option (List String)) (worker : Worker Cpu Mem) :
    Except WorkerError (Worker Cpu Mem) :=
  .ok (heard now newLeaseID gpus runningJobIDs worker)

def lost (worker : Worker Cpu Mem) : Worker Cpu Mem :=
  -- A second MarkLost finds nothing to do.
  if worker.status = .lost then worker else { worker with status := .lost, leaseID := none }

/-- The callback of MarkLost. -/
def markLostUpdate (worker : Worker Cpu Mem) : Except WorkerError (Worker Cpu Mem) :=
  .ok (lost worker)

structure MemoryRepository (Cpu Mem : Type) where
  workersByID : Table String (Worker Cpu Mem)

namespace MemoryRepository

def empty : MemoryRepository Cpu Mem := ⟨∅⟩

def find (repo : MemoryRepository Cpu Mem) (id : String) : Option (Worker Cpu Mem) :=
  repo.workersByID.lookup id

def create (repo : MemoryRepository Cpu Mem) (worker : Worker Cpu Mem) :
    MemoryRepository Cpu Mem :=
  ⟨repo.workersByID.insert worker.id worker⟩

def get (repo : MemoryRepository Cpu Mem) (id : String) : Except WorkerError (Worker Cpu Mem) :=
  match repo.find id with
  | none => .error .notFound
  | some worker => .ok worker

def update (repo : MemoryRepository Cpu Mem) (id : String)
    (fn : Worker Cpu Mem → Except WorkerError (Worker Cpu Mem)) :
    Except WorkerError (Worker Cpu Mem) × MemoryRepository Cpu Mem :=
  match repo.find id with
  | none => (.error .notFound, repo)
  | some worker =>
      match fn worker with
      | .error problem => (.error problem, repo)
      | .ok updated => (.ok updated, ⟨repo.workersByID.insert id updated⟩)

def registrationLess (left right : Worker Cpu Mem) : Bool :=
  if left.registeredAt = right.registeredAt then left.id < right.id
  else left.registeredAt < right.registeredAt

def listActive (repo : MemoryRepository Cpu Mem) : List (Worker Cpu Mem) :=
  ((values repo.workersByID).filter fun worker => worker.status = .active).insertionSort
    fun left right => registrationLess right left = false

@[simp] theorem find_empty (id : String) : (empty : MemoryRepository Cpu Mem).find id = none :=
  AList.lookup_empty id

theorem find_create (repo : MemoryRepository Cpu Mem) (worker : Worker Cpu Mem) (other : String) :
    (repo.create worker).find other = if other = worker.id then some worker else repo.find other := by
  by_cases same : other = worker.id
  · subst other
    simp [find, create]
  · simp [find, create, same, AList.lookup_insert_ne same]

/-- All that Update can do: nothing, or replace one stored record by what the
callback made of it. -/
theorem update_cases (repo : MemoryRepository Cpu Mem) (id : String)
    (fn : Worker Cpu Mem → Except WorkerError (Worker Cpu Mem)) :
    (∃ problem, repo.update id fn = (.error problem, repo)) ∨
      ∃ worker updated, repo.find id = some worker ∧ fn worker = .ok updated ∧
        (repo.update id fn).1 = .ok updated ∧
        ∀ other, (repo.update id fn).2.find other =
          if other = id then some updated else repo.find other := by
  cases found : repo.find id with
  | none => exact Or.inl ⟨.notFound, by simp [update, found]⟩
  | some worker =>
      cases answer : fn worker with
      | error problem => exact Or.inl ⟨problem, by simp [update, found, answer]⟩
      | ok updated =>
          refine Or.inr ⟨worker, updated, rfl, answer, by simp [update, found, answer], ?_⟩
          intro other
          by_cases same : other = id
          · subst other
            simp only [update, found, answer, if_true]
            exact AList.lookup_insert _
          · simp only [update, found, answer, same, if_false]
            exact AList.lookup_insert_ne same

/-- Update with a callback that never fails. -/
theorem find_update (repo : MemoryRepository Cpu Mem) (id : String)
    {fn : Worker Cpu Mem → Except WorkerError (Worker Cpu Mem)}
    {result : Worker Cpu Mem → Worker Cpu Mem} (total : ∀ worker, fn worker = .ok (result worker))
    (other : String) :
    (repo.update id fn).2.find other =
      if other = id then (repo.find id).map result else repo.find other := by
  rcases repo.update_cases id fn with
    ⟨problem, same⟩ | ⟨worker, updated, found, accepted, _, stored⟩
  · have missing : repo.find id = none := by
      cases found : repo.find id with
      | none => rfl
      | some worker => simp [update, found, total] at same
    by_cases own : other = id
    · simp [same, own, missing]
    · simp [same, own]
  · rw [total] at accepted
    obtain rfl := Except.ok.inj accepted
    rw [stored other, found, Option.map_some]

theorem mem_listActive_iff {repo : MemoryRepository Cpu Mem} {worker : Worker Cpu Mem} :
    worker ∈ repo.listActive ↔ (∃ id, repo.find id = some worker) ∧ worker.status = .active := by
  unfold listActive
  rw [List.mem_insertionSort, List.mem_filter, mem_values_iff]
  simp [find]

end MemoryRepository

/-- What Register is called with, next to the clock, the generated ID and the
lease it was granted. -/
structure Registration (Cpu Mem : Type) where
  now : Time
  id : String
  leaseID : LeaseID
  input : RegisterInput Cpu Mem

/-- A healthy device, for concrete runs. -/
def device [Zero Cpu] [Zero Mem] (deviceIndex : Int) (totalMemoryBytes : Mem) : GPU Cpu Mem where
  id := ""
  deviceIndex := deviceIndex
  uuid := ""
  totalMemoryBytes := totalMemoryBytes
  allocatedMemoryBytes := 0
  utilizationPercent := 0
  temperatureCelsius := none
  migProfile := ""
  healthState := .healthy

/-- A worker with these devices, for concrete runs. -/
def node [OfNat Cpu 4] [OfNat Mem 4096] (gpus : List (GPU Cpu Mem)) : Registration Cpu Mem :=
  ⟨0, "worker-1", 1, ⟨"node-1", 4, 4096, gpus, "1.0", []⟩⟩

def plainNode : Registration Int Int := node []

def gpuNode : Registration Int Int := node [device 0 8192]

section Register
variable [Zero Cpu] [LT Cpu] [DecidableLT Cpu] [Zero Mem] [LT Mem] [DecidableLT Mem]

def register (repo : MemoryRepository Cpu Mem) (call : Registration Cpu Mem) :
    Except WorkerError (Worker Cpu Mem) × MemoryRepository Cpu Mem :=
  match validateRegister call.input with
  | .error problem => (.error problem, repo)
  | .ok () =>
      let worker := registered call.now call.id call.leaseID call.input
      (.ok worker, repo.create worker)

def registerAll (calls : List (Registration Cpu Mem)) : MemoryRepository Cpu Mem :=
  calls.foldl (fun repo call => (register repo call).2) .empty

/-- A stored worker carries its own key and no negative capacity. -/
def Admissible (repo : MemoryRepository Cpu Mem) : Prop :=
  ∀ id worker, repo.find id = some worker →
    worker.id = id ∧ ¬ worker.cpuCapacity < 0 ∧ ¬ worker.memoryCapacityBytes < 0

theorem register_admissible {repo : MemoryRepository Cpu Mem} (admissible : Admissible repo)
    (call : Registration Cpu Mem) : Admissible (register repo call).2 := by
  unfold register
  cases checked : validateRegister call.input with
  | error problem => exact admissible
  | ok _ =>
      intro id worker found
      rw [MemoryRepository.find_create] at found
      by_cases own : id = call.id
      · simp only [registered, own, if_true, Option.some.injEq] at found
        subst found
        exact ⟨own.symm, validateRegister_nonneg checked⟩
      · exact admissible id worker (by simpa [registered, own] using found)

theorem registerAll_admissible (calls : List (Registration Cpu Mem)) :
    Admissible (registerAll calls) := by
  have grown : ∀ repo : MemoryRepository Cpu Mem, Admissible repo →
      Admissible (calls.foldl (fun repo call => (register repo call).2) repo) := by
    induction calls with
    | nil => exact fun _ admissible => admissible
    | cons call rest ih => exact fun repo admissible => ih _ (register_admissible admissible call)
  refine grown _ ?_
  intro id worker found
  simp at found

end Register

/-- The part of the record that says what there is to place on. -/
def SameInventory (left right : Worker Cpu Mem) : Prop :=
  left.id = right.id ∧ left.cpuCapacity = right.cpuCapacity ∧
    left.memoryCapacityBytes = right.memoryCapacityBytes ∧ left.gpus = right.gpus

theorem SameInventory.refl (worker : Worker Cpu Mem) : SameInventory worker worker :=
  ⟨rfl, rfl, rfl, rfl⟩

theorem SameInventory.trans {first second third : Worker Cpu Mem}
    (left : SameInventory first second) (right : SameInventory second third) :
    SameInventory first third :=
  ⟨left.1.trans right.1, left.2.1.trans right.2.1, left.2.2.1.trans right.2.2.1,
    left.2.2.2.trans right.2.2.2⟩

theorem heartbeat_inventory {now : Time} {newLeaseID : Option LeaseID}
    {runningJobIDs : Option (List String)} {worker updated : Worker Cpu Mem}
    (accepted : heartbeatUpdate now newLeaseID none runningJobIDs worker = .ok updated) :
    SameInventory worker updated := by
  cases accepted
  exact ⟨rfl, rfl, rfl, rfl⟩

theorem markLost_inventory {worker updated : Worker Cpu Mem}
    (accepted : markLostUpdate worker = .ok updated) : SameInventory worker updated := by
  cases accepted
  unfold lost
  split <;> exact ⟨rfl, rfl, rfl, rfl⟩

/-- Every worker keeps its ID and its inventory, and none comes or goes. -/
structure InventoryKept (before after : MemoryRepository Cpu Mem) : Prop where
  forth : ∀ id worker, before.find id = some worker → ∃ worker', after.find id = some worker' ∧
    SameInventory worker worker'
  back : ∀ id worker', after.find id = some worker' → ∃ worker, before.find id = some worker ∧
    SameInventory worker worker'

theorem inventory_refl (repo : MemoryRepository Cpu Mem) : InventoryKept repo repo :=
  ⟨fun _ worker found => ⟨worker, found, .refl worker⟩,
    fun _ worker found => ⟨worker, found, .refl worker⟩⟩

theorem update_inventory {repo : MemoryRepository Cpu Mem} {id : String}
    {fn : Worker Cpu Mem → Except WorkerError (Worker Cpu Mem)}
    (keeps : ∀ worker updated, fn worker = .ok updated → SameInventory worker updated) :
    InventoryKept repo (repo.update id fn).2 := by
  rcases repo.update_cases id fn with ⟨problem, same⟩ | ⟨worker, updated, found, accepted, _, stored⟩
  · rw [same]
    exact inventory_refl repo
  · have kept := keeps worker updated accepted
    constructor
    · intro other record known
      rw [stored other]
      by_cases own : other = id
      · subst own
        obtain rfl : worker = record := Option.some.inj (found.symm.trans known)
        exact ⟨updated, by simp, kept⟩
      · exact ⟨record, by simp [own, known], .refl record⟩
    · intro other record known
      rw [stored other] at known
      by_cases own : other = id
      · subst own
        obtain rfl : updated = record := by simpa using known
        exact ⟨worker, found, kept⟩
      · exact ⟨record, by simpa [own] using known, .refl record⟩

end OrionQueue.Workers
