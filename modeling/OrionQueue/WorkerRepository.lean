import OrionQueue.Api
import OrionQueue.JobRepository
import OrionQueue.WorkerTable

/-!
`persistence.WorkerRepository` on the tables of `WorkerTable`. As for jobs each
writing method is one transaction, and a failed one leaves the database as it was.
A worker is read back from two tables: its own row, and the rows of its GPUs by
device index, whose IDs the repository makes up. The writing methods return the
GPUs as they were given.
-/

namespace OrionQueue.WorkerRepository

open Jobs Workers WorkerTable Database
open JobTable (SqlError storableText)
open JobRepository (micros ofMicros)

variable {Cpu Mem : Type}

/-- What the methods of a worker repository fail with: an error of the workers
package or of the update function, a statement's error, or a row that does not scan. -/
inductive RepositoryError where
  | worker (problem : WorkerError)
  | statement (context : String) (cause : SqlError)
  | scan (context : String)
  deriving DecidableEq

def gpuRowID (workerID : String) (deviceIndex : Int) : String :=
  workerID ++ "-gpu-" ++ toString deviceIndex

def workerArgs (worker : Worker Cpu Mem) : List (Value Cpu Mem) :=
  [.text worker.id, .text worker.hostname, .text worker.status.name,
    nullable .integer worker.leaseID, .double worker.cpuCapacity, .bytes worker.memoryCapacityBytes,
    .text worker.softwareVersion, .json worker.labels, .textArray worker.runningJobIDs,
    .timestamp (micros worker.registeredAt), .timestamp (micros worker.lastHeartbeatAt)]

def gpuArgs (workerID : String) (gpu : GPU Cpu Mem) : List (Value Cpu Mem) :=
  [.text (gpuRowID workerID gpu.deviceIndex), .text workerID, .integer gpu.deviceIndex,
    .text gpu.uuid, .bytes gpu.totalMemoryBytes, .bytes gpu.allocatedMemoryBytes,
    .double gpu.utilizationPercent, nullable .double gpu.temperatureCelsius,
    .text gpu.migProfile, .text (GPUHealthState.name gpu.healthState)]

section Scan

def scanText : Value Cpu Mem → Option String
  | .text value => some value
  | _ => none

def scanTexts : Value Cpu Mem → Option (List String)
  | .textArray value => some value
  | _ => none

def scanInteger : Value Cpu Mem → Option Int
  | .integer value => some value
  | _ => none

def scanBytes : Value Cpu Mem → Option Mem
  | .bytes value => some value
  | _ => none

def scanDouble : Value Cpu Mem → Option Cpu
  | .double value => some value
  | _ => none

def scanLabels : Value Cpu Mem → Option (List (String × String))
  | .json fields => some fields
  | _ => none

def scanTime : Value Cpu Mem → Option Time
  | .timestamp count => some (ofMicros count)
  | _ => none

/-- A value scanned into a Go pointer. -/
def scanNullable {Kind : Type} (scan : Value Cpu Mem → Option Kind) :
    Value Cpu Mem → Option (Option Kind)
  | .null => some none
  | value => (scan value).map some

end Scan

/-- The GPUs are those of another query. -/
def scanWorker : List (Value Cpu Mem) → Option (Worker Cpu Mem)
  | [id, hostname, status, leaseID, cpuCapacity, memoryCapacityBytes,
      softwareVersion, labels, runningJobIDs, registeredAt, lastHeartbeatAt] => do
      return {
        id := ← scanText id
        hostname := ← scanText hostname
        status := ← (scanText status).bind Status.ofName
        leaseID := ← scanNullable scanInteger leaseID
        cpuCapacity := ← scanDouble cpuCapacity
        memoryCapacityBytes := ← scanBytes memoryCapacityBytes
        gpus := []
        softwareVersion := ← scanText softwareVersion
        labels := ← scanLabels labels
        runningJobIDs := ← scanTexts runningJobIDs
        registeredAt := ← scanTime registeredAt
        lastHeartbeatAt := ← scanTime lastHeartbeatAt }
  | _ => none

/-- The worker's ID is scanned and dropped. -/
def scanGPU : List (Value Cpu Mem) → Option (GPU Cpu Mem)
  | [id, workerID, deviceIndex, uuid, totalMemoryBytes, allocatedMemoryBytes,
      utilizationPercent, temperatureCelsius, migProfile, healthState] => do
      let gpuID ← scanText id
      let _ ← scanText workerID
      return {
        id := gpuID
        deviceIndex := ← scanInteger deviceIndex
        uuid := ← scanText uuid
        totalMemoryBytes := ← scanBytes totalMemoryBytes
        allocatedMemoryBytes := ← scanBytes allocatedMemoryBytes
        utilizationPercent := ← scanDouble utilizationPercent
        temperatureCelsius := ← scanNullable scanDouble temperatureCelsius
        migProfile := ← scanText migProfile
        healthState := ← (scanText healthState).bind GPUHealthState.ofName }
  | _ => none

/-- A worker row that a statement returned, scanned. -/
def scanned (context : String) (answer : Except SqlError (List (Value Cpu Mem))) :
    Except RepositoryError (Worker Cpu Mem) :=
  match answer with
  | .error cause => .error (.statement context cause)
  | .ok values =>
      match scanWorker values with
      | some worker => .ok worker
      | none => .error (.scan context)

/-- As `scanned`, with pgx.ErrNoRows translated to workers.ErrNotFound. -/
def scannedOrNotFound (context : String) (answer : Except SqlError (List (Value Cpu Mem))) :
    Except RepositoryError (Worker Cpu Mem) :=
  match answer with
  | .error .noRows => .error (.worker .notFound)
  | answer => scanned context answer

def getGPUs (db : Database Cpu Mem) (workerID : String) :
    Except RepositoryError (List (GPU Cpu Mem)) :=
  match db.selectGPUsByWorkerID workerID with
  | .error cause => .error (.statement "persistence: get gpus" cause)
  | .ok rows =>
      match rows.mapM scanGPU with
      | some gpus => .ok gpus
      | none => .error (.scan "persistence: scan gpu")

/-- The two queries that Get and Update read a worker with. -/
def readWorker (context : String) (db : Database Cpu Mem) (id : String) :
    Except RepositoryError (Worker Cpu Mem) :=
  match scannedOrNotFound context (db.selectWorkerByID id) with
  | .error problem => .error problem
  | .ok worker =>
      match getGPUs db id with
      | .error problem => .error problem
      | .ok gpus => .ok { worker with gpus := gpus }

def get (db : Database Cpu Mem) (id : String) : Except RepositoryError (Worker Cpu Mem) :=
  readWorker "persistence: get worker" db id

/-- The loop of replaceGPUs. -/
def insertGPUs (workerID : String) :
    List (GPU Cpu Mem) → Database Cpu Mem → Except RepositoryError (Database Cpu Mem)
  | [], db => .ok db
  | gpu :: rest, db =>
      match db.insertGPU (gpuArgs workerID gpu) with
      | (.error cause, _) => .error (.statement "persistence: insert gpu" cause)
      | (.ok (), inserted) => insertGPUs workerID rest inserted

def replaceGPUs (db : Database Cpu Mem) (workerID : String) (gpus : List (GPU Cpu Mem)) :
    Except RepositoryError (Database Cpu Mem) :=
  match db.deleteGPUs workerID with
  | (.error cause, _) => .error (.statement "persistence: delete existing gpus" cause)
  | (.ok (), cleared) => insertGPUs workerID gpus cleared

def create (db : Database Cpu Mem) (worker : Worker Cpu Mem) :
    Except RepositoryError (Worker Cpu Mem) × Database Cpu Mem :=
  match db.insertWorker (workerArgs worker) with
  | (answer, inserted) =>
      match scanned "persistence: insert worker" answer with
      | .error problem => (.error problem, db)
      | .ok created =>
          match replaceGPUs inserted worker.id worker.gpus with
          | .error problem => (.error problem, db)
          | .ok replaced => (.ok { created with gpus := worker.gpus }, replaced)

def update (db : Database Cpu Mem) (id : String)
    (fn : Worker Cpu Mem → Except WorkerError (Worker Cpu Mem)) :
    Except RepositoryError (Worker Cpu Mem) × Database Cpu Mem :=
  match readWorker "persistence: select worker for update" db id with
  | .error problem => (.error problem, db)
  | .ok current =>
      match fn current with
      | .error problem => (.error (.worker problem), db)
      | .ok updated =>
          match db.updateWorker (workerArgs updated) with
          | (answer, written) =>
              match scanned "persistence: update worker" answer with
              | .error problem => (.error problem, db)
              | .ok stored =>
                  match replaceGPUs written id updated.gpus with
                  | .error problem => (.error problem, db)
                  | .ok replaced => (.ok { stored with gpus := updated.gpus }, replaced)

/-- The worker a row stands for, without its GPUs. -/
def workerOf (row : WorkerRow Cpu Mem) : Worker Cpu Mem where
  id := row .id
  hostname := row .hostname
  status := row .status
  leaseID := row .leaseID
  cpuCapacity := row .cpuCapacity
  memoryCapacityBytes := row .memoryCapacityBytes
  gpus := []
  softwareVersion := row .softwareVersion
  labels := row .labels
  runningJobIDs := row .runningJobIDs
  registeredAt := ofMicros (row .registeredAt)
  lastHeartbeatAt := ofMicros (row .lastHeartbeatAt)

/-- The row a worker is stored as. -/
def workerRow (worker : Worker Cpu Mem) : WorkerRow Cpu Mem
  | .id => worker.id
  | .hostname => worker.hostname
  | .status => worker.status
  | .leaseID => worker.leaseID
  | .cpuCapacity => worker.cpuCapacity
  | .memoryCapacityBytes => worker.memoryCapacityBytes
  | .softwareVersion => worker.softwareVersion
  | .labels => worker.labels
  | .runningJobIDs => worker.runningJobIDs
  | .registeredAt => micros worker.registeredAt
  | .lastHeartbeatAt => micros worker.lastHeartbeatAt

def gpuOf (row : GPURow Cpu Mem) : GPU Cpu Mem where
  id := row .id
  deviceIndex := row .deviceIndex
  uuid := row .uuid
  totalMemoryBytes := row .totalMemoryBytes
  allocatedMemoryBytes := row .allocatedMemoryBytes
  utilizationPercent := row .utilizationPercent
  temperatureCelsius := row .temperatureCelsius
  migProfile := row .migProfile
  healthState := row .healthState

/-- The row a GPU of the worker is stored as. -/
def gpuRow (workerID : String) (gpu : GPU Cpu Mem) : GPURow Cpu Mem
  | .id => gpuRowID workerID gpu.deviceIndex
  | .workerID => workerID
  | .deviceIndex => gpu.deviceIndex
  | .uuid => gpu.uuid
  | .totalMemoryBytes => gpu.totalMemoryBytes
  | .allocatedMemoryBytes => gpu.allocatedMemoryBytes
  | .utilizationPercent => gpu.utilizationPercent
  | .temperatureCelsius => gpu.temperatureCelsius
  | .migProfile => gpu.migProfile
  | .healthState => gpu.healthState

theorem gpuRow_workerID (workerID : String) (gpu : GPU Cpu Mem) :
    (gpuRow workerID gpu).workerID = workerID := rfl

/-- A GPU comes back under the ID of its row, and is otherwise the one that was written. -/
theorem gpuOf_gpuRow (workerID : String) (gpu : GPU Cpu Mem) :
    gpuOf (gpuRow workerID gpu) = { gpu with id := gpuRowID workerID gpu.deviceIndex } := rfl

theorem workerArgs_select (worker : Worker Cpu Mem) :
    workerArgs worker = selectWorker (workerRow worker) := rfl

theorem gpuArgs_select (workerID : String) (gpu : GPU Cpu Mem) :
    gpuArgs workerID gpu = selectGPU (gpuRow workerID gpu) := rfl

theorem scanNullable_send {Kind : Type} {send : Kind → Value Cpu Mem}
    {scan : Value Cpu Mem → Option Kind} (value : Option Kind)
    (back : ∀ kind, scanNullable scan (send kind) = some (some kind)) :
    scanNullable scan (nullable send value) = some value := by
  cases value with
  | none => rfl
  | some kind => exact back kind

theorem status_ofName (status : Status) : Status.ofName status.name = some status := by
  cases status <;> rfl

theorem health_ofName (state : GPUHealthState) :
    GPUHealthState.ofName (GPUHealthState.name state) = some state := by
  cases state <;> rfl

/-- The columns of SELECT and of Scan stand in the same order. -/
theorem scanWorker_select (row : WorkerRow Cpu Mem) :
    scanWorker (selectWorker row) = some (workerOf row) := by
  have unfolded : scanWorker (selectWorker row) =
      ((Status.ofName (Status.name (row .status))).bind fun status =>
        (scanNullable scanInteger (nullable .integer (row .leaseID) : Value Cpu Mem)).bind
          fun leaseID => some { workerOf row with status := status, leaseID := leaseID }) := rfl
  rw [unfolded, status_ofName (row .status), scanNullable_send (row .leaseID) fun _ => rfl]
  rfl

theorem scanGPU_select (row : GPURow Cpu Mem) : scanGPU (selectGPU row) = some (gpuOf row) := by
  have unfolded : scanGPU (selectGPU row) =
      ((scanNullable scanDouble (nullable .double (row .temperatureCelsius) : Value Cpu Mem)).bind
        fun temperature =>
        (GPUHealthState.ofName (GPUHealthState.name (row .healthState))).bind fun state =>
          some { gpuOf row with temperatureCelsius := temperature, healthState := state }) := rfl
  rw [unfolded, health_ofName (row .healthState),
    scanNullable_send (row .temperatureCelsius) fun _ => rfl]
  rfl

/-- What is read of a worker's row and of its devices. -/
def assembled (db : Database Cpu Mem) (row : WorkerRow Cpu Mem) : Worker Cpu Mem :=
  { workerOf row with gpus := (Keyset.sortBy GPURow.deviceIndex (db.gpusOf row.id)).map gpuOf }

theorem getGPUs_storable {db : Database Cpu Mem} {workerID : String}
    (storable : storableText workerID) :
    getGPUs db workerID =
      .ok ((Keyset.sortBy GPURow.deviceIndex (db.gpusOf workerID)).map gpuOf) := by
  have scans : ∀ rows : List (GPURow Cpu Mem),
      (rows.map selectGPU).mapM scanGPU = some (rows.map gpuOf) := by
    intro rows
    induction rows with
    | nil => rfl
    | cons row rest ih => simp [List.mapM_cons, scanGPU_select, ih]
  simp only [getGPUs, selectGPUsByWorkerID, if_pos storable, scans]

theorem readWorker_ok_iff {context : String} {db : Database Cpu Mem} {id : String}
    {worker : Worker Cpu Mem} :
    readWorker context db id = .ok worker ↔
      storableText id ∧ ∃ row, db.find id = some row ∧ assembled db row = worker := by
  unfold readWorker selectWorkerByID
  by_cases storable : storableText id
  · cases found : db.find id with
    | none => simp [storable, scannedOrNotFound]
    | some row =>
        obtain ⟨_, rfl⟩ := find_iff.mp found
        simp [storable, scannedOrNotFound, scanned, scanWorker_select, getGPUs_storable storable,
          assembled]
  · simp [storable, scannedOrNotFound, scanned, JobTable.invalidByteSequence]

theorem insertGPU_ok {db inserted : Database Cpu Mem} {workerID : String} {gpu : GPU Cpu Mem}
    (accepted : db.insertGPU (gpuArgs workerID gpu) = (.ok (), inserted)) :
    inserted.workers = db.workers ∧ inserted.gpus = db.gpus ++ [gpuRow workerID gpu] := by
  rw [gpuArgs_select, insertGPU] at accepted
  cases built : insertGPURow (selectGPU (gpuRow workerID gpu)) with
  | error problem => simp [built] at accepted
  | ok row =>
      obtain rfl : row = gpuRow workerID gpu := insertGPURow_select built
      simp only [built] at accepted
      split_ifs at accepted with used taken known
      · cases (Prod.mk.inj accepted).1
      · cases (Prod.mk.inj accepted).1
      · obtain rfl := (Prod.mk.inj accepted).2
        exact ⟨rfl, rfl⟩
      · cases (Prod.mk.inj accepted).1

theorem insertGPUs_ok {workerID : String} {gpus : List (GPU Cpu Mem)}
    {db inserted : Database Cpu Mem} (accepted : insertGPUs workerID gpus db = .ok inserted) :
    inserted.workers = db.workers ∧ inserted.gpus = db.gpus ++ gpus.map (gpuRow workerID) := by
  induction gpus generalizing db with
  | nil =>
      obtain rfl := Except.ok.inj accepted
      simp
  | cons gpu rest ih =>
      rcases first : db.insertGPU (gpuArgs workerID gpu) with ⟨answer, next⟩
      cases answer with
      | error cause => simp [insertGPUs, first] at accepted
      | ok =>
          simp only [insertGPUs, first] at accepted
          obtain ⟨workers, devices⟩ := insertGPU_ok first
          obtain ⟨sameWorkers, added⟩ := ih accepted
          exact ⟨sameWorkers.trans workers, by simp [added, devices]⟩

/-- After replaceGPUs the worker's devices are the rows of the list, and nothing else. -/
theorem replaceGPUs_ok {db replaced : Database Cpu Mem} {workerID : String}
    {gpus : List (GPU Cpu Mem)} (accepted : replaceGPUs db workerID gpus = .ok replaced) :
    storableText workerID ∧ replaced.workers = db.workers ∧
      replaced.gpusOf workerID = gpus.map (gpuRow workerID) := by
  unfold replaceGPUs deleteGPUs at accepted
  by_cases storable : storableText workerID
  · simp only [if_pos storable] at accepted
    obtain ⟨workers, devices⟩ := insertGPUs_ok accepted
    have cleared := gpusOf_removeGPUs db workerID
    unfold gpusOf at cleared ⊢
    rw [devices, List.filter_append, cleared, List.nil_append, List.filter_eq_self.mpr]
    · exact ⟨storable, workers, rfl⟩
    · intro row member
      obtain ⟨gpu, _, rfl⟩ := List.mem_map.mp member
      exact decide_eq_true (gpuRow_workerID workerID gpu)
  · simp [storable] at accepted

/-- An inventory as Get lists it: by device index, each GPU under the ID of its row. -/
def Canonical (workerID : String) (gpus : List (GPU Cpu Mem)) : Prop :=
  gpus.Pairwise (fun left right => left.deviceIndex < right.deviceIndex) ∧
    ∀ gpu ∈ gpus, gpu.id = gpuRowID workerID gpu.deviceIndex

instance (workerID : String) (gpus : List (GPU Cpu Mem)) : Decidable (Canonical workerID gpus) :=
  inferInstanceAs (Decidable (_ ∧ _))

/-- Distinct devices are read back as the list that was written just when it is canonical. -/
theorem read_back_iff {workerID : String} {gpus : List (GPU Cpu Mem)}
    (distinct : ((gpus.map (gpuRow workerID)).map GPURow.deviceIndex).Nodup) :
    (Keyset.sortBy GPURow.deviceIndex (gpus.map (gpuRow workerID))).map gpuOf = gpus ↔
      Canonical workerID gpus := by
  have ordered := Keyset.sortBy_strict distinct
  constructor
  · intro same
    have ascending : gpus.Pairwise fun left right => left.deviceIndex < right.deviceIndex := by
      rw [← same, List.pairwise_map]
      exact ordered
    refine ⟨ascending, fun gpu member => ?_⟩
    rw [← same] at member
    obtain ⟨row, stored, rfl⟩ := List.mem_map.mp member
    obtain ⟨given, _, rfl⟩ := List.mem_map.mp ((Keyset.sortBy_perm _).mem_iff.mp stored)
    rfl
  · rintro ⟨ascending, named⟩
    -- The rows stand in the order in which they are listed.
    have listed : Keyset.sortBy GPURow.deviceIndex (gpus.map (gpuRow workerID)) =
        gpus.map (gpuRow workerID) :=
      Keyset.strict_unique ordered (List.pairwise_map.mpr ascending)
        fun row => (Keyset.sortBy_perm _).mem_iff
    rw [listed, List.map_map]
    calc gpus.map (gpuOf ∘ gpuRow workerID) = gpus.map id :=
          List.map_congr_left fun gpu member => by
            rw [Function.comp_apply, gpuOf_gpuRow, ← named gpu member, id_eq]
      _ = gpus := List.map_id gpus

theorem get_written_iff {db : Database Cpu Mem} {row returned : WorkerRow Cpu Mem} {id : String}
    {gpus : List (GPU Cpu Mem)} (storable : storableText id) (found : db.find id = some row)
    (devices : db.gpusOf id = gpus.map (gpuRow id)) :
    get db id = .ok { workerOf returned with gpus := gpus } ↔
      workerOf row = workerOf returned ∧ Canonical id gpus := by
  have distinct := db.gpusOf_distinct id
  rw [devices] at distinct
  have read : get db id = .ok (assembled db row) :=
    readWorker_ok_iff.mpr ⟨storable, row, found, rfl⟩
  obtain ⟨_, rfl⟩ := find_iff.mp found
  rw [read, assembled, devices, Except.ok.injEq, ← read_back_iff distinct]
  constructor
  · intro same
    exact ⟨congrArg (fun worker => { worker with gpus := [] }) same, congrArg Worker.gpus same⟩
  · rintro ⟨sameRow, sameGPUs⟩
    rw [sameRow, sameGPUs]

theorem scanned_ok {context : String} {answer : Except SqlError (List (Value Cpu Mem))}
    {worker : Worker Cpu Mem} (scans : scanned context answer = .ok worker) :
    ∃ values, answer = .ok values ∧ scanWorker values = some worker := by
  cases answer with
  | error cause => cases scans
  | ok values =>
      cases found : scanWorker values with
      | none => simp [scanned, found] at scans
      | some scannedWorker =>
          simp only [scanned, found] at scans
          exact ⟨values, rfl, found.trans (congrArg some (Except.ok.inj scans))⟩

theorem find_congr {db other : Database Cpu Mem} (same : other.workers = db.workers) (id : String) :
    other.find id = db.find id := by
  unfold find
  rw [same]

theorem insertWorker_ok {db inserted : Database Cpu Mem} {worker : Worker Cpu Mem}
    {values : List (Value Cpu Mem)}
    (accepted : db.insertWorker (workerArgs worker) = (.ok values, inserted)) :
    values = selectWorker (workerRow worker) ∧
      inserted.find worker.id = some (workerRow worker) := by
  rw [workerArgs_select, insertWorker] at accepted
  cases built : insertWorkerRow (selectWorker (workerRow worker)) with
  | error problem => simp [built] at accepted
  | ok row =>
      obtain rfl : row = workerRow worker := insertWorkerRow_select built
      simp only [built] at accepted
      split_ifs at accepted with used
      · cases (Prod.mk.inj accepted).1
      · obtain ⟨returned, rfl⟩ := Prod.mk.inj accepted
        exact ⟨(Except.ok.inj returned).symm, find_addWorker used⟩

theorem updateWorker_ok {db written : Database Cpu Mem} {worker : Worker Cpu Mem}
    {values : List (Value Cpu Mem)}
    (accepted : db.updateWorker (workerArgs worker) = (.ok values, written)) :
    values = selectWorker (workerRow worker) ∧ written = db.setWorker (workerRow worker) := by
  rw [workerArgs_select, updateWorker] at accepted
  cases bound : bindArgument (selectWorker (workerRow worker)) .text 1 with
  | error problem => simp [bound] at accepted
  | ok id =>
      obtain rfl : id = worker.id := accept_send bound
      cases found : db.find worker.id with
      | none => simp [bound, found] at accepted
      | some row =>
          cases built : updateWorkerRow row (selectWorker (workerRow worker)) with
          | error problem => simp [bound, found, built] at accepted
          | ok changed =>
              obtain rfl : changed = workerRow worker :=
                updateWorkerRow_select (find_iff.mp found).2 built
              simp only [bound, found, built] at accepted
              obtain ⟨returned, stored⟩ := Prod.mk.inj accepted
              exact ⟨(Except.ok.inj returned).symm, stored.symm⟩

theorem create_ok {db after : Database Cpu Mem} {worker created : Worker Cpu Mem}
    (accepted : create db worker = (.ok created, after)) :
    created = { workerOf (workerRow worker) with gpus := worker.gpus } ∧
      storableText worker.id ∧ after.find worker.id = some (workerRow worker) ∧
      after.gpusOf worker.id = worker.gpus.map (gpuRow worker.id) := by
  unfold create at accepted
  rcases statement : db.insertWorker (workerArgs worker) with ⟨answer, inserted⟩
  simp only [statement] at accepted
  cases scans : scanned "persistence: insert worker" answer with
  | error problem => simp [scans] at accepted
  | ok returned =>
      cases devices : replaceGPUs inserted worker.id worker.gpus with
      | error problem => simp [scans, devices] at accepted
      | ok replaced =>
          simp only [scans, devices] at accepted
          obtain ⟨isCreated, rfl⟩ := Prod.mk.inj accepted
          obtain ⟨values, rfl, scannedAs⟩ := scanned_ok scans
          obtain ⟨rfl, found⟩ := insertWorker_ok statement
          obtain ⟨storable, workers, stored⟩ := replaceGPUs_ok devices
          rw [scanWorker_select, Option.some.injEq] at scannedAs
          subst scannedAs
          exact ⟨(Except.ok.inj isCreated).symm, storable, (find_congr workers _).trans found, stored⟩

theorem update_ok {db after : Database Cpu Mem} {id : String}
    {fn : Worker Cpu Mem → Except WorkerError (Worker Cpu Mem)} {stored : Worker Cpu Mem}
    (accepted : update db id fn = (.ok stored, after)) :
    ∃ current updated row, get db id = .ok current ∧ fn current = .ok updated ∧
      stored = { workerOf (workerRow updated) with gpus := updated.gpus } ∧
      storableText id ∧ row.id = id ∧ after.find id = some (setRow (workerRow updated) row) ∧
      after.gpusOf id = updated.gpus.map (gpuRow id) := by
  unfold update at accepted
  cases read : readWorker "persistence: select worker for update" db id with
  | error problem => simp [read] at accepted
  | ok current =>
      cases called : fn current with
      | error problem => simp [read, called] at accepted
      | ok updated =>
          rcases statement : db.updateWorker (workerArgs updated) with ⟨answer, written⟩
          simp only [read, called, statement] at accepted
          cases scans : scanned "persistence: update worker" answer with
          | error problem => simp [scans] at accepted
          | ok returned =>
              cases devices : replaceGPUs written id updated.gpus with
              | error problem => simp [scans, devices] at accepted
              | ok replaced =>
                  simp only [scans, devices] at accepted
                  obtain ⟨isStored, rfl⟩ := Prod.mk.inj accepted
                  obtain ⟨values, rfl, scannedAs⟩ := scanned_ok scans
                  obtain ⟨rfl, rfl⟩ := updateWorker_ok statement
                  obtain ⟨storable, workers, inventory⟩ := replaceGPUs_ok devices
                  rw [scanWorker_select, Option.some.injEq] at scannedAs
                  subst scannedAs
                  obtain ⟨_, row, found, _⟩ := readWorker_ok_iff.mp read
                  refine ⟨current, updated, row, ?_, called, (Except.ok.inj isStored).symm, storable,
                    (find_iff.mp found).2, (find_congr workers id).trans (find_setWorker found),
                    inventory⟩
                  exact readWorker_ok_iff.mpr (readWorker_ok_iff.mp read)

/-- Create and Update return what Get then reads just when the inventory they are
given is canonical, and Update's function has kept the worker's ID. -/
theorem returned_as_stored_iff (db : Database Cpu Mem) :
    (∀ worker created after, create db worker = (.ok created, after) →
      (get after worker.id = .ok created ↔ Canonical worker.id worker.gpus)) ∧
    (∀ id fn stored after, update db id fn = (.ok stored, after) →
      (get after id = .ok stored ↔
        ∃ current updated, get db id = .ok current ∧ fn current = .ok updated ∧
          updated.id = id ∧ Canonical id updated.gpus)) := by
  constructor
  · intro worker created after accepted
    obtain ⟨rfl, storable, found, devices⟩ := create_ok accepted
    rw [get_written_iff storable found devices]
    exact and_iff_right rfl
  · intro id fn stored after accepted
    obtain ⟨current, updated, row, read, called, rfl, storable, own, found, devices⟩ :=
      update_ok accepted
    rw [get_written_iff storable found devices]
    constructor
    · rintro ⟨sameRow, canonical⟩
      have kept : (setRow (workerRow updated) row).id = (workerRow updated).id :=
        congrArg Worker.id sameRow
      rw [setRow_id, own] at kept
      exact ⟨current, updated, read, called, kept.symm, canonical⟩
    · rintro ⟨current', updated', read', called', kept, canonical⟩
      obtain rfl : current = current' := Except.ok.inj (read.symm.trans read')
      obtain rfl : updated = updated' := Except.ok.inj (called.symm.trans called')
      have replaced : setRow (workerRow updated) row = workerRow updated :=
        if_pos (own.trans kept.symm)
      rw [replaced]
      exact ⟨rfl, canonical⟩

/-- A device as a worker reports it. -/
def reportedDevice (deviceIndex : Int) (uuid : String) : Api.Pb.GPU Int Int where
  id := ""
  deviceIndex := deviceIndex
  uuid := uuid
  totalMemoryBytes := 16
  allocatedMemoryBytes := 0
  utilizationPercent := 0
  temperatureCelsius := none
  migProfile := ""
  healthState := 1

/-- The record Register creates for a request with two devices. -/
def registeredWorker : Worker Int Int :=
  registered 0 "worker-1" 1 (Api.registerInput {
    hostname := "node", cpuCapacity := 8, memoryCapacityBytes := 64,
    gpus := [reportedDevice 1 "GPU-b", reportedDevice 0 "GPU-a"],
    softwareVersion := "1", labels := [("zone", "a")] })

/-- The same worker with its inventory as Get lists it. -/
def listedWorker : Worker Int Int :=
  { registeredWorker with
    gpus := [{ Api.gpuToDomain (reportedDevice 0 "GPU-a") with id := "worker-1-gpu-0" },
      { Api.gpuToDomain (reportedDevice 1 "GPU-b") with id := "worker-1-gpu-1" }] }

/-- The repository after Create, and what a heartbeat with a running job makes of it. -/
def createdDatabase : Database Int Int := (create Database.empty listedWorker).2

def beat : Worker Int Int → Except WorkerError (Worker Int Int) :=
  heartbeatUpdate 5000 none none (some ["job-1"])

def beatenWorker : Worker Int Int :=
  { listedWorker with lastHeartbeatAt := 5000, runningJobIDs := ["job-1"] }

theorem listedWorker_returned :
    (create Database.empty listedWorker).1 = .ok listedWorker ∧
      get createdDatabase "worker-1" = .ok listedWorker ∧
      (update createdDatabase "worker-1" beat).1 = .ok beatenWorker ∧
      get (update createdDatabase "worker-1" beat).2 "worker-1" = .ok beatenWorker := by
  have created : get createdDatabase "worker-1" = .ok listedWorker :=
    ((returned_as_stored_iff Database.empty).1 listedWorker listedWorker createdDatabase rfl).mpr
      (by decide)
  have beaten : get (update createdDatabase "worker-1" beat).2 "worker-1" = .ok beatenWorker :=
    ((returned_as_stored_iff createdDatabase).2 "worker-1" beat beatenWorker _ rfl).mpr
      ⟨listedWorker, beatenWorker, created, rfl, rfl, by decide⟩
  exact ⟨rfl, created, rfl, beaten⟩

/-- The devices of a request have no ID and stand in the request's order. Create
returns them so; Get reads them under the IDs of their rows and by device index. -/
theorem registeredWorker_differs :
    ∃ created after, create Database.empty registeredWorker = (.ok created, after) ∧
      get after "worker-1" = .ok listedWorker ∧ created ≠ listedWorker :=
  ⟨_, _, rfl, rfl, by decide⟩

end OrionQueue.WorkerRepository
