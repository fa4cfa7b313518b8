import Mathlib.Order.Lex
import OrionQueue.JobTable
import OrionQueue.Worker

/-!
The tables `workers` and `gpus` as the migrations create them, and the statements
of worker_repository.go on them. As in `JobTable` a row gives every column a value
of the column's type, and the constraints of the schema are fields of `Database`.
The columns `updated_at`, which no statement reads, and the text of the JSON in
`labels` are left out: a JSON object is the list of its fields.
-/

namespace OrionQueue.WorkerTable

open Jobs Workers
open JobTable (SqlError uniqueViolation foreignKeyViolation checkViolation invalidByteSequence
  storableText)

inductive WorkerColumn where
  | id | hostname | status | leaseID | cpuCapacity | memoryCapacityBytes
  | softwareVersion | labels | runningJobIDs | registeredAt | lastHeartbeatAt
  deriving DecidableEq

inductive GPUColumn where
  | id | workerID | deviceIndex | uuid | totalMemoryBytes | allocatedMemoryBytes
  | utilizationPercent | temperatureCelsius | migProfile | healthState
  deriving DecidableEq

/-- The types of the columns. `bytes` is a BIGINT that holds an amount of memory,
`labels` the JSONB column; the last two are TEXT under a CHECK constraint. -/
inductive ColumnType where
  | text | textArray | integer | nullableInteger | bytes | double | nullableDouble
  | labels | timestamp | workerStatus | healthState

def WorkerColumn.type : WorkerColumn → ColumnType
  | .id | .hostname | .softwareVersion => .text
  | .status => .workerStatus
  | .leaseID => .nullableInteger
  | .cpuCapacity => .double
  | .memoryCapacityBytes => .bytes
  | .labels => .labels
  | .runningJobIDs => .textArray
  | .registeredAt | .lastHeartbeatAt => .timestamp

def GPUColumn.type : GPUColumn → ColumnType
  | .id | .workerID | .uuid | .migProfile => .text
  | .deviceIndex => .integer
  | .totalMemoryBytes | .allocatedMemoryBytes => .bytes
  | .utilizationPercent => .double
  | .temperatureCelsius => .nullableDouble
  | .healthState => .healthState

def ColumnType.Carrier (Cpu Mem : Type) : ColumnType → Type
  | .text => String
  | .textArray => List String
  | .integer => Int
  | .nullableInteger => Option Int
  | .bytes => Mem
  | .double => Cpu
  | .nullableDouble => Option Cpu
  | .labels => List (String × String)
  | .timestamp => Int
  | .workerStatus => Status
  | .healthState => GPUHealthState

/-- A value on the wire between the driver and the server. -/
inductive Value (Cpu Mem : Type) where
  | text (value : String)
  | textArray (value : List String)
  | integer (value : Int)
  | bytes (value : Mem)
  | double (value : Cpu)
  | json (fields : List (String × String))
  | timestamp (micros : Int)
  | null

def GPUHealthState.name : GPUHealthState → String
  | .healthy => "HEALTHY"
  | .degraded => "DEGRADED"
  | .unhealthy => "UNHEALTHY"

/-- workers_status_valid. -/
def Status.ofName (name : String) : Option Status :=
  [.active, .lost].find? fun status => status.name = name

/-- gpus_health_state_valid. -/
def GPUHealthState.ofName (name : String) : Option GPUHealthState :=
  [.healthy, .degraded, .unhealthy].find? fun state => GPUHealthState.name state = name

/-- JSONB has no text with the escape of a NUL character. -/
def unsupportedEscape : SqlError := .server "22P05"

variable {Cpu Mem : Type}

def checked {Kind : Type} : Option Kind → Except SqlError Kind
  | some kind => .ok kind
  | none => .error checkViolation

def ColumnType.accept : (type : ColumnType) → Value Cpu Mem → Except SqlError (type.Carrier Cpu Mem)
  | .text, .text value =>
      if storableText value then .ok value else .error invalidByteSequence
  | .textArray, .textArray value =>
      if value.all storableText then .ok value else .error invalidByteSequence
  | .integer, .integer value => .ok value
  | .nullableInteger, .integer value => .ok (some value)
  | .nullableInteger, .null => .ok none
  | .bytes, .bytes value => .ok value
  | .double, .double value => .ok value
  | .nullableDouble, .double value => .ok (some value)
  | .nullableDouble, .null => .ok none
  | .labels, .json fields =>
      if fields.all fun field => storableText field.1 && storableText field.2 then .ok fields
      else .error unsupportedEscape
  | .timestamp, .timestamp micros => .ok micros
  | .workerStatus, .text value => checked (Status.ofName value)
  | .healthState, .text value => checked (GPUHealthState.ofName value)
  | _, _ => .error .unencodable

/-- A Go pointer: nil is NULL. -/
def nullable {Kind : Type} (send : Kind → Value Cpu Mem) : Option Kind → Value Cpu Mem
  | some value => send value
  | none => .null

def ColumnType.send : (type : ColumnType) → type.Carrier Cpu Mem → Value Cpu Mem
  | .text, value => .text value
  | .textArray, value => .textArray value
  | .integer, value => .integer value
  | .nullableInteger, value => nullable .integer value
  | .bytes, value => .bytes value
  | .double, value => .double value
  | .nullableDouble, value => nullable .double value
  | .labels, fields => .json fields
  | .timestamp, micros => .timestamp micros
  | .workerStatus, status => .text (Status.name status)
  | .healthState, state => .text (GPUHealthState.name state)

/-- A column stores what it is sent, or refuses it. -/
theorem accept_send {type : ColumnType} {value stored : type.Carrier Cpu Mem}
    (accepted : type.accept (type.send value) = .ok stored) : stored = value := by
  cases type with
  | text | textArray | labels =>
      simp only [ColumnType.send, ColumnType.accept] at accepted
      split at accepted
      · exact (Except.ok.inj accepted).symm
      · cases accepted
  | nullableInteger | nullableDouble => cases value <;> exact (Except.ok.inj accepted).symm
  | workerStatus | healthState => cases value <;> exact (Except.ok.inj accepted).symm
  | _ => exact (Except.ok.inj accepted).symm

def WorkerRow (Cpu Mem : Type) : Type := (column : WorkerColumn) → column.type.Carrier Cpu Mem
def GPURow (Cpu Mem : Type) : Type := (column : GPUColumn) → column.type.Carrier Cpu Mem

def WorkerRow.id (row : WorkerRow Cpu Mem) : String := row .id
def GPURow.id (row : GPURow Cpu Mem) : String := row .id
def GPURow.workerID (row : GPURow Cpu Mem) : String := row .workerID
def GPURow.deviceIndex (row : GPURow Cpu Mem) : Int := row .deviceIndex

/-- The columns of gpus_device_index_unique_per_worker. -/
def GPURow.device (row : GPURow Cpu Mem) : String × Int := (row.workerID, row.deviceIndex)

def workerColumnList : List WorkerColumn :=
  [.id, .hostname, .status, .leaseID, .cpuCapacity, .memoryCapacityBytes,
    .softwareVersion, .labels, .runningJobIDs, .registeredAt, .lastHeartbeatAt]

def gpuColumnList : List GPUColumn :=
  [.id, .workerID, .deviceIndex, .uuid, .totalMemoryBytes, .allocatedMemoryBytes,
    .utilizationPercent, .temperatureCelsius, .migProfile, .healthState]

theorem mem_workerColumnList (column : WorkerColumn) : column ∈ workerColumnList := by
  cases column <;> decide

theorem mem_gpuColumnList (column : GPUColumn) : column ∈ gpuColumnList := by
  cases column <;> decide

/-- insertWorkerSQL: `VALUES ($1,...,$11, now())`. -/
def insertWorkerParameters : List (WorkerColumn × Nat) :=
  workerColumnList.zip [1, 2, 3, 4, 5, 6, 7, 8, 9, 10, 11]

/-- The SET list of updateWorkerSQL. `$1` is the ID of the WHERE clause. -/
def updateWorkerParameters : List (WorkerColumn × Nat) :=
  [(.hostname, 2), (.status, 3), (.leaseID, 4), (.cpuCapacity, 5), (.memoryCapacityBytes, 6),
    (.softwareVersion, 7), (.labels, 8), (.runningJobIDs, 9), (.registeredAt, 10),
    (.lastHeartbeatAt, 11)]

/-- insertGPUSQL: `VALUES ($1,...,$10)`. -/
def insertGPUParameters : List (GPUColumn × Nat) :=
  gpuColumnList.zip [1, 2, 3, 4, 5, 6, 7, 8, 9, 10]

/-- The argument of parameter `$number`, as a value of the column's type. -/
def bindArgument (args : List (Value Cpu Mem)) (type : ColumnType) (number : Nat) :
    Except SqlError (type.Carrier Cpu Mem) :=
  match args[number - 1]? with
  | some value => type.accept value
  | none => .error .unencodable

/-- A parameter list's argument for the column, or else what `unset` gives. -/
def boundCell (args : List (Value Cpu Mem)) (type : ColumnType) (number : Option Nat)
    (unset : Except SqlError (type.Carrier Cpu Mem)) : Except SqlError (type.Carrier Cpu Mem) :=
  match number with
  | some number => bindArgument args type number
  | none => unset

def insertWorkerRow (args : List (Value Cpu Mem)) : Except SqlError (WorkerRow Cpu Mem) :=
  let cells := fun column : WorkerColumn =>
    boundCell args column.type (insertWorkerParameters.lookup column) (.error .unencodable)
  Rows.assemble workerColumnList mem_workerColumnList cells
    ((Rows.firstProblem workerColumnList cells).getD .unencodable)

def updateWorkerRow (row : WorkerRow Cpu Mem) (args : List (Value Cpu Mem)) :
    Except SqlError (WorkerRow Cpu Mem) :=
  let cells := fun column : WorkerColumn =>
    boundCell args column.type (updateWorkerParameters.lookup column) (.ok (row column))
  Rows.assemble workerColumnList mem_workerColumnList cells
    ((Rows.firstProblem workerColumnList cells).getD .unencodable)

def insertGPURow (args : List (Value Cpu Mem)) : Except SqlError (GPURow Cpu Mem) :=
  let cells := fun column : GPUColumn =>
    boundCell args column.type (insertGPUParameters.lookup column) (.error .unencodable)
  Rows.assemble gpuColumnList mem_gpuColumnList cells
    ((Rows.firstProblem gpuColumnList cells).getD .unencodable)

def selectWorker (row : WorkerRow Cpu Mem) : List (Value Cpu Mem) :=
  workerColumnList.map fun column => column.type.send (row column)

def selectGPU (row : GPURow Cpu Mem) : List (Value Cpu Mem) :=
  gpuColumnList.map fun column => column.type.send (row column)

/-- The arguments of INSERT stand in the order in which SELECT returns the columns. -/
theorem insertWorkerRow_select {row stored : WorkerRow Cpu Mem}
    (built : insertWorkerRow (selectWorker row) = .ok stored) : stored = row := by
  funext column
  have cell := (Rows.assemble_ok_iff mem_workerColumnList).mp built column
  apply accept_send
  rw [← cell]
  cases column <;> rfl

theorem insertGPURow_select {row stored : GPURow Cpu Mem}
    (built : insertGPURow (selectGPU row) = .ok stored) : stored = row := by
  funext column
  have cell := (Rows.assemble_ok_iff mem_gpuColumnList).mp built column
  apply accept_send
  rw [← cell]
  cases column <;> rfl

/-- UPDATE sets every column but the ID. -/
theorem updateWorkerRow_select {row values stored : WorkerRow Cpu Mem} (own : row.id = values.id)
    (built : updateWorkerRow row (selectWorker values) = .ok stored) : stored = values := by
  funext column
  have cell := (Rows.assemble_ok_iff mem_workerColumnList).mp built column
  cases column with
  | id => exact (Except.ok.inj cell).symm.trans own
  | _ => exact accept_send cell

structure Database (Cpu Mem : Type) where
  workers : List (WorkerRow Cpu Mem)
  gpus : List (GPURow Cpu Mem)
  workerKey : (workers.map WorkerRow.id).Nodup
  gpuKey : (gpus.map GPURow.id).Nodup
  deviceUnique : (gpus.map GPURow.device).Nodup
  references : ∀ gpu ∈ gpus, gpu.workerID ∈ workers.map WorkerRow.id

namespace Database

def empty : Database Cpu Mem where
  workers := []
  gpus := []
  workerKey := List.nodup_nil
  gpuKey := List.nodup_nil
  deviceUnique := List.nodup_nil
  references := by simp

def find (db : Database Cpu Mem) (id : String) : Option (WorkerRow Cpu Mem) :=
  db.workers.find? fun row => row.id = id

def gpusOf (db : Database Cpu Mem) (workerID : String) : List (GPURow Cpu Mem) :=
  db.gpus.filter fun row => row.workerID = workerID

def addWorker (db : Database Cpu Mem) (row : WorkerRow Cpu Mem)
    (unused : row.id ∉ db.workers.map WorkerRow.id) : Database Cpu Mem where
  workers := db.workers ++ [row]
  gpus := db.gpus
  workerKey := Rows.unique_append db.workerKey unused
  gpuKey := db.gpuKey
  deviceUnique := db.deviceUnique
  references gpu member := by
    rw [List.map_append]
    exact List.mem_append_left _ (db.references gpu member)

/-- The row under the ID of `changed` replaced by it. -/
def setRow (changed row : WorkerRow Cpu Mem) : WorkerRow Cpu Mem :=
  if row.id = changed.id then changed else row

theorem setRow_id (changed row : WorkerRow Cpu Mem) : (setRow changed row).id = row.id := by
  unfold setRow
  split
  case isTrue own => exact own.symm
  case isFalse => rfl

theorem setRow_ids (changed : WorkerRow Cpu Mem) (rows : List (WorkerRow Cpu Mem)) :
    (rows.map (setRow changed)).map WorkerRow.id = rows.map WorkerRow.id := by
  rw [List.map_map]
  exact List.map_congr_left fun row _ => setRow_id changed row

def setWorker (db : Database Cpu Mem) (changed : WorkerRow Cpu Mem) : Database Cpu Mem where
  workers := db.workers.map (setRow changed)
  gpus := db.gpus
  workerKey := by
    rw [setRow_ids]
    exact db.workerKey
  gpuKey := db.gpuKey
  deviceUnique := db.deviceUnique
  references gpu member := by
    rw [setRow_ids]
    exact db.references gpu member

def removeGPUs (db : Database Cpu Mem) (workerID : String) : Database Cpu Mem where
  workers := db.workers
  gpus := db.gpus.filter fun row => row.workerID ≠ workerID
  workerKey := db.workerKey
  gpuKey := db.gpuKey.sublist (List.filter_sublist.map _)
  deviceUnique := db.deviceUnique.sublist (List.filter_sublist.map _)
  references gpu member := db.references gpu (List.mem_of_mem_filter member)

def addGPU (db : Database Cpu Mem) (row : GPURow Cpu Mem) (unused : row.id ∉ db.gpus.map GPURow.id)
    (free : row.device ∉ db.gpus.map GPURow.device)
    (known : row.workerID ∈ db.workers.map WorkerRow.id) : Database Cpu Mem where
  workers := db.workers
  gpus := db.gpus ++ [row]
  workerKey := db.workerKey
  gpuKey := Rows.unique_append db.gpuKey unused
  deviceUnique := Rows.unique_append db.deviceUnique free
  references gpu member := by
    rcases List.mem_append.mp member with earlier | isNew
    · exact db.references gpu earlier
    · obtain rfl : gpu = row := by simpa using isNew
      exact known

/-- insertWorkerSQL. -/
def insertWorker (db : Database Cpu Mem) (args : List (Value Cpu Mem)) :
    Except SqlError (List (Value Cpu Mem)) × Database Cpu Mem :=
  match insertWorkerRow args with
  | .error problem => (.error problem, db)
  | .ok row =>
      if unused : row.id ∈ db.workers.map WorkerRow.id then (.error uniqueViolation, db)
      else (.ok (selectWorker row), db.addWorker row unused)

/-- selectWorkerByIDSQL, and selectWorkerByIDForUpdateSQL. -/
def selectWorkerByID (db : Database Cpu Mem) (id : String) : Except SqlError (List (Value Cpu Mem)) :=
  if storableText id then
    match db.find id with
    | some row => .ok (selectWorker row)
    | none => .error .noRows
  else .error invalidByteSequence

/-- updateWorkerSQL, whose WHERE clause compares the ID with `$1`. -/
def updateWorker (db : Database Cpu Mem) (args : List (Value Cpu Mem)) :
    Except SqlError (List (Value Cpu Mem)) × Database Cpu Mem :=
  match bindArgument args .text 1 with
  | .error problem => (.error problem, db)
  | .ok id =>
      match db.find id with
      | none => (.error .noRows, db)
      | some row =>
          match updateWorkerRow row args with
          | .error problem => (.error problem, db)
          | .ok changed => (.ok (selectWorker changed), db.setWorker changed)

/-- `DELETE FROM gpus WHERE worker_id = $1`. -/
def deleteGPUs (db : Database Cpu Mem) (workerID : String) :
    Except SqlError Unit × Database Cpu Mem :=
  if storableText workerID then (.ok (), db.removeGPUs workerID)
  else (.error invalidByteSequence, db)

/-- insertGPUSQL. The unique indexes are looked up as the row goes in, the
foreign key at the end of the statement. -/
def insertGPU (db : Database Cpu Mem) (args : List (Value Cpu Mem)) :
    Except SqlError Unit × Database Cpu Mem :=
  match insertGPURow args with
  | .error problem => (.error problem, db)
  | .ok row =>
      if unused : row.id ∈ db.gpus.map GPURow.id then (.error uniqueViolation, db)
      else if free : row.device ∈ db.gpus.map GPURow.device then (.error uniqueViolation, db)
      else if known : row.workerID ∈ db.workers.map WorkerRow.id then
        (.ok (), db.addGPU row unused free known)
      else (.error foreignKeyViolation, db)

/-- selectGPUsByWorkerIDSQL. -/
def selectGPUsByWorkerID (db : Database Cpu Mem) (workerID : String) :
    Except SqlError (List (List (Value Cpu Mem))) :=
  if storableText workerID then
    .ok ((Keyset.sortBy GPURow.deviceIndex (db.gpusOf workerID)).map selectGPU)
  else .error invalidByteSequence

theorem find_iff {db : Database Cpu Mem} {id : String} {row : WorkerRow Cpu Mem} :
    db.find id = some row ↔ row ∈ db.workers ∧ row.id = id :=
  Rows.find_iff db.workerKey

theorem find_addWorker {db : Database Cpu Mem} {row : WorkerRow Cpu Mem}
    (unused : row.id ∉ db.workers.map WorkerRow.id) :
    (db.addWorker row unused).find row.id = some row :=
  find_iff.mpr ⟨List.mem_append_right _ (List.mem_singleton.mpr rfl), rfl⟩

theorem find_setWorker {db : Database Cpu Mem} {changed row : WorkerRow Cpu Mem} {id : String}
    (found : db.find id = some row) : (db.setWorker changed).find id = some (setRow changed row) := by
  obtain ⟨member, rfl⟩ := find_iff.mp found
  exact find_iff.mpr ⟨List.mem_map_of_mem member, setRow_id changed row⟩

theorem gpusOf_removeGPUs (db : Database Cpu Mem) (workerID : String) :
    (db.removeGPUs workerID).gpusOf workerID = [] := by
  rw [gpusOf, List.filter_eq_nil_iff]
  intro gpu member
  simpa using List.of_mem_filter member

/-- No device of a worker is stored twice. -/
theorem gpusOf_distinct (db : Database Cpu Mem) (workerID : String) :
    ((db.gpusOf workerID).map GPURow.deviceIndex).Nodup := by
  refine (List.Nodup.of_map _ db.deviceUnique |>.filter _).map_on ?_
  intro left memberLeft right memberRight same
  have ownLeft : left.workerID = workerID := by simpa using List.of_mem_filter memberLeft
  have ownRight : right.workerID = workerID := by simpa using List.of_mem_filter memberRight
  exact List.inj_on_of_nodup_map db.deviceUnique (List.mem_of_mem_filter memberLeft)
    (List.mem_of_mem_filter memberRight) (Prod.ext (ownLeft.trans ownRight.symm) same)

end Database

end OrionQueue.WorkerTable
