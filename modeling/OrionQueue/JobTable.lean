import Mathlib.Data.List.Nodup
import Mathlib.Data.Prod.Lex
import Mathlib.Order.Basic
import Mathlib.Order.Lex
import OrionQueue.Job
import OrionQueue.Keyset
import OrionQueue.Rows

/-!
The tables `jobs` and `job_events` as the migrations create them, and the
statements of job_repository.go on them. A row gives every column a value of
the column's type; a statement receives positional arguments and files each
under the column its parameter number belongs to. The constraints of the schema
are fields of `Database`, so that no statement can leave a database without them.
-/

namespace OrionQueue.JobTable

open Jobs

inductive Column where
  | id | submissionID | name | owner | image | command
  | gpuCount | minGPUMemoryBytes | cpuCores | memoryBytes
  | priority | preemptible | retryLimit | currentAttempt
  | timeoutSeconds | checkpointIntervalSeconds
  | state | assignedWorkerIDs | failureReason
  | createdAt | startedAt | completedAt | failedAt
  deriving DecidableEq

/-- The types of the columns. `bytes` is a BIGINT that holds an amount of
memory, `jobState` a TEXT under the constraint jobs_state_valid; timestamps
count microseconds. -/
inductive ColumnType where
  | text | textArray | integer | bytes | double | boolean | jobState
  | timestamp | nullableTimestamp

def Column.type : Column → ColumnType
  | .id | .submissionID | .name | .owner | .image | .failureReason => .text
  | .command | .assignedWorkerIDs => .textArray
  | .gpuCount | .priority | .retryLimit | .currentAttempt => .integer
  | .timeoutSeconds | .checkpointIntervalSeconds => .integer
  | .minGPUMemoryBytes | .memoryBytes => .bytes
  | .cpuCores => .double
  | .preemptible => .boolean
  | .state => .jobState
  | .createdAt => .timestamp
  | .startedAt | .completedAt | .failedAt => .nullableTimestamp

def ColumnType.Carrier (Cpu Mem : Type) : ColumnType → Type
  | .text => String
  | .textArray => List String
  | .integer => Int
  | .bytes => Mem
  | .double => Cpu
  | .boolean => Bool
  | .jobState => State
  | .timestamp => Int
  | .nullableTimestamp => Option Int

/-- A value on the wire between the driver and the server. -/
inductive Value (Cpu Mem : Type) where
  | text (value : String)
  | textArray (value : List String)
  | integer (value : Int)
  | bytes (value : Mem)
  | double (value : Cpu)
  | boolean (value : Bool)
  | timestamp (micros : Int)
  | null

/-- Why a statement gave no row: a value the driver cannot bind to its
parameter, an error of the server with its SQLSTATE, or pgx.ErrNoRows. -/
inductive SqlError where
  | unencodable
  | server (sqlState : String)
  | noRows
  deriving DecidableEq

def uniqueViolation : SqlError := .server "23505"
def foreignKeyViolation : SqlError := .server "23503"
def checkViolation : SqlError := .server "23514"
def invalidByteSequence : SqlError := .server "22021"

/-- PostgreSQL stores every text but those with a NUL character. -/
def storableText (text : String) : Bool := text.toList.all fun char => char.toNat ≠ 0

def State.ofName (name : String) : Option State :=
  [.queued, .scheduled, .running, .checkpointing, .succeeded, .failed, .retrying,
    .cancelRequested, .cancelled, .preempted, .lost].find? fun state => state.name = name

variable {Cpu Mem : Type}

def ColumnType.accept : (type : ColumnType) → Value Cpu Mem → Except SqlError (type.Carrier Cpu Mem)
  | .text, .text value =>
      if storableText value then .ok value else .error invalidByteSequence
  | .textArray, .textArray value =>
      if value.all storableText then .ok value else .error invalidByteSequence
  | .integer, .integer value => .ok value
  | .bytes, .bytes value => .ok value
  | .double, .double value => .ok value
  | .boolean, .boolean value => .ok value
  | .jobState, .text value =>
      match State.ofName value with
      | some state => .ok state
      | none => .error checkViolation
  | .timestamp, .timestamp micros => .ok micros
  | .nullableTimestamp, .timestamp micros => .ok (some micros)
  | .nullableTimestamp, .null => .ok none
  | _, _ => .error .unencodable

def ColumnType.send : (type : ColumnType) → type.Carrier Cpu Mem → Value Cpu Mem
  | .text, value => .text value
  | .textArray, value => .textArray value
  | .integer, value => .integer value
  | .bytes, value => .bytes value
  | .double, value => .double value
  | .boolean, value => .boolean value
  | .jobState, state => .text (State.name state)
  | .timestamp, micros => .timestamp micros
  | .nullableTimestamp, some micros => .timestamp micros
  | .nullableTimestamp, none => .null

abbrev Cell (Cpu Mem : Type) (column : Column) : Type := column.type.Carrier Cpu Mem

def Row (Cpu Mem : Type) : Type := (column : Column) → Cell Cpu Mem column

def Row.id (row : Row Cpu Mem) : String := row .id
def Row.submissionID (row : Row Cpu Mem) : String := row .submissionID
def Row.state (row : Row Cpu Mem) : State := row .state
def Row.priority (row : Row Cpu Mem) : Int := row .priority
def Row.createdAt (row : Row Cpu Mem) : Int := row .createdAt

/-- The collation of the text columns. It is deterministic: no two texts sort alike. -/
structure Collation (SortKey : Type) where
  sortKey : String → SortKey
  deterministic : Function.Injective sortKey

/-- The collation "C". Comparing the bytes of UTF-8 texts compares their characters. -/
def Collation.bytewise : Collation String := ⟨id, Function.injective_id⟩

section Order
variable {SortKey : Type} (collation : Collation SortKey)

/-- `ORDER BY created_at, id`. -/
def listKey (row : Row Cpu Mem) : Int ×ₗ SortKey :=
  toLex (row.createdAt, collation.sortKey row.id)

/-- `ORDER BY priority DESC, created_at ASC, id ASC`. -/
def activeKey (row : Row Cpu Mem) : Intᵒᵈ ×ₗ Int ×ₗ SortKey :=
  toLex (OrderDual.toDual row.priority, listKey collation row)

end Order

def jobColumnList : List Column :=
  [.id, .submissionID, .name, .owner, .image, .command,
    .gpuCount, .minGPUMemoryBytes, .cpuCores, .memoryBytes,
    .priority, .preemptible, .retryLimit, .currentAttempt,
    .timeoutSeconds, .checkpointIntervalSeconds,
    .state, .assignedWorkerIDs, .failureReason,
    .createdAt, .startedAt, .completedAt, .failedAt]

theorem mem_jobColumnList (column : Column) : column ∈ jobColumnList := by
  cases column <;> decide

/-- `INSERT INTO jobs (jobColumnList) VALUES ($1,...,$23)`. -/
def insertParameters : List (Column × Nat) :=
  jobColumnList.zip [1, 2, 3, 4, 5, 6, 7, 8, 9, 10, 11, 12, 13, 14, 15, 16, 17, 18, 19, 20, 21, 22, 23]

/-- The SET list of updateJobSQL. `$1` is the ID of the WHERE clause, and
submission_id is not set. -/
def updateParameters : List (Column × Nat) :=
  [(.name, 2), (.owner, 3), (.image, 4), (.command, 5),
    (.gpuCount, 6), (.minGPUMemoryBytes, 7), (.cpuCores, 8), (.memoryBytes, 9),
    (.priority, 10), (.preemptible, 11), (.retryLimit, 12), (.currentAttempt, 13),
    (.timeoutSeconds, 14), (.checkpointIntervalSeconds, 15),
    (.state, 16), (.assignedWorkerIDs, 17), (.failureReason, 18),
    (.createdAt, 19), (.startedAt, 20), (.completedAt, 21), (.failedAt, 22)]

/-- The argument of parameter `$number`, as a value of the column. -/
def bindArgument (args : List (Value Cpu Mem)) (column : Column) (number : Nat) :
    Except SqlError (Cell Cpu Mem column) :=
  match args[number - 1]? with
  | some value => column.type.accept value
  | none => .error .unencodable

def insertCell (args : List (Value Cpu Mem)) (column : Column) : Except SqlError (Cell Cpu Mem column) :=
  match insertParameters.lookup column with
  | some number => bindArgument args column number
  | none => .error .unencodable

def updateCell (row : Row Cpu Mem) (args : List (Value Cpu Mem)) (column : Column) :
    Except SqlError (Cell Cpu Mem column) :=
  match updateParameters.lookup column with
  | some number => bindArgument args column number
  | none => .ok (row column)

/-- The row whose cells are all there, or the error of its first bad cell. -/
def assemble (cells : (column : Column) → Except SqlError (Cell Cpu Mem column)) :
    Except SqlError (Row Cpu Mem) :=
  if complete : ∀ column ∈ jobColumnList, (cells column).toOption.isSome then
    .ok fun column => (cells column).toOption.get (complete column (mem_jobColumnList column))
  else
    .error ((jobColumnList.findSome? fun column =>
      match cells column with
      | .error problem => some problem
      | .ok _ => none).getD .unencodable)

def select (row : Row Cpu Mem) : List (Value Cpu Mem) :=
  jobColumnList.map fun column => column.type.send (row column)

theorem assemble_ok_iff {cells : (column : Column) → Except SqlError (Cell Cpu Mem column)}
    {row : Row Cpu Mem} :
    assemble cells = .ok row ↔ ∀ column, cells column = .ok (row column) := by
  have general : assemble cells = Rows.assemble jobColumnList mem_jobColumnList cells _ := rfl
  rw [general]
  exact Rows.assemble_ok_iff mem_jobColumnList

theorem mem_updateParameters (column : Column) :
    column ∈ updateParameters.map Prod.fst ↔ ¬ (column = .id ∨ column = .submissionID) := by
  cases column <;> decide

/-- The row with the cells of the SET list taken from `values`. -/
def setColumns (row values : Row Cpu Mem) : Row Cpu Mem := fun column =>
  if column ∈ updateParameters.map Prod.fst then values column else row column

inductive EventType where
  | submitted | stateChanged
  deriving DecidableEq

structure JobEvent where
  jobID : String
  eventType : EventType
  fromState : Option State
  toState : State
  detail : String
  deriving DecidableEq

structure Database (Cpu Mem : Type) where
  jobs : List (Row Cpu Mem)
  -- In the order of the commits. The BIGSERIAL id, which is taken at the INSERT, is left out.
  events : List JobEvent
  primaryKey : (jobs.map Row.id).Nodup
  submissionUnique : ((jobs.map Row.submissionID).filter fun text => text ≠ "").Nodup
  references : ∀ event ∈ events, event.jobID ∈ jobs.map Row.id

namespace Database

def empty : Database Cpu Mem where
  jobs := []
  events := []
  primaryKey := List.nodup_nil
  submissionUnique := List.nodup_nil
  references := by simp

def find (db : Database Cpu Mem) (id : String) : Option (Row Cpu Mem) :=
  db.jobs.find? fun row => row.id = id

def findSubmission (db : Database Cpu Mem) (submissionID : String) : Option (Row Cpu Mem) :=
  db.jobs.find? fun row => row.submissionID = submissionID

def Conflicts (db : Database Cpu Mem) (row : Row Cpu Mem) : Prop :=
  row.submissionID ≠ "" ∧ row.submissionID ∈ db.jobs.map Row.submissionID

instance (db : Database Cpu Mem) (row : Row Cpu Mem) : Decidable (db.Conflicts row) :=
  inferInstanceAs (Decidable (_ ∧ _))

def append (db : Database Cpu Mem) (row : Row Cpu Mem) (unused : row.id ∉ db.jobs.map Row.id)
    (distinct : ¬ db.Conflicts row) : Database Cpu Mem where
  jobs := db.jobs ++ [row]
  events := db.events
  primaryKey := by
    rw [List.map_append, List.nodup_append]
    refine ⟨db.primaryKey, by simp, ?_⟩
    rintro id known _ isRow rfl
    obtain rfl : id = row.id := by simpa using isRow
    exact unused known
  submissionUnique := by
    rw [List.map_append, List.filter_append, List.nodup_append]
    refine ⟨db.submissionUnique, (List.nodup_singleton _).filter _, ?_⟩
    rintro text known _ isRow rfl
    obtain ⟨rfl, named⟩ : text = row.submissionID ∧ text ≠ "" := by simpa using isRow
    exact distinct ⟨named, (List.mem_filter.mp known).1⟩
  references event member := by
    rw [List.map_append]
    exact List.mem_append_left _ (db.references event member)

theorem find_id {db : Database Cpu Mem} {id : String} {row : Row Cpu Mem}
    (found : db.find id = some row) : row.id = id := by
  simpa using List.find?_some found

theorem find_iff {db : Database Cpu Mem} {id : String} {row : Row Cpu Mem} :
    db.find id = some row ↔ row ∈ db.jobs ∧ row.id = id :=
  Rows.find_iff db.primaryKey

theorem find_none_iff {db : Database Cpu Mem} {id : String} :
    db.find id = none ↔ id ∉ db.jobs.map Row.id := by
  simp [find, List.find?_eq_none]

/-- `UPDATE jobs SET ... WHERE id` on one row. -/
def setRow (changed row : Row Cpu Mem) : Row Cpu Mem :=
  if row.id = changed.id then setColumns row changed else row

theorem setRow_id (changed row : Row Cpu Mem) : (setRow changed row).id = row.id := by
  unfold setRow
  split <;> rfl

theorem setRow_submissionID (changed row : Row Cpu Mem) :
    (setRow changed row).submissionID = row.submissionID := by
  unfold setRow
  split <;> rfl

theorem setRow_ids (changed : Row Cpu Mem) (rows : List (Row Cpu Mem)) :
    (rows.map (setRow changed)).map Row.id = rows.map Row.id := by
  rw [List.map_map]
  exact List.map_congr_left fun row _ => setRow_id changed row

theorem setRow_submissionIDs (changed : Row Cpu Mem) (rows : List (Row Cpu Mem)) :
    (rows.map (setRow changed)).map Row.submissionID = rows.map Row.submissionID := by
  rw [List.map_map]
  exact List.map_congr_left fun row _ => setRow_submissionID changed row

def replace (db : Database Cpu Mem) (changed : Row Cpu Mem) : Database Cpu Mem where
  jobs := db.jobs.map (setRow changed)
  events := db.events
  primaryKey := by
    rw [setRow_ids]
    exact db.primaryKey
  submissionUnique := by
    rw [setRow_submissionIDs]
    exact db.submissionUnique
  references event member := by
    rw [setRow_ids]
    exact db.references event member

/-- insertJobSQL. The conflict with the submission index comes first: it is the
arbiter of ON CONFLICT, checked before the row is inserted. -/
def insertJob (db : Database Cpu Mem) (args : List (Value Cpu Mem)) :
    Except SqlError (List (Value Cpu Mem)) × Database Cpu Mem :=
  match assemble (insertCell args) with
  | .error problem => (.error problem, db)
  | .ok row =>
      if distinct : db.Conflicts row then (.error .noRows, db)
      else if unused : row.id ∈ db.jobs.map Row.id then (.error uniqueViolation, db)
      else (.ok (select row), db.append row unused distinct)

def selectJobByID (db : Database Cpu Mem) (id : String) : Except SqlError (List (Value Cpu Mem)) :=
  if storableText id then
    match db.find id with
    | some row => .ok (select row)
    | none => .error .noRows
  else .error invalidByteSequence

def selectJobBySubmissionID (db : Database Cpu Mem) (submissionID : String) :
    Except SqlError (List (Value Cpu Mem)) :=
  if storableText submissionID then
    match db.findSubmission submissionID with
    | some row => .ok (select row)
    | none => .error .noRows
  else .error invalidByteSequence

/-- selectActiveJobsSQL. -/
def selectActiveJobs {SortKey : Type} [LinearOrder SortKey] (collation : Collation SortKey)
    (db : Database Cpu Mem) : List (List (Value Cpu Mem)) :=
  (Keyset.sortBy (activeKey collation) (db.jobs.filter fun row =>
    row.state ∉ [.succeeded, .failed, .cancelled])).map select

/-- updateJobSQL, whose WHERE clause compares the ID with `$1`. -/
def updateJob (db : Database Cpu Mem) (args : List (Value Cpu Mem)) :
    Except SqlError (List (Value Cpu Mem)) × Database Cpu Mem :=
  match bindArgument args .id 1 with
  | .error problem => (.error problem, db)
  | .ok id =>
      match db.find id with
      | none => (.error .noRows, db)
      | some row =>
          match assemble (updateCell row args) with
          | .error problem => (.error problem, db)
          | .ok changed => (.ok (select changed), db.replace changed)

def record (db : Database Cpu Mem) (event : JobEvent) (known : event.jobID ∈ db.jobs.map Row.id) :
    Database Cpu Mem :=
  { db with
    events := db.events ++ [event]
    references := by
      intro other member
      rcases List.mem_append.mp member with earlier | isNew
      · exact db.references other earlier
      · obtain rfl : other = event := by simpa using isNew
        exact known }

def insertEvent (db : Database Cpu Mem) (event : JobEvent) :
    Except SqlError Unit × Database Cpu Mem :=
  if known : event.jobID ∈ db.jobs.map Row.id then (.ok (), db.record event known)
  else (.error foreignKeyViolation, db)

theorem insertEvent_known {db : Database Cpu Mem} {event : JobEvent}
    (known : event.jobID ∈ db.jobs.map Row.id) : db.insertEvent event = (.ok (), db.record event known) :=
  dif_pos known

theorem find_append {db : Database Cpu Mem} {row : Row Cpu Mem}
    (unused : row.id ∉ db.jobs.map Row.id) (distinct : ¬ db.Conflicts row) (id : String) :
    (db.append row unused distinct).find id = if id = row.id then some row else db.find id := by
  unfold find append
  rw [List.find?_append]
  by_cases own : id = row.id
  · subst own
    have absent : db.find row.id = none := find_none_iff.mpr unused
    simp only [find] at absent
    simp [absent]
  · simp [own, Ne.symm own]

theorem find_replace {db : Database Cpu Mem} {row changed : Row Cpu Mem}
    (found : db.find changed.id = some row) (set : setColumns row changed = changed) (id : String) :
    (db.replace changed).find id = if id = changed.id then some changed else db.find id := by
  by_cases own : id = changed.id
  · subst own
    rw [if_pos rfl, find_iff]
    have isSet : setRow changed row = changed := by rw [setRow, if_pos (find_id found), set]
    exact ⟨List.mem_map.mpr ⟨row, (find_iff.mp found).1, isSet⟩, rfl⟩
  · rw [if_neg own]
    -- Rows with another ID are where they were.
    apply Option.ext
    intro other
    rw [find_iff, find_iff]
    constructor
    · rintro ⟨member, rfl⟩
      obtain ⟨origin, stored, rfl⟩ := List.mem_map.mp member
      rw [setRow_id] at own
      have same : setRow changed origin = origin := if_neg own
      rw [same]
      exact ⟨stored, rfl⟩
    · rintro ⟨member, rfl⟩
      exact ⟨List.mem_map.mpr ⟨other, member, if_neg own⟩, rfl⟩

end Database

end OrionQueue.JobTable
