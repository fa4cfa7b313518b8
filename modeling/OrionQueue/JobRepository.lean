import OrionQueue.JobTable
import OrionQueue.PageTokens

/-!
`persistence.JobRepository` on the tables of `JobTable`. Each method is one
transaction, here one function from the database before it to its answer and the
database after it: a failed transaction is rolled back, and the row lock of
Update keeps other updates of the job out in between.
-/

namespace OrionQueue.JobRepository

open Jobs JobTable Database

variable {Cpu Mem : Type}

/-- What the methods of a job repository fail with: an error of the jobs
package, a statement's error or a row that does not scan under the words it is
wrapped in, "unexpected insert conflict with an empty submission_id", or
"invalid page_token". -/
inductive RepositoryError where
  | job (problem : JobError)
  | statement (context : String) (cause : SqlError)
  | scan (context : String)
  | emptyConflict
  | pageToken (problem : PageTokens.TokenError)
  deriving DecidableEq

/-- int32(x) of a uint32. -/
def int32 (count : Nat) : Int := Int.bmod count (2 ^ 32)

/-- uint32(x) of an int32. -/
def uint32 (count : Int) : Nat := (count % 2 ^ 32).toNat

/-- The driver cuts an instant to whole microseconds. -/
def micros (time : Time) : Int := time / 1000

def ofMicros (count : Int) : Time := count * 1000

def timeValue (time : Time) : Value Cpu Mem := .timestamp (micros time)

def nullableTimeValue : Option Time → Value Cpu Mem
  | some time => timeValue time
  | none => .null

def jobInsertArgs (job : Job Cpu Mem) : List (Value Cpu Mem) :=
  [.text job.id, .text job.submissionID, .text job.name, .text job.owner, .text job.image,
    .textArray job.command,
    .integer (int32 job.resources.gpuCount), .bytes job.resources.minGPUMemoryBytes,
    .double job.resources.cpuCores, .bytes job.resources.memoryBytes,
    .integer job.priority, .boolean job.preemptible, .integer job.retryLimit,
    .integer job.currentAttempt,
    .integer job.timeoutSeconds, .integer job.checkpointIntervalSeconds,
    .text job.state.name, .textArray job.assignedWorkerIDs, .text job.failureReason,
    timeValue job.createdAt, nullableTimeValue job.startedAt,
    nullableTimeValue job.completedAt, nullableTimeValue job.failedAt]

def jobUpdateArgs (job : Job Cpu Mem) : List (Value Cpu Mem) :=
  [.text job.id, .text job.name, .text job.owner, .text job.image,
    .textArray job.command,
    .integer (int32 job.resources.gpuCount), .bytes job.resources.minGPUMemoryBytes,
    .double job.resources.cpuCores, .bytes job.resources.memoryBytes,
    .integer job.priority, .boolean job.preemptible, .integer job.retryLimit,
    .integer job.currentAttempt,
    .integer job.timeoutSeconds, .integer job.checkpointIntervalSeconds,
    .text job.state.name, .textArray job.assignedWorkerIDs, .text job.failureReason,
    timeValue job.createdAt, nullableTimeValue job.startedAt,
    nullableTimeValue job.completedAt, nullableTimeValue job.failedAt]

section Scan

def scanText : Value Cpu Mem → Option String
  | .text value => some value
  | _ => none

def scanTexts : Value Cpu Mem → Option (List String)
  | .textArray value => some value
  | _ => none

def scanInteger : Value Cpu Mem → Option Int
  | .integer value => some value
  | _ => none

def scanBytes : Value Cpu Mem → Option Mem
  | .bytes value => some value
  | _ => none

def scanDouble : Value Cpu Mem → Option Cpu
  | .double value => some value
  | _ => none

def scanBoolean : Value Cpu Mem → Option Bool
  | .boolean value => some value
  | _ => none

def scanTime : Value Cpu Mem → Option Time
  | .timestamp count => some (ofMicros count)
  | _ => none

def scanNullableTime : Value Cpu Mem → Option (Option Time)
  | .null => some none
  | value => (scanTime value).map some

end Scan

def scanJob : List (Value Cpu Mem) → Option (Job Cpu Mem)
  | [id, submissionID, name, owner, image, command,
      gpuCount, minGPUMemoryBytes, cpuCores, memoryBytes,
      priority, preemptible, retryLimit, currentAttempt,
      timeoutSeconds, checkpointIntervalSeconds,
      state, assignedWorkerIDs, failureReason,
      createdAt, startedAt, completedAt, failedAt] => do
      return {
        id := ← scanText id
        submissionID := ← scanText submissionID
        name := ← scanText name
        owner := ← scanText owner
        image := ← scanText image
        command := ← scanTexts command
        resources := {
          gpuCount := uint32 (← scanInteger gpuCount)
          minGPUMemoryBytes := ← scanBytes minGPUMemoryBytes
          cpuCores := ← scanDouble cpuCores
          memoryBytes := ← scanBytes memoryBytes }
        priority := ← scanInteger priority
        preemptible := ← scanBoolean preemptible
        retryLimit := ← scanInteger retryLimit
        currentAttempt := ← scanInteger currentAttempt
        timeoutSeconds := ← scanInteger timeoutSeconds
        checkpointIntervalSeconds := ← scanInteger checkpointIntervalSeconds
        state := ← (scanText state).bind State.ofName
        assignedWorkerIDs := ← scanTexts assignedWorkerIDs
        failureReason := ← scanText failureReason
        createdAt := ← scanTime createdAt
        startedAt := ← scanNullableTime startedAt
        completedAt := ← scanNullableTime completedAt
        failedAt := ← scanNullableTime failedAt }
  | _ => none

/-- A row that a statement returned, scanned. -/
def scanned (context : String) (answer : Except SqlError (List (Value Cpu Mem))) :
    Except RepositoryError (Job Cpu Mem) :=
  match answer with
  | .error cause => .error (.statement context cause)
  | .ok values =>
      match scanJob values with
      | some job => .ok job
      | none => .error (.scan context)

/-- As `scanned`, with pgx.ErrNoRows translated to jobs.ErrNotFound. -/
def scannedOrNotFound (context : String) (answer : Except SqlError (List (Value Cpu Mem))) :
    Except RepositoryError (Job Cpu Mem) :=
  match answer with
  | .error .noRows => .error (.job .notFound)
  | answer => scanned context answer

def get (db : Database Cpu Mem) (id : String) : Except RepositoryError (Job Cpu Mem) :=
  scannedOrNotFound "persistence: get job" (db.selectJobByID id)

def getBySubmissionID (db : Database Cpu Mem) (submissionID : String) :
    Except RepositoryError (Job Cpu Mem) :=
  scannedOrNotFound "persistence: get job by submission_id" (db.selectJobBySubmissionID submissionID)

def create (db : Database Cpu Mem) (job : Job Cpu Mem) :
    Except RepositoryError (Job Cpu Mem × Bool) × Database Cpu Mem :=
  match db.insertJob (jobInsertArgs job) with
  | (.error .noRows, _) =>
      if job.submissionID = "" then (.error .emptyConflict, db)
      else
        match getBySubmissionID db job.submissionID with
        | .error problem => (.error problem, db)
        | .ok existing => (.ok (existing, false), db)
  | (answer, inserted) =>
      match scanned "persistence: insert job" answer with
      | .error problem => (.error problem, db)
      | .ok created =>
          match inserted.insertEvent ⟨created.id, .submitted, none, created.state, ""⟩ with
          | (.error cause, _) => (.error (.statement "persistence: insert job event" cause), db)
          | (.ok (), recorded) => (.ok (created, true), recorded)

def update (db : Database Cpu Mem) (id : String)
    (fn : Job Cpu Mem → Except JobError (Job Cpu Mem)) :
    Except RepositoryError (Job Cpu Mem) × Database Cpu Mem :=
  match scannedOrNotFound "persistence: select job for update" (db.selectJobByID id) with
  | .error problem => (.error problem, db)
  | .ok current =>
      match fn current with
      | .error problem => (.error (.job problem), db)
      | .ok updated =>
          match db.updateJob (jobUpdateArgs updated) with
          | (answer, written) =>
              match scanned "persistence: update job" answer with
              | .error problem => (.error problem, db)
              | .ok stored =>
                  if current.state ≠ stored.state then
                    match written.insertEvent
                        ⟨stored.id, .stateChanged, some current.state, stored.state, ""⟩ with
                    | (.error cause, _) =>
                        (.error (.statement "persistence: insert job event" cause), db)
                    | (.ok (), recorded) => (.ok stored, recorded)
                  else (.ok stored, written)

/-- The loop over the rows of a query. -/
def scanRows (context : String) (rows : List (List (Value Cpu Mem))) :
    Except RepositoryError (List (Job Cpu Mem)) :=
  rows.mapM fun values => scanned context (.ok values)

def listActive {SortKey : Type} [LinearOrder SortKey] (collation : Collation SortKey)
    (db : Database Cpu Mem) : Except RepositoryError (List (Job Cpu Mem)) :=
  scanRows "persistence: scan active job" (db.selectActiveJobs collation)

/-- The job a row stands for. -/
def jobOf (row : Row Cpu Mem) : Job Cpu Mem where
  id := row .id
  submissionID := row .submissionID
  name := row .name
  owner := row .owner
  image := row .image
  command := row .command
  resources :=
    { gpuCount := uint32 (row .gpuCount)
      minGPUMemoryBytes := row .minGPUMemoryBytes
      cpuCores := row .cpuCores
      memoryBytes := row .memoryBytes }
  priority := row .priority
  preemptible := row .preemptible
  retryLimit := row .retryLimit
  currentAttempt := row .currentAttempt
  timeoutSeconds := row .timeoutSeconds
  checkpointIntervalSeconds := row .checkpointIntervalSeconds
  state := row .state
  assignedWorkerIDs := row .assignedWorkerIDs
  failureReason := row .failureReason
  createdAt := ofMicros (row .createdAt)
  startedAt := (row .startedAt).map ofMicros
  completedAt := (row .completedAt).map ofMicros
  failedAt := (row .failedAt).map ofMicros

/-- The row a job is stored as. -/
def rowOf (job : Job Cpu Mem) : Row Cpu Mem
  | .id => job.id
  | .submissionID => job.submissionID
  | .name => job.name
  | .owner => job.owner
  | .image => job.image
  | .command => job.command
  | .gpuCount => int32 job.resources.gpuCount
  | .minGPUMemoryBytes => job.resources.minGPUMemoryBytes
  | .cpuCores => job.resources.cpuCores
  | .memoryBytes => job.resources.memoryBytes
  | .priority => job.priority
  | .preemptible => job.preemptible
  | .retryLimit => job.retryLimit
  | .currentAttempt => job.currentAttempt
  | .timeoutSeconds => job.timeoutSeconds
  | .checkpointIntervalSeconds => job.checkpointIntervalSeconds
  | .state => job.state
  | .assignedWorkerIDs => job.assignedWorkerIDs
  | .failureReason => job.failureReason
  | .createdAt => micros job.createdAt
  | .startedAt => job.startedAt.map micros
  | .completedAt => job.completedAt.map micros
  | .failedAt => job.failedAt.map micros

section Accessors
variable (row : Row Cpu Mem) (job : Job Cpu Mem)

@[simp] theorem jobOf_id : (jobOf row).id = row.id := rfl
@[simp] theorem jobOf_submissionID : (jobOf row).submissionID = row.submissionID := rfl
@[simp] theorem jobOf_state : (jobOf row).state = row.state := rfl
@[simp] theorem jobOf_createdAt : (jobOf row).createdAt = ofMicros row.createdAt := rfl
@[simp] theorem rowOf_id : (rowOf job).id = job.id := rfl
@[simp] theorem rowOf_submissionID : (rowOf job).submissionID = job.submissionID := rfl
@[simp] theorem rowOf_state : (rowOf job).state = job.state := rfl

end Accessors

theorem ofName_name (state : State) : State.ofName state.name = some state := by
  cases state <;> rfl

theorem scanNullableTime_send (value : Option Int) :
    scanNullableTime (ColumnType.nullableTimestamp.send value : Value Cpu Mem) =
      some (value.map ofMicros) := by
  cases value <;> rfl

/-- The column order of SELECT and of Scan agree: nothing is lost or swapped. -/
theorem scanJob_select (row : Row Cpu Mem) : scanJob (select row) = some (jobOf row) := by
  -- All cells but these four scan by computation.
  have unfolded : scanJob (select row) =
      ((State.ofName row.state.name).bind fun state =>
        (scanNullableTime (ColumnType.nullableTimestamp.send (row .startedAt) : Value Cpu Mem)).bind
          fun startedAt =>
        (scanNullableTime (ColumnType.nullableTimestamp.send (row .completedAt) : Value Cpu Mem)).bind
          fun completedAt =>
        (scanNullableTime (ColumnType.nullableTimestamp.send (row .failedAt) : Value Cpu Mem)).bind
          fun failedAt =>
        some { jobOf row with
          state := state, startedAt := startedAt, completedAt := completedAt, failedAt := failedAt }) :=
    rfl
  rw [unfolded, ofName_name row.state, scanNullableTime_send (row .startedAt),
    scanNullableTime_send (row .completedAt), scanNullableTime_send (row .failedAt)]
  rfl

def storableCell : (type : ColumnType) → type.Carrier Cpu Mem → Bool
  | .text, value => storableText value
  | .textArray, value => List.all value storableText
  | _, _ => true

/-- The text columns of the row hold only texts that PostgreSQL stores. -/
def storableRow (row : Row Cpu Mem) : Prop := ∀ column : Column, storableCell column.type (row column)

/-- What becomes of a cell that is sent to the server. -/
def received (type : ColumnType) (value : type.Carrier Cpu Mem) :
    Except SqlError (type.Carrier Cpu Mem) :=
  if storableCell type value then .ok value else .error invalidByteSequence

theorem received_jobState (state : State) :
    ColumnType.jobState.accept (.text state.name : Value Cpu Mem) =
      received .jobState state := by
  rw [ColumnType.accept, ofName_name]
  rfl

theorem received_nullable (time : Option Time) :
    ColumnType.nullableTimestamp.accept (nullableTimeValue time : Value Cpu Mem) =
      received .nullableTimestamp (time.map micros) := by
  cases time <;> rfl

/-- The argument list of INSERT has every column under its own number. -/
theorem insertCell_args (job : Job Cpu Mem) (column : Column) :
    insertCell (jobInsertArgs job) column = received column.type (rowOf job column) := by
  cases column with
  | state => exact received_jobState job.state
  | startedAt => exact received_nullable job.startedAt
  | completedAt => exact received_nullable job.completedAt
  | failedAt => exact received_nullable job.failedAt
  | _ => rfl

/-- So has that of UPDATE, which leaves the ID and the submission ID alone. -/
theorem updateCell_args (row : Row Cpu Mem) (job : Job Cpu Mem) (column : Column) :
    updateCell row (jobUpdateArgs job) column =
      if column = .id ∨ column = .submissionID then .ok (row column)
      else received column.type (rowOf job column) := by
  cases column with
  | state => exact received_jobState job.state
  | startedAt => exact received_nullable job.startedAt
  | completedAt => exact received_nullable job.completedAt
  | failedAt => exact received_nullable job.failedAt
  | _ => rfl

theorem received_ok {type : ColumnType} {value answer : type.Carrier Cpu Mem}
    (answered : received type value = .ok answer) : answer = value := by
  unfold received at answered
  split at answered
  · exact (Except.ok.inj answered).symm
  · cases answered

theorem inserted_row {job : Job Cpu Mem} {row : Row Cpu Mem}
    (built : assemble (insertCell (jobInsertArgs job)) = .ok row) : row = rowOf job := by
  funext column
  have cell := assemble_ok_iff.mp built column
  rw [insertCell_args] at cell
  exact received_ok cell

theorem insert_builds {job : Job Cpu Mem} (storable : storableRow (rowOf job)) :
    assemble (insertCell (jobInsertArgs job)) = .ok (rowOf job) := by
  refine assemble_ok_iff.mpr fun column => ?_
  rw [insertCell_args, received, if_pos (storable column)]

/-- The row that UPDATE makes of `row` when it writes `job`. -/
def rewritten (row : Row Cpu Mem) (job : Job Cpu Mem) : Row Cpu Mem :=
  rowOf { job with id := row.id, submissionID := row.submissionID }

theorem rewritten_id (row : Row Cpu Mem) (job : Job Cpu Mem) : (rewritten row job).id = row.id := rfl

theorem rewritten_state (row : Row Cpu Mem) (job : Job Cpu Mem) :
    (rewritten row job).state = job.state := rfl

theorem rewritten_cell (row : Row Cpu Mem) (job : Job Cpu Mem) (column : Column) :
    rewritten row job column =
      if column = .id ∨ column = .submissionID then row column else rowOf job column := by
  cases column with
  | id => exact (if_pos (Or.inl rfl)).symm
  | submissionID => exact (if_pos (Or.inr rfl)).symm
  | _ => exact (if_neg (by decide)).symm

theorem updated_row {row changed : Row Cpu Mem} {job : Job Cpu Mem}
    (built : assemble (updateCell row (jobUpdateArgs job)) = .ok changed) :
    changed = rewritten row job := by
  funext column
  have cell := assemble_ok_iff.mp built column
  rw [updateCell_args] at cell
  rw [rewritten_cell]
  split at cell
  case isTrue fixed => rw [if_pos fixed, Except.ok.inj cell]
  case isFalse free => rw [if_neg free, received_ok cell]

theorem update_builds {row : Row Cpu Mem} {job : Job Cpu Mem} (storable : storableRow (rowOf job)) :
    assemble (updateCell row (jobUpdateArgs job)) = .ok (rewritten row job) := by
  refine assemble_ok_iff.mpr fun column => ?_
  rw [updateCell_args, rewritten_cell]
  split
  · rfl
  · rw [received, if_pos (storable column)]

theorem scanned_select (context : String) (row : Row Cpu Mem) :
    scanned context (.ok (select row)) = .ok (jobOf row) := by
  simp only [scanned, scanJob_select]

theorem scanRows_select (context : String) (rows : List (Row Cpu Mem)) :
    scanRows context (rows.map select) = .ok (rows.map jobOf) := by
  induction rows with
  | nil => rfl
  | cons row rest ih =>
      unfold scanRows at ih ⊢
      rw [List.map_cons, List.mapM_cons, scanned_select, ih]
      rfl

theorem scanned_error (context : String) (cause : SqlError) :
    scanned context (.error cause : Except SqlError (List (Value Cpu Mem))) =
      .error (.statement context cause) := rfl

theorem selectJobByID_found {db : Database Cpu Mem} {id : String} {row : Row Cpu Mem}
    (storable : storableText id) (found : db.find id = some row) :
    db.selectJobByID id = .ok (select row) := by
  simp only [selectJobByID, storable, if_true, found]

theorem get_found {db : Database Cpu Mem} {id : String} {row : Row Cpu Mem}
    (storable : storableText id) (found : db.find id = some row) : get db id = .ok (jobOf row) := by
  rw [get, selectJobByID_found storable found]
  exact scanned_select _ row

theorem get_missing {db : Database Cpu Mem} {id : String} (storable : storableText id)
    (absent : db.find id = none) : get db id = .error (.job .notFound) := by
  simp only [get, selectJobByID, storable, if_true, absent, scannedOrNotFound]

def submittedEvent (job : Job Cpu Mem) : JobEvent := ⟨job.id, .submitted, none, job.state, ""⟩

theorem submitted_known {db : Database Cpu Mem} {job : Job Cpu Mem}
    (unused : (rowOf job).id ∉ db.jobs.map Row.id) (distinct : ¬ db.Conflicts (rowOf job)) :
    (submittedEvent job).jobID ∈ (db.append (rowOf job) unused distinct).jobs.map Row.id := by
  simp [append, submittedEvent]

/-- Create of a job with a new ID and a new submission ID. -/
theorem create_inserts {db : Database Cpu Mem} {job : Job Cpu Mem}
    (built : assemble (insertCell (jobInsertArgs job)) = .ok (rowOf job))
    (unused : (rowOf job).id ∉ db.jobs.map Row.id) (distinct : ¬ db.Conflicts (rowOf job)) :
    create db job = (.ok (jobOf (rowOf job), true),
      (db.append (rowOf job) unused distinct).record (submittedEvent job)
        (submitted_known unused distinct)) := by
  have inserted : db.insertJob (jobInsertArgs job) =
      (.ok (select (rowOf job)), db.append (rowOf job) unused distinct) := by
    simp only [insertJob, built]
    rw [dif_neg distinct, dif_neg unused]
  have event : (⟨(jobOf (rowOf job)).id, .submitted, none, (jobOf (rowOf job)).state, ""⟩ : JobEvent) =
      submittedEvent job := by
    rw [jobOf_id, jobOf_state, rowOf_id, rowOf_state, submittedEvent]
  simp only [create, inserted, scanned_select]
  rw [event, insertEvent_known (submitted_known unused distinct)]

/-- Create of a job whose submission ID is on record. -/
theorem create_conflict {db : Database Cpu Mem} {job : Job Cpu Mem} {row : Row Cpu Mem}
    (built : assemble (insertCell (jobInsertArgs job)) = .ok (rowOf job))
    (named : job.submissionID ≠ "") (storable : storableText job.submissionID)
    (found : db.findSubmission job.submissionID = some row) :
    create db job = (.ok (jobOf row, false), db) := by
  have conflict : db.Conflicts (rowOf job) := by
    refine ⟨named, List.mem_map.mpr ⟨row, List.mem_of_find?_eq_some found, ?_⟩⟩
    rw [rowOf_submissionID]
    simpa using List.find?_some found
  have refused : db.insertJob (jobInsertArgs job) = (.error .noRows, db) := by
    simp only [insertJob, built]
    rw [dif_pos conflict]
  have selected : getBySubmissionID db job.submissionID = .ok (jobOf row) := by
    simp only [getBySubmissionID, selectJobBySubmissionID, storable, if_true, found]
    exact scanned_select _ row
  simp only [create, refused, if_neg named, selected]

/-- All that Create can do: nothing, or add the row with its first event. -/
theorem create_cases (db : Database Cpu Mem) (job : Job Cpu Mem) :
    (create db job).2 = db ∧ (∀ stored, (create db job).1 ≠ .ok (stored, true)) ∨
      ∃ (unused : (rowOf job).id ∉ db.jobs.map Row.id) (distinct : ¬ db.Conflicts (rowOf job)),
        create db job = (.ok (jobOf (rowOf job), true),
          (db.append (rowOf job) unused distinct).record (submittedEvent job)
            (submitted_known unused distinct)) := by
  by_cases fits : ∃ row, assemble (insertCell (jobInsertArgs job)) = .ok row ∧
      ¬ db.Conflicts row ∧ row.id ∉ db.jobs.map Row.id
  · obtain ⟨row, built, distinct, unused⟩ := fits
    obtain rfl := inserted_row built
    exact Or.inr ⟨unused, distinct, create_inserts built unused distinct⟩
  · obtain ⟨cause, refused⟩ : ∃ cause, db.insertJob (jobInsertArgs job) = (.error cause, db) := by
      unfold insertJob
      split
      case h_1 cause _ => exact ⟨cause, rfl⟩
      case h_2 row built =>
        split
        case isTrue => exact ⟨_, rfl⟩
        case isFalse distinct =>
          split
          case isTrue => exact ⟨_, rfl⟩
          case isFalse unused => exact absurd ⟨row, built, distinct, unused⟩ fits
    left
    unfold create
    rw [refused]
    cases cause with
    | noRows =>
        by_cases anonymous : job.submissionID = ""
        · simp [anonymous]
        · cases getBySubmissionID db job.submissionID <;> simp [anonymous]
    | _ => simp [scanned]

theorem setColumns_rewritten (row : Row Cpu Mem) (job : Job Cpu Mem) :
    setColumns row (rewritten row job) = rewritten row job := by
  funext column
  rw [setColumns]
  split
  case isTrue => rfl
  case isFalse unset =>
    rw [mem_updateParameters, not_not] at unset
    rw [rewritten_cell, if_pos unset]

theorem updateJob_writes {db : Database Cpu Mem} {job : Job Cpu Mem} {row : Row Cpu Mem}
    (storable : storableRow (rowOf job)) (found : db.find job.id = some row) :
    db.updateJob (jobUpdateArgs job) =
      (.ok (select (rewritten row job)), db.replace (rewritten row job)) := by
  have named : bindArgument (jobUpdateArgs job) .id 1 = .ok job.id := if_pos (storable .id)
  simp only [updateJob, named, found, update_builds storable]

/-- The WHERE clause picks the row by the ID of the job that is written. -/
theorem updateJob_cases (db : Database Cpu Mem) (job : Job Cpu Mem) :
    (∃ cause, db.updateJob (jobUpdateArgs job) = (.error cause, db)) ∨
      ∃ row, db.find job.id = some row ∧ db.updateJob (jobUpdateArgs job) =
        (.ok (select (rewritten row job)), db.replace (rewritten row job)) := by
  unfold updateJob
  cases named : bindArgument (jobUpdateArgs job) .id 1 with
  | error cause => exact Or.inl ⟨cause, rfl⟩
  | ok id =>
      obtain rfl : id = job.id := received_ok (named : received .text job.id = .ok id)
      cases found : db.find job.id with
      | none => exact Or.inl ⟨.noRows, by simp only [found]⟩
      | some row =>
          cases built : assemble (updateCell row (jobUpdateArgs job)) with
          | error cause => exact Or.inl ⟨cause, by simp only [found, built]⟩
          | ok changed =>
              obtain rfl := updated_row built
              exact Or.inr ⟨row, rfl, by simp only [found, built]⟩

/-- The event of an update, if the state changed. -/
def changeEvent (before : State) (after : Job Cpu Mem) : List JobEvent :=
  if before = after.state then []
  else [⟨after.id, .stateChanged, some before, after.state, ""⟩]

theorem update_missing {db : Database Cpu Mem} {id : String} (storable : storableText id)
    (absent : db.find id = none) (fn : Job Cpu Mem → Except JobError (Job Cpu Mem)) :
    update db id fn = (.error (.job .notFound), db) := by
  simp only [update, selectJobByID, storable, if_true, absent, scannedOrNotFound]

theorem update_refused {db : Database Cpu Mem} {id : String} {row : Row Cpu Mem}
    (storable : storableText id) (found : db.find id = some row)
    {fn : Job Cpu Mem → Except JobError (Job Cpu Mem)} {problem : JobError}
    (refused : fn (jobOf row) = .error problem) : update db id fn = (.error (.job problem), db) := by
  simp only [update, selectJobByID_found storable found, scannedOrNotFound, scanned_select, refused]

/-- An Update whose UPDATE statement went through: the row that carries the ID
of the callback's result is rewritten, and the event starts from the state of
the row that was locked. -/
theorem update_written {db : Database Cpu Mem} {id : String} {row target : Row Cpu Mem}
    (storable : storableText id) (found : db.find id = some row)
    {fn : Job Cpu Mem → Except JobError (Job Cpu Mem)} {updated : Job Cpu Mem}
    (accepted : fn (jobOf row) = .ok updated) (aimed : db.find updated.id = some target)
    (written : db.updateJob (jobUpdateArgs updated) =
      (.ok (select (rewritten target updated)), db.replace (rewritten target updated))) :
    ∃ after : Database Cpu Mem, update db id fn = (.ok (jobOf (rewritten target updated)), after) ∧
      after.jobs = (db.replace (rewritten target updated)).jobs ∧
      after.events = db.events ++ changeEvent row.state updated := by
  have isTarget : (jobOf (rewritten target updated)).id = updated.id := by
    rw [jobOf_id, rewritten_id, find_id aimed]
  have known : updated.id ∈ (db.replace (rewritten target updated)).jobs.map Row.id := by
    rw [replace, setRow_ids]
    exact List.mem_map.mpr ⟨target, (find_iff.mp aimed).1, find_id aimed⟩
  simp only [update, selectJobByID_found storable found, scannedOrNotFound, scanned_select, accepted,
    written, jobOf_state, rewritten_state, isTarget]
  by_cases same : row.state = updated.state
  · rw [if_neg (not_not.mpr same), changeEvent, if_pos same]
    exact ⟨_, rfl, rfl, (List.append_nil _).symm⟩
  · have recorded : ∀ event : JobEvent, event.jobID = updated.id →
        ∃ after, (db.replace (rewritten target updated)).insertEvent event = (.ok (), after) ∧
          after.jobs = (db.replace (rewritten target updated)).jobs ∧
          after.events = db.events ++ [event] :=
      fun event isID => ⟨_, insertEvent_known (isID ▸ known), rfl, rfl⟩
    obtain ⟨after, isRecorded, jobs, events⟩ :=
      recorded ⟨updated.id, .stateChanged, some row.state, updated.state, ""⟩ rfl
    rw [if_pos same, changeEvent, if_neg same, isRecorded]
    exact ⟨after, rfl, jobs, events⟩

/-- All that Update can do. -/
theorem update_cases (db : Database Cpu Mem) (id : String)
    (fn : Job Cpu Mem → Except JobError (Job Cpu Mem)) :
    (∃ problem, update db id fn = (.error problem, db)) ∨
      ∃ row updated target after, db.find id = some row ∧ fn (jobOf row) = .ok updated ∧
        db.find updated.id = some target ∧
        update db id fn = (.ok (jobOf (rewritten target updated)), after) ∧
        after.jobs = (db.replace (rewritten target updated)).jobs ∧
        after.events = db.events ++ changeEvent row.state updated := by
  by_cases storable : storableText id
  · cases found : db.find id with
    | none => exact Or.inl ⟨_, update_missing storable found fn⟩
    | some row =>
        cases answer : fn (jobOf row) with
        | error problem => exact Or.inl ⟨_, update_refused storable found answer⟩
        | ok updated =>
            rcases updateJob_cases db updated with ⟨cause, refused⟩ | ⟨target, aimed, written⟩
            · left
              simp only [update, selectJobByID_found storable found, scannedOrNotFound,
                scanned_select, answer, refused, scanned_error]
              exact ⟨_, rfl⟩
            · obtain ⟨after, result, jobs, events⟩ :=
                update_written storable found answer aimed written
              exact Or.inr ⟨row, updated, target, after, rfl, answer, aimed, result, jobs, events⟩
  · left
    simp only [update, selectJobByID, storable, Bool.false_eq_true, if_false, scannedOrNotFound,
      invalidByteSequence, scanned_error]
    exact ⟨_, rfl⟩

theorem find_of_jobs {db db' : Database Cpu Mem} (same : db.jobs = db'.jobs) (id : String) :
    db.find id = db'.find id := by
  rw [find, find, same]

/-- Which rows an Update leaves behind. -/
theorem find_written {db after : Database Cpu Mem} {updated : Job Cpu Mem} {target : Row Cpu Mem}
    (aimed : db.find updated.id = some target)
    (jobs : after.jobs = (db.replace (rewritten target updated)).jobs) (id : String) :
    after.find id = if id = updated.id then some (rewritten target updated) else db.find id := by
  have isTarget : (rewritten target updated).id = updated.id :=
    (rewritten_id target updated).trans (find_id aimed)
  rw [find_of_jobs jobs, find_replace (isTarget ▸ aimed) (setColumns_rewritten target updated),
    isTarget]

/-- Which rows a Create that inserted leaves behind. -/
theorem find_created {db : Database Cpu Mem} {job : Job Cpu Mem}
    (unused : (rowOf job).id ∉ db.jobs.map Row.id) (distinct : ¬ db.Conflicts (rowOf job))
    (id : String) :
    ((db.append (rowOf job) unused distinct).record (submittedEvent job)
        (submitted_known unused distinct)).find id =
      if id = job.id then some (rowOf job) else db.find id :=
  find_append unused distinct id

/-- A Create or Update call. The transaction of either may be lost, whatever it
had written so far, and then leaves the database as it was. -/
inductive Call (Cpu Mem : Type) where
  | create (job : Job Cpu Mem) (aborted : Bool)
  | update (id : String) (fn : Job Cpu Mem → Except JobError (Job Cpu Mem)) (aborted : Bool)

def Call.apply (db : Database Cpu Mem) : Call Cpu Mem → Database Cpu Mem
  | .create job aborted => if aborted then db else (JobRepository.create db job).2
  | .update id fn aborted => if aborted then db else (JobRepository.update db id fn).2

def execute (db : Database Cpu Mem) (calls : List (Call Cpu Mem)) : Database Cpu Mem :=
  calls.foldl Call.apply db

end OrionQueue.JobRepository
