import OrionQueue.JobRepository
import OrionQueue.Sessions

/-!
The transactions of job_repository.go statement by statement, on any number of
connections at once. A statement reads the committed tables of its moment together
with what its own transaction has written; the row locks of SELECT ... FOR UPDATE
and UPDATE, and the keys of a row that is inserted but not yet committed, keep other
transactions waiting until COMMIT or ROLLBACK. What an open transaction has seen and
written stays what it would see and write on the committed tables of the moment,
whatever the transactions beside it commit.
-/

namespace OrionQueue.JobTransactions

open Jobs JobTable Database JobRepository

variable {Cpu Mem : Type}

inductive Request (Cpu Mem : Type) where
  | create (job : Job Cpu Mem)
  | update (id : String) (fn : Job Cpu Mem → Except JobError (Job Cpu Mem))

inductive Answer (Cpu Mem : Type) where
  | created (result : Except RepositoryError (Job Cpu Mem × Bool))
  | updated (result : Except RepositoryError (Job Cpu Mem))

/-- What the call answers when nothing comes between its statements. -/
def Request.answer (db : Database Cpu Mem) : Request Cpu Mem → Answer Cpu Mem
  | .create job => .created (JobRepository.create db job).1
  | .update id fn => .updated (JobRepository.update db id fn).1

def Request.call (aborted : Bool) : Request Cpu Mem → Call Cpu Mem
  | .create job => .create job aborted
  | .update id fn => .update id fn aborted

/-- A row version or an event that COMMIT will make visible. -/
inductive Write (Cpu Mem : Type) where
  | insert (row : Row Cpu Mem)
  | update (row : Row Cpu Mem)
  | event (event : JobEvent)

def Write.apply (db : Database Cpu Mem) : Write Cpu Mem → Database Cpu Mem
  | .insert row =>
      if unused : row.id ∈ db.jobs.map Row.id then db
      else if distinct : db.Conflicts row then db
      else db.append row unused distinct
  | .update row => db.replace row
  | .event logged => (db.insertEvent logged).2

def publish (db : Database Cpu Mem) (writes : List (Write Cpu Mem)) : Database Cpu Mem :=
  writes.foldl Write.apply db

/-- Where a method is between two of its statements. -/
inductive Stage (Cpu Mem : Type) where
  | begun
  | inserted (created : Job Cpu Mem)
  | conflicting
  | locked (current : Job Cpu Mem)
  | written (current stored : Job Cpu Mem)
  | recorded (answer : Answer Cpu Mem)

structure Transaction (Cpu Mem : Type) where
  request : Request Cpu Mem
  stage : Stage Cpu Mem
  writes : List (Write Cpu Mem)
  -- The IDs of the committed rows that the transaction has locked.
  locks : List String

inductive Outcome (Cpu Mem : Type) where
  | continues (tx : Transaction Cpu Mem)
  | ends (answer : Answer Cpu Mem)

/-- The version of a row that a statement left behind. -/
def version (kind : Row Cpu Mem → Write Cpu Mem) (after : Database Cpu Mem) (id : String) :
    List (Write Cpu Mem) :=
  ((after.find id).map kind).toList

/-- INSERT INTO job_events, the last statement of either method. -/
def recordEvent (db : Database Cpu Mem) (tx : Transaction Cpu Mem) (event : JobEvent)
    (failed : RepositoryError → Answer Cpu Mem) (answer : Answer Cpu Mem) : Outcome Cpu Mem :=
  match (publish db tx.writes).insertEvent event with
  | (.error cause, _) => .ends (failed (.statement "persistence: insert job event" cause))
  | (.ok (), _) =>
      .continues { tx with stage := .recorded answer, writes := tx.writes ++ [.event event] }

/-- The method up to the answer of its next statement, when `db` is committed. -/
def statement (db : Database Cpu Mem) (tx : Transaction Cpu Mem) : Option (Outcome Cpu Mem) :=
  match tx.request, tx.stage with
  | .create job, .begun =>
      match (publish db tx.writes).insertJob (jobInsertArgs job) with
      | (.error .noRows, _) =>
          if job.submissionID = "" then some (.ends (.created (.error .emptyConflict)))
          else some (.continues { tx with stage := .conflicting })
      | (answer, after) =>
          match scanned "persistence: insert job" answer with
          | .error problem => some (.ends (.created (.error problem)))
          | .ok created =>
              some (.continues
                { tx with
                  stage := .inserted created
                  writes := tx.writes ++ version .insert after created.id })
  | .create job, .conflicting =>
      -- This statement runs on the pool, not in the transaction.
      match getBySubmissionID db job.submissionID with
      | .error problem => some (.ends (.created (.error problem)))
      | .ok existing => some (.ends (.created (.ok (existing, false))))
  | .create _, .inserted created =>
      some (recordEvent db tx ⟨created.id, .submitted, none, created.state, ""⟩
        (fun problem => .created (.error problem)) (.created (.ok (created, true))))
  | .update id _, .begun =>
      match scannedOrNotFound "persistence: select job for update"
          ((publish db tx.writes).selectJobByID id) with
      | .error problem => some (.ends (.updated (.error problem)))
      | .ok current =>
          some (.continues { tx with stage := .locked current, locks := tx.locks ++ [id] })
  | .update _ fn, .locked current =>
      match fn current with
      | .error problem => some (.ends (.updated (.error (.job problem))))
      | .ok updated =>
          match (publish db tx.writes).updateJob (jobUpdateArgs updated) with
          | (answer, after) =>
              match scanned "persistence: update job" answer with
              | .error problem => some (.ends (.updated (.error problem)))
              | .ok stored =>
                  some (.continues
                    { tx with
                      stage := .written current stored
                      writes := tx.writes ++ version .update after stored.id
                      locks := tx.locks ++ [stored.id] })
  | .update _ _, .written current stored =>
      if current.state ≠ stored.state then
        some (recordEvent db tx ⟨stored.id, .stateChanged, some current.state, stored.state, ""⟩
          (fun problem => .updated (.error problem)) (.updated (.ok stored)))
      else some (.continues { tx with stage := .recorded (.updated (.ok stored)) })
  | _, _ => none

/-- The rows that the transaction has inserted. -/
def Transaction.inserts (tx : Transaction Cpu Mem) : List (Row Cpu Mem) :=
  tx.writes.filterMap fun
    | .insert row => some row
    | _ => none

/-- Two rows that the primary key or the index on submission_id keeps apart. -/
def keysDiffer (left right : Row Cpu Mem) : Bool :=
  left.id ≠ right.id ∧ (left.submissionID = "" ∨ left.submissionID ≠ right.submissionID)

/-- Neither transaction waits for the other. -/
def Transaction.compatible (left right : Transaction Cpu Mem) : Bool :=
  left.locks.all (fun id => id ∉ right.locks) &&
    left.inserts.all fun row => right.inserts.all (keysDiffer row)

/-- A connection without a transaction is in nobody's way. -/
def compatible : Option (Transaction Cpu Mem) → Option (Transaction Cpu Mem) → Bool
  | some left, some right => left.compatible right
  | _, _ => true

/-- A call that is over. Without an outcome it was rolled back before COMMIT. The
outcome is the server's: whether the answer still reached the caller changes
nothing in the tables. -/
structure Entry (Cpu Mem : Type) where
  request : Request Cpu Mem
  outcome : Option (Answer Cpu Mem)

def Entry.call (entry : Entry Cpu Mem) : Call Cpu Mem := entry.request.call entry.outcome.isNone

structure Server (Cpu Mem : Type) where
  committed : Database Cpu Mem
  history : List (Entry Cpu Mem)

def Server.close (server : Server Cpu Mem) (request : Request Cpu Mem)
    (outcome : Option (Answer Cpu Mem)) : Server Cpu Mem :=
  { server with history := server.history ++ [⟨request, outcome⟩] }

inductive Act (Cpu Mem : Type) where
  | begin (request : Request Cpu Mem)
  | statement
  | commit
  -- The context ends, the connection breaks, or a deadlock is resolved.
  | rollback

def act (server : Server Cpu Mem) :
    Option (Transaction Cpu Mem) → Act Cpu Mem →
      Option (Server Cpu Mem × Option (Transaction Cpu Mem))
  | none, .begin request => some (server, some ⟨request, .begun, [], []⟩)
  | some tx, .statement =>
      match statement server.committed tx with
      | none => none
      | some (.continues next) => some (server, some next)
      | some (.ends answer) => some (server.close tx.request (some answer), none)
  | some tx, .commit =>
      match tx.stage with
      | .recorded answer =>
          some ({ server.close tx.request (some answer) with
            committed := publish server.committed tx.writes }, none)
      | _ => none
  | some tx, .rollback => some (server.close tx.request none, none)
  | _, _ => none

/-- The INSERT of the job goes through on these tables. -/
structure Free (db : Database Cpu Mem) (job : Job Cpu Mem) : Prop where
  built : assemble (insertCell (jobInsertArgs job)) = .ok (rowOf job)
  unused : (rowOf job).id ∉ db.jobs.map Row.id
  distinct : ¬ db.Conflicts (rowOf job)

/-- So does the UPDATE that writes `updated`, when `target` has its ID. -/
structure Rewrites (updated : Job Cpu Mem) (target : Row Cpu Mem) : Prop where
  named : bindArgument (jobUpdateArgs updated) .id 1 = .ok updated.id
  built : assemble (updateCell target (jobUpdateArgs updated)) = .ok (rewritten target updated)

structure Selected (db : Database Cpu Mem) (id : String) (row : Row Cpu Mem) : Prop where
  storable : storableText id = true
  found : db.find id = some row

/-- What an Update has gone through by the time its UPDATE is answered. -/
structure Updates (db : Database Cpu Mem) (id : String)
    (fn : Job Cpu Mem → Except JobError (Job Cpu Mem)) (row : Row Cpu Mem) (updated : Job Cpu Mem)
    (target : Row Cpu Mem) : Prop where
  selected : Selected db id row
  accepted : fn (jobOf row) = .ok updated
  aimed : db.find updated.id = some target
  rewrites : Rewrites updated target

/-- What an open transaction has seen and written is what it would see and write on
the committed tables as they are now. -/
inductive Holds (db : Database Cpu Mem) : Transaction Cpu Mem → Prop where
  | begun (request : Request Cpu Mem) : Holds db ⟨request, .begun, [], []⟩
  | inserted {job : Job Cpu Mem} (free : Free db job) :
      Holds db ⟨.create job, .inserted (jobOf (rowOf job)), [.insert (rowOf job)], []⟩
  | submitted {job : Job Cpu Mem} (free : Free db job) :
      Holds db ⟨.create job, .recorded (.created (.ok (jobOf (rowOf job), true))),
        [.insert (rowOf job), .event (submittedEvent job)], []⟩
  | conflicting {job : Job Cpu Mem} (named : job.submissionID ≠ "")
      (refused : db.insertJob (jobInsertArgs job) = (.error .noRows, db)) :
      Holds db ⟨.create job, .conflicting, [], []⟩
  | locked {id : String} {fn : Job Cpu Mem → Except JobError (Job Cpu Mem)} {row : Row Cpu Mem}
      (selected : Selected db id row) : Holds db ⟨.update id fn, .locked (jobOf row), [], [id]⟩
  | written {id : String} {fn : Job Cpu Mem → Except JobError (Job Cpu Mem)} {row : Row Cpu Mem}
      {updated : Job Cpu Mem} {target : Row Cpu Mem}
      (updates : Updates db id fn row updated target) :
      Holds db ⟨.update id fn, .written (jobOf row) (jobOf (rewritten target updated)),
        [.update (rewritten target updated)], [id, updated.id]⟩
  | recorded {id : String} {fn : Job Cpu Mem → Except JobError (Job Cpu Mem)} {row : Row Cpu Mem}
      {updated : Job Cpu Mem} {target : Row Cpu Mem}
      (updates : Updates db id fn row updated target) :
      Holds db ⟨.update id fn, .recorded (.updated (.ok (jobOf (rewritten target updated)))),
        .update (rewritten target updated) :: (changeEvent row.state updated).map .event,
        [id, updated.id]⟩

/-- The whole call, made on these tables, has this answer and leaves these. -/
structure Calls (db : Database Cpu Mem) (request : Request Cpu Mem) (answer : Answer Cpu Mem)
    (after : Database Cpu Mem) : Prop where
  answers : request.answer db = answer
  leaves : (request.call false).apply db = after

def Outcome.Sound (db : Database Cpu Mem) (request : Request Cpu Mem) : Outcome Cpu Mem → Prop
  | .continues next => next.request = request ∧ Holds db next
  | .ends answer => Calls db request answer db

theorem insertJob_cases (db : Database Cpu Mem) (job : Job Cpu Mem) :
    (∃ cause, cause ≠ .noRows ∧ db.insertJob (jobInsertArgs job) = (.error cause, db)) ∨
      db.insertJob (jobInsertArgs job) = (.error .noRows, db) ∨
      ∃ free : Free db job, db.insertJob (jobInsertArgs job) =
        (.ok (select (rowOf job)), db.append (rowOf job) free.unused free.distinct) := by
  unfold insertJob
  cases built : assemble (insertCell (jobInsertArgs job)) with
  | error cause =>
      by_cases none : cause = .noRows
      · exact Or.inr (Or.inl (by rw [none]))
      · exact Or.inl ⟨cause, none, rfl⟩
  | ok row =>
      obtain rfl := inserted_row built
      by_cases conflict : db.Conflicts (rowOf job)
      · exact Or.inr (Or.inl (dif_pos conflict))
      · by_cases used : (rowOf job).id ∈ db.jobs.map Row.id
        · refine Or.inl ⟨uniqueViolation, by decide, ?_⟩
          simp only [dif_neg conflict, dif_pos used]
        · refine Or.inr (Or.inr ⟨⟨built, used, conflict⟩, ?_⟩)
          simp only [dif_neg conflict, dif_neg used]

theorem updateJob_split (db : Database Cpu Mem) (updated : Job Cpu Mem) :
    (∃ cause, db.updateJob (jobUpdateArgs updated) = (.error cause, db)) ∨
      ∃ target, db.find updated.id = some target ∧ Rewrites updated target := by
  unfold updateJob
  cases named : bindArgument (jobUpdateArgs updated) .id 1 with
  | error cause => exact Or.inl ⟨cause, rfl⟩
  | ok id =>
      obtain rfl : id = updated.id := received_ok (named : received .text updated.id = .ok id)
      cases found : db.find updated.id with
      | none => exact Or.inl ⟨.noRows, by simp only [found]⟩
      | some target =>
          cases built : assemble (updateCell target (jobUpdateArgs updated)) with
          | error cause => exact Or.inl ⟨cause, by simp only [found, built]⟩
          | ok changed =>
              obtain rfl := updated_row built
              exact Or.inr ⟨target, rfl, named, built⟩

theorem Rewrites.updateJob {db : Database Cpu Mem} {updated : Job Cpu Mem} {target : Row Cpu Mem}
    (rewrites : Rewrites updated target) (aimed : db.find updated.id = some target) :
    db.updateJob (jobUpdateArgs updated) =
      (.ok (select (rewritten target updated)), db.replace (rewritten target updated)) := by
  simp only [Database.updateJob, rewrites.named, aimed, rewrites.built]

theorem Updates.stored_id {db : Database Cpu Mem} {id : String}
    {fn : Job Cpu Mem → Except JobError (Job Cpu Mem)} {row target : Row Cpu Mem}
    {updated : Job Cpu Mem} (updates : Updates db id fn row updated target) :
    (rewritten target updated).id = updated.id := by
  rw [rewritten_id, find_id updates.aimed]

theorem Updates.target_known {db : Database Cpu Mem} {id : String}
    {fn : Job Cpu Mem → Except JobError (Job Cpu Mem)} {row target : Row Cpu Mem}
    {updated : Job Cpu Mem} (updates : Updates db id fn row updated target) :
    updated.id ∈ (db.replace (rewritten target updated)).jobs.map Row.id := by
  rw [replace, setRow_ids]
  exact List.mem_map.mpr ⟨target, (find_iff.mp updates.aimed).1, find_id updates.aimed⟩

theorem calls_create {db after : Database Cpu Mem} {job : Job Cpu Mem}
    {result : Except RepositoryError (Job Cpu Mem × Bool)}
    (called : JobRepository.create db job = (result, after)) :
    Calls db (.create job) (.created result) after := by
  constructor
  case answers => rw [Request.answer, called]
  case leaves => exact congrArg Prod.snd called

theorem calls_update {db after : Database Cpu Mem} {id : String}
    {fn : Job Cpu Mem → Except JobError (Job Cpu Mem)} {result : Except RepositoryError (Job Cpu Mem)}
    (called : JobRepository.update db id fn = (result, after)) :
    Calls db (.update id fn) (.updated result) after := by
  constructor
  case answers => rw [Request.answer, called]
  case leaves => exact congrArg Prod.snd called

theorem publish_nil (db : Database Cpu Mem) : publish db [] = db := rfl

theorem begun_create_sound {db : Database Cpu Mem} {job : Job Cpu Mem} {outcome : Outcome Cpu Mem}
    (answered : statement db ⟨.create job, .begun, [], []⟩ = some outcome) :
    outcome.Sound db (.create job) := by
  rcases insertJob_cases db job with ⟨cause, other, refused⟩ | refused | ⟨free, went⟩
  · have failed : JobRepository.create db job =
        (.error (.statement "persistence: insert job" cause), db) := by
      unfold JobRepository.create
      rw [refused]
      cases cause with
      | noRows => exact absurd rfl other
      | _ => rfl
    have ended : outcome = .ends (.created (.error (.statement "persistence: insert job" cause))) := by
      simp only [statement, publish_nil, refused] at answered
      cases cause with
      | noRows => exact absurd rfl other
      | _ => exact (Option.some.inj answered).symm
    rw [ended]
    exact calls_create failed
  · by_cases anonymous : job.submissionID = ""
    · have failed : JobRepository.create db job = (.error .emptyConflict, db) := by
        simp only [JobRepository.create, refused, if_pos anonymous]
      simp only [statement, publish_nil, refused, if_pos anonymous, Option.some.injEq] at answered
      subst answered
      exact calls_create failed
    · simp only [statement, publish_nil, refused, if_neg anonymous, Option.some.injEq] at answered
      subst answered
      exact ⟨rfl, Holds.conflicting anonymous refused⟩
  · have found : (db.append (rowOf job) free.unused free.distinct).find (jobOf (rowOf job)).id =
        some (rowOf job) := by
      rw [find_append, jobOf_id, if_pos rfl]
    simp only [statement, publish_nil, went, scanned_select, version, found, Option.map_some,
      Option.toList_some, List.nil_append, Option.some.injEq] at answered
    subst answered
    exact ⟨rfl, Holds.inserted free⟩

theorem conflicting_sound {db : Database Cpu Mem} {job : Job Cpu Mem} {outcome : Outcome Cpu Mem}
    (named : job.submissionID ≠ "")
    (refused : db.insertJob (jobInsertArgs job) = (.error .noRows, db))
    (answered : statement db ⟨.create job, .conflicting, [], []⟩ = some outcome) :
    outcome.Sound db (.create job) := by
  cases read : getBySubmissionID db job.submissionID with
  | error problem =>
      have failed : JobRepository.create db job = (.error problem, db) := by
        simp only [JobRepository.create, refused, if_neg named, read]
      simp only [statement, read, Option.some.injEq] at answered
      subst answered
      exact calls_create failed
  | ok existing =>
      have kept : JobRepository.create db job = (.ok (existing, false), db) := by
        simp only [JobRepository.create, refused, if_neg named, read]
      simp only [statement, read, Option.some.injEq] at answered
      subst answered
      exact calls_create kept

theorem publish_insert {db : Database Cpu Mem} {job : Job Cpu Mem} (free : Free db job) :
    publish db [.insert (rowOf job)] = db.append (rowOf job) free.unused free.distinct := by
  simp only [publish, List.foldl_cons, List.foldl_nil, Write.apply, dif_neg free.unused,
    dif_neg free.distinct]

theorem inserted_sound {db : Database Cpu Mem} {job : Job Cpu Mem} {outcome : Outcome Cpu Mem}
    (free : Free db job)
    (answered : statement db ⟨.create job, .inserted (jobOf (rowOf job)), [.insert (rowOf job)], []⟩ =
      some outcome) :
    outcome.Sound db (.create job) := by
  have event : (⟨(jobOf (rowOf job)).id, .submitted, none, (jobOf (rowOf job)).state, ""⟩ : JobEvent) =
      submittedEvent job := by
    rw [jobOf_id, jobOf_state, rowOf_id, rowOf_state, submittedEvent]
  simp only [statement, recordEvent, event, publish_insert free,
    insertEvent_known (submitted_known free.unused free.distinct), Option.some.injEq] at answered
  subst answered
  exact ⟨rfl, Holds.submitted free⟩

theorem begun_update_sound {db : Database Cpu Mem} {id : String}
    {fn : Job Cpu Mem → Except JobError (Job Cpu Mem)} {outcome : Outcome Cpu Mem}
    (answered : statement db ⟨.update id fn, .begun, [], []⟩ = some outcome) :
    outcome.Sound db (.update id fn) := by
  cases read : scannedOrNotFound "persistence: select job for update" (db.selectJobByID id) with
  | error problem =>
      have failed : JobRepository.update db id fn = (.error problem, db) := by
        simp only [JobRepository.update, read]
      simp only [statement, publish_nil, read, Option.some.injEq] at answered
      subst answered
      exact calls_update failed
  | ok current =>
      obtain ⟨row, selected, rfl⟩ : ∃ row, Selected db id row ∧ current = jobOf row := by
        by_cases storable : storableText id
        · cases found : db.find id with
          | none => simp [selectJobByID, storable, found, scannedOrNotFound] at read
          | some row =>
              rw [selectJobByID_found storable found] at read
              exact ⟨row, ⟨storable, found⟩,
                (Except.ok.inj ((scanned_select _ row).symm.trans read)).symm⟩
        · simp [selectJobByID, storable, scannedOrNotFound, invalidByteSequence, scanned] at read
      simp only [statement, publish_nil, read, List.nil_append, Option.some.injEq] at answered
      subst answered
      exact ⟨rfl, Holds.locked selected⟩

theorem locked_sound {db : Database Cpu Mem} {id : String}
    {fn : Job Cpu Mem → Except JobError (Job Cpu Mem)} {row : Row Cpu Mem}
    {outcome : Outcome Cpu Mem} (selected : Selected db id row)
    (answered : statement db ⟨.update id fn, .locked (jobOf row), [], [id]⟩ = some outcome) :
    outcome.Sound db (.update id fn) := by
  cases result : fn (jobOf row) with
  | error problem =>
      have failed := update_refused selected.storable selected.found result
      simp only [statement, result, Option.some.injEq] at answered
      subst answered
      exact calls_update failed
  | ok updated =>
      rcases updateJob_split db updated with ⟨cause, refused⟩ | ⟨target, aimed, rewrites⟩
      · have failed : JobRepository.update db id fn =
            (.error (.statement "persistence: update job" cause), db) := by
          simp only [JobRepository.update, selectJobByID_found selected.storable selected.found,
            scannedOrNotFound, scanned_select, result, refused, scanned_error]
        simp only [statement, result, publish_nil, refused, scanned_error,
          Option.some.injEq] at answered
        subst answered
        exact calls_update failed
      · have updates : Updates db id fn row updated target := ⟨selected, result, aimed, rewrites⟩
        have found : (db.replace (rewritten target updated)).find updated.id =
            some (rewritten target updated) := by
          rw [find_written aimed rfl, if_pos rfl]
        simp only [statement, result, publish_nil, rewrites.updateJob aimed, scanned_select, version,
          jobOf_id, updates.stored_id, found, Option.map_some, Option.toList_some, List.nil_append,
          List.cons_append, Option.some.injEq] at answered
        subst answered
        exact ⟨rfl, Holds.written updates⟩

theorem written_sound {db : Database Cpu Mem} {id : String}
    {fn : Job Cpu Mem → Except JobError (Job Cpu Mem)} {row target : Row Cpu Mem}
    {updated : Job Cpu Mem} {outcome : Outcome Cpu Mem}
    (updates : Updates db id fn row updated target)
    (answered : statement db ⟨.update id fn, .written (jobOf row) (jobOf (rewritten target updated)),
      [.update (rewritten target updated)], [id, updated.id]⟩ = some outcome) :
    outcome.Sound db (.update id fn) := by
  have recorded := Holds.recorded updates
  by_cases same : row.state = updated.state
  · simp only [statement, jobOf_state, rewritten_state, same, ne_eq, not_true_eq_false, if_false,
      Option.some.injEq] at answered
    subst answered
    rw [changeEvent, if_pos same] at recorded
    exact ⟨rfl, recorded⟩
  · have published : publish db [.update (rewritten target updated)] =
        db.replace (rewritten target updated) := rfl
    obtain ⟨after, logged⟩ : ∃ after, (db.replace (rewritten target updated)).insertEvent
        ⟨updated.id, .stateChanged, some row.state, updated.state, ""⟩ = (.ok (), after) :=
      ⟨_, insertEvent_known updates.target_known⟩
    simp only [statement, jobOf_state, rewritten_state, ne_eq, same, not_false_eq_true, if_true,
      recordEvent, published, jobOf_id, updates.stored_id, logged,
      Option.some.injEq] at answered
    subst answered
    rw [changeEvent, if_neg same] at recorded
    exact ⟨rfl, recorded⟩

theorem statement_sound {db : Database Cpu Mem} {tx : Transaction Cpu Mem} {outcome : Outcome Cpu Mem}
    (holds : Holds db tx) (answered : statement db tx = some outcome) :
    outcome.Sound db tx.request := by
  cases holds with
  | begun request =>
      cases request with
      | create job => exact begun_create_sound answered
      | update id fn => exact begun_update_sound answered
  | inserted free => exact inserted_sound free answered
  | submitted free => cases answered
  | conflicting named refused => exact conflicting_sound named refused answered
  | locked selected => exact locked_sound selected answered
  | written updates => exact written_sound updates answered
  | recorded updates => cases answered

theorem tables_eq {db db' : Database Cpu Mem} (jobs : db.jobs = db'.jobs)
    (events : db.events = db'.events) : db = db' := by
  cases db
  cases db'
  cases jobs
  cases events
  rfl

theorem published_create {db : Database Cpu Mem} {job : Job Cpu Mem} (free : Free db job) :
    publish db [.insert (rowOf job), .event (submittedEvent job)] =
      (db.append (rowOf job) free.unused free.distinct).record (submittedEvent job)
        (submitted_known free.unused free.distinct) := by
  have first := publish_insert free
  simp only [publish, List.foldl_cons, List.foldl_nil] at first ⊢
  rw [first, Write.apply, insertEvent_known (submitted_known free.unused free.distinct)]

theorem published_update {db : Database Cpu Mem} {id : String}
    {fn : Job Cpu Mem → Except JobError (Job Cpu Mem)} {row target : Row Cpu Mem}
    {updated : Job Cpu Mem} (updates : Updates db id fn row updated target) :
    (publish db (.update (rewritten target updated) ::
        (changeEvent row.state updated).map .event)).jobs =
      (db.replace (rewritten target updated)).jobs ∧
    (publish db (.update (rewritten target updated) ::
        (changeEvent row.state updated).map .event)).events =
      db.events ++ changeEvent row.state updated := by
  unfold changeEvent
  split
  case isTrue => exact ⟨rfl, (List.append_nil _).symm⟩
  case isFalse =>
    simp only [publish, List.map_cons, List.map_nil, List.foldl_cons, List.foldl_nil, Write.apply]
    rw [insertEvent_known updates.target_known]
    exact ⟨rfl, rfl⟩

/-- The tables after COMMIT are those that the whole call leaves, made at this
moment. -/
theorem commit_calls {db : Database Cpu Mem} {request : Request Cpu Mem} {answer : Answer Cpu Mem}
    {writes : List (Write Cpu Mem)} {locks : List String}
    (holds : Holds db ⟨request, .recorded answer, writes, locks⟩) :
    Calls db request answer (publish db writes) := by
  cases holds with
  | @submitted job free =>
      have called := create_inserts free.built free.unused free.distinct
      rw [published_create free]
      exact calls_create called
  | @recorded id fn row updated target updates =>
      obtain ⟨after, called, jobs, events⟩ := update_written updates.selected.storable
        updates.selected.found updates.accepted updates.aimed (updates.rewrites.updateJob updates.aimed)
      have published := published_update updates
      rw [tables_eq (published.1.trans jobs.symm) (published.2.trans events.symm)]
      exact calls_update called

/-- All that `tx` relies on is the same in the second tables: the rows it has locked,
that its new row fits, and that the submission IDs on record stay there. -/
structure Beside (tx : Transaction Cpu Mem) (db db' : Database Cpu Mem) : Prop where
  rows : ∀ id ∈ tx.locks, ∀ row, db.find id = some row → db'.find id = some row
  unused : ∀ row ∈ tx.inserts, row.id ∉ db.jobs.map Row.id → row.id ∉ db'.jobs.map Row.id
  distinct : ∀ row ∈ tx.inserts, ¬ db.Conflicts row → ¬ db'.Conflicts row
  known : ∀ text ∈ db.jobs.map Row.submissionID, text ∈ db'.jobs.map Row.submissionID

theorem refused_kept {db db' : Database Cpu Mem} {job : Job Cpu Mem}
    (known : ∀ text ∈ db.jobs.map Row.submissionID, text ∈ db'.jobs.map Row.submissionID)
    (refused : db.insertJob (jobInsertArgs job) = (.error .noRows, db)) :
    db'.insertJob (jobInsertArgs job) = (.error .noRows, db') := by
  unfold insertJob at refused ⊢
  cases built : assemble (insertCell (jobInsertArgs job)) with
  | error cause =>
      rw [built] at refused
      obtain rfl : cause = .noRows := by simpa using refused
      rfl
  | ok row =>
      rw [built] at refused
      by_cases conflict : db.Conflicts row
      · exact dif_pos ⟨conflict.1, known _ conflict.2⟩
      · simp only [dif_neg conflict] at refused
        split at refused <;> cases refused

theorem Beside.free {db db' : Database Cpu Mem} {tx : Transaction Cpu Mem} {job : Job Cpu Mem}
    (beside : Beside tx db db') (own : rowOf job ∈ tx.inserts) (free : Free db job) :
    Free db' job where
  built := free.built
  unused := beside.unused _ own free.unused
  distinct := beside.distinct _ own free.distinct

theorem Beside.updates {db db' : Database Cpu Mem} {tx : Transaction Cpu Mem} {id : String}
    {fn : Job Cpu Mem → Except JobError (Job Cpu Mem)} {row target : Row Cpu Mem}
    {updated : Job Cpu Mem} (beside : Beside tx db db') (locks : tx.locks = [id, updated.id])
    (updates : Updates db id fn row updated target) : Updates db' id fn row updated target where
  selected := ⟨updates.selected.storable,
    beside.rows id (by simp [locks]) row updates.selected.found⟩
  accepted := updates.accepted
  aimed := beside.rows updated.id (by simp [locks]) target updates.aimed
  rewrites := updates.rewrites

theorem Beside.holds {db db' : Database Cpu Mem} {tx : Transaction Cpu Mem}
    (beside : Beside tx db db') (holds : Holds db tx) : Holds db' tx := by
  cases holds with
  | begun request => exact Holds.begun request
  | inserted free => exact Holds.inserted (beside.free (by simp [Transaction.inserts]) free)
  | submitted free => exact Holds.submitted (beside.free (by simp [Transaction.inserts]) free)
  | conflicting named refused => exact Holds.conflicting named (refused_kept beside.known refused)
  | @locked id fn row selected =>
      exact Holds.locked ⟨selected.storable, beside.rows id (by simp) row selected.found⟩
  | written updates => exact Holds.written (beside.updates rfl updates)
  | recorded updates => exact Holds.recorded (beside.updates rfl updates)

theorem compatible_locks {left right : Transaction Cpu Mem} (apart : left.compatible right = true)
    {id : String} (own : id ∈ left.locks) : id ∉ right.locks := by
  simp only [Transaction.compatible, Bool.and_eq_true, List.all_eq_true, decide_eq_true_eq] at apart
  exact apart.1 id own

theorem compatible_inserts {left right : Transaction Cpu Mem} (apart : left.compatible right = true)
    {row other : Row Cpu Mem} (own : row ∈ left.inserts) (theirs : other ∈ right.inserts) :
    row.id ≠ other.id ∧ (row.submissionID = "" ∨ row.submissionID ≠ other.submissionID) := by
  simp only [Transaction.compatible, Bool.and_eq_true, List.all_eq_true] at apart
  simpa [keysDiffer] using apart.2 row own other theirs

theorem beside_insert {db db' : Database Cpu Mem} {tx other : Transaction Cpu Mem} {job : Job Cpu Mem}
    (free : Free db job) (apart : tx.compatible other = true) (inserted : rowOf job ∈ other.inserts)
    (jobs : db'.jobs = (db.append (rowOf job) free.unused free.distinct).jobs) :
    Beside tx db db' := by
  have added : db'.jobs = db.jobs ++ [rowOf job] := jobs
  constructor
  case rows =>
    intro id _ row found
    have old : id ≠ (rowOf job).id := by
      intro same
      rw [same, find_none_iff.mpr free.unused] at found
      cases found
    rw [find_of_jobs jobs, find_append, if_neg old, found]
  case unused =>
    intro row own unused
    have keys := compatible_inserts apart own inserted
    simp only [added, List.map_append, List.map_cons, List.map_nil, List.mem_append,
      List.mem_singleton, not_or]
    exact ⟨unused, keys.1⟩
  case distinct =>
    rintro row own distinct ⟨named, taken⟩
    have keys := compatible_inserts apart own inserted
    simp only [added, List.map_append, List.map_cons, List.map_nil, List.mem_append,
      List.mem_singleton] at taken
    rcases taken with before | isNew
    · exact distinct ⟨named, before⟩
    · rcases keys.2 with anonymous | differs
      · exact named anonymous
      · exact differs isNew
  case known =>
    intro text old
    rw [added, List.map_append]
    exact List.mem_append_left _ old

theorem beside_update {db db' : Database Cpu Mem} {tx other : Transaction Cpu Mem} {id : String}
    {fn : Job Cpu Mem → Except JobError (Job Cpu Mem)} {row target : Row Cpu Mem}
    {updated : Job Cpu Mem} (updates : Updates db id fn row updated target)
    (apart : tx.compatible other = true) (locked : updated.id ∈ other.locks)
    (jobs : db'.jobs = (db.replace (rewritten target updated)).jobs) : Beside tx db db' := by
  have set : db'.jobs = db.jobs.map (setRow (rewritten target updated)) := jobs
  constructor
  case rows =>
    intro key own held found
    have different : key ≠ updated.id := by
      rintro rfl
      exact compatible_locks apart own locked
    rw [find_written updates.aimed jobs, if_neg different, found]
  case unused =>
    intro inserted _ unused
    rwa [set, setRow_ids]
  case distinct =>
    intro inserted _ distinct
    rwa [Conflicts, set, setRow_submissionIDs]
  case known =>
    intro text old
    rwa [set, setRow_submissionIDs]

/-- A COMMIT leaves what every compatible transaction relies on. -/
theorem commit_beside {db : Database Cpu Mem} {tx : Transaction Cpu Mem} {request : Request Cpu Mem}
    {answer : Answer Cpu Mem} {writes : List (Write Cpu Mem)} {locks : List String}
    (holds : Holds db ⟨request, .recorded answer, writes, locks⟩)
    (apart : tx.compatible ⟨request, .recorded answer, writes, locks⟩ = true) :
    Beside tx db (publish db writes) := by
  cases holds with
  | @submitted job free =>
      refine beside_insert free apart (by simp [Transaction.inserts]) ?_
      rw [published_create free]
      rfl
  | recorded updates => exact beside_update updates apart (by simp) (published_update updates).1

end OrionQueue.JobTransactions
