import OrionQueue.Runs
import OrionQueue.WorkerWrites

/-!
ListActive and List of `persistence.WorkerRepository`. Both select the rows of the
workers with one statement and then ask for the GPUs of each row with a statement of
its own. No transaction holds these statements together, so that registrations,
heartbeats and lost workers may come in between: `step` cuts a listing at every
statement. What a listing returns is then the table of no single instant, but each
of its workers is made of two readings: the status of the earlier one, and of the
later one what there is to place on.
-/

namespace OrionQueue.WorkerTable

variable {Cpu Mem : Type}

def WorkerRow.status (row : WorkerRow Cpu Mem) : Workers.Status := row .status
def WorkerRow.registeredAt (row : WorkerRow Cpu Mem) : Int := row .registeredAt

end OrionQueue.WorkerTable

namespace OrionQueue.WorkerRepository

open Jobs Workers WorkerTable Database PageTokens
open JobTable (Collation storableText invalidByteSequence)
open JobRepository (micros ofMicros)
open JobListing (pageSizeOf)

variable {Cpu Mem SortKey : Type} (collation : Collation SortKey)

/-- `ORDER BY registered_at, id`. -/
def registrationKey (row : WorkerRow Cpu Mem) : Int ×ₗ SortKey :=
  toLex (row.registeredAt, collation.sortKey row.id)

/-- What List fails with besides the errors of the other methods. -/
inductive ListError where
  | pageToken (problem : TokenError)
  | repository (problem : RepositoryError)
  deriving DecidableEq

/-- The key that the page starts after. -/
def cursorOf (pageToken : String) : Except ListError (Option (Int ×ₗ SortKey)) :=
  if pageToken = "" then .ok none
  else
    match decodeListToken pageToken with
    | .error problem => .error (.pageToken problem)
    | .ok (time, bytes) =>
        match (ofUTF8 bytes).filter storableText with
        | none => .error (.repository (.statement "persistence: list workers" invalidByteSequence))
        | some id => .ok (some (toLex (micros time, collation.sortKey id)))

/-- The loop over the rows of a query. -/
def scanRows (context : String) (rows : List (List (Value Cpu Mem))) :
    Except RepositoryError (List (Worker Cpu Mem)) :=
  rows.mapM fun values => scanned context (.ok values)

/-- The loop that asks for the GPUs of every worker of the page. -/
def fillGPUs (db : Database Cpu Mem) :
    List (Worker Cpu Mem) → Except RepositoryError (List (Worker Cpu Mem))
  | [] => .ok []
  | worker :: rest =>
      match getGPUs db worker.id with
      | .error problem => .error problem
      | .ok gpus => (fillGPUs db rest).map ({ worker with gpus := gpus } :: ·)

def rowMatches (statusFilter : String) (row : WorkerRow Cpu Mem) : Bool :=
  statusFilter = "" || row.status.name = statusFilter

section Queries
variable [LinearOrder SortKey] (db : Database Cpu Mem)

/-- selectActiveWorkersSQL. -/
def selectActiveWorkers : List (List (Value Cpu Mem)) :=
  (Keyset.sortBy (registrationKey collation)
    (db.workers.filter fun row => row.status = .active)).map selectWorker

/-- `WHERE status = ... AND (registered_at, id) > ... ORDER BY registered_at, id LIMIT`. -/
def selectWorkers (statusFilter : String) (cursor : Option (Int ×ₗ SortKey)) (limit : Nat) :
    List (List (Value Cpu Mem)) :=
  ((Keyset.beyond (registrationKey collation) cursor
    (db.workers.filter (rowMatches statusFilter))).take limit).map selectWorker

/-- ListActive up to the GPUs. -/
def activeRows : Except RepositoryError (List (Worker Cpu Mem)) :=
  scanRows "persistence: scan active worker" (selectActiveWorkers collation db)

def listActive : Except RepositoryError (List (Worker Cpu Mem)) :=
  match activeRows collation db with
  | .error problem => .error problem
  | .ok active => fillGPUs db active

/-- List up to the GPUs: the rows of the page and the token of the next one. -/
def pageRows (options : ListOptions) : Except ListError (List (Worker Cpu Mem) × String) :=
  let pageSize := pageSizeOf options.pageSize
  match cursorOf collation options.pageToken with
  | .error problem => .error problem
  | .ok cursor =>
      if storableText options.statusFilter then
        match scanRows "persistence: scan listed worker"
            (selectWorkers collation db options.statusFilter cursor (pageSize + 1)) with
        | .error problem => .error (.repository problem)
        | .ok page =>
            match if pageSize < page.length then page[pageSize - 1]? else none with
            | some last => .ok (page.take pageSize, encodeListToken last.registeredAt last.id)
            | none => .ok (page, "")
      else .error (.repository (.statement "persistence: list workers" invalidByteSequence))

def list (options : ListOptions) : Except ListError (ListResult Cpu Mem) :=
  match pageRows collation db options with
  | .error problem => .error problem
  | .ok (page, nextPageToken) =>
      match fillGPUs db page with
      | .error problem => .error (.repository problem)
      | .ok workers => .ok ⟨workers, nextPageToken⟩

end Queries

theorem scanRows_select (context : String) (rows : List (WorkerRow Cpu Mem)) :
    scanRows context (rows.map selectWorker) = .ok (rows.map workerOf) := by
  induction rows with
  | nil => rfl
  | cons row rest ih =>
      unfold scanRows at ih ⊢
      rw [List.map_cons, List.mapM_cons, ih]
      simp only [scanned, scanWorker_select]
      rfl

theorem activeRows_eq [LinearOrder SortKey] (db : Database Cpu Mem) :
    activeRows collation db = .ok ((Keyset.sortBy (registrationKey collation)
      (db.workers.filter fun row => row.status = .active)).map workerOf) :=
  scanRows_select _ _

/-- Every row of a page is a row of the table. -/
theorem pageRows_stored [LinearOrder SortKey] {db : Database Cpu Mem} {options : ListOptions}
    {page : List (Worker Cpu Mem)} {next : String}
    (answered : pageRows collation db options = .ok (page, next)) :
    ∀ worker ∈ page, ∃ row ∈ db.workers, workerOf row = worker := by
  cases started : cursorOf collation options.pageToken with
  | error problem => simp [pageRows, started] at answered
  | ok cursor =>
      simp only [pageRows, started] at answered
      split at answered
      case isFalse => cases answered
      simp only [selectWorkers, scanRows_select] at answered
      have stored : ∀ worker ∈ ((Keyset.beyond (registrationKey collation) cursor
          (db.workers.filter (rowMatches options.statusFilter))).take
            (pageSizeOf options.pageSize + 1)).map workerOf,
          ∃ row ∈ db.workers, workerOf row = worker := by
        intro worker listed
        obtain ⟨row, fetched, rfl⟩ := List.mem_map.mp listed
        have beyond := List.mem_of_mem_take fetched
        exact ⟨row, List.mem_of_mem_filter (Keyset.mem_beyond.mp beyond).1, rfl⟩
      split at answered <;> cases answered
      · exact fun worker listed => stored worker (List.mem_of_mem_take listed)
      · exact stored

end OrionQueue.WorkerRepository

namespace OrionQueue.WorkerListing

open Jobs Workers WorkerTable Database WorkerRepository Runs
open JobTable (Collation storableText)

variable {Cpu Mem SortKey : Type}

inductive Query where
  | active
  | page (options : ListOptions)

/-- Where a listing stands between two statements. -/
inductive Listing (Cpu Mem : Type) where
  | idle
  | reading (read ahead : List (Worker Cpu Mem)) (nextPageToken : String)
  | returned (answer : Except ListError (ListResult Cpu Mem))

structure State (Cpu Mem : Type) where
  db : Database Cpu Mem
  listings : Nat → Listing Cpu Mem

def State.start : State Cpu Mem := ⟨Database.empty, fun _ => .idle⟩

def State.put (state : State Cpu Mem) (caller : Nat) (listing : Listing Cpu Mem) : State Cpu Mem :=
  { state with listings := Function.update state.listings caller listing }

@[simp] theorem State.put_own (state : State Cpu Mem) (caller : Nat) (listing : Listing Cpu Mem) :
    (state.put caller listing).listings caller = listing :=
  Function.update_self ..

theorem State.put_other (state : State Cpu Mem) {caller acting : Nat} (other : caller ≠ acting)
    (listing : Listing Cpu Mem) :
    (state.put acting listing).listings caller = state.listings caller :=
  Function.update_of_ne other ..

@[simp] theorem State.put_db (state : State Cpu Mem) (caller : Nat) (listing : Listing Cpu Mem) :
    (state.put caller listing).db = state.db := rfl

/-- What is written are the records that Register creates, of whatever input, and what
Heartbeat and MarkLost make of a record. -/
inductive Label (Cpu Mem : Type) where
  | select (caller : Nat) (query : Query)
  | read (caller : Nat)
  | register (now : Time) (id : String) (leaseID : LeaseID) (input : RegisterInput Cpu Mem)
  | heartbeat (now : Time) (workerID : String) (newLeaseID : Option LeaseID)
      (gpus : Option (List (GPU Cpu Mem))) (runningJobIDs : Option (List String))
  | markLost (workerID : String)

/-- The GPUs of the next row, or the answer. -/
def Listing.advance (db : Database Cpu Mem) : Listing Cpu Mem → Option (Listing Cpu Mem)
  | .reading read (worker :: ahead) nextPageToken =>
      match getGPUs db worker.id with
      | .error problem => some (.returned (.error (.repository problem)))
      | .ok gpus => some (.reading (read ++ [{ worker with gpus := gpus }]) ahead nextPageToken)
  | .reading read [] nextPageToken => some (.returned (.ok ⟨read, nextPageToken⟩))
  | _ => none

section Machine
variable [LinearOrder SortKey] (collation : Collation SortKey)

def firstRows (db : Database Cpu Mem) : Query → Except ListError (List (Worker Cpu Mem) × String)
  | .active =>
      match activeRows collation db with
      | .error problem => .error (.repository problem)
      | .ok rows => .ok (rows, "")
  | .page options => pageRows collation db options

def Listing.begin (db : Database Cpu Mem) (query : Query) : Listing Cpu Mem :=
  match firstRows collation db query with
  | .error problem => .returned (.error problem)
  | .ok (rows, nextPageToken) => .reading [] rows nextPageToken

def step (state : State Cpu Mem) : Label Cpu Mem → Option (State Cpu Mem)
  | .select caller query => some (state.put caller (Listing.begin collation state.db query))
  | .read caller => ((state.listings caller).advance state.db).map (state.put caller)
  | .register now id leaseID input =>
      some { state with db := (create state.db (registered now id leaseID input)).2 }
  | .heartbeat now workerID newLeaseID gpus runningJobIDs =>
      some { state with
        db := (update state.db workerID (heartbeatUpdate now newLeaseID gpus runningJobIDs)).2 }
  | .markLost workerID => some { state with db := (update state.db workerID markLostUpdate).2 }

end Machine

/-! ### A listing that nobody disturbs -/

section Alone
variable [LinearOrder SortKey] (collation : Collation SortKey)

/-- The method that the query is the beginning of. -/
def answer (db : Database Cpu Mem) : Query → Except ListError (ListResult Cpu Mem)
  | .active =>
      match WorkerRepository.listActive collation db with
      | .error problem => .error (.repository problem)
      | .ok workers => .ok ⟨workers, ""⟩
  | .page options => WorkerRepository.list collation db options

def filled (db : Database Cpu Mem) (read ahead : List (Worker Cpu Mem)) (token : String) :
    Except ListError (ListResult Cpu Mem) :=
  match fillGPUs db ahead with
  | .error problem => .error (.repository problem)
  | .ok workers => .ok ⟨read ++ workers, token⟩

theorem answer_filled (db : Database Cpu Mem) (query : Query) :
    answer collation db query =
      match firstRows collation db query with
      | .error problem => .error problem
      | .ok (rows, token) => filled db [] rows token := by
  cases query with
  | active =>
      simp only [answer, firstRows, WorkerRepository.listActive, activeRows_eq, filled]
      cases fillGPUs db _ <;> rfl
  | page options =>
      simp only [answer, firstRows, WorkerRepository.list, filled]
      cases pageRows collation db options with
      | error problem => rfl
      | ok first => cases fillGPUs db first.1 <;> rfl

theorem filled_cons {db : Database Cpu Mem} {worker : Worker Cpu Mem} {gpus : List (GPU Cpu Mem)}
    (found : getGPUs db worker.id = .ok gpus) (read ahead : List (Worker Cpu Mem)) (token : String) :
    filled db (read ++ [{ worker with gpus := gpus }]) ahead token =
      filled db read (worker :: ahead) token := by
  simp only [filled, fillGPUs, found]
  cases fillGPUs db ahead <;> simp [Except.map]

theorem reading_finishes (caller : Nat) (ahead : List (Worker Cpu Mem)) :
    ∀ (state : State Cpu Mem) (read : List (Worker Cpu Mem)) (token : String),
      state.listings caller = .reading read ahead token →
      ∃ count final, run (step collation) state (List.replicate count (.read caller)) = some final ∧
        final.db = state.db ∧ final.listings caller = .returned (filled state.db read ahead token) := by
  induction ahead with
  | nil =>
      intro state read token reading
      refine ⟨1, state.put caller (.returned (.ok ⟨read, token⟩)), ?_, rfl, ?_⟩
      · simp [run, step, reading, Listing.advance]
      · simp [filled, fillGPUs]
  | cons worker ahead ih =>
      intro state read token reading
      cases gpus : getGPUs state.db worker.id with
      | error problem =>
          refine ⟨1, state.put caller (.returned (.error (.repository problem))), ?_, rfl, ?_⟩
          · simp [run, step, reading, Listing.advance, gpus]
          · simp [filled, fillGPUs, gpus]
      | ok gpus' =>
          obtain ⟨count, final, ran, same, returned⟩ := ih
            (state.put caller (.reading (read ++ [{ worker with gpus := gpus' }]) ahead token)) _ token
            (state.put_own caller _)
          refine ⟨count + 1, final, ?_, same,
            returned.trans (congrArg Listing.returned (filled_cons gpus read ahead token))⟩
          rw [List.replicate_succ]
          exact run_cons.mpr ⟨_, by simp [step, reading, Listing.advance, gpus], ran⟩

/-- Cut or not, a listing that nobody disturbs answers alike. -/
theorem undisturbed_listing (state : State Cpu Mem) (caller : Nat) (query : Query) :
    ∃ count final,
      run (step collation) state (.select caller query :: List.replicate count (.read caller)) =
        some final ∧ final.db = state.db ∧
      final.listings caller = .returned (answer collation state.db query) := by
  rw [answer_filled]
  cases first : firstRows collation state.db query with
  | error problem =>
      refine ⟨0, _, run_cons.mpr ⟨_, rfl, rfl⟩, rfl, ?_⟩
      simp [Listing.begin, first]
  | ok page =>
      obtain ⟨rows, token⟩ := page
      obtain ⟨count, final, ran, same, returned⟩ := reading_finishes collation caller rows
        (state.put caller (Listing.begin collation state.db query)) [] token
        (by simp [Listing.begin, first])
      exact ⟨count, final, run_cons.mpr ⟨_, rfl, ran⟩, same, returned⟩

end Alone

/-! ### Among writers -/

/-- The row of a worker keeps the columns that Register alone writes. -/
def Kept (before after : Database Cpu Mem) : Prop :=
  ∀ id row, before.find id = some row → ∃ row', after.find id = some row' ∧
    (workerOf row').cpuCapacity = (workerOf row).cpuCapacity ∧
    (workerOf row').memoryCapacityBytes = (workerOf row).memoryCapacityBytes

theorem kept_refl (db : Database Cpu Mem) : Kept db db :=
  fun _ row found => ⟨row, found, rfl, rfl⟩

theorem create_kept (db : Database Cpu Mem) (worker : Worker Cpu Mem) :
    Kept db (create db worker).2 := by
  rcases create_cases db worker with ⟨problem, refused⟩ | ⟨after, created, unused, written⟩
  · rw [refused]
    exact kept_refl db
  · rw [created]
    intro id row found
    have other : id ≠ worker.id := by
      rintro rfl
      rw [unused] at found
      cases found
    exact ⟨row, by rw [written.find, if_neg other, found], rfl, rfl⟩

/-- A callback that leaves the ID and the capacities of a worker alone. -/
def KeepsCapacity (fn : Worker Cpu Mem → Except WorkerError (Worker Cpu Mem)) : Prop :=
  ∀ worker updated, fn worker = .ok updated → updated.id = worker.id ∧
    updated.cpuCapacity = worker.cpuCapacity ∧
    updated.memoryCapacityBytes = worker.memoryCapacityBytes

theorem update_kept {db : Database Cpu Mem} {id : String}
    {fn : Worker Cpu Mem → Except WorkerError (Worker Cpu Mem)} (keeps : KeepsCapacity fn) :
    Kept db (update db id fn).2 := by
  have keepsID : KeepsID fn := fun worker updated accepted => (keeps worker updated accepted).1
  rcases update_cases keepsID with
    ⟨problem, refused⟩ | ⟨current, updated, after, read, accepted, own, isUpdated, written⟩
  · rw [refused]
    exact kept_refl db
  · rw [isUpdated]
    obtain ⟨-, stored, found, rfl⟩ := readWorker_ok_iff.mp read
    obtain ⟨-, cpu, memory⟩ := keeps _ _ accepted
    intro other row isRow
    by_cases same : other = updated.id
    · obtain rfl : row = stored := by
        rw [same, own, found] at isRow
        exact (Option.some.inj isRow).symm
      exact ⟨workerRow updated, by rw [written.find, if_pos same], cpu, memory⟩
    · exact ⟨row, by rw [written.find, if_neg same, isRow], rfl, rfl⟩

theorem heartbeatUpdate_keeps (now : Time) (newLeaseID : Option LeaseID)
    (gpus : Option (List (GPU Cpu Mem))) (runningJobIDs : Option (List String)) :
    KeepsCapacity (heartbeatUpdate now newLeaseID gpus runningJobIDs) := by
  intro worker updated accepted
  cases accepted
  exact ⟨rfl, rfl, rfl⟩

theorem markLostUpdate_keeps : KeepsCapacity (@markLostUpdate Cpu Mem) := by
  intro worker updated accepted
  obtain ⟨id, cpu, memory, -⟩ := markLost_inventory accepted
  exact ⟨id.symm, cpu.symm, memory.symm⟩

section Readings
variable [LinearOrder SortKey] {collation : Collation SortKey}

theorem step_kept {state next : State Cpu Mem} {label : Label Cpu Mem}
    (stepped : step collation state label = some next) : Kept state.db next.db := by
  cases label with
  | select caller query =>
      cases stepped
      exact kept_refl _
  | read caller =>
      obtain ⟨listing, -, rfl⟩ := Option.map_eq_some_iff.mp stepped
      exact kept_refl _
  | register now id leaseID input =>
      cases stepped
      exact create_kept _ _
  | heartbeat now workerID newLeaseID gpus runningJobIDs =>
      cases stepped
      exact update_kept (heartbeatUpdate_keeps now newLeaseID gpus runningJobIDs)
  | markLost workerID =>
      cases stepped
      exact update_kept markLostUpdate_keeps

theorem firstRows_stored {db : Database Cpu Mem} {query : Query} {rows : List (Worker Cpu Mem)}
    {token : String} (answered : firstRows collation db query = .ok (rows, token)) :
    ∀ worker ∈ rows, ∃ row, db.find worker.id = some row ∧ workerOf row = worker := by
  have found : ∀ worker : Worker Cpu Mem, (∃ row ∈ db.workers, workerOf row = worker) →
      ∃ row, db.find worker.id = some row ∧ workerOf row = worker := by
    rintro worker ⟨row, stored, rfl⟩
    exact ⟨row, find_iff.mpr ⟨stored, rfl⟩, rfl⟩
  intro worker listed
  cases query with
  | active =>
      simp only [firstRows, activeRows_eq, Except.ok.injEq, Prod.mk.injEq] at answered
      obtain ⟨rfl, -⟩ := answered
      obtain ⟨row, member, rfl⟩ := List.mem_map.mp listed
      exact found _ ⟨row, List.mem_of_mem_filter ((Keyset.sortBy_perm _).mem_iff.mp member), rfl⟩
  | page options => exact found worker (pageRows_stored collation answered worker listed)

/-- The rows were selected after `selecting`, and the GPUs of the worker asked for after
`between`: the record is the one of the first instant with the devices of the second. -/
def TwoReadings (collation : Collation SortKey) (labels : List (Label Cpu Mem)) (caller : Nat)
    (worker : Worker Cpu Mem) : Prop :=
  ∃ selecting query between after atSelect atRead selected current,
    labels = (selecting ++ Label.select caller query :: between) ++ Label.read caller :: after ∧
    run (step collation) State.start selecting = some atSelect ∧
    run (step collation) State.start (selecting ++ Label.select caller query :: between) =
      some atRead ∧
    get atSelect.db worker.id = .ok selected ∧ get atRead.db worker.id = .ok current ∧
    worker = { selected with gpus := current.gpus } ∧ SameInventory worker current

theorem TwoReadings.later {labels : List (Label Cpu Mem)} {caller : Nat} {worker : Worker Cpu Mem}
    (readings : TwoReadings collation labels caller worker) (label : Label Cpu Mem) :
    TwoReadings collation (labels ++ [label]) caller worker := by
  obtain ⟨selecting, query, between, after, atSelect, atRead, selected, current, rfl, rest⟩ := readings
  exact ⟨selecting, query, between, after ++ [label], atSelect, atRead, selected, current, by simp, rest⟩

/-- A row whose GPUs are still to be read: as it was selected, and still in the table. -/
def Selected (before now : Database Cpu Mem) (worker : Worker Cpu Mem) : Prop :=
  ∃ row row', before.find worker.id = some row ∧ workerOf row = worker ∧
    now.find worker.id = some row' ∧ (workerOf row').cpuCapacity = worker.cpuCapacity ∧
    (workerOf row').memoryCapacityBytes = worker.memoryCapacityBytes

theorem Selected.kept {before now next : Database Cpu Mem} {worker : Worker Cpu Mem}
    (selected : Selected before now worker) (kept : Kept now next) : Selected before next worker := by
  obtain ⟨row, row', found, rfl, stored, cpu, memory⟩ := selected
  obtain ⟨row'', stored', cpu', memory'⟩ := kept _ row' stored
  exact ⟨row, row'', found, rfl, stored', cpu'.trans cpu, memory'.trans memory⟩

/-- What is known of a listing from the labels so far. -/
def Traced (collation : Collation SortKey) (labels : List (Label Cpu Mem)) (db : Database Cpu Mem)
    (caller : Nat) : Listing Cpu Mem → Prop
  | .idle => True
  | .reading read ahead _ =>
      (∃ selecting query between atSelect,
        labels = selecting ++ Label.select caller query :: between ∧
        run (step collation) State.start selecting = some atSelect ∧
        ∀ worker ∈ ahead, Selected atSelect.db db worker) ∧
      ∀ worker ∈ read, TwoReadings collation labels caller worker
  | .returned (.ok result) => ∀ worker ∈ result.workers, TwoReadings collation labels caller worker
  | .returned (.error _) => True

theorem Traced.later {labels : List (Label Cpu Mem)} {db next : Database Cpu Mem} {caller : Nat}
    {listing : Listing Cpu Mem} (traced : Traced collation labels db caller listing)
    (kept : Kept db next) (label : Label Cpu Mem) :
    Traced collation (labels ++ [label]) next caller listing := by
  cases listing with
  | idle => trivial
  | reading read ahead token =>
      obtain ⟨⟨selecting, query, between, atSelect, rfl, reached, rows⟩, whole⟩ := traced
      refine ⟨⟨selecting, query, between ++ [label], atSelect, by simp, reached, ?_⟩, ?_⟩
      · exact fun worker member => (rows worker member).kept kept
      · exact fun worker member => (whole worker member).later label
  | returned answer =>
      cases answer with
      | error problem => trivial
      | ok result => exact fun worker member => (traced worker member).later label

theorem begin_traced {labels : List (Label Cpu Mem)} {state : State Cpu Mem} {caller : Nat}
    {query : Query} (reached : run (step collation) State.start labels = some state) :
    Traced collation (labels ++ [.select caller query]) state.db caller
      (Listing.begin collation state.db query) := by
  unfold Listing.begin
  cases first : firstRows collation state.db query with
  | error problem => trivial
  | ok page =>
      refine ⟨⟨labels, query, [], state, rfl, reached, fun worker listed => ?_⟩, by simp⟩
      obtain ⟨row, found, rfl⟩ := firstRows_stored first worker listed
      exact ⟨row, row, found, rfl, found, rfl, rfl⟩

/-- The GPUs that getGPUs answers with are those of the worker's record. -/
theorem getGPUs_current {db : Database Cpu Mem} {row : WorkerRow Cpu Mem} {id : String}
    {gpus : List (GPU Cpu Mem)} (found : db.find id = some row) (read : getGPUs db id = .ok gpus) :
    storableText id = true ∧ get db id = .ok { workerOf row with gpus := gpus } := by
  by_cases storable : storableText id
  · rw [getGPUs_storable storable, Except.ok.injEq] at read
    subst read
    obtain ⟨-, rfl⟩ := find_iff.mp found
    exact ⟨storable, readWorker_ok_iff.mpr ⟨storable, row, found, rfl⟩⟩
  · simp [getGPUs, selectGPUsByWorkerID, storable] at read

theorem advance_traced {labels : List (Label Cpu Mem)} {state : State Cpu Mem} {caller : Nat}
    {listing : Listing Cpu Mem} (reached : run (step collation) State.start labels = some state)
    (traced : Traced collation labels state.db caller (state.listings caller))
    (advanced : (state.listings caller).advance state.db = some listing) :
    Traced collation (labels ++ [.read caller]) state.db caller listing := by
  have later := traced.later (kept_refl state.db) (.read caller)
  cases standing : state.listings caller with
  | idle => simp [standing, Listing.advance] at advanced
  | returned answer => simp [standing, Listing.advance] at advanced
  | reading read ahead token =>
      rw [standing] at traced later advanced
      cases ahead with
      | nil =>
          obtain rfl := Option.some.inj advanced
          exact later.2
      | cons worker ahead =>
          cases gpus : getGPUs state.db worker.id with
          | error problem =>
              simp only [Listing.advance, gpus, Option.some.injEq] at advanced
              subst advanced
              trivial
          | ok devices =>
              simp only [Listing.advance, gpus, Option.some.injEq] at advanced
              subst advanced
              obtain ⟨⟨selecting, query, between, atSelect, rfl, began, rows⟩, -⟩ := traced
              obtain ⟨laterRows, whole⟩ := later
              refine ⟨?_, fun other member => ?_⟩
              · obtain ⟨selecting', query', between', atSelect', same, began', rows'⟩ := laterRows
                exact ⟨selecting', query', between', atSelect', same, began',
                  fun other member => rows' other (List.mem_cons_of_mem worker member)⟩
              · rcases List.mem_append.mp member with earlier | isNew
                · exact whole other earlier
                · obtain rfl := List.mem_singleton.mp isNew
                  obtain ⟨row, row', found, rfl, stored, cpu, memory⟩ :=
                    rows worker List.mem_cons_self
                  obtain ⟨storable, current⟩ := getGPUs_current stored gpus
                  have own : (workerOf row').id = (workerOf row).id := (find_iff.mp stored).2
                  exact ⟨selecting, query, between, [], atSelect, state, assembled atSelect.db row, _,
                    rfl, began, reached, readWorker_ok_iff.mpr ⟨storable, row, found, rfl⟩, current,
                    rfl, own.symm, cpu.symm, memory.symm, rfl⟩

theorem step_traced {labels : List (Label Cpu Mem)} {state next : State Cpu Mem}
    {label : Label Cpu Mem} (reached : run (step collation) State.start labels = some state)
    (traced : ∀ caller, Traced collation labels state.db caller (state.listings caller))
    (stepped : step collation state label = some next) (caller : Nat) :
    Traced collation (labels ++ [label]) next.db caller (next.listings caller) := by
  have others := (traced caller).later (step_kept stepped) label
  cases label with
  | select acting query =>
      obtain rfl := Option.some.inj stepped
      by_cases own : caller = acting
      · subst own
        rw [State.put_own, State.put_db]
        exact begin_traced reached
      · rw [State.put_other state own]
        exact others
  | read acting =>
      obtain ⟨listing, advanced, rfl⟩ := Option.map_eq_some_iff.mp stepped
      by_cases own : caller = acting
      · subst own
        rw [State.put_own, State.put_db]
        exact advance_traced reached (traced caller) advanced
      · rw [State.put_other state own]
        exact others
  | register now id leaseID input =>
      obtain rfl := Option.some.inj stepped
      exact others
  | heartbeat now workerID newLeaseID gpus runningJobIDs =>
      obtain rfl := Option.some.inj stepped
      exact others
  | markLost workerID =>
      obtain rfl := Option.some.inj stepped
      exact others

/-- Whatever is written while a listing runs, each worker it returns is the record of the
instant its row was selected, with the whole device list of the instant that was asked
for. The capacities never change, so they too are as of the latter; the status is as of
the former. When nothing is written meanwhile, the two are one. -/
theorem listed_from_two_readings (collation : Collation SortKey) (labels : List (Label Cpu Mem))
    (state : State Cpu Mem) (ran : run (step collation) State.start labels = some state)
    (caller : Nat) :
    (∀ result, state.listings caller = .returned (.ok result) →
      ∀ worker ∈ result.workers, TwoReadings collation labels caller worker) ∧
    ∀ query, ∃ count final,
      run (step collation) state (.select caller query :: List.replicate count (.read caller)) =
        some final ∧ final.db = state.db ∧
      final.listings caller = .returned (answer collation state.db query) := by
  have traced : ∀ caller, Traced collation labels state.db caller (state.listings caller) :=
    run_history (fun _ => trivial)
      (fun _ _ _ _ reached traced stepped caller => step_traced reached traced stepped caller) ran
  refine ⟨fun result returned => ?_, undisturbed_listing collation state caller⟩
  have own := traced caller
  rw [returned] at own
  exact own

end Readings

/-- While worker-1 is listed it reports a second device and is then lost. -/
def tornLabels : List (Label Int Int) :=
  [.register 0 "worker-1" 1 gpuNode.input, .select 0 .active,
    .heartbeat 1000 "worker-1" none (some [device 0 8192, device 1 8192]) none,
    .markLost "worker-1", .read 0, .read 0]

def Listing.workers : Listing Cpu Mem → List (Worker Cpu Mem)
  | .returned (.ok result) => result.workers
  | _ => []

theorem tornLabels_readings : ∃ state worker,
    run (step Collation.bytewise) State.start tornLabels = some state ∧
      (state.listings 0).workers = [worker] ∧ worker.status = .active ∧ worker.gpus.length = 2 ∧
      TwoReadings Collation.bytewise tornLabels 0 worker := by
  have reached : (run (step Collation.bytewise) State.start tornLabels).any (fun state =>
      (state.listings 0).workers.map (fun worker => (worker.status, worker.gpus.length)) =
        [(.active, 2)]) = true := by decide +kernel
  obtain ⟨state, ran, seen⟩ := (Option.any_eq_true _ _).mp reached
  obtain ⟨worker, listed, seen⟩ := List.map_eq_singleton_iff.mp (of_decide_eq_true seen)
  have returned : ∃ result, state.listings 0 = .returned (.ok result) ∧ worker ∈ result.workers := by
    cases standing : state.listings 0 with
    | returned answer =>
        cases answer with
        | error problem => simp [standing, Listing.workers] at listed
        | ok result => exact ⟨result, rfl, by simp_all [Listing.workers]⟩
    | idle => simp [standing, Listing.workers] at listed
    | reading read ahead token => simp [standing, Listing.workers] at listed
  obtain ⟨result, isResult, member⟩ := returned
  obtain ⟨active, devices⟩ := Prod.mk.inj seen
  exact ⟨state, worker, ran, listed, active, devices,
    (listed_from_two_readings Collation.bytewise tornLabels state ran 0).1 result isResult worker
      member⟩

end OrionQueue.WorkerListing
