import OrionQueue.Interchange
import OrionQueue.WorkerRepository

/-!
What Create and Update of `persistence.WorkerRepository` do to the tables, and when
they do it. The IDs that the repository makes up for the rows of `gpus` tell worker
and device apart, so that the primary key of the table refuses nothing but a device
that is listed twice.
-/

namespace OrionQueue.WorkerRepository

open Jobs Workers WorkerTable Database
open JobTable (SqlError storableText)
open JobRepository (micros ofMicros)

variable {Cpu Mem : Type}

/-! ### The IDs of the GPU rows -/

theorem toString_itoa (number : Int) : (toString number).toList = Decimal.itoa number := by
  have digits : ∀ value : Nat, (toString value).toList = Decimal.padded 0 value := by
    intro value
    simp [Decimal.padded]
  cases number with
  | ofNat value =>
      have nonneg : 0 ≤ Int.ofNat value := Int.natCast_nonneg value
      rw [Decimal.itoa, Decimal.signed_nonneg nonneg]
      exact digits value
  | negSucc value =>
      have signed : toString (Int.negSucc value) = "-" ++ toString (value + 1) := rfl
      rw [Decimal.itoa, Decimal.signed, if_pos (Int.negSucc_lt_zero value), signed,
        String.toList_append, digits]
      rfl

theorem itoa_injective {left right : Int} (same : Decimal.itoa left = Decimal.itoa right) :
    left = right := by
  have value : ∀ number : Int, Decimal.natural (Decimal.padded 0 number.natAbs) = some number.natAbs :=
    fun number => Decimal.natural_padded 0 number.natAbs
  have sign : ∀ number : Int, ('-' : Char) ∉ Decimal.padded 0 number.natAbs := fun number member =>
    absurd (Decimal.isDigit_padded member) (by decide)
  have magnitude : ∀ {first second : Int},
      Decimal.padded 0 first.natAbs = Decimal.padded 0 second.natAbs → first.natAbs = second.natAbs :=
    fun {first second} same => Option.some.inj ((value first).symm.trans (same ▸ value second))
  unfold Decimal.itoa Decimal.signed at same
  split_ifs at same with negative negative'
  · have := magnitude (List.cons.inj same).2
    omega
  · exact absurd (same ▸ List.mem_cons_self) (sign right)
  · exact absurd (same ▸ List.mem_cons_self) (sign left)
  · have := magnitude same
    omega

theorem mem_itoa {number : Int} {char : Char} (member : char ∈ Decimal.itoa number) :
    char = '-' ∨ char.isDigit = true := by
  unfold Decimal.itoa Decimal.signed at member
  split at member
  · rcases List.mem_cons.mp member with rfl | digit
    · exact Or.inl rfl
    · exact Or.inr (Decimal.isDigit_padded digit)
  · exact Or.inr (Decimal.isDigit_padded member)

/-- A mark that two texts do not contain cuts what precedes them off. -/
theorem cut_at_last {Item : Type} {mark : Item} {left left' right right' : List Item}
    (clean : mark ∉ right) (clean' : mark ∉ right')
    (same : left ++ mark :: right = left' ++ mark :: right') : left = left' ∧ right = right' := by
  induction left generalizing left' with
  | nil =>
      cases left' with
      | nil => exact ⟨rfl, (List.cons.inj same).2⟩
      | cons item rest =>
          obtain ⟨-, rfl⟩ := List.cons.inj same
          exact absurd (List.mem_append_right _ List.mem_cons_self) clean
  | cons item rest ih =>
      cases left' with
      | nil =>
          obtain ⟨-, rfl⟩ := List.cons.inj same
          exact absurd (List.mem_append_right _ List.mem_cons_self) clean'
      | cons item' rest' =>
          obtain ⟨rfl, tail⟩ := List.cons.inj same
          obtain ⟨rfl, rfl⟩ := ih tail
          exact ⟨rfl, rfl⟩

/-- No letter stands after the last "u" of a row's ID but those of the index. -/
theorem gpuRowID_injective {workerID workerID' : String} {deviceIndex deviceIndex' : Int}
    (same : gpuRowID workerID deviceIndex = gpuRowID workerID' deviceIndex') :
    workerID = workerID' ∧ deviceIndex = deviceIndex' := by
  have shape : ∀ (id : String) (index : Int), (gpuRowID id index).toList =
      (id.toList ++ ['-', 'g', 'p']) ++ 'u' :: ('-' :: Decimal.itoa index) := by
    intro id index
    rw [gpuRowID, String.toList_append, String.toList_append, toString_itoa]
    simp
  have clean : ∀ index : Int, 'u' ∉ '-' :: Decimal.itoa index := by
    intro index member
    rcases List.mem_cons.mp member with impossible | listed
    · exact absurd impossible (by decide)
    · rcases mem_itoa listed with impossible | digit
      · exact absurd impossible (by decide)
      · exact absurd digit (by decide)
  have texts := congrArg String.toList same
  rw [shape, shape] at texts
  obtain ⟨owners, indexes⟩ := cut_at_last (clean _) (clean _) texts
  exact ⟨String.toList_inj.mp (List.append_cancel_right owners),
    itoa_injective (List.cons.inj indexes).2⟩

/-! ### Rows that the columns accept -/

/-- Every column of the row takes its value. -/
def RowAccepted (row : WorkerRow Cpu Mem) : Prop :=
  ∀ column : WorkerColumn, column.type.accept (column.type.send (row column)) = .ok (row column)

def DeviceAccepted (row : GPURow Cpu Mem) : Prop :=
  ∀ column : GPUColumn, column.type.accept (column.type.send (row column)) = .ok (row column)

/-- The texts of a worker's own row. -/
def workerTexts (worker : Worker Cpu Mem) : List String :=
  [worker.id, worker.hostname, worker.softwareVersion] ++ worker.runningJobIDs ++
    worker.labels.flatMap fun field => [field.1, field.2]

theorem workerRow_accepted {worker : Worker Cpu Mem}
    (texts : ∀ text ∈ workerTexts worker, storableText text = true) :
    RowAccepted (workerRow worker) := by
  simp only [workerTexts, List.forall_mem_append, List.forall_mem_cons, List.forall_mem_flatMap] at texts
  obtain ⟨⟨⟨id, hostname, version, -⟩, running⟩, labels⟩ := texts
  have jobs : worker.runningJobIDs.all storableText = true := List.all_eq_true.mpr running
  have fields : (worker.labels.all fun field => storableText field.1 && storableText field.2) = true :=
    List.all_eq_true.mpr fun field listed => by
      have both := labels field listed
      simp [both.1, both.2.1]
  intro column
  cases column with
  | id => exact if_pos id
  | hostname => exact if_pos hostname
  | softwareVersion => exact if_pos version
  | runningJobIDs => exact if_pos jobs
  | labels => exact if_pos fields
  | status => cases status : worker.status <;> simp [workerRow, status] <;> rfl
  | leaseID => cases lease : worker.leaseID <;> simp [workerRow, lease] <;> rfl
  | cpuCapacity | memoryCapacityBytes | registeredAt | lastHeartbeatAt => rfl

theorem gpuRow_accepted {workerID : String} {gpu : GPU Cpu Mem} (owner : storableText workerID = true)
    (uuid : storableText gpu.uuid = true) (profile : storableText gpu.migProfile = true) :
    DeviceAccepted (gpuRow workerID gpu) := by
  have index : storableText (toString gpu.deviceIndex) = true := by
    rw [storableText, toString_itoa]
    refine List.all_eq_true.mpr fun char member => ?_
    rcases mem_itoa member with rfl | digit
    · rfl
    · refine decide_eq_true fun nul => ?_
      have isNul : char = Char.ofNat 0 := Char.toNat_inj.mp nul
      exact absurd (isNul ▸ digit) (by decide)
  have made : storableText (gpuRowID workerID gpu.deviceIndex) = true :=
    Interchange.storableText_append (Interchange.storableText_append owner rfl) index
  intro column
  cases column with
  | id => exact if_pos made
  | workerID => exact if_pos owner
  | uuid => exact if_pos uuid
  | migProfile => exact if_pos profile
  | temperatureCelsius =>
      cases temperature : gpu.temperatureCelsius <;> simp [gpuRow, temperature] <;> rfl
  | healthState => cases health : gpu.healthState <;> simp [gpuRow, health] <;> rfl
  | deviceIndex | totalMemoryBytes | allocatedMemoryBytes | utilizationPercent => rfl

theorem insertWorkerRow_accepts {row : WorkerRow Cpu Mem} (accepted : RowAccepted row) :
    insertWorkerRow (selectWorker row) = .ok row :=
  (Rows.assemble_ok_iff mem_workerColumnList).mpr fun column => by
    have cell := accepted column
    cases column <;> exact cell

theorem insertGPURow_accepts {row : GPURow Cpu Mem} (accepted : DeviceAccepted row) :
    insertGPURow (selectGPU row) = .ok row :=
  (Rows.assemble_ok_iff mem_gpuColumnList).mpr fun column => by
    have cell := accepted column
    cases column <;> exact cell

theorem updateWorkerRow_accepts {row values : WorkerRow Cpu Mem} (own : row.id = values.id)
    (accepted : RowAccepted values) : updateWorkerRow row (selectWorker values) = .ok values := by
  refine (Rows.assemble_ok_iff mem_workerColumnList).mpr fun column => ?_
  have cell := accepted column
  cases column with
  | id => exact congrArg Except.ok own
  | _ => exact cell

/-! ### The devices -/

/-- Every row of `gpus` is under the ID that the repository made up for it. -/
def Named (db : Database Cpu Mem) : Prop :=
  ∀ row ∈ db.gpus, row.id = gpuRowID row.workerID row.deviceIndex

section Devices
variable {db : Database Cpu Mem} {workerID : String}

theorem mem_gpusOf {row : GPURow Cpu Mem} :
    row ∈ db.gpusOf workerID ↔ row ∈ db.gpus ∧ row.workerID = workerID := by
  rw [gpusOf, List.mem_filter, decide_eq_true_eq]

theorem insertGPU_accepts {gpu : GPU Cpu Mem} (accepted : DeviceAccepted (gpuRow workerID gpu))
    (named : Named db) (known : workerID ∈ db.workers.map WorkerRow.id)
    (free : gpu.deviceIndex ∉ (db.gpusOf workerID).map GPURow.deviceIndex) :
    ∃ inserted, db.insertGPU (gpuArgs workerID gpu) = (.ok (), inserted) := by
  have absent : ∀ row ∈ db.gpus, row.workerID = workerID → row.deviceIndex ≠ gpu.deviceIndex :=
    fun row stored own same => free (List.mem_map.mpr ⟨row, mem_gpusOf.mpr ⟨stored, own⟩, same⟩)
  have unused : (gpuRow workerID gpu).id ∉ db.gpus.map GPURow.id := by
    intro listed
    obtain ⟨row, stored, same⟩ := List.mem_map.mp listed
    rw [named row stored] at same
    obtain ⟨own, index⟩ := gpuRowID_injective same
    exact absent row stored own index
  have apart : (gpuRow workerID gpu).device ∉ db.gpus.map GPURow.device := by
    intro listed
    obtain ⟨row, stored, same⟩ := List.mem_map.mp listed
    exact absent row stored (congrArg Prod.fst same) (congrArg Prod.snd same)
  refine ⟨db.addGPU (gpuRow workerID gpu) unused apart known, ?_⟩
  rw [gpuArgs_select, insertGPU, insertGPURow_accepts accepted]
  simp only [dif_neg unused, dif_neg apart]
  exact dif_pos known

theorem insertGPUs_accepts {gpus : List (GPU Cpu Mem)}
    (accepted : ∀ gpu ∈ gpus, DeviceAccepted (gpuRow workerID gpu)) (named : Named db)
    (known : workerID ∈ db.workers.map WorkerRow.id)
    (distinct : ((db.gpusOf workerID).map GPURow.deviceIndex ++ gpus.map GPU.deviceIndex).Nodup) :
    ∃ inserted, insertGPUs workerID gpus db = .ok inserted := by
  induction gpus generalizing db with
  | nil => exact ⟨db, rfl⟩
  | cons gpu rest ih =>
      have free : gpu.deviceIndex ∉ (db.gpusOf workerID).map GPURow.deviceIndex := fun listed =>
        List.disjoint_of_nodup_append distinct listed List.mem_cons_self
      obtain ⟨inserted, isInserted⟩ :=
        insertGPU_accepts (accepted gpu List.mem_cons_self) named known free
      obtain ⟨workers, devices⟩ := insertGPU_ok isInserted
      have named' : Named inserted := by
        intro row stored
        rw [devices] at stored
        rcases List.mem_append.mp stored with earlier | isNew
        · exact named row earlier
        · obtain rfl := List.mem_singleton.mp isNew
          rfl
      have grown : inserted.gpusOf workerID = db.gpusOf workerID ++ [gpuRow workerID gpu] := by
        rw [gpusOf, devices, List.filter_append]
        simp [gpusOf, gpuRow_workerID]
      have distinct' : ((inserted.gpusOf workerID).map GPURow.deviceIndex ++
          rest.map GPU.deviceIndex).Nodup := by
        rw [grown, List.map_append, List.append_assoc]
        exact distinct
      obtain ⟨after, isAfter⟩ := ih (fun other member => accepted other (List.mem_cons_of_mem gpu member))
        named' (workers ▸ known) distinct'
      exact ⟨after, by simp only [insertGPUs, isInserted, isAfter]⟩

theorem replaceGPUs_accepts {gpus : List (GPU Cpu Mem)} (storable : storableText workerID = true)
    (accepted : ∀ gpu ∈ gpus, DeviceAccepted (gpuRow workerID gpu)) (named : Named db)
    (known : workerID ∈ db.workers.map WorkerRow.id) (distinct : (gpus.map GPU.deviceIndex).Nodup) :
    ∃ replaced, replaceGPUs db workerID gpus = .ok replaced := by
  have named' : Named (db.removeGPUs workerID) :=
    fun row stored => named row (List.mem_of_mem_filter stored)
  have distinct' : (((db.removeGPUs workerID).gpusOf workerID).map GPURow.deviceIndex ++
      gpus.map GPU.deviceIndex).Nodup := by
    rw [gpusOf_removeGPUs]
    exact distinct
  obtain ⟨replaced, isReplaced⟩ : ∃ replaced,
      insertGPUs workerID gpus (db.removeGPUs workerID) = .ok replaced :=
    insertGPUs_accepts accepted named' known distinct'
  exact ⟨replaced, by simp only [replaceGPUs, deleteGPUs, if_pos storable, isReplaced]⟩

theorem replaceGPUs_tables {replaced : Database Cpu Mem} {gpus : List (GPU Cpu Mem)}
    (accepted : replaceGPUs db workerID gpus = .ok replaced) :
    storableText workerID = true ∧ replaced.workers = db.workers ∧
      replaced.gpus = (db.gpus.filter fun row => row.workerID ≠ workerID) ++
        gpus.map (gpuRow workerID) := by
  unfold replaceGPUs deleteGPUs at accepted
  by_cases storable : storableText workerID
  · simp only [if_pos storable] at accepted
    obtain ⟨workers, devices⟩ := insertGPUs_ok accepted
    exact ⟨storable, workers, devices⟩
  · simp [storable] at accepted

end Devices

/-! ### The writing methods -/

/-- The worker's row and devices are those of `worker`, and nothing else has changed. -/
structure Written (db after : Database Cpu Mem) (worker : Worker Cpu Mem) : Prop where
  storable : storableText worker.id = true
  find : ∀ id, after.find id = if id = worker.id then some (workerRow worker) else db.find id
  gpus : after.gpus = (db.gpus.filter fun row => row.workerID ≠ worker.id) ++
    worker.gpus.map (gpuRow worker.id)

/-- What both methods return. -/
def returned (worker : Worker Cpu Mem) : Worker Cpu Mem :=
  { workerOf (workerRow worker) with gpus := worker.gpus }

/-- A worker that the tables accept. -/
structure Acceptable (worker : Worker Cpu Mem) : Prop where
  texts : ∀ text ∈ workerTexts worker, storableText text = true
  devices : ∀ gpu ∈ worker.gpus, storableText gpu.uuid = true ∧ storableText gpu.migProfile = true
  distinct : (worker.gpus.map GPU.deviceIndex).Nodup

theorem Acceptable.id {worker : Worker Cpu Mem} (acceptable : Acceptable worker) :
    storableText worker.id = true :=
  acceptable.texts worker.id (by simp [workerTexts])

theorem Acceptable.rows {worker : Worker Cpu Mem} (acceptable : Acceptable worker) :
    ∀ gpu ∈ worker.gpus, DeviceAccepted (gpuRow worker.id gpu) := fun gpu member =>
  gpuRow_accepted acceptable.id (acceptable.devices gpu member).1 (acceptable.devices gpu member).2

section Methods
variable {db : Database Cpu Mem}

theorem Written.gpusOf_own {after : Database Cpu Mem} {worker : Worker Cpu Mem}
    (written : Written db after worker) :
    after.gpusOf worker.id = worker.gpus.map (gpuRow worker.id) := by
  rw [gpusOf, written.gpus, List.filter_append, List.filter_filter]
  simp [gpuRow_workerID]

theorem Written.gpusOf_other {after : Database Cpu Mem} {worker : Worker Cpu Mem}
    (written : Written db after worker) {id : String} (other : id ≠ worker.id) :
    after.gpusOf id = db.gpusOf id := by
  have none : ((worker.gpus.map (gpuRow worker.id)).filter fun row => row.workerID = id) = [] := by
    simpa [gpuRow_workerID] using fun _ _ => other.symm
  rw [gpusOf, gpusOf, written.gpus, List.filter_append, none, List.append_nil, List.filter_filter]
  refine List.filter_congr fun row _ => ?_
  by_cases own : row.workerID = id <;> simp [own, other]

theorem Written.workers {after : Database Cpu Mem} {worker : Worker Cpu Mem}
    (written : Written db after worker) (id : String) :
    (after.find id).map (assembled after) =
      if id = worker.id then some (assembled after (workerRow worker))
      else (db.find id).map (assembled db) := by
  rw [written.find]
  split
  case isTrue => rfl
  case isFalse other =>
    cases found : db.find id with
    | none => rfl
    | some row =>
        obtain ⟨-, rfl⟩ := find_iff.mp found
        rw [Option.map_some, Option.map_some, assembled, assembled, written.gpusOf_other other]

theorem Written.named {after : Database Cpu Mem} {worker : Worker Cpu Mem}
    (written : Written db after worker) (named : Named db) : Named after := by
  intro row stored
  rw [written.gpus] at stored
  rcases List.mem_append.mp stored with earlier | isNew
  · exact named row (List.mem_of_mem_filter earlier)
  · obtain ⟨gpu, -, rfl⟩ := List.mem_map.mp isNew
    rfl

theorem find_none_iff {id : String} : db.find id = none ↔ id ∉ db.workers.map WorkerRow.id := by
  rw [Database.find, List.find?_eq_none]
  simp [eq_comm]

theorem find_added {row : WorkerRow Cpu Mem} (unused : row.id ∉ db.workers.map WorkerRow.id)
    (id : String) :
    (db.addWorker row unused).find id = if id = row.id then some row else db.find id := by
  split
  case isTrue own => rw [own, find_addWorker]
  case isFalse other =>
    have last : [row].find? (fun row => row.id = id) = none := by simpa using Ne.symm other
    rw [Database.find, addWorker, List.find?_append, last, Option.or_none, Database.find]

theorem find_set {changed row : WorkerRow Cpu Mem} (found : db.find changed.id = some row)
    (id : String) :
    (db.setWorker changed).find id = if id = changed.id then some changed else db.find id := by
  split
  case isTrue own =>
    rw [own, find_setWorker found]
    exact congrArg some (if_pos (find_iff.mp found).2)
  case isFalse other =>
    cases known : db.find id with
    | none =>
        rw [find_none_iff, setWorker, setRow_ids]
        exact find_none_iff.mp known
    | some stored =>
        rw [find_setWorker known, setRow, if_neg]
        rwa [(find_iff.mp known).2]

/-- What replaceGPUs makes of a table in which the worker's row is already in place. -/
theorem replaced_written {placed replaced : Database Cpu Mem} {worker : Worker Cpu Mem}
    (find : ∀ id, placed.find id = if id = worker.id then some (workerRow worker) else db.find id)
    (devices : placed.gpus = db.gpus)
    (accepted : replaceGPUs placed worker.id worker.gpus = .ok replaced) :
    Written db replaced worker := by
  obtain ⟨storable, workers, gpus⟩ := replaceGPUs_tables accepted
  exact ⟨storable, fun id => (find_congr workers id).trans (find id), devices ▸ gpus⟩

theorem scanned_workerRow (context : String) (worker : Worker Cpu Mem) :
    scanned context (.ok (selectWorker (workerRow worker))) = .ok (workerOf (workerRow worker)) := by
  simp only [scanned, scanWorker_select]

theorem create_cases (db : Database Cpu Mem) (worker : Worker Cpu Mem) :
    (∃ problem, create db worker = (.error problem, db)) ∨
      ∃ after, create db worker = (.ok (returned worker), after) ∧ db.find worker.id = none ∧
        Written db after worker := by
  cases built : insertWorkerRow (selectWorker (workerRow worker)) with
  | error problem =>
      left
      simp [create, insertWorker, workerArgs_select, built, scanned]
  | ok row =>
      obtain rfl : row = workerRow worker := insertWorkerRow_select built
      by_cases used : (workerRow worker).id ∈ db.workers.map WorkerRow.id
      · left
        simp [create, insertWorker, workerArgs_select, built, used, scanned]
      · have inserted : db.insertWorker (workerArgs worker) =
            (.ok (selectWorker (workerRow worker)), db.addWorker (workerRow worker) used) := by
          rw [insertWorker, workerArgs_select, built]
          exact dif_neg used
        cases devices : replaceGPUs (db.addWorker (workerRow worker) used) worker.id worker.gpus with
        | error problem =>
            left
            exact ⟨problem, by simp only [create, inserted, scanned_workerRow, devices]⟩
        | ok replaced =>
            right
            refine ⟨replaced, by simp only [create, inserted, scanned_workerRow, devices, returned],
              find_none_iff.mpr used, replaced_written (find_added used) rfl devices⟩

theorem create_accepts {worker : Worker Cpu Mem} (acceptable : Acceptable worker) (named : Named db)
    (unused : db.find worker.id = none) :
    ∃ after, create db worker = (.ok (returned worker), after) ∧ Written db after worker := by
  have fresh : (workerRow worker).id ∉ db.workers.map WorkerRow.id := find_none_iff.mp unused
  have inserted : db.insertWorker (workerArgs worker) =
      (.ok (selectWorker (workerRow worker)), db.addWorker (workerRow worker) fresh) := by
    rw [insertWorker, workerArgs_select, insertWorkerRow_accepts (workerRow_accepted acceptable.texts)]
    exact dif_neg fresh
  have known : worker.id ∈ (db.addWorker (workerRow worker) fresh).workers.map WorkerRow.id := by
    simp [addWorker, WorkerRow.id, workerRow]
  obtain ⟨replaced, devices⟩ : ∃ replaced,
      replaceGPUs (db.addWorker (workerRow worker) fresh) worker.id worker.gpus = .ok replaced :=
    replaceGPUs_accepts acceptable.id acceptable.rows named known acceptable.distinct
  exact ⟨replaced, by simp only [create, inserted, scanned_workerRow, devices, returned],
    replaced_written (find_added fresh) rfl devices⟩

/-- A callback of Update that keeps the ID. -/
def KeepsID (fn : Worker Cpu Mem → Except WorkerError (Worker Cpu Mem)) : Prop :=
  ∀ worker updated, fn worker = .ok updated → updated.id = worker.id

theorem get_id {id : String} {worker : Worker Cpu Mem} (read : get db id = .ok worker) :
    worker.id = id := by
  obtain ⟨-, row, found, rfl⟩ := readWorker_ok_iff.mp read
  exact (find_iff.mp found).2

theorem update_cases {id : String} {fn : Worker Cpu Mem → Except WorkerError (Worker Cpu Mem)}
    (keeps : KeepsID fn) :
    (∃ problem, update db id fn = (.error problem, db)) ∨
      ∃ current updated after, get db id = .ok current ∧ fn current = .ok updated ∧
        updated.id = id ∧ update db id fn = (.ok (returned updated), after) ∧
        Written db after updated := by
  cases read : readWorker "persistence: select worker for update" db id with
  | error problem => exact Or.inl ⟨problem, by simp only [update, read]⟩
  | ok current =>
      have isRead : get db id = .ok current := readWorker_ok_iff.mpr (readWorker_ok_iff.mp read)
      cases answer : fn current with
      | error problem => exact Or.inl ⟨.worker problem, by simp only [update, read, answer]⟩
      | ok updated =>
          have own : updated.id = id := (keeps current updated answer).trans (get_id isRead)
          rcases statement : db.updateWorker (workerArgs updated) with ⟨reply, written⟩
          cases reply with
          | error problem =>
              exact Or.inl ⟨_, by simp only [update, read, answer, statement, scanned]; rfl⟩
          | ok values =>
              obtain ⟨rfl, rfl⟩ := updateWorker_ok statement
              cases devices : replaceGPUs (db.setWorker (workerRow updated)) id updated.gpus with
              | error problem =>
                  exact Or.inl ⟨_, by
                    simp only [update, read, answer, statement, scanned_workerRow, devices]; rfl⟩
              | ok replaced =>
                  obtain ⟨-, row, found, -⟩ := readWorker_ok_iff.mp read
                  refine Or.inr ⟨current, updated, replaced, isRead, answer, own, ?_, ?_⟩
                  · simp only [update, read, answer, statement, scanned_workerRow, devices, returned]
                  · rw [← own] at found devices
                    have kept : (db.setWorker (workerRow updated)).gpus = db.gpus := rfl
                    exact replaced_written (find_set found) kept devices

theorem update_accepts {id : String} {fn : Worker Cpu Mem → Except WorkerError (Worker Cpu Mem)}
    {current updated : Worker Cpu Mem} (named : Named db) (read : get db id = .ok current)
    (answer : fn current = .ok updated) (own : updated.id = id) (acceptable : Acceptable updated) :
    ∃ after, update db id fn = (.ok (returned updated), after) ∧ Written db after updated := by
  subst own
  obtain ⟨-, row, found, -⟩ := readWorker_ok_iff.mp read
  have selected : readWorker "persistence: select worker for update" db updated.id = .ok current :=
    readWorker_ok_iff.mpr (readWorker_ok_iff.mp read)
  have bound : bindArgument (workerArgs updated) .text 1 = .ok updated.id := if_pos acceptable.id
  have built : updateWorkerRow row (workerArgs updated) = .ok (workerRow updated) :=
    updateWorkerRow_accepts (find_iff.mp found).2 (workerRow_accepted acceptable.texts)
  have statement : db.updateWorker (workerArgs updated) =
      (.ok (selectWorker (workerRow updated)), db.setWorker (workerRow updated)) := by
    simp only [updateWorker, bound, found, built]
  have known : updated.id ∈ (db.setWorker (workerRow updated)).workers.map WorkerRow.id := by
    rw [setWorker, setRow_ids]
    exact List.mem_map.mpr ⟨row, find_iff.mp found⟩
  obtain ⟨replaced, devices⟩ : ∃ replaced,
      replaceGPUs (db.setWorker (workerRow updated)) updated.id updated.gpus = .ok replaced :=
    replaceGPUs_accepts acceptable.id acceptable.rows named known acceptable.distinct
  have kept : (db.setWorker (workerRow updated)).gpus = db.gpus := rfl
  refine ⟨replaced, ?_, replaced_written (find_set found) kept devices⟩
  simp only [update, selected, answer, statement, scanned_workerRow, devices, returned]

end Methods

end OrionQueue.WorkerRepository
