import OrionQueue.Planner
import OrionQueue.WorkerListing

/-!
The two worker repositories holding the same workers. PostgreSQL gives the devices of
a worker back by index and under the IDs of their rows, so the records agree up to
that: `canonical` is a record as Get reads it. Nothing that the planner looks at
depends on the order or the IDs of the devices, so the workers listed by either
repository are planned for alike.
-/

namespace OrionQueue.FleetAgreement

open Jobs Workers WorkerTable Database WorkerRepository Planner
open JobTable (Collation storableText)
open JobRepository (micros ofMicros)

variable {Cpu Mem : Type}

/-- The devices of a worker as they are read back. -/
def inventory (workerID : String) (gpus : List (GPU Cpu Mem)) : List (GPU Cpu Mem) :=
  (Keyset.sortBy GPURow.deviceIndex (gpus.map (gpuRow workerID))).map gpuOf

def canonical (worker : Worker Cpu Mem) : Worker Cpu Mem :=
  { worker with gpus := inventory worker.id worker.gpus }

/-- What the tables hold of a worker without loss. -/
structure Storable (worker : Worker Cpu Mem) : Prop extends Acceptable worker where
  registered : 1000 ∣ worker.registeredAt
  heard : 1000 ∣ worker.lastHeartbeatAt

theorem inventory_perm (workerID : String) (gpus : List (GPU Cpu Mem)) :
    (inventory workerID gpus).Perm
      (gpus.map fun gpu => { gpu with id := gpuRowID workerID gpu.deviceIndex }) := by
  have sorted : (inventory workerID gpus).Perm ((gpus.map (gpuRow workerID)).map gpuOf) :=
    (Keyset.sortBy_perm _).map gpuOf
  rwa [List.map_map] at sorted

theorem inventory_indexes (workerID : String) (gpus : List (GPU Cpu Mem)) :
    ((inventory workerID gpus).map GPU.deviceIndex).Perm (gpus.map GPU.deviceIndex) := by
  have indexes := (inventory_perm workerID gpus).map GPU.deviceIndex
  rwa [List.map_map] at indexes

theorem canonical_storable {worker : Worker Cpu Mem} (storable : Storable worker) :
    Storable (canonical worker) where
  texts := storable.texts
  devices gpu member := by
    obtain ⟨given, listed, rfl⟩ :=
      List.mem_map.mp ((inventory_perm worker.id worker.gpus).mem_iff.mp member)
    exact storable.devices given listed
  distinct := (inventory_indexes worker.id worker.gpus).nodup_iff.mpr storable.distinct
  registered := storable.registered
  heard := storable.heard

theorem workerOf_workerRow {worker : Worker Cpu Mem} (storable : Storable worker) :
    workerOf (workerRow worker) = { worker with gpus := [] } := by
  have unfolded : workerOf (workerRow worker) =
      { worker with
        gpus := []
        registeredAt := ofMicros (micros worker.registeredAt)
        lastHeartbeatAt := ofMicros (micros worker.lastHeartbeatAt) } := rfl
  rw [unfolded, StoreAgreement.ofMicros_micros storable.registered,
    StoreAgreement.ofMicros_micros storable.heard]

theorem returned_storable {worker : Worker Cpu Mem} (storable : Storable worker) :
    returned worker = worker := by
  rw [returned, workerOf_workerRow storable]

theorem assembled_written {db after : Database Cpu Mem} {worker : Worker Cpu Mem}
    (written : Written db after worker) (storable : Storable worker) :
    assembled after (workerRow worker) = canonical worker := by
  have own : (workerRow worker).id = worker.id := rfl
  rw [assembled, own, written.gpusOf_own, workerOf_workerRow storable]
  rfl

/-- The two stores hold the same workers, up to the order and the IDs of devices. -/
structure Mirrors (memory : MemoryRepository Cpu Mem) (db : Database Cpu Mem) : Prop where
  same : ∀ id, (memory.find id).map canonical = (db.find id).map (assembled db)
  keyed : ∀ id worker, memory.find id = some worker → worker.id = id
  storable : ∀ id worker, memory.find id = some worker → Storable worker
  named : Named db

theorem empty_mirrors : Mirrors (MemoryRepository.empty : MemoryRepository Cpu Mem) Database.empty where
  same id := by
    rw [MemoryRepository.find_empty]
    rfl
  keyed id worker found := by simp at found
  storable id worker found := by simp at found
  named := by simp [Named, Database.empty]

section Methods
variable {memory : MemoryRepository Cpu Mem} {db : Database Cpu Mem}

theorem mirrors_find (mirrors : Mirrors memory db) {id : String} {worker : Worker Cpu Mem}
    (found : memory.find id = some worker) :
    ∃ row, db.find id = some row ∧ assembled db row = canonical worker := by
  have same := mirrors.same id
  rw [found, Option.map_some] at same
  exact Option.map_eq_some_iff.mp same.symm

theorem mirrors_missing (mirrors : Mirrors memory db) {id : String} :
    memory.find id = none ↔ db.find id = none := by
  have same := mirrors.same id
  rw [← Option.map_eq_none_iff (f := canonical), same, Option.map_eq_none_iff]

theorem get_agrees (mirrors : Mirrors memory db) {id : String} {worker : Worker Cpu Mem}
    (found : memory.find id = some worker) : WorkerRepository.get db id = .ok (canonical worker) := by
  obtain ⟨row, isRow, same⟩ := mirrors_find mirrors found
  have storable := (mirrors.storable id worker found).id
  rw [mirrors.keyed id worker found] at storable
  exact readWorker_ok_iff.mpr ⟨storable, row, isRow, same⟩

/-- One record written to both stores, to the one as it was given and to the other as it
is read back from there. -/
theorem written_mirrors (mirrors : Mirrors memory db) {memory' : MemoryRepository Cpu Mem}
    {after : Database Cpu Mem} {worker worker' : Worker Cpu Mem} (written : Written db after worker')
    (stored : ∀ id, memory'.find id = if id = worker.id then some worker else memory.find id)
    (own : worker'.id = worker.id) (alike : canonical worker' = canonical worker)
    (storable : Storable worker) (storable' : Storable worker') : Mirrors memory' after where
  same id := by
    rw [written.workers, stored, own]
    split
    · rw [Option.map_some, assembled_written written storable', alike]
    · exact mirrors.same id
  keyed id record found := by
    rw [stored] at found
    split at found
    case isTrue same => rw [← Option.some.inj found, same]
    case isFalse => exact mirrors.keyed id record found
  storable id record found := by
    rw [stored] at found
    split at found
    · exact Option.some.inj found ▸ storable
    · exact mirrors.storable id record found
  named := written.named mirrors.named

theorem create_agrees (mirrors : Mirrors memory db) {worker : Worker Cpu Mem}
    (storable : Storable worker) (unused : memory.find worker.id = none) :
    (WorkerRepository.create db worker).1 = .ok worker ∧
      Mirrors (memory.create worker) (WorkerRepository.create db worker).2 := by
  obtain ⟨after, created, written⟩ :=
    create_accepts storable.toAcceptable mirrors.named ((mirrors_missing mirrors).mp unused)
  rw [created, returned_storable storable]
  exact ⟨rfl, written_mirrors mirrors written (memory.find_create worker) rfl rfl storable storable⟩

/-- What a callback makes of a record, as long as the two stores take it alike. -/
structure Steady (result : Worker Cpu Mem → Worker Cpu Mem) : Prop where
  storable : ∀ worker, Storable worker → Storable (result worker)
  id : ∀ worker, (result worker).id = worker.id
  alike : ∀ worker, Storable worker → canonical (result (canonical worker)) = canonical (result worker)

theorem update_agrees (mirrors : Mirrors memory db) {id : String} (accepted : storableText id = true)
    {fn : Worker Cpu Mem → Except WorkerError (Worker Cpu Mem)}
    {result : Worker Cpu Mem → Worker Cpu Mem} (total : ∀ worker, fn worker = .ok (result worker))
    (steady : Steady result) :
    ((memory.update id fn).1 = .error .notFound ∧
        (WorkerRepository.update db id fn).1 = .error (.worker .notFound) ∨
      ∃ worker worker', (memory.update id fn).1 = .ok worker ∧
        (WorkerRepository.update db id fn).1 = .ok worker' ∧ canonical worker' = canonical worker) ∧
      Mirrors (memory.update id fn).2 (WorkerRepository.update db id fn).2 := by
  cases found : memory.find id with
  | none =>
      have absent := (mirrors_missing mirrors).mp found
      have refused : WorkerRepository.update db id fn = (.error (.worker .notFound), db) := by
        simp [WorkerRepository.update, readWorker, selectWorkerByID, accepted, absent, scannedOrNotFound]
      have missing : memory.update id fn = (.error .notFound, memory) := by
        simp only [MemoryRepository.update, found]
      rw [refused, missing]
      exact ⟨Or.inl ⟨rfl, rfl⟩, mirrors⟩
  | some worker =>
      have storable := mirrors.storable id worker found
      have own : worker.id = id := mirrors.keyed id worker found
      have storable' := steady.storable _ (canonical_storable storable)
      have kept : (result (canonical worker)).id = id := (steady.id _).trans own
      obtain ⟨after, updated, written⟩ := update_accepts mirrors.named (get_agrees mirrors found)
        (total (canonical worker)) kept storable'.toAcceptable
      have stored : ∀ other, (memory.update id fn).2.find other =
          if other = (result worker).id then some (result worker) else memory.find other := by
        intro other
        rw [memory.find_update id total, found, Option.map_some, steady.id, own]
      rw [updated]
      refine ⟨Or.inr ⟨result worker, _, ?_, rfl, ?_⟩, ?_⟩
      · simp only [MemoryRepository.update, found, total]
      · rw [returned_storable storable']
        exact steady.alike worker storable
      · exact written_mirrors mirrors written stored (kept.trans ((steady.id worker).trans own).symm)
          (steady.alike worker storable) (steady.storable worker storable) storable'

end Methods

/-! ### The callbacks of the service -/

/-- The order of ListActive, of a worker. -/
def workerKey (worker : Worker Cpu Mem) : Int ×ₗ String := toLex (worker.registeredAt, worker.id)

theorem registrationLess_iff (left right : Worker Cpu Mem) :
    MemoryRepository.registrationLess right left = false ↔ workerKey left ≤ workerKey right := by
  rw [workerKey, workerKey, Prod.Lex.toLex_le_toLex, MemoryRepository.registrationLess]
  split <;> rw [decide_eq_false_iff_not, not_lt]
  case isTrue same => simp [same]
  case isFalse apart => simp [Ne.symm apart, le_iff_lt_or_eq]

theorem workerKey_le (db : Database Cpu Mem) (left right : WorkerRow Cpu Mem) :
    registrationKey Collation.bytewise left ≤ registrationKey Collation.bytewise right ↔
      workerKey (assembled db left) ≤ workerKey (assembled db right) := by
  have times : ∀ row : WorkerRow Cpu Mem,
      (assembled db row).registeredAt = row.registeredAt * 1000 := fun _ => rfl
  have ids : ∀ row : WorkerRow Cpu Mem, (assembled db row).id = row.id := fun _ => rfl
  rw [registrationKey, registrationKey, workerKey, workerKey, Prod.Lex.toLex_le_toLex,
    Prod.Lex.toLex_le_toLex, times, times, ids, ids, Int.mul_lt_mul_right (by decide),
    Int.mul_eq_mul_right_iff (by decide)]
  rfl

theorem fillGPUs_rows {db : Database Cpu Mem} {rows : List (WorkerRow Cpu Mem)}
    (storable : ∀ row ∈ rows, storableText row.id = true) :
    fillGPUs db (rows.map workerOf) = .ok (rows.map (assembled db)) := by
  induction rows with
  | nil => rfl
  | cons row rest ih =>
      have own : getGPUs db (workerOf row).id = .ok (assembled db row).gpus :=
        getGPUs_storable (storable row List.mem_cons_self)
      rw [List.map_cons, fillGPUs, own, ih fun other member => storable other (List.mem_cons_of_mem row member)]
      rfl

section Listings
variable {memory : MemoryRepository Cpu Mem} {db : Database Cpu Mem}

theorem row_mirrored (mirrors : Mirrors memory db) {row : WorkerRow Cpu Mem} (stored : row ∈ db.workers) :
    ∃ worker, memory.find row.id = some worker ∧ canonical worker = assembled db row := by
  have same := mirrors.same row.id
  rw [find_iff.mpr ⟨stored, rfl⟩, Option.map_some] at same
  exact Option.map_eq_some_iff.mp same

theorem workers_perm (mirrors : Mirrors memory db) :
    ((Tables.values memory.workersByID).map canonical).Perm (db.workers.map (assembled db)) := by
  have ids : (((Tables.values memory.workersByID).map canonical).map Worker.id).Nodup := by
    rw [List.map_map]
    exact Tables.keyed_values_nodup mirrors.keyed
  have rows : ((db.workers.map (assembled db)).map Worker.id).Nodup := by
    rw [List.map_map]
    exact db.workerKey
  refine (List.perm_ext_iff_of_nodup ids.of_map rows.of_map).mpr fun worker => ?_
  rw [List.mem_map, List.mem_map]
  constructor
  · rintro ⟨record, listed, rfl⟩
    obtain ⟨id, found⟩ := Tables.mem_values_iff.mp listed
    obtain ⟨row, isRow, same⟩ := mirrors_find mirrors found
    exact ⟨row, (find_iff.mp isRow).1, same⟩
  · rintro ⟨row, stored, rfl⟩
    obtain ⟨record, found, same⟩ := row_mirrored mirrors stored
    exact ⟨record, Tables.mem_values_iff.mpr ⟨row.id, found⟩, same⟩

/-- ListActive of both repositories, which sort alike where IDs are compared as bytes. -/
theorem listActive_agrees (mirrors : Mirrors memory db) :
    WorkerRepository.listActive Collation.bytewise db = .ok (memory.listActive.map canonical) := by
  have storable : ∀ row ∈ Keyset.sortBy (registrationKey Collation.bytewise)
      (db.workers.filter fun row => row.status = .active), storableText row.id = true := by
    intro row member
    have stored := List.mem_of_mem_filter ((Keyset.sortBy_perm _).mem_iff.mp member)
    obtain ⟨worker, found, -⟩ := row_mirrored mirrors stored
    have accepted := (mirrors.storable _ worker found).id
    rwa [mirrors.keyed _ worker found] at accepted
  have active : ((db.workers.filter fun row => row.status = .active).map (assembled db)).Perm
      (((Tables.values memory.workersByID).filter fun worker => worker.status = .active).map canonical) := by
    have filtered := (workers_perm mirrors).symm.filter fun worker => worker.status = .active
    rwa [List.filter_map, List.filter_map] at filtered
  have distinct : (((db.workers.filter fun row => row.status = .active).map (assembled db)).map
      workerKey).Nodup := by
    have ids : ((db.workers.filter fun row => row.status = .active).map WorkerRow.id).Nodup :=
      db.workerKey.sublist (List.filter_sublist.map WorkerRow.id)
    rw [List.map_map]
    exact List.pairwise_map.mpr ((List.pairwise_map.mp ids).imp fun apart same =>
      apart (congrArg (fun key => (ofLex key).2) same))
  have renamed : ∀ left right : Worker Cpu Mem, workerKey left ≤ workerKey right ↔
      workerKey (canonical left) ≤ workerKey (canonical right) := fun _ _ => Iff.rfl
  simp only [WorkerRepository.listActive, activeRows_eq, fillGPUs_rows storable]
  rw [Keyset.sortBy_map fun left right => workerKey_le db left right,
    Keyset.sortBy_congr active distinct, MemoryRepository.listActive,
    Keyset.insertionSort_eq_sortBy registrationLess_iff, Keyset.sortBy_map renamed]

end Listings

section Plans
variable [LE Mem] [DecidableLE Mem]

variable [Sub Cpu] [LT Cpu] [DecidableLT Cpu] [Sub Mem] [LT Mem] [DecidableLT Mem]

variable [Add Cpu] [Add Mem]

variable [Zero Cpu] [Zero Mem]

variable [LE Cpu] [DecidableLE Cpu]

end Plans

end OrionQueue.FleetAgreement
