import OrionQueue.Repositories
import OrionQueue.Submissions

/-!
MemoryRepository and JobRepository holding the same jobs. As long as PostgreSQL
can store what is written, a job goes through the 23 columns and back unchanged,
so that Get, Create and Update answer alike and leave the same jobs behind.
-/

namespace OrionQueue.StoreAgreement

open Jobs JobService JobStore MemoryRepository JobTable Database JobRepository JobListing Repositories

variable {Cpu Mem : Type}

/-- What a row holds without loss. The count of GPUs is a uint32. -/
structure Storable (job : Job Cpu Mem) : Prop where
  texts : ∀ text ∈ [job.id, job.submissionID, job.name, job.owner, job.image, job.failureReason],
    storableText text = true
  command : job.command.all storableText = true
  workers : job.assignedWorkerIDs.all storableText = true
  gpus : job.resources.gpuCount < 2 ^ 32
  created : 1000 ∣ job.createdAt
  started : ∀ time ∈ job.startedAt, 1000 ∣ time
  completed : ∀ time ∈ job.completedAt, 1000 ∣ time
  failed : ∀ time ∈ job.failedAt, 1000 ∣ time

theorem uint32_int32 {count : Nat} (small : count < 2 ^ 32) : uint32 (int32 count) = count := by
  have same := Int.bmod_emod (x := (count : Int)) (m := 2 ^ 32)
  simp only [Nat.cast_pow, Nat.cast_ofNat] at same
  unfold uint32 int32
  rw [same]
  omega

theorem ofMicros_micros {time : Time} (whole : 1000 ∣ time) : ofMicros (micros time) = time :=
  Int.ediv_mul_cancel whole

theorem map_ofMicros {time : Option Time} (whole : ∀ instant ∈ time, 1000 ∣ instant) :
    (time.map micros).map ofMicros = time := by
  cases time with
  | none => rfl
  | some instant => rw [Option.map_some, Option.map_some, ofMicros_micros (whole instant rfl)]

theorem storable_row {job : Job Cpu Mem} (storable : Storable job) : storableRow (rowOf job) := by
  intro column
  cases column with
  | id => exact storable.texts job.id (by simp)
  | submissionID => exact storable.texts job.submissionID (by simp)
  | name => exact storable.texts job.name (by simp)
  | owner => exact storable.texts job.owner (by simp)
  | image => exact storable.texts job.image (by simp)
  | failureReason => exact storable.texts job.failureReason (by simp)
  | command => exact storable.command
  | assignedWorkerIDs => exact storable.workers
  | _ => rfl

/-- A job goes through its row and back unchanged. -/
theorem jobOf_rowOf {job : Job Cpu Mem} (storable : Storable job) : jobOf (rowOf job) = job := by
  have unfolded : jobOf (rowOf job) =
      { job with
        resources := { job.resources with gpuCount := uint32 (int32 job.resources.gpuCount) }
        createdAt := ofMicros (micros job.createdAt)
        startedAt := (job.startedAt.map micros).map ofMicros
        completedAt := (job.completedAt.map micros).map ofMicros
        failedAt := (job.failedAt.map micros).map ofMicros } := rfl
  rw [unfolded, uint32_int32 storable.gpus, ofMicros_micros storable.created,
    map_ofMicros storable.started, map_ofMicros storable.completed, map_ofMicros storable.failed]

/-- The two stores hold the same jobs, all of which a row can hold. -/
structure Mirrors (memory : MemoryRepository Cpu Mem) (db : Database Cpu Mem) : Prop where
  same : ∀ id, memory.find id = (db.find id).map jobOf
  indexed : Submissions.Indexed memory
  storable : ∀ id job, memory.find id = some job → Storable job

theorem empty_mirrors : Mirrors (MemoryRepository.empty : MemoryRepository Cpu Mem) Database.empty where
  same id := by rw [find_empty]; rfl
  indexed := Submissions.empty_indexed
  storable id job found := by rw [find_empty] at found; cases found

section Methods
variable {memory : MemoryRepository Cpu Mem} {db : Database Cpu Mem}

theorem mirrors_find (mirrors : Mirrors memory db) {id : String} {job : Job Cpu Mem}
    (found : memory.find id = some job) : ∃ row, db.find id = some row ∧ jobOf row = job := by
  rw [mirrors.same] at found
  exact Option.map_eq_some_iff.mp found

theorem get_agrees (mirrors : Mirrors memory db) {id : String} (accepted : storableText id = true) :
    domain (memory.get id) = JobRepository.get db id := by
  unfold MemoryRepository.get
  rw [mirrors.same]
  cases found : db.find id with
  | none => exact (get_missing accepted found).symm
  | some row => exact (get_found accepted found).symm

/-- The submission index of the one store and the unique index of the other
lead to the same job. -/
theorem bySubmission_agrees (mirrors : Mirrors memory db) {submissionID : String}
    (named : submissionID ≠ "") :
    memory.bySubmission submissionID = (db.findSubmission submissionID).map jobOf := by
  cases found : db.findSubmission submissionID with
  | some row =>
      have member : row ∈ db.jobs := List.mem_of_find?_eq_some found
      have carries : row.submissionID = submissionID := by simpa using List.find?_some found
      have stored : memory.find row.id = some (jobOf row) := by
        rw [mirrors.same, find_iff.mpr ⟨member, rfl⟩, Option.map_some]
      have known := Submissions.bySubmission_carried mirrors.indexed stored
        (by rw [jobOf_submissionID, carries]; exact named)
      rwa [jobOf_submissionID, carries] at known
  | none =>
      rw [Option.map_none, bySubmission_none_iff]
      right
      by_contra listed
      obtain ⟨id, isListed⟩ := Option.ne_none_iff_exists'.mp listed
      have carried := (mirrors.indexed.index submissionID id named).mp isListed
      obtain ⟨job, stored, carries⟩ := Option.map_eq_some_iff.mp carried
      obtain ⟨row, isRow, rfl⟩ := mirrors_find mirrors stored
      have absent := List.find?_eq_none.mp found row (find_iff.mp isRow).1
      exact absurd carries (by simpa using absent)

theorem create_agrees (mirrors : Mirrors memory db) {job : Job Cpu Mem} (storable : Storable job)
    (unused : memory.find job.id = none) :
    .ok (memory.create job).1 = (JobRepository.create db job).1 ∧
      Mirrors (memory.create job).2 (JobRepository.create db job).2 := by
  have built := insert_builds (storable_row storable)
  cases known : memory.bySubmission job.submissionID with
  | some existing =>
      have named : job.submissionID ≠ "" := by
        intro anonymous
        simp [bySubmission, anonymous] at known
      rw [bySubmission_agrees mirrors named] at known
      obtain ⟨row, found, rfl⟩ := Option.map_eq_some_iff.mp known
      rw [create_conflict built named (storable.texts _ (by simp)) found,
        create_existing (by rw [bySubmission_agrees mirrors named, found]; rfl)]
      exact ⟨rfl, mirrors⟩
  | none =>
      have free : db.find job.id = none := by
        rw [mirrors.same] at unused
        exact Option.map_eq_none_iff.mp unused
      have distinct : ¬ db.Conflicts (rowOf job) := by
        rintro ⟨named, listed⟩
        obtain ⟨row, member, carries⟩ := List.mem_map.mp listed
        rw [rowOf_submissionID] at named carries
        rw [bySubmission_agrees mirrors named, Option.map_eq_none_iff, findSubmission,
          List.find?_eq_none] at known
        exact known row member (by simpa using carries)
      rw [create_new known, create_inserts built (find_none_iff.mp free) distinct, jobOf_rowOf storable]
      refine ⟨rfl, ?_, Submissions.insertNew_indexed mirrors.indexed unused known, ?_⟩
      · intro id
        rw [find_insertNew, find_created, mirrors.same]
        split
        · rw [Option.map_some, jobOf_rowOf storable]
        · rfl
      · intro id stored found
        rw [find_insertNew] at found
        split at found
        · exact Option.some.inj found ▸ storable
        · exact mirrors.storable id stored found

/-- A callback of Update that keeps a job what the stores take it for. -/
def Steady (fn : Job Cpu Mem → Except JobError (Job Cpu Mem)) : Prop :=
  ∀ job updated, Storable job → fn job = .ok updated →
    Storable updated ∧ updated.id = job.id ∧ updated.submissionID = job.submissionID

theorem rewritten_eq_rowOf {row : Row Cpu Mem} {job : Job Cpu Mem} (sameID : job.id = row.id)
    (sameSubmission : job.submissionID = row.submissionID) : rewritten row job = rowOf job := by
  rw [rewritten, ← sameID, ← sameSubmission]

theorem put_indexed {id : String} {job updated : Job Cpu Mem} (indexed : Submissions.Indexed memory)
    (found : memory.find id = some job) (sameID : updated.id = job.id)
    (sameSubmission : updated.submissionID = job.submissionID) :
    Submissions.Indexed (memory.put id updated) where
  keyed := JobLifecycle.stores_keyed indexed.keyed (JobLifecycle.put_stores memory id updated)
    (sameID.trans (indexed.keyed id job found))
  index submissionID key named := by
    rw [Submissions.stores_carried found (JobLifecycle.put_stores memory id updated) sameSubmission]
    exact indexed.index submissionID key named

theorem update_agrees (mirrors : Mirrors memory db) {id : String} (accepted : storableText id = true)
    {fn : Job Cpu Mem → Except JobError (Job Cpu Mem)} (steady : Steady fn) :
    domain (memory.update id fn).1 = (JobRepository.update db id fn).1 ∧
      Mirrors (memory.update id fn).2 (JobRepository.update db id fn).2 := by
  cases found : memory.find id with
  | none =>
      have absent : db.find id = none := by
        rw [mirrors.same] at found
        exact Option.map_eq_none_iff.mp found
      rw [MemoryRepository.update_missing found, JobRepository.update_missing accepted absent]
      exact ⟨rfl, mirrors⟩
  | some job =>
      obtain ⟨row, isRow, rfl⟩ := mirrors_find mirrors found
      cases answer : fn (jobOf row) with
      | error problem =>
          rw [MemoryRepository.update_refused found answer,
            JobRepository.update_refused accepted isRow answer]
          exact ⟨rfl, mirrors⟩
      | ok updated =>
          obtain ⟨storable, sameID, sameSubmission⟩ :=
            steady _ updated (mirrors.storable id _ found) answer
          have isID : updated.id = id := by rw [sameID, jobOf_id, find_id isRow]
          have same : rewritten row updated = rowOf updated :=
            rewritten_eq_rowOf sameID sameSubmission
          have aimed : db.find updated.id = some row := isID ▸ isRow
          obtain ⟨after, result, jobs, _⟩ := update_written accepted isRow answer aimed
            (updateJob_writes (storable_row storable) aimed)
          rw [MemoryRepository.update_stored found answer, result, same, jobOf_rowOf storable]
          refine ⟨rfl, ?_, put_indexed mirrors.indexed found sameID sameSubmission, ?_⟩
          · intro other
            rw [find_put, find_written aimed jobs, same, mirrors.same, isID]
            split
            · rw [Option.map_some, jobOf_rowOf storable]
            · rfl
          · intro other stored isStored
            rw [find_put] at isStored
            split at isStored
            · exact Option.some.inj isStored ▸ storable
            · exact mirrors.storable other stored isStored

end Methods

end OrionQueue.StoreAgreement
