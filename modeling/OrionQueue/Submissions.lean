import OrionQueue.JobHistory

/-!
Idempotent submission. The guarantee rests on the two maps of the repository
naming the same jobs: the index holds a submission ID exactly for the job that
carries it. Updates rewrite records, never their submission IDs and never the
index; only a Submit that inserts touches both.
-/

namespace OrionQueue.Submissions

open Jobs JobStore MemoryRepository JobService JobLifecycle JobHistory Runs

variable {Cpu Mem : Type}

/-- The submission ID that the job stored under `id` carries. -/
def carried (repo : MemoryRepository Cpu Mem) (id : String) : Option String :=
  (repo.find id).map Job.submissionID

structure Indexed (repo : MemoryRepository Cpu Mem) : Prop where
  keyed : repo.Keyed
  index : ∀ submissionID id, submissionID ≠ "" →
    (repo.idBySubmission.lookup submissionID = some id ↔ carried repo id = some submissionID)

theorem empty_indexed : Indexed (empty : MemoryRepository Cpu Mem) where
  keyed := Tables.keyed_empty Job.id
  index submissionID id _ := by simp [carried, empty, find]

theorem update_index (repo : MemoryRepository Cpu Mem) (id : String)
    (fn : Job Cpu Mem → Except JobError (Job Cpu Mem)) :
    (repo.update id fn).2.idBySubmission = repo.idBySubmission := by
  rcases update_cases repo id fn with ⟨problem, same⟩ | ⟨job, updated, _, _, stored⟩
  · rw [same]
  · rw [stored]
    rfl

theorem move_submissionID {now : Time} {charged : Bool} {job job' : Job Cpu Mem}
    (moved : Move now charged job job') : job'.submissionID = job.submissionID := by
  cases moved <;> rfl

theorem stores_carried {repo after : MemoryRepository Cpu Mem} {id : String}
    {job job' : Job Cpu Mem} (found : repo.find id = some job) (stored : Stores repo after id job')
    (same : job'.submissionID = job.submissionID) (key : String) :
    carried after key = carried repo key := by
  by_cases own : key = id
  · subst own
    simp [carried, stores_own stored, found, same]
  · simp [carried, stores_other stored own]

/-- A new job with a fresh ID is entered in both maps, or in neither. -/
theorem insertNew_indexed {repo : MemoryRepository Cpu Mem} {job : Job Cpu Mem}
    (indexed : Indexed repo) (unused : repo.find job.id = none)
    (unknown : repo.bySubmission job.submissionID = none) : Indexed (repo.insertNew job) := by
  have stored : Stores repo (repo.insertNew job) job.id job :=
    fun other => find_insertNew repo other job
  refine ⟨stores_keyed indexed.keyed stored rfl, fun submissionID id named => ?_⟩
  have before := indexed.index submissionID id named
  -- The ID is new, so no submission ID led to it so far.
  have unlisted : repo.idBySubmission.lookup submissionID ≠ some job.id := by
    intro listed
    have held := (indexed.index submissionID job.id named).mp listed
    simp [carried, unused] at held
  by_cases anonymous : job.submissionID = ""
  · have index : (repo.insertNew job).idBySubmission = repo.idBySubmission := if_pos anonymous
    rw [index]
    by_cases own : id = job.id
    · subst own
      simp [carried, stores_own stored, anonymous, Ne.symm named, unlisted]
    · rw [before, carried, carried, stores_other stored own]
  · have index : (repo.insertNew job).idBySubmission =
        repo.idBySubmission.insert job.submissionID job.id := if_neg anonymous
    rw [index]
    by_cases same : submissionID = job.submissionID
    · subst same
      have unclaimed : repo.idBySubmission.lookup job.submissionID = none :=
        ((bySubmission_none_iff repo job.submissionID).mp unknown).resolve_left anonymous
      rw [AList.lookup_insert]
      by_cases own : id = job.id
      · subst own
        simp [carried, stores_own stored]
      · rw [unclaimed] at before
        simpa [carried, stores_other stored own, Ne.symm own] using before
    · rw [AList.lookup_insert_ne same]
      by_cases own : id = job.id
      · subst own
        simp [carried, stores_own stored, Ne.symm same, unlisted]
      · rw [before, carried, carried, stores_other stored own]

section Steps
variable [Zero Cpu] [LT Cpu] [DecidableLT Cpu] [Zero Mem] [LT Mem] [DecidableLT Mem]

theorem apply_carried {now : Time} {repo : MemoryRepository Cpu Mem} {op : Op Cpu Mem}
    (rewrites : ∀ id input, op ≠ .submit id input) (key : String) :
    carried (op.apply now repo) key = carried repo key := by
  cases apply_change now repo op with
  | none same account => simp [carried, same key]
  | move found moved stored account =>
      exact stores_carried found stored (move_submissionID moved) key
  | place isPlace found queued stored => exact stores_carried found stored (by rfl) key
  | create isCreate => exact absurd isCreate (rewrites _ _)

theorem apply_index {now : Time} {repo : MemoryRepository Cpu Mem} {op : Op Cpu Mem}
    (rewrites : ∀ id input, op ≠ .submit id input) :
    (op.apply now repo).idBySubmission = repo.idBySubmission := by
  cases op with
  | submit id input => exact absurd rfl (rewrites id input)
  | _ => exact update_index _ _ _

theorem step_indexed (repo : MemoryRepository Cpu Mem) (entry : Time × Op Cpu Mem)
    (after : MemoryRepository Cpu Mem) (indexed : Indexed repo)
    (stepped : step repo entry = some after) : Indexed after := by
  obtain ⟨unused, rfl⟩ := step_some stepped
  obtain ⟨now, op⟩ := entry
  by_cases submits : ∃ id input, op = .submit id input
  · obtain ⟨id, input, rfl⟩ := submits
    have free : repo.find id = none := fresh_unused unused id input rfl
    simp only [Op.apply, submit]
    cases validateSubmit input with
    | error problem => exact indexed
    | ok _ =>
        cases known : repo.bySubmission (newJob now id input).submissionID with
        | some existing => rwa [create_existing known]
        | none =>
            rw [create_new known]
            exact insertNew_indexed indexed free known
  · have rewrites : ∀ id input, op ≠ .submit id input := fun id input isSubmit =>
      submits ⟨id, input, isSubmit⟩
    refine ⟨apply_keyed indexed.keyed now op, fun submissionID id named => ?_⟩
    rw [apply_index rewrites, apply_carried rewrites]
    exact indexed.index submissionID id named

theorem run_indexed {history : List (Time × Op Cpu Mem)} {repo : MemoryRepository Cpu Mem}
    (ran : run step empty history = some repo) : Indexed repo :=
  run_invariant step_indexed ran empty_indexed

end Steps

/-- The index leads from a submission ID to the record that carries it. -/
theorem bySubmission_carried {repo : MemoryRepository Cpu Mem} (indexed : Indexed repo)
    {id : String} {job : Job Cpu Mem} (found : repo.find id = some job)
    (named : job.submissionID ≠ "") : repo.bySubmission job.submissionID = some job := by
  have listed := (indexed.index job.submissionID id named).mpr (by simp [carried, found])
  simp [bySubmission, named, listed, found]

section Results
variable [Zero Cpu] [LT Cpu] [DecidableLT Cpu] [Zero Mem] [LT Mem] [DecidableLT Mem]

theorem submission_idempotent (history : List (Time × Op Cpu Mem))
    (repo : MemoryRepository Cpu Mem) (ran : run step empty history = some repo) :
    (∀ id id' job job', repo.find id = some job → repo.find id' = some job' →
      job.submissionID ≠ "" → job.submissionID = job'.submissionID → id = id' ∧ job = job') ∧
    (∀ now newID input id job, validateSubmit input = .ok () → repo.find id = some job →
      input.submissionID ≠ "" → job.submissionID = input.submissionID →
        submit repo now newID input = (.ok job, repo) ∧ Submitted history id job) ∧
    ∀ now newID input, validateSubmit input = .ok () → input.submissionID = "" →
      repo.find newID = none →
        (submit repo now newID input).1 = .ok (newJob now newID input) ∧
          ∀ id, (submit repo now newID input).2.find id =
            if id = newID then some (newJob now newID input) else repo.find id := by
  have indexed : Indexed repo := run_indexed ran
  refine ⟨?_, ?_, ?_⟩
  · intro id id' job job' found found' named same
    have record := bySubmission_carried indexed found named
    have record' := bySubmission_carried indexed found' (same ▸ named)
    rw [same] at record
    obtain rfl := Option.some.inj (record.symm.trans record')
    exact ⟨(indexed.keyed id job found).symm.trans (indexed.keyed id' job found'), rfl⟩
  · intro now newID input id job valid found named same
    have known : repo.bySubmission (newJob now newID input).submissionID = some job := by
      have record := bySubmission_carried indexed found (same ▸ named)
      rwa [same] at record
    have submitted : ∀ id job, repo.find id = some job → Submitted history id job := by
      simpa using run_submitted [] (fun id job found => by simp at found) ran
    refine ⟨?_, submitted id job found⟩
    simp only [submit, valid, create_existing known]
  · intro now newID input valid anonymous unused
    have unknown : repo.bySubmission (newJob now newID input).submissionID = none :=
      (bySubmission_none_iff repo _).mpr (Or.inl anonymous)
    simp only [submit, valid, create_new unknown]
    exact ⟨trivial, fun id => find_insertNew repo id (newJob now newID input)⟩

end Results

def nightly (image : String) : SubmitInput Int Int :=
  { submission ⟨1, 0, 2, 1024⟩ with image := image, submissionID := "nightly-7" }

def runningHistory : List (Time × Op Int Int) :=
  [(1, .submit "job-1" (nightly "trainer:1")), (2, .assignToWorkers "job-1" ["worker-1"]),
    (3, .start "job-1")]

/-- The key comes again, with another image, while the job runs. -/
theorem runningHistory_repeats : ∃ repo job, run step empty runningHistory = some repo ∧
    repo.find "job-1" = some job ∧ job.state = .running ∧ job.image = "trainer:1" ∧
      submit repo 4 "job-2" (nightly "trainer:2") = (.ok job, repo) := by
  obtain ⟨repo, ran⟩ : ∃ repo, run step empty runningHistory = some repo := ⟨_, rfl⟩
  obtain ⟨job, found, running, image, same⟩ : ∃ job, repo.find "job-1" = some job ∧
      job.state = .running ∧ job.image = "trainer:1" ∧ job.submissionID = "nightly-7" := by
    cases ran
    exact ⟨_, rfl, rfl, rfl, rfl⟩
  have repeated := (submission_idempotent runningHistory repo ran).2.1 4 "job-2"
    (nightly "trainer:2") "job-1" job rfl found (by decide) same
  exact ⟨repo, job, ran, found, running, image, repeated.1⟩

end OrionQueue.Submissions
