import Mathlib.Data.List.Sort
import OrionQueue.Job
import OrionQueue.Tables

/-!
`jobs.MemoryRepository`. Every method runs under the repository's mutex, so each
is one atomic function here. Go's maps are tables; the submission index carries
the proof that it only names stored jobs, which is what lets Create answer a
repeated submission from it.
-/

namespace OrionQueue.JobStore

open Jobs Tables

variable {Cpu Mem : Type}

structure MemoryRepository (Cpu Mem : Type) where
  jobsByID : Table String (Job Cpu Mem)
  idBySubmission : Table String String
  indexed : ∀ submission id, idBySubmission.lookup submission = some id → id ∈ jobsByID

namespace MemoryRepository

def empty : MemoryRepository Cpu Mem where
  jobsByID := ∅
  idBySubmission := ∅
  indexed := by
    intro submission id found
    simp at found

def find (repo : MemoryRepository Cpu Mem) (id : String) : Option (Job Cpu Mem) :=
  repo.jobsByID.lookup id

def jobs (repo : MemoryRepository Cpu Mem) : List (Job Cpu Mem) := values repo.jobsByID

def bySubmission (repo : MemoryRepository Cpu Mem) (submissionID : String) :
    Option (Job Cpu Mem) :=
  if submissionID = "" then none
  else (repo.idBySubmission.lookup submissionID).bind repo.find

def insertNew (repo : MemoryRepository Cpu Mem) (job : Job Cpu Mem) :
    MemoryRepository Cpu Mem where
  jobsByID := repo.jobsByID.insert job.id job
  idBySubmission :=
    if job.submissionID = "" then repo.idBySubmission
    else repo.idBySubmission.insert job.submissionID job.id
  indexed := by
    intro submission id found
    rw [AList.mem_insert]
    -- A job without a submission ID leaves the index as it is.
    by_cases anonymous : job.submissionID = ""
    · rw [if_pos anonymous] at found
      exact Or.inr (repo.indexed submission id found)
    · rw [if_neg anonymous] at found
      by_cases same : submission = job.submissionID
      · rw [same, AList.lookup_insert] at found
        exact Or.inl (Option.some.inj found).symm
      · rw [AList.lookup_insert_ne same] at found
        exact Or.inr (repo.indexed submission id found)

/-- Create returns the job now on record and whether it was inserted. -/
def create (repo : MemoryRepository Cpu Mem) (job : Job Cpu Mem) :
    (Job Cpu Mem × Bool) × MemoryRepository Cpu Mem :=
  match repo.bySubmission job.submissionID with
  | some existing => ((existing, false), repo)
  | none => ((job, true), repo.insertNew job)

def get (repo : MemoryRepository Cpu Mem) (id : String) : Except JobError (Job Cpu Mem) :=
  match repo.find id with
  | none => .error .notFound
  | some job => .ok job

def put (repo : MemoryRepository Cpu Mem) (id : String) (job : Job Cpu Mem) :
    MemoryRepository Cpu Mem where
  jobsByID := repo.jobsByID.insert id job
  idBySubmission := repo.idBySubmission
  indexed := by
    intro submission stored found
    rw [AList.mem_insert]
    exact Or.inr (repo.indexed submission stored found)

def update (repo : MemoryRepository Cpu Mem) (id : String)
    (fn : Job Cpu Mem → Except JobError (Job Cpu Mem)) :
    Except JobError (Job Cpu Mem) × MemoryRepository Cpu Mem :=
  match repo.find id with
  | none => (.error .notFound, repo)
  | some job =>
      match fn job with
      | .error problem => (.error problem, repo)
      | .ok updated => (.ok updated, repo.put id updated)

def activeLess (left right : Job Cpu Mem) : Bool :=
  if left.priority ≠ right.priority then right.priority < left.priority
  else if left.createdAt = right.createdAt then left.id < right.id
  else left.createdAt < right.createdAt

def listActive (repo : MemoryRepository Cpu Mem) : List (Job Cpu Mem) :=
  -- `activeLess` orders jobs with distinct IDs totally, so every sort gives this list.
  (repo.jobs.filter fun job => !job.state.terminal).insertionSort
    fun left right => activeLess right left = false

@[simp] theorem find_empty (id : String) : (empty : MemoryRepository Cpu Mem).find id = none :=
  AList.lookup_empty id

theorem find_put (repo : MemoryRepository Cpu Mem) (id other : String) (job : Job Cpu Mem) :
    (repo.put id job).find other = if other = id then some job else repo.find other := by
  by_cases same : other = id
  · subst other
    simp [find, put]
  · simp [find, put, same, AList.lookup_insert_ne same]

theorem find_insertNew (repo : MemoryRepository Cpu Mem) (other : String) (job : Job Cpu Mem) :
    (repo.insertNew job).find other = if other = job.id then some job else repo.find other := by
  by_cases same : other = job.id
  · subst other
    simp [find, insertNew]
  · simp [find, insertNew, same, AList.lookup_insert_ne same]

theorem mem_jobs_iff {repo : MemoryRepository Cpu Mem} {job : Job Cpu Mem} :
    job ∈ repo.jobs ↔ ∃ id, repo.find id = some job :=
  mem_values_iff

/-- A repeated submission is answered from the index, and only a repeated one. -/
theorem bySubmission_none_iff (repo : MemoryRepository Cpu Mem) (submissionID : String) :
    repo.bySubmission submissionID = none ↔
      submissionID = "" ∨ repo.idBySubmission.lookup submissionID = none := by
  unfold bySubmission
  by_cases anonymous : submissionID = ""
  · simp [anonymous]
  · simp only [anonymous, if_false, false_or]
    cases found : repo.idBySubmission.lookup submissionID with
    | none => simp
    | some id =>
        obtain ⟨job, stored⟩ :=
          Option.isSome_iff_exists.mp (AList.lookup_isSome.mpr (repo.indexed submissionID id found))
        simp [find, stored]

theorem create_existing {repo : MemoryRepository Cpu Mem} {job existing : Job Cpu Mem}
    (known : repo.bySubmission job.submissionID = some existing) :
    repo.create job = ((existing, false), repo) := by
  simp [create, known]

theorem create_new {repo : MemoryRepository Cpu Mem} {job : Job Cpu Mem}
    (unknown : repo.bySubmission job.submissionID = none) :
    repo.create job = ((job, true), repo.insertNew job) := by
  simp [create, unknown]

theorem update_missing {repo : MemoryRepository Cpu Mem} {id : String}
    (absent : repo.find id = none) (fn : Job Cpu Mem → Except JobError (Job Cpu Mem)) :
    repo.update id fn = (.error .notFound, repo) := by
  simp [update, absent]

theorem update_refused {repo : MemoryRepository Cpu Mem} {id : String} {job : Job Cpu Mem}
    (found : repo.find id = some job) {fn : Job Cpu Mem → Except JobError (Job Cpu Mem)}
    {problem : JobError} (refused : fn job = .error problem) :
    repo.update id fn = (.error problem, repo) := by
  simp [update, found, refused]

theorem update_stored {repo : MemoryRepository Cpu Mem} {id : String} {job updated : Job Cpu Mem}
    (found : repo.find id = some job) {fn : Job Cpu Mem → Except JobError (Job Cpu Mem)}
    (accepted : fn job = .ok updated) :
    repo.update id fn = (.ok updated, repo.put id updated) := by
  simp [update, found, accepted]

/-- All that Update can do: nothing, or replace one stored record by what the
callback made of it. -/
theorem update_cases (repo : MemoryRepository Cpu Mem) (id : String)
    (fn : Job Cpu Mem → Except JobError (Job Cpu Mem)) :
    (∃ problem, repo.update id fn = (.error problem, repo)) ∨
      ∃ job updated, repo.find id = some job ∧ fn job = .ok updated ∧
        repo.update id fn = (.ok updated, repo.put id updated) := by
  cases found : repo.find id with
  | none => exact Or.inl ⟨.notFound, update_missing found fn⟩
  | some job =>
      cases answer : fn job with
      | error problem => exact Or.inl ⟨problem, update_refused found answer⟩
      | ok updated => exact Or.inr ⟨job, updated, rfl, answer, update_stored found answer⟩

theorem update_error {repo : MemoryRepository Cpu Mem} {id : String}
    {fn : Job Cpu Mem → Except JobError (Job Cpu Mem)} {problem : JobError}
    (refused : (repo.update id fn).1 = .error problem) : (repo.update id fn).2 = repo := by
  rcases update_cases repo id fn with ⟨_, same⟩ | ⟨_, _, _, _, stored⟩
  · rw [same]
  · rw [stored] at refused
    cases refused

theorem mem_listActive_iff {repo : MemoryRepository Cpu Mem} {job : Job Cpu Mem} :
    job ∈ repo.listActive ↔ (∃ id, repo.find id = some job) ∧ job.state.terminal = false := by
  unfold listActive
  rw [List.mem_insertionSort, List.mem_filter, mem_jobs_iff]
  simp

def Keyed (repo : MemoryRepository Cpu Mem) : Prop := Tables.Keyed Job.id repo.jobsByID

theorem listActive_ids_nodup {repo : MemoryRepository Cpu Mem} (keyed : repo.Keyed) :
    (repo.listActive.map Job.id).Nodup := by
  have sorted := List.perm_insertionSort
    (fun left right : Job Cpu Mem => activeLess right left = false)
    (repo.jobs.filter fun job => !job.state.terminal)
  apply (sorted.map Job.id).nodup_iff.mpr
  exact (keyed_values_nodup keyed).sublist (List.filter_sublist.map Job.id)

end MemoryRepository

end OrionQueue.JobStore
