import OrionQueue.Api
import OrionQueue.Interchange

/-!
ListJobs with a filter, page after page. The filter of a request is a number of an
open enum. A number with a name is translated to the state it names; any other
number is translated to the empty filter, which lets every job pass.
-/

namespace OrionQueue.FilteredListing

open Jobs JobService JobLifecycle JobStore MemoryRepository JobListing JobRepository JobTable
open PageTokens Api Interchange

variable {Cpu Mem : Type}

/-- Following next_page_token to its end: the jobs of all pages, if there are no more
than `calls` of them. -/
def listPages (jobs : MemoryRepository Cpu Mem) (pageSize filter : Int) :
    (calls : Nat) → (pageToken : String) → Option (List (Pb.Job Cpu Mem))
  | 0, _ => none
  | calls + 1, pageToken =>
      match listJobs jobs ⟨pageSize, pageToken, filter⟩ with
      | .error _ => none
      | .ok response =>
          if response.nextPageToken = "" then some response.jobs
          else (listPages jobs pageSize filter calls response.nextPageToken).map (response.jobs ++ ·)

/-- The number under which a client sees a state. -/
def stateNumber (state : State) : Int := (domainStateToPB.lookup state).getD 0

/-- The walk ends, with the jobs in the requested state, each once, in order. -/
def ListsExactly (jobs : MemoryRepository Cpu Mem) (pageSize filter : Int) : Prop :=
  ∃ (calls : Nat) (listed : List (Job Cpu Mem)),
    listPages jobs pageSize filter calls "" = some (listed.map jobToProto) ∧
    (∀ job, job ∈ listed ↔ job ∈ jobs.jobs ∧ stateNumber job.state = filter) ∧
    listed.Pairwise fun left right =>
      toLex (left.createdAt, left.id) < toLex (right.createdAt, right.id)

/-- `offset` and `end` of List, in the arithmetic of Go's int. -/
def sliceBounds (length : Nat) (requested pageSize : Int) : Int × Int :=
  let offset : Int := if requested < 0 ∨ length < requested then length else requested
  let size : Int := if pageSize ≤ 0 ∨ maxPageSize < pageSize then defaultPageSize else pageSize
  let stop := (offset + size).bmod (2 ^ 64)
  (offset, if length < stop then length else stop)

/-- A page that is answered is a slice of the sorted jobs with valid bounds. -/
def SlicesInside (jobs : MemoryRepository Cpu Mem) : Prop :=
  ∀ options requested, offsetOf options.pageToken = .ok requested →
    let all := sortedJobs jobs options.stateFilter
    let bounds := sliceBounds all.length requested options.pageSize
    0 ≤ bounds.1 ∧ bounds.1 ≤ bounds.2 ∧ bounds.2 ≤ all.length ∧
      ∃ next, jobs.list options =
        .ok ⟨(all.drop bounds.1.toNat).take (bounds.2 - bounds.1).toNat, next⟩

/-- The machine holds the jobs and can count a page more. -/
def Countable (jobs : MemoryRepository Cpu Mem) : Prop :=
  jobs.jobs.length + maxPageSize < 2 ^ 63

/-- The state filter that ListJobs makes of a number other than zero. -/
def filterName (filter : Int) : String := ((pbStateToDomain.lookup filter).map State.name).getD ""

theorem stateNumber_iff {state : State} {filter : Int} :
    stateNumber state = filter ↔ pbStateToDomain.lookup filter = some state := by
  constructor
  · rintro rfl
    cases state <;> rfl
  · intro named
    have numbered : ∀ entry ∈ pbStateToDomain, stateNumber entry.2 = entry.1 := by
      decide
    obtain ⟨before, after, entries, -⟩ := List.lookup_eq_some_iff.mp named
    exact numbered (filter, state) (by simp [entries])

theorem name_inj {left right : State} : left.name = right.name ↔ left = right := by
  cases left <;> cases right <;> decide

section Sorted
variable {jobs : MemoryRepository Cpu Mem} {filter : Int}

theorem mem_sortedJobs {stateFilter : String} {job : Job Cpu Mem} :
    job ∈ sortedJobs jobs stateFilter ↔
      job ∈ jobs.jobs ∧ matchesFilter stateFilter job.state = true := by
  rw [sortedJobs, List.mem_insertionSort, List.mem_filter]

/-- The filter of a number with a name keeps the jobs in the state it names. -/
theorem mem_sortedJobs_named (named : (pbStateToDomain.lookup filter).isSome) (job : Job Cpu Mem) :
    job ∈ sortedJobs jobs (filterName filter) ↔ job ∈ jobs.jobs ∧ stateNumber job.state = filter := by
  obtain ⟨state, isState⟩ := Option.isSome_iff_exists.mp named
  have proper : state.name ≠ "" := by
    cases state <;> decide
  rw [mem_sortedJobs, stateNumber_iff, isState, filterName, isState, Option.some_inj]
  simp only [matchesFilter, Option.map_some, Option.getD_some, proper, decide_false,
    Bool.false_or, decide_eq_true_eq, name_inj]
  rw [eq_comm (a := state)]

/-- The filter of any other number keeps them all. -/
theorem mem_sortedJobs_unnamed (unnamed : pbStateToDomain.lookup filter = none) (job : Job Cpu Mem) :
    job ∈ sortedJobs jobs (filterName filter) ↔ job ∈ jobs.jobs := by
  rw [mem_sortedJobs, filterName, unnamed]
  simp [matchesFilter]

theorem sortedJobs_ordered (keyed : jobs.Keyed) (stateFilter : String) :
    (sortedJobs jobs stateFilter).Pairwise fun left right =>
      toLex (left.createdAt, left.id) < toLex (right.createdAt, right.id) := by
  rw [sortedJobs, Keyset.insertionSort_eq_sortBy listLess_iff]
  exact Keyset.sortBy_strict (distinct_keys jobKey_determines keyed _)

end Sorted

section Walk
variable {jobs : MemoryRepository Cpu Mem} {pageSize filter : Int}

theorem offsetOf_start : offsetOf "" = .ok ((0 : Nat) : Int) := rfl

theorem listJobs_page (asked : filter ≠ 0) {token : String} {offset : Nat}
    (read : offsetOf token = .ok (offset : Int))
    (inside : offset ≤ (sortedJobs jobs (filterName filter)).length) :
    listJobs jobs ⟨pageSize, token, filter⟩ = .ok
      { jobs := (((sortedJobs jobs (filterName filter)).drop offset).take (pageSizeOf pageSize)).map
          jobToProto
        nextPageToken :=
          if pageSizeOf pageSize < ((sortedJobs jobs (filterName filter)).drop offset).length
          then encodePageToken (offset + pageSizeOf pageSize) else "" } := by
  let options : JobListing.ListOptions := ⟨pageSize, token, filterName filter⟩
  have page : jobs.list options = _ := list_offset read inside
  simp only [listJobs, if_pos asked]
  rw [← filterName, page]

/-- A walk that starts at an offset ends within a call for each job that is left and one
more, and whenever it ends it has listed what is left. -/
theorem listPages_rest (asked : filter ≠ 0) (countable : Countable jobs) (calls : Nat)
    {token : String} {offset : Nat} (read : offsetOf token = .ok (offset : Int))
    (inside : offset ≤ (sortedJobs jobs (filterName filter)).length) :
    let rest := (sortedJobs jobs (filterName filter)).drop offset
    (rest.length < calls → listPages jobs pageSize filter calls token = some (rest.map jobToProto)) ∧
    ∀ pages, listPages jobs pageSize filter calls token = some pages → pages = rest.map jobToProto := by
  have positive := pageSizeOf_pos pageSize
  induction calls generalizing token offset with
  | zero => exact ⟨fun few => absurd few (Nat.not_lt_zero _), fun pages ended => by cases ended⟩
  | succ calls rest_listed =>
      generalize isRest : (sortedJobs jobs (filterName filter)).drop offset = rest
      have page : listJobs jobs ⟨pageSize, token, filter⟩ = _ := listJobs_page asked read inside
      rw [isRest] at page
      by_cases more : pageSizeOf pageSize < rest.length
      · have next_read : offsetOf (encodePageToken (offset + pageSizeOf pageSize)) =
            .ok ((offset + pageSizeOf pageSize : Nat) : Int) := by
          rw [offsetOf, if_neg (encodePageToken_ne _), decodePageToken_encode, if_pos]
          have few := sortedJobs_length jobs (filterName filter)
          have length := congrArg List.length isRest
          rw [List.length_drop] at length
          unfold Countable at countable
          omega
        have next_inside : offset + pageSizeOf pageSize ≤
            (sortedJobs jobs (filterName filter)).length := by
          rw [← isRest, List.length_drop] at more
          omega
        obtain ⟨ends, listed⟩ := rest_listed next_read next_inside
        rw [← List.drop_drop, isRest] at ends listed
        have joined : ((rest.take (pageSizeOf pageSize)).map jobToProto) ++
            ((rest.drop (pageSizeOf pageSize)).map jobToProto) = rest.map jobToProto := by
          rw [← List.map_append, List.take_append_drop]
        simp only [listPages, page, if_pos more, encodePageToken_ne, if_false]
        constructor
        · intro enough
          rw [ends (by rw [List.length_drop]; omega), Option.map_some, joined]
        · intro pages ended
          obtain ⟨later, isLater, rfl⟩ := Option.map_eq_some_iff.mp ended
          rw [listed later isLater, joined]
      · rw [if_neg more, List.take_of_length_le (by omega)] at page
        simp only [listPages, page, if_true, Option.some_inj]
        exact ⟨fun _ => trivial, fun pages same => same.symm⟩

end Walk

theorem sliceBounds_eq {length : Nat} (small : length + maxPageSize < 2 ^ 63)
    (requested pageSize : Int) :
    let offset := if requested < 0 ∨ length < requested then length else requested.toNat
    sliceBounds length requested pageSize =
      ((offset : Int), ((min (offset + pageSizeOf pageSize) length : Nat) : Int)) := by
  intro offset
  have isOffset : (if requested < 0 ∨ length < requested then (length : Int) else requested) =
      offset := by
    simp only [offset]
    split <;> omega
  have isSize : (if pageSize ≤ 0 ∨ maxPageSize < pageSize then (defaultPageSize : Int) else pageSize) =
      pageSizeOf pageSize := by
    unfold pageSizeOf
    split <;> omega
  have inside : offset ≤ length := by
    simp only [offset]
    split <;> omega
  have bounded : pageSizeOf pageSize ≤ maxPageSize := by
    unfold pageSizeOf
    split
    · decide
    · omega
  have exact : ((offset : Int) + pageSizeOf pageSize).bmod (2 ^ 64) = offset + pageSizeOf pageSize :=
    Int.bmod_eq_of_le (by omega) (by omega)
  clear_value offset
  simp only [sliceBounds, isOffset, isSize, exact, Prod.mk.injEq, true_and]
  split <;> omega

theorem slices_inside {jobs : MemoryRepository Cpu Mem} (countable : Countable jobs) :
    SlicesInside jobs := by
  intro options requested read all bounds
  have small : all.length + maxPageSize < 2 ^ 63 :=
    lt_of_le_of_lt (Nat.add_le_add_right (sortedJobs_length jobs options.stateFilter) _) countable
  have isBounds := sliceBounds_eq small requested options.pageSize
  simp only [bounds, isBounds, Int.toNat_natCast, Int.toNat_sub]
  refine ⟨by omega, ?_, by omega, ?_⟩
  · have inside : (if requested < 0 ∨ all.length < requested then all.length else requested.toNat) ≤
        all.length := by
      split <;> omega
    omega
  · simp only [MemoryRepository.list, read, all]
    exact ⟨_, rfl⟩

section Results
variable {jobs : MemoryRepository Cpu Mem} {pageSize filter : Int}

/-- A walk that lists what was asked for has asked for a state, unless nothing is stored:
no job is in the state of a number without a name, and all of them pass its filter. -/
theorem asked_for_state (countable : Countable jobs) (asked : filter ≠ 0)
    (lists : ListsExactly jobs pageSize filter) :
    (pbStateToDomain.lookup filter).isSome ∨ jobs.jobs = [] := by
  obtain ⟨calls, listed, ended, exactly, -⟩ := lists
  by_contra neither
  obtain ⟨unnamed, jobs_stored⟩ := not_or.mp neither
  rw [Bool.not_eq_true, Option.isSome_eq_false_iff, Option.isNone_iff_eq_none] at unnamed
  have nothing : listed = [] := by
    refine List.eq_nil_iff_forall_not_mem.mpr fun job member => ?_
    have number := ((exactly job).mp member).2
    rw [stateNumber_iff, unnamed] at number
    cases number
  have sorted := (listPages_rest asked countable calls offsetOf_start (Nat.zero_le _)).2 _ ended
  rw [nothing, List.drop_zero, List.map_nil, eq_comm, List.map_eq_nil_iff] at sorted
  obtain ⟨job, stored⟩ := List.exists_mem_of_ne_nil _ jobs_stored
  have kept := (mem_sortedJobs_unnamed unnamed job).mpr stored
  rw [sorted] at kept
  cases kept

theorem lists_exactly (keyed : jobs.Keyed) (countable : Countable jobs) (asked : filter ≠ 0)
    (named : (pbStateToDomain.lookup filter).isSome ∨ jobs.jobs = []) :
    ListsExactly jobs pageSize filter := by
  refine ⟨_, sortedJobs jobs (filterName filter),
    (listPages_rest asked countable _ offsetOf_start (Nat.zero_le _)).1 (Nat.lt_succ_self _),
    fun job => ?_, sortedJobs_ordered keyed _⟩
  rcases named with named | empty
  · exact mem_sortedJobs_named named job
  · rw [mem_sortedJobs, empty]
    simp

end Results

/-- Filtered listings are exact for the numbers that name a state, and for any other
number only where there is nothing to list. -/
theorem filtered_listing_exact_iff {jobs : MemoryRepository Cpu Mem} {pageSize filter : Int}
    (keyed : jobs.Keyed) (countable : Countable jobs) (asked : filter ≠ 0) :
    ListsExactly jobs pageSize filter ∧ SlicesInside jobs ↔
      (pbStateToDomain.lookup filter).isSome ∨ jobs.jobs = [] :=
  ⟨fun exactly => asked_for_state countable asked exactly.1,
    fun named => ⟨lists_exactly keyed countable asked named, slices_inside countable⟩⟩

/-- Two jobs, of which the first was cancelled. -/
def twoJobs : MemoryRepository Int Int :=
  Op.apply 3 (Op.apply 2 (Op.apply 1 empty (.submit "job-1" (submission ⟨1, 0, 2, 1024⟩)))
    (.submit "job-2" (submission ⟨1, 0, 2, 1024⟩))) (.cancel "job-1")

theorem twoJobs_keyed : twoJobs.Keyed :=
  have start : (empty : MemoryRepository Int Int).Keyed := Tables.keyed_empty Job.id
  apply_keyed (apply_keyed (apply_keyed start _ _) _ _) _ _

theorem twoJobs_countable : Countable twoJobs :=
  show 2 + maxPageSize < 2 ^ 63 by decide

theorem queued_jobs_listed : twoJobs.Keyed ∧ Countable twoJobs ∧ ListsExactly twoJobs 1 1 ∧
    SlicesInside twoJobs :=
  ⟨twoJobs_keyed, twoJobs_countable,
    (filtered_listing_exact_iff twoJobs_keyed twoJobs_countable (by decide)).mpr (Or.inl rfl)⟩

/-- No state has the number 12, and both jobs are listed as if it were theirs. -/
theorem unnamed_state_lists_all :
    (listPages twoJobs 0 12 1 "").map (fun listed => listed.map fun job => (job.id, job.state)) =
      some [("job-1", 9), ("job-2", 1)] ∧ ¬ ListsExactly twoJobs 0 12 :=
  ⟨rfl, fun lists => absurd (asked_for_state twoJobs_countable (by decide) lists) (by decide)⟩

end OrionQueue.FilteredListing
