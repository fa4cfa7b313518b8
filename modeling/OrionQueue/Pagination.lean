import OrionQueue.JobListing
import OrionQueue.JobService

/-!
Walks through the pages of JobRepository.List while other clients create and
update jobs between the pages. Each page is a keyset page of the table at its
call, and the token of a page is read back as the key of its last row, so a walk
is a walk of the keyset library; no call moves a job to another key.
-/

namespace OrionQueue.Pagination

open Jobs JobTable Database JobRepository JobListing

variable {Cpu Mem SortKey : Type}

/-- Create never touches a stored job; an update function keeps these two fields. -/
def KeepsKey : Call Cpu Mem → Prop
  | .create _ _ => True
  | .update _ fn _ => ∀ job updated, fn job = .ok updated →
      updated.id = job.id ∧ updated.createdAt = job.createdAt

/-- The jobs of `db` are in `later` with the same keys. -/
def Extends (db later : Database Cpu Mem) : Prop :=
  ∀ id row, db.find id = some row → ∃ row', later.find id = some row' ∧ row'.createdAt = row.createdAt

theorem extends_refl (db : Database Cpu Mem) : Extends db db :=
  fun _ row found => ⟨row, found, rfl⟩

theorem extends_trans {first second third : Database Cpu Mem} (left : Extends first second)
    (right : Extends second third) : Extends first third := by
  intro id row found
  obtain ⟨row', found', same⟩ := left id row found
  obtain ⟨row'', found'', same'⟩ := right id row' found'
  exact ⟨row'', found'', same'.trans same⟩

theorem extends_create (db : Database Cpu Mem) (job : Job Cpu Mem) :
    Extends db (JobRepository.create db job).2 := by
  rcases create_cases db job with ⟨same, _⟩ | ⟨unused, distinct, inserted⟩
  · rw [same]
    exact extends_refl db
  · intro id row found
    rw [inserted, find_created]
    have absent : db.find job.id = none := find_none_iff.mpr unused
    have apart : id ≠ job.id := by
      rintro rfl
      rw [absent] at found
      cases found
    exact ⟨row, by rw [if_neg apart, found], rfl⟩

theorem extends_update {db : Database Cpu Mem} {id : String}
    {fn : Job Cpu Mem → Except JobError (Job Cpu Mem)}
    (keeps : ∀ job updated, fn job = .ok updated →
      updated.id = job.id ∧ updated.createdAt = job.createdAt) :
    Extends db (JobRepository.update db id fn).2 := by
  rcases update_cases db id fn with
    ⟨problem, refused⟩ | ⟨row, updated, target, after, found, accepted, aimed, result, jobs, _⟩
  · rw [refused]
    exact extends_refl db
  · obtain ⟨sameID, sameTime⟩ := keeps _ _ accepted
    intro other stored isStored
    rw [result, find_written aimed jobs]
    by_cases own : other = updated.id
    · subst own
      -- The row that was read is the row that is written.
      obtain rfl := Option.some.inj (aimed.symm.trans isStored)
      rw [sameID, jobOf_id, find_id found, found] at aimed
      obtain rfl := Option.some.inj aimed
      refine ⟨_, if_pos rfl, ?_⟩
      change micros updated.createdAt = row.createdAt
      rw [sameTime, jobOf_createdAt, micros_ofMicros]
    · exact ⟨stored, by rw [if_neg own, isStored], rfl⟩

theorem extends_execute {calls : List (Call Cpu Mem)} (keeps : ∀ call ∈ calls, KeepsKey call)
    (db : Database Cpu Mem) : Extends db (execute db calls) := by
  induction calls generalizing db with
  | nil => exact extends_refl db
  | cons call rest ih =>
      have applied : Extends db (call.apply db) := by
        cases call with
        | create job aborted =>
            cases aborted with
            | true => exact extends_refl db
            | false => exact extends_create db job
        | update id fn aborted =>
            cases aborted with
            | true => exact extends_refl db
            | false => exact extends_update (keeps _ List.mem_cons_self)
      exact extends_trans applied (ih (fun other member => keeps other (List.mem_cons_of_mem _ member)) _)

section Walk
variable [LinearOrder SortKey] (collation : Collation SortKey) (pageSize : Int) (stateFilter : String)

/-- A walk from a page token: one page call, then the calls that other clients
make before the next, until a page has no next token. The answer lists the
database and the page of each call. -/
def walk : Database Cpu Mem → String → List (List (Call Cpu Mem)) →
    Option (List (Database Cpu Mem × List (Job Cpu Mem)))
  | db, token, [] =>
      match JobRepository.list collation db ⟨pageSize, token, stateFilter⟩ with
      | .ok result => if result.nextPageToken = "" then some [(db, result.jobs)] else none
      | .error _ => none
  | db, token, calls :: rest =>
      match JobRepository.list collation db ⟨pageSize, token, stateFilter⟩ with
      | .ok result =>
          if result.nextPageToken = "" then none
          else (walk (execute db calls) result.nextPageToken rest).map ((db, result.jobs) :: ·)
      | .error _ => none

variable {collation pageSize stateFilter}

theorem list_read {db : Database Cpu Mem} {options : ListOptions} {result : ListResult Cpu Mem}
    (listed : JobRepository.list collation db options = .ok result) :
    storableText options.stateFilter = true ∧ ∃ cursor,
      cursorOf collation options.pageToken = .ok cursor := by
  unfold JobRepository.list at listed
  split at listed
  · cases listed
  · split at listed
    · exact ⟨by assumption, _, by assumption⟩
    · cases listed

theorem list_answer {db : Database Cpu Mem} {token : String} {cursor : Option (Int ×ₗ SortKey)}
    {result : ListResult Cpu Mem} (started : cursorOf collation token = .ok cursor)
    (listed : JobRepository.list collation db ⟨pageSize, token, stateFilter⟩ = .ok result) :
    result.jobs = (Keyset.page (listKey collation) (pageSizeOf pageSize) cursor
        (matchingRows db stateFilter)).map jobOf ∧
      result.nextPageToken = tokenOf (Keyset.lastItem (listKey collation) (pageSizeOf pageSize) cursor
        (matchingRows db stateFilter)) := by
  rw [list_page collation started (list_read listed).1] at listed
  obtain rfl := Except.ok.inj listed
  exact ⟨rfl, rfl⟩

/-- The first call of a walk and what follows it. -/
theorem walk_cases {between : List (List (Call Cpu Mem))} {db : Database Cpu Mem} {token : String}
    {visited : List (Database Cpu Mem × List (Job Cpu Mem))}
    (walked : walk collation pageSize stateFilter db token between = some visited) :
    ∃ result, JobRepository.list collation db ⟨pageSize, token, stateFilter⟩ = .ok result ∧
      ((between = [] ∧ result.nextPageToken = "" ∧ visited = [(db, result.jobs)]) ∨
        ∃ calls rest later, between = calls :: rest ∧ result.nextPageToken ≠ "" ∧
          walk collation pageSize stateFilter (execute db calls) result.nextPageToken rest =
            some later ∧ visited = (db, result.jobs) :: later) := by
  cases between with
  | nil =>
      unfold walk at walked
      split at walked
      case h_2 => cases walked
      case h_1 result listed =>
        split at walked <;> cases walked
        exact ⟨result, listed, Or.inl ⟨rfl, by assumption, rfl⟩⟩
  | cons calls rest =>
      unfold walk at walked
      split at walked
      case h_2 => cases walked
      case h_1 result listed =>
        split at walked
        case isTrue => cases walked
        case isFalse more =>
          obtain ⟨later, tail, rfl⟩ := Option.map_eq_some_iff.mp walked
          exact ⟨result, listed, Or.inr ⟨calls, rest, later, rfl, more, tail, rfl⟩⟩

/-- A walk of List is a walk of the keyset library over the rows that match. -/
theorem walk_keyset {between : List (List (Call Cpu Mem))} {db : Database Cpu Mem} {token : String}
    {cursor : Option (Int ×ₗ SortKey)} {visited : List (Database Cpu Mem × List (Job Cpu Mem))}
    (started : cursorOf collation token = .ok cursor)
    (walked : walk collation pageSize stateFilter db token between = some visited) :
    ∃ calls, Keyset.Walk (listKey collation) (pageSizeOf pageSize) cursor calls ∧
      calls.map Prod.fst = visited.map (fun visit => matchingRows visit.1 stateFilter) ∧
      calls.map (fun call => call.2.map jobOf) = visited.map Prod.snd := by
  induction between generalizing db token cursor visited with
  | nil =>
      obtain ⟨result, listed, ⟨_, final, rfl⟩ | ⟨_, _, _, impossible, _⟩⟩ := walk_cases walked
      · obtain ⟨jobs, next⟩ := list_answer started listed
        rw [next, tokenOf_eq_empty] at final
        have exhausted : Keyset.nextCursor (listKey collation) (pageSizeOf pageSize) cursor
            (matchingRows db stateFilter) = none := by
          rw [Keyset.nextCursor, final]
          rfl
        exact ⟨_, .last exhausted, rfl, by simp [jobs]⟩
      · cases impossible
  | cons calls rest ih =>
      obtain ⟨result, listed, ⟨impossible, _⟩ | ⟨_, _, later, same, more, tail, rfl⟩⟩ :=
        walk_cases walked
      · cases impossible
      · obtain ⟨rfl, rfl⟩ := List.cons.inj same
        obtain ⟨jobs, next⟩ := list_answer started listed
        obtain ⟨row, last⟩ : ∃ row, Keyset.lastItem (listKey collation) (pageSizeOf pageSize) cursor
            (matchingRows db stateFilter) = some row := by
          rw [next, Ne, tokenOf_eq_empty] at more
          exact Option.ne_none_iff_exists'.mp more
        rw [next, last] at tail
        -- The next call was answered, so it read the token of the row.
        obtain ⟨_, answered, _⟩ := walk_cases tail
        obtain ⟨_, cursor', read⟩ := list_read answered
        obtain rfl := (cursorOf_token_ok collation read).2
        obtain ⟨calls', walked', snapshots, pages⟩ := ih read tail
        have onward : Keyset.nextCursor (listKey collation) (pageSizeOf pageSize) cursor
            (matchingRows db stateFilter) = some (listKey collation row) := by
          rw [Keyset.nextCursor, last]
          rfl
        exact ⟨_, .next onward walked', by simp [snapshots], by simp [pages, jobs]⟩

/-- The tables that a walk visits only gain jobs, up to the last one. -/
theorem walk_extends {between : List (List (Call Cpu Mem))} {db : Database Cpu Mem} {token : String}
    {visited : List (Database Cpu Mem × List (Job Cpu Mem))}
    (keeps : ∀ calls ∈ between, ∀ call ∈ calls, KeepsKey call)
    (walked : walk collation pageSize stateFilter db token between = some visited) :
    ∃ final, Extends db final ∧ ∀ visit ∈ visited, Extends visit.1 final := by
  induction between generalizing db token visited with
  | nil =>
      obtain ⟨result, listed, ⟨_, _, rfl⟩ | ⟨_, _, _, impossible, _⟩⟩ := walk_cases walked
      · exact ⟨db, extends_refl db, by simpa using extends_refl db⟩
      · cases impossible
  | cons calls rest ih =>
      obtain ⟨result, listed, ⟨impossible, _⟩ | ⟨_, _, later, same, _, tail, rfl⟩⟩ :=
        walk_cases walked
      · cases impossible
      · obtain ⟨rfl, rfl⟩ := List.cons.inj same
        obtain ⟨final, grown, others⟩ :=
          ih (fun other member => keeps other (List.mem_cons_of_mem _ member)) tail
        have own : Extends db final :=
          extends_trans (extends_execute (keeps calls List.mem_cons_self) db) grown
        refine ⟨final, own, fun visit member => ?_⟩
        rcases List.mem_cons.mp member with rfl | member
        · exact own
        · exact others visit member

section Met
variable {visited : List (Database Cpu Mem × List (Job Cpu Mem))} {cursor : Option (Int ×ₗ SortKey)}
  {calls : List (List (Row Cpu Mem) × List (Row Cpu Mem))} {final : Database Cpu Mem}

theorem snapshot_visit
    (snapshots : calls.map Prod.fst = visited.map fun visit => matchingRows visit.1 stateFilter)
    {call : List (Row Cpu Mem) × List (Row Cpu Mem)} (member : call ∈ calls) :
    ∃ visit ∈ visited, matchingRows visit.1 stateFilter = call.1 := by
  have listed : call.1 ∈ calls.map Prod.fst := List.mem_map.mpr ⟨call, member, rfl⟩
  rwa [snapshots, List.mem_map] at listed

omit [LinearOrder SortKey] in
theorem snapshot_distinct
    (snapshots : calls.map Prod.fst = visited.map fun visit => matchingRows visit.1 stateFilter) :
    ∀ call ∈ calls, (call.1.map (listKey collation)).Nodup := by
  intro call member
  obtain ⟨visit, _, same⟩ := snapshot_visit snapshots member
  exact same ▸ matchingRows_distinct collation visit.1 stateFilter

/-- Every row met on the way is in the final table, under its key. -/
theorem met_settled (keyset : Keyset.Walk (listKey collation) (pageSizeOf pageSize) cursor calls)
    (snapshots : calls.map Prod.fst = visited.map fun visit => matchingRows visit.1 stateFilter)
    (grown : ∀ visit ∈ visited, Extends visit.1 final) {row : Row Cpu Mem}
    (met : row ∈ (calls.map Prod.snd).flatten) :
    ∃ row', final.find row.id = some row' ∧ row'.createdAt = row.createdAt := by
  obtain ⟨page, isPage, listed⟩ := List.mem_flatten.mp met
  obtain ⟨call, isCall, rfl⟩ := List.mem_map.mp isPage
  obtain ⟨visit, isVisit, same⟩ := snapshot_visit snapshots isCall
  have stored := Keyset.walk_members keyset call isCall row listed
  rw [← same, mem_matchingRows] at stored
  exact grown visit isVisit row.id row stored.1

/-- Rows with one ID would have one key, and the keys go up. -/
theorem met_once (keyset : Keyset.Walk (listKey collation) (pageSizeOf pageSize) cursor calls)
    (snapshots : calls.map Prod.fst = visited.map fun visit => matchingRows visit.1 stateFilter)
    (grown : ∀ visit ∈ visited, Extends visit.1 final) :
    ((calls.map Prod.snd).flatten.map Row.id).Nodup := by
  have increasing := (Keyset.walk_increasing keyset (snapshot_distinct snapshots)).1
  refine List.pairwise_map.mpr (increasing.imp_of_mem fun {left right} first second less same => ?_)
  obtain ⟨row, found, time⟩ := met_settled keyset snapshots grown first
  obtain ⟨row', found', time'⟩ := met_settled keyset snapshots grown second
  rw [same, found'] at found
  obtain rfl := Option.some.inj found
  rw [listKey, listKey, same, ← time, ← time'] at less
  exact lt_irrefl _ less

/-- A job that is there and matches at every call is met. -/
theorem present_met (keyset : Keyset.Walk (listKey collation) (pageSizeOf pageSize) none calls)
    (snapshots : calls.map Prod.fst = visited.map fun visit => matchingRows visit.1 stateFilter)
    (grown : ∀ visit ∈ visited, Extends visit.1 final) (started : visited ≠ []) {id : String}
    (present : ∀ visit ∈ visited, ∃ row, visit.1.find id = some row ∧
      matchesFilter stateFilter row.state = true) :
    id ∈ (calls.map Prod.snd).flatten.map Row.id := by
  obtain ⟨visit, isVisit⟩ := List.exists_mem_of_ne_nil visited started
  obtain ⟨row, found, _⟩ := present visit isVisit
  obtain ⟨last, isLast, _⟩ := grown visit isVisit id row found
  have everywhere : ∀ call ∈ calls, ∃ item ∈ call.1,
      listKey collation item = listKey collation last := by
    intro call member
    obtain ⟨visit', isVisit', same⟩ := snapshot_visit snapshots member
    obtain ⟨item, stored, agrees⟩ := present visit' isVisit'
    obtain ⟨last', isLast', time⟩ := grown visit' isVisit' id item stored
    obtain rfl := Option.some.inj (isLast.symm.trans isLast')
    refine ⟨item, ?_, ?_⟩
    · rw [← same, mem_matchingRows, find_id stored]
      exact ⟨stored, agrees⟩
    · rw [listKey, listKey, ← time, find_id stored, find_id isLast]
  obtain ⟨item, met, same⟩ := Keyset.walk_complete keyset (pageSizeOf_pos pageSize)
    (snapshot_distinct snapshots) (fun bound isBound => by cases isBound) everywhere
  have isID : item.id = id :=
    (collation.deterministic (congrArg (fun key => (ofLex key).2) same)).trans (find_id isLast)
  exact List.mem_map.mpr ⟨item, met, isID⟩

end Met

theorem walk_ne_nil {between : List (List (Call Cpu Mem))} {db : Database Cpu Mem} {token : String}
    {visited : List (Database Cpu Mem × List (Job Cpu Mem))}
    (walked : walk collation pageSize stateFilter db token between = some visited) : visited ≠ [] := by
  obtain ⟨result, _, ⟨_, _, rfl⟩ | ⟨_, _, _, _, _, _, rfl⟩⟩ := walk_cases walked <;> simp

/-- Under concurrent calls, a walk through the pages never meets a job twice and
never misses one that was there, and matched, at every page. -/
theorem pages_stable (db : Database Cpu Mem) (between : List (List (Call Cpu Mem)))
    (visited : List (Database Cpu Mem × List (Job Cpu Mem)))
    (keeps : ∀ calls ∈ between, ∀ call ∈ calls, KeepsKey call)
    (walked : walk collation pageSize stateFilter db "" between = some visited) :
    ((visited.map Prod.snd).flatten.Pairwise fun left right =>
        jobKey collation left < jobKey collation right) ∧
      ((visited.map Prod.snd).flatten.map Job.id).Nodup ∧
      ∀ id, (∀ visit ∈ visited, ∃ row, visit.1.find id = some row ∧
          matchesFilter stateFilter row.state = true) →
        ((visited.map Prod.snd).flatten.map Job.id).count id = 1 := by
  obtain ⟨calls, keyset, snapshots, pages⟩ := walk_keyset (if_pos rfl) walked
  obtain ⟨final, _, grown⟩ := walk_extends keeps walked
  have flat : (visited.map Prod.snd).flatten = (calls.map Prod.snd).flatten.map jobOf := by
    rw [← pages, List.map_flatten, List.map_map]
    rfl
  have ids : (visited.map Prod.snd).flatten.map Job.id = (calls.map Prod.snd).flatten.map Row.id := by
    rw [flat, List.map_map]
    rfl
  have once := met_once keyset snapshots grown
  rw [ids]
  refine ⟨?_, once, fun id present => List.count_eq_one_of_mem once ?_⟩
  · rw [flat]
    have increasing := (Keyset.walk_increasing keyset (snapshot_distinct snapshots)).1
    exact List.pairwise_map.mpr (increasing.imp (jobKey_lt collation))
  · exact present_met keyset snapshots grown (walk_ne_nil walked) present

end Walk

def createdJob (id : String) (now : Time) : Job Int Int :=
  JobService.newJob now id (submission ⟨1, 0, 2, 1024⟩)

/-- Three jobs, of which two were created at the same instant. -/
def threeJobs : Database Int Int :=
  execute empty [.create (createdJob "job-1" 1000) false, .create (createdJob "job-2" 1000) false,
    .create (createdJob "job-3" 2000) false]

/-- After the first page job-1 is assigned, and an older job appears before it. -/
def betweenPages : List (List (Call Int Int)) :=
  [[.update "job-1" (fun job => .ok { job with state := .scheduled }) false,
      .create (createdJob "job-0" 500) false], []]

theorem betweenPages_stable : ∃ visited,
    walk Collation.bytewise 1 "" threeJobs "" betweenPages = some visited ∧
      (visited.map Prod.snd).flatten.map Job.id = ["job-1", "job-2", "job-3"] ∧
      ((visited.map Prod.snd).flatten.map Job.id).Nodup := by
  obtain ⟨visited, walked, ids⟩ : ∃ visited,
      walk Collation.bytewise 1 "" threeJobs "" betweenPages = some visited ∧
        (visited.map Prod.snd).flatten.map Job.id = ["job-1", "job-2", "job-3"] := ⟨_, rfl, rfl⟩
  have keeps : ∀ calls ∈ betweenPages, ∀ call ∈ calls, KeepsKey call := by
    simp only [betweenPages, List.forall_mem_cons]
    refine ⟨⟨?_, trivial, by simp⟩, by simp, by simp⟩
    intro job updated accepted
    cases accepted
    exact ⟨rfl, rfl⟩
  exact ⟨visited, walked, ids, (pages_stable threeJobs betweenPages visited keeps walked).2.1⟩

end OrionQueue.Pagination
