import OrionQueue.StoreAgreement

/-!
The service over either repository. The listings agree because both orders are
total on jobs with distinct IDs, and the walks because the offset of the one
token and the key of the other cut the same sorted jobs. Every callback of the
service keeps a job storable, so the stores stay mirrors of each other through
every sequence of operations.
-/

namespace OrionQueue.Interchange

open Jobs JobService JobStore MemoryRepository JobTable Database JobRepository JobListing Repositories
  StoreAgreement

variable {Cpu Mem : Type}

/-- The order of ListActive, of a job. -/
def activeOrder (job : Job Cpu Mem) : Intᵒᵈ ×ₗ Int ×ₗ String :=
  toLex (OrderDual.toDual job.priority, jobKey Collation.bytewise job)

theorem listLess_iff (left right : Job Cpu Mem) :
    listLess right left = false ↔ jobKey Collation.bytewise left ≤ jobKey Collation.bytewise right := by
  rw [jobKey, jobKey, Prod.Lex.toLex_le_toLex, listLess]
  simp only [Collation.bytewise, id]
  split <;> rw [decide_eq_false_iff_not, not_lt]
  case isTrue same => simp [same]
  case isFalse apart => simp [Ne.symm apart, le_iff_lt_or_eq]

theorem activeLess_iff (left right : Job Cpu Mem) :
    activeLess right left = false ↔ activeOrder left ≤ activeOrder right := by
  rw [activeOrder, activeOrder, Prod.Lex.toLex_le_toLex, ← listLess_iff, activeLess, ← listLess]
  simp only [OrderDual.toDual_lt_toDual, OrderDual.toDual_inj]
  by_cases same : right.priority = left.priority
  · simp [same]
  · simp [same, Ne.symm same, le_iff_lt_or_eq]

theorem activeOrder_le {left right : Row Cpu Mem} :
    activeKey Collation.bytewise left ≤ activeKey Collation.bytewise right ↔
      activeOrder (jobOf left) ≤ activeOrder (jobOf right) := by
  rw [activeKey, activeKey, activeOrder, activeOrder, Prod.Lex.toLex_le_toLex,
    Prod.Lex.toLex_le_toLex, jobKey_le]
  rfl

section Listings
variable {memory : MemoryRepository Cpu Mem} {db : Database Cpu Mem}

theorem jobs_perm (mirrors : Mirrors memory db) : memory.jobs.Perm (db.jobs.map jobOf) := by
  have ids : (memory.jobs.map Job.id).Nodup := Tables.keyed_values_nodup mirrors.indexed.keyed
  have rows : ((db.jobs.map jobOf).map Job.id).Nodup := by
    rw [List.map_map]
    exact db.primaryKey
  refine (List.perm_ext_iff_of_nodup ids.of_map rows.of_map).mpr fun job => ?_
  rw [mem_jobs_iff, List.mem_map]
  constructor
  · rintro ⟨id, found⟩
    obtain ⟨row, isRow, rfl⟩ := mirrors_find mirrors found
    exact ⟨row, (find_iff.mp isRow).1, rfl⟩
  · rintro ⟨row, member, rfl⟩
    exact ⟨row.id, by rw [mirrors.same, find_iff.mpr ⟨member, rfl⟩, Option.map_some]⟩

/-- Keys that tell IDs apart are distinct on the jobs of a store. -/
theorem distinct_keys {Key : Type} {key : Job Cpu Mem → Key}
    (determines : ∀ left right, key left = key right → left.id = right.id)
    (keyed : memory.Keyed) (kept : Job Cpu Mem → Bool) :
    ((memory.jobs.filter kept).map key).Nodup := by
  have ids : (memory.jobs.map Job.id).Nodup := Tables.keyed_values_nodup keyed
  have kept : ((memory.jobs.filter kept).map Job.id).Nodup :=
    ids.sublist (List.filter_sublist.map Job.id)
  exact List.pairwise_map.mpr ((List.pairwise_map.mp kept).imp fun apart same =>
    apart (determines _ _ same))

theorem jobKey_determines (left right : Job Cpu Mem)
    (same : jobKey Collation.bytewise left = jobKey Collation.bytewise right) : left.id = right.id :=
  congrArg (fun key => (ofLex key).2) same

theorem activeOrder_determines (left right : Job Cpu Mem)
    (same : activeOrder left = activeOrder right) : left.id = right.id :=
  jobKey_determines left right (congrArg (fun key => (ofLex key).2) same)

theorem filter_perm (mirrors : Mirrors memory db) (kept : Job Cpu Mem → Bool) :
    (memory.jobs.filter kept).Perm ((db.jobs.filter fun row => kept (jobOf row)).map jobOf) := by
  have filtered := (jobs_perm mirrors).filter kept
  rwa [List.filter_map] at filtered

theorem listActive_agrees (mirrors : Mirrors memory db) :
    .ok memory.listActive = JobRepository.listActive Collation.bytewise db := by
  have active : ∀ row : Row Cpu Mem,
      decide (row.state ∉ [State.succeeded, .failed, .cancelled]) = !(jobOf row).state.terminal := by
    intro row
    rw [jobOf_state]
    cases row.state <;> rfl
  have distinct := distinct_keys activeOrder_determines mirrors.indexed.keyed fun job => !job.state.terminal
  rw [JobRepository.listActive, selectActiveJobs, scanRows_select,
    Keyset.sortBy_map fun _ _ => activeOrder_le]
  simp only [active]
  rw [MemoryRepository.listActive, Keyset.insertionSort_eq_sortBy activeLess_iff,
    Keyset.sortBy_congr (filter_perm mirrors _) distinct]

theorem sortedJobs_agrees (mirrors : Mirrors memory db) (stateFilter : String) :
    sortedJobs memory stateFilter =
      (Keyset.beyond (listKey Collation.bytewise) none (matchingRows db stateFilter)).map jobOf := by
  have distinct := distinct_keys jobKey_determines mirrors.indexed.keyed fun job =>
    matchesFilter stateFilter job.state
  rw [sortedJobs, Keyset.insertionSort_eq_sortBy listLess_iff,
    Keyset.sortBy_congr (filter_perm mirrors _) distinct, Keyset.beyond,
    Keyset.sortBy_map fun _ _ => jobKey_le Collation.bytewise, matchingRows]
  simp

/-- A store whose walks get to their end: the offsets are numbers of the machine,
and the list tokens can print the year of every creation. -/
def Listable (memory : MemoryRepository Cpu Mem) : Prop :=
  memory.jobs.length < 2 ^ 63 ∧ ∀ job ∈ memory.jobs, Rfc3339.FourDigitYear job.createdAt

def Failed : WalkEnd → Prop
  | .failed _ => True
  | _ => False

/-- The reading of a page token: what it stands for, or an error that only a
store that is not listable can lead to. -/
def Reads {Reading Problem : Type} (memory : MemoryRepository Cpu Mem)
    (read : Except Problem Reading) (wanted : Reading) : Prop :=
  read = .ok wanted ∨ (¬ Listable memory ∧ ∃ problem, read = .error problem)

theorem sortedJobs_length (memory : MemoryRepository Cpu Mem) (stateFilter : String) :
    (sortedJobs memory stateFilter).length ≤ memory.jobs.length := by
  rw [sortedJobs, List.length_insertionSort]
  exact List.length_filter_le _ _

theorem reads_offset {offset : Nat} {stateFilter : String}
    (inside : offset ≤ (sortedJobs memory stateFilter).length) :
    Reads memory (offsetOf (PageTokens.encodePageToken offset)) (offset : Int) := by
  rw [Reads, offsetOf, if_neg (PageTokens.encodePageToken_ne offset),
    PageTokens.decodePageToken_encode]
  by_cases fits : offset < 2 ^ 63
  · exact Or.inl (if_pos fits)
  · refine Or.inr ⟨fun listable => ?_, _, if_neg fits⟩
    have few := sortedJobs_length memory stateFilter
    have bound := listable.1
    omega

theorem reads_token (mirrors : Mirrors memory db) {row : Row Cpu Mem} (stored : row ∈ db.jobs) :
    Reads memory (cursorOf Collation.bytewise (tokenOf (some row)))
      (some (listKey Collation.bytewise row)) := by
  have found : memory.find row.id = some (jobOf row) := by
    rw [mirrors.same, find_iff.mpr ⟨stored, rfl⟩, Option.map_some]
  have storable : storableText row.id = true :=
    (mirrors.storable row.id (jobOf row) found).texts row.id (by simp)
  by_cases year : Rfc3339.FourDigitYear (ofMicros row.createdAt)
  · exact Or.inl (cursorOf_token_read Collation.bytewise year storable)
  · refine Or.inr ⟨fun listable => ?_, .pageToken .timestamp, ?_⟩
    · exact year (listable.2 (jobOf row) (mem_jobs_iff.mpr ⟨row.id, found⟩))
    · rw [cursorOf_token, Rfc3339.parse_format_none year]

section Walks
variable {Store : Type} {repo : Repository Store Cpu Mem} {store : Store} {pageSize : Int}
  {stateFilter token : String} {calls : Nat}

theorem walkPages_failed {problem : RepositoryError}
    (refused : repo.list store ⟨pageSize, token, stateFilter⟩ = .error problem) :
    walkPages repo store pageSize stateFilter (calls + 1) token = ([], .failed problem) := by
  simp only [walkPages, refused]

theorem walkPages_last {page : List (Job Cpu Mem)}
    (listed : repo.list store ⟨pageSize, token, stateFilter⟩ = .ok ⟨page, ""⟩) :
    walkPages repo store pageSize stateFilter (calls + 1) token = ([page], .complete) := by
  simp only [walkPages, listed, if_true]

theorem walkPages_next {page : List (Job Cpu Mem)} {next : String} (more : next ≠ "")
    (listed : repo.list store ⟨pageSize, token, stateFilter⟩ = .ok ⟨page, next⟩) :
    walkPages repo store pageSize stateFilter (calls + 1) token =
      (page :: (walkPages repo store pageSize stateFilter calls next).1,
        (walkPages repo store pageSize stateFilter calls next).2) := by
  simp only [walkPages, listed, if_neg more]

end Walks

/-- Two walks at the same place: the offset of the one token and the key of the
other leave the same jobs. -/
structure Abreast (memory : MemoryRepository Cpu Mem) (db : Database Cpu Mem) (stateFilter : String)
    (offset : Nat) (cursor : Option (Int ×ₗ String)) (token token' : String) : Prop where
  reads : Reads memory (offsetOf token) (offset : Int)
  reads' : Reads memory (cursorOf Collation.bytewise token') cursor
  inside : offset ≤ (sortedJobs memory stateFilter).length
  rest : (Keyset.beyond (listKey Collation.bytewise) cursor (matchingRows db stateFilter)).map jobOf =
    (sortedJobs memory stateFilter).drop offset

theorem abreast_start (mirrors : Mirrors memory db) (stateFilter : String) :
    Abreast memory db stateFilter 0 none "" "" where
  reads := Or.inl rfl
  reads' := Or.inl (if_pos rfl)
  inside := Nat.zero_le _
  rest := (sortedJobs_agrees mirrors stateFilter).symm

/-- Tokens that can be read lead to the same page, which is the last one for both
walks or leaves them at the same place again. -/
theorem abreast_page (mirrors : Mirrors memory db) {stateFilter : String}
    (accepted : storableText stateFilter = true) (pageSize : Int) {offset : Nat}
    {cursor : Option (Int ×ₗ String)} {token token' : String}
    (abreast : Abreast memory db stateFilter offset cursor token token')
    (read : offsetOf token = .ok (offset : Int))
    (read' : cursorOf Collation.bytewise token' = .ok cursor) :
    ∃ page next next', memory.list ⟨pageSize, token, stateFilter⟩ = .ok ⟨page, next⟩ ∧
      JobRepository.list Collation.bytewise db ⟨pageSize, token', stateFilter⟩ = .ok ⟨page, next'⟩ ∧
      (next = "" ∧ next' = "" ∨ next ≠ "" ∧ next' ≠ "" ∧ ∃ offset' cursor',
        Abreast memory db stateFilter offset' cursor' next next') := by
  have positive := pageSizeOf_pos pageSize
  have left : (Keyset.beyond (listKey Collation.bytewise) cursor
      (matchingRows db stateFilter)).length = ((sortedJobs memory stateFilter).drop offset).length := by
    rw [← abreast.rest, List.length_map]
  have listed' : JobRepository.list Collation.bytewise db ⟨pageSize, token', stateFilter⟩ = _ :=
    list_page Collation.bytewise read' accepted
  simp only [Keyset.page, List.map_take, abreast.rest] at listed'
  refine ⟨_, _, _, list_offset read abreast.inside, listed', ?_⟩
  by_cases more : pageSizeOf pageSize < ((sortedJobs memory stateFilter).drop offset).length
  · obtain ⟨row, met, last⟩ := Keyset.lastItem_more positive (left ▸ more)
    have stored : row ∈ db.jobs := (List.mem_filter.mp (Keyset.mem_page met).1).1
    have onward := Keyset.beyond_next (matchingRows_distinct Collation.bytewise db stateFilter)
      (by rw [Keyset.nextCursor, last, Option.map_some])
    have inside' : offset + pageSizeOf pageSize ≤ (sortedJobs memory stateFilter).length := by
      rw [List.length_drop] at more
      omega
    right
    rw [if_pos more, last]
    refine ⟨PageTokens.encodePageToken_ne _, PageTokens.encodeListToken_ne _ _, _, _,
      reads_offset inside', reads_token mirrors stored, inside', ?_⟩
    rw [onward, List.map_drop, abreast.rest, List.drop_drop]
  · left
    exact ⟨if_neg more, tokenOf_eq_empty.mpr (if_neg (left ▸ more))⟩

/-- Walks that start at the same place meet the same pages, unless one of them fails. -/
theorem walk_agrees (mirrors : Mirrors memory db) {stateFilter : String}
    (accepted : storableText stateFilter = true) (pageSize : Int) (calls : Nat) {offset : Nat}
    {cursor : Option (Int ×ₗ String)} {token token' : String}
    (abreast : Abreast memory db stateFilter offset cursor token token') :
    walkPages memoryRepository memory pageSize stateFilter calls token =
        walkPages (jobRepository Collation.bytewise) db pageSize stateFilter calls token' ∨
      (¬ Listable memory ∧
        (Failed (walkPages memoryRepository memory pageSize stateFilter calls token).2 ∨
          Failed (walkPages (jobRepository Collation.bytewise) db pageSize stateFilter calls
            token').2)) := by
  induction calls generalizing token token' offset cursor with
  | zero => exact Or.inl rfl
  | succ calls ih =>
      rcases abreast.reads with read | ⟨unlistable, problem, refused⟩
      case inr =>
        have failed : memoryRepository.list memory ⟨pageSize, token, stateFilter⟩ =
            .error (.pageToken problem) := by
          simp only [memoryRepository, MemoryRepository.list, refused]
        exact Or.inr ⟨unlistable, Or.inl (by rw [walkPages_failed failed]; trivial)⟩
      rcases abreast.reads' with read' | ⟨unlistable, problem, refused⟩
      case inr =>
        have failed : (jobRepository Collation.bytewise).list db ⟨pageSize, token', stateFilter⟩ =
            .error problem := by
          simp only [jobRepository, JobRepository.list, refused]
        exact Or.inr ⟨unlistable, Or.inr (by rw [walkPages_failed failed]; trivial)⟩
      obtain ⟨page, next, next', listed, listed', ⟨rfl, rfl⟩ | ⟨more, more', _, _, later⟩⟩ :=
        abreast_page mirrors accepted pageSize abreast read read'
      · left
        rw [walkPages_last listed, walkPages_last listed']
      · rw [walkPages_next more listed, walkPages_next more' listed']
        rcases ih later with same | failed
        · exact Or.inl (by rw [same])
        · exact Or.inr failed

/-- A listable store needs at most one call more than it holds jobs. -/
theorem walk_completes (listable : Listable memory) {stateFilter : String} (pageSize : Int)
    {calls : Nat} {token : String} {offset : Nat}
    (reads : Reads memory (offsetOf token) (offset : Int))
    (inside : offset ≤ (sortedJobs memory stateFilter).length)
    (enough : (sortedJobs memory stateFilter).length < offset + calls) :
    (walkPages memoryRepository memory pageSize stateFilter calls token).2 = .complete := by
  induction calls generalizing token offset with
  | zero => omega
  | succ calls ih =>
      have read := reads.resolve_right fun refused => refused.1 listable
      have positive := pageSizeOf_pos pageSize
      have listed : memoryRepository.list memory ⟨pageSize, token, stateFilter⟩ = _ :=
        list_offset read inside
      by_cases more : pageSizeOf pageSize < ((sortedJobs memory stateFilter).drop offset).length
      · rw [if_pos more] at listed
        rw [List.length_drop] at more
        have inside' : offset + pageSizeOf pageSize ≤ (sortedJobs memory stateFilter).length := by omega
        rw [walkPages_next (PageTokens.encodePageToken_ne _) listed]
        refine ih (reads_offset inside') inside' ?_
        change _ < offset + pageSizeOf pageSize + calls
        omega
      · rw [if_neg more] at listed
        rw [walkPages_last listed]

end Listings

section Callbacks
variable {now : Time}

theorem storableText_append {left right : String} (first : storableText left = true)
    (second : storableText right = true) : storableText (left ++ right) = true := by
  simp only [storableText, String.toList_append, List.all_append, Bool.and_eq_true] at *
  exact ⟨first, second⟩

theorem storable_reason {job : Job Cpu Mem} (storable : Storable job) {reason : String}
    (accepted : storableText reason = true) : Storable { job with failureReason := reason } where
  texts := by
    have texts := storable.texts
    simp only [List.forall_mem_cons] at texts ⊢
    obtain ⟨id, submissionID, name, owner, image, _, none⟩ := texts
    exact ⟨id, submissionID, name, owner, image, accepted, none⟩
  command := storable.command
  workers := storable.workers
  gpus := storable.gpus
  created := storable.created
  started := storable.started
  completed := storable.completed
  failed := storable.failed

theorem whole_now (whole : 1000 ∣ now) : ∀ time ∈ some now, 1000 ∣ time := by
  simpa using whole

theorem applyFailureOrRetry_storable {job : Job Cpu Mem} (storable : Storable job) {reason : String}
    (accepted : storableText reason = true) (whole : 1000 ∣ now) :
    Storable (applyFailureOrRetry job reason now) := by
  have failed := storable_reason storable accepted
  unfold applyFailureOrRetry
  split
  · exact { failed with workers := rfl, started := by simp }
  · exact { failed with failed := whole_now whole }

theorem stopped_storable {job : Job Cpu Mem} (storable : Storable job) (whole : 1000 ∣ now) :
    Storable (stopped now job) := by
  unfold stopped
  split
  · exact { storable with completed := whole_now whole }
  · exact { storable with workers := rfl, started := by simp }
  · exact storable

theorem cancelUpdate_steady (whole : 1000 ∣ now) : Steady (@cancelUpdate Cpu Mem now) := by
  intro job updated storable accepted
  have finished : Storable { job with state := .cancelled, completedAt := some now } :=
    { storable with completed := whole_now whole }
  have requested : Storable { job with state := .cancelRequested } := { storable with }
  unfold cancelUpdate at accepted
  split at accepted <;> cases accepted
  all_goals first
    | exact ⟨storable, rfl, rfl⟩
    | exact ⟨finished, rfl, rfl⟩
    | exact ⟨requested, rfl, rfl⟩

theorem assignUpdate_steady {workerIDs : List String} (accepted : workerIDs.all storableText = true) :
    Steady (@assignUpdate Cpu Mem workerIDs) := by
  intro job updated storable assigned
  unfold assignUpdate at assigned
  split at assigned <;> cases assigned
  exact ⟨{ storable with workers := accepted }, rfl, rfl⟩

theorem startUpdate_steady (whole : 1000 ∣ now) : Steady (@startUpdate Cpu Mem now) := by
  intro job updated storable started
  unfold startUpdate at started
  split at started <;> cases started
  exact ⟨{ storable with started := whole_now whole }, rfl, rfl⟩

theorem completeUpdate_steady (whole : 1000 ∣ now) : Steady (@completeUpdate Cpu Mem now) := by
  intro job updated storable completed
  unfold completeUpdate at completed
  split at completed <;> cases completed
  exact ⟨{ storable with completed := whole_now whole }, rfl, rfl⟩

theorem applyFailureOrRetry_ids (job : Job Cpu Mem) (reason : String) (now : Time) :
    (applyFailureOrRetry job reason now).id = job.id ∧
      (applyFailureOrRetry job reason now).submissionID = job.submissionID := by
  unfold applyFailureOrRetry
  split <;> exact ⟨rfl, rfl⟩

theorem stopped_ids (now : Time) (job : Job Cpu Mem) :
    (stopped now job).id = job.id ∧ (stopped now job).submissionID = job.submissionID := by
  unfold stopped
  split <;> exact ⟨rfl, rfl⟩

theorem failUpdate_steady (whole : 1000 ∣ now) {reason : String}
    (accepted : storableText reason = true) : Steady (@failUpdate Cpu Mem now reason) := by
  intro job updated storable failed
  unfold failUpdate at failed
  split at failed <;> cases failed
  exact ⟨applyFailureOrRetry_storable storable accepted whole, applyFailureOrRetry_ids job reason now⟩

theorem preemptUpdate_steady {reason : String} (accepted : storableText reason = true) :
    Steady (@preemptUpdate Cpu Mem reason) := by
  intro job updated storable preempted
  unfold preemptUpdate at preempted
  split at preempted
  · split at preempted <;> cases preempted
    exact ⟨{ storable_reason storable accepted with }, rfl, rfl⟩
  · cases preempted

theorem reportStoppedUpdate_steady (whole : 1000 ∣ now) :
    Steady (@reportStoppedUpdate Cpu Mem now) := by
  intro job updated storable reported
  cases reported
  exact ⟨stopped_storable storable whole, stopped_ids now job⟩

theorem recoverUpdate_steady (whole : 1000 ∣ now) {workerID : String}
    (accepted : storableText workerID = true) : Steady (@recoverUpdate Cpu Mem now workerID) := by
  intro job updated storable recovered
  have reason : storableText (lostReason workerID) = true :=
    storableText_append (storableText_append rfl accepted) rfl
  cases recovered
  split
  · exact ⟨applyFailureOrRetry_storable storable reason whole, applyFailureOrRetry_ids job _ now⟩
  · exact ⟨stopped_storable storable whole, stopped_ids now job⟩

theorem retryUpdate_steady : Steady (@retryUpdate Cpu Mem) := by
  intro job updated storable retried
  unfold retryUpdate at retried
  split at retried
  · split at retried <;> cases retried
    exact ⟨{ storable_reason storable (show storableText "" = true from rfl) with
      started := by simp, completed := by simp, failed := by simp }, rfl, rfl⟩
  · cases retried

end Callbacks

/-- The texts that the operation sends to the server. -/
def textsOf : Operation Cpu Mem → List String
  | .submit id input =>
      [id, input.submissionID, input.name, input.owner, input.image] ++ input.command
  | .get id | .cancel id | .start id | .complete id | .reportStopped id | .retry id => [id]
  | .assignToWorkers id workerIDs => id :: workerIDs
  | .fail id reason | .preempt id reason => [id, reason]
  | .loseWorker workerID => [workerID]
  | .listActive | .listAssignedToWorker _ | .listStoppableForWorker _ => []
  | .listWalk _ stateFilter _ => [stateFilter]

def submittedID : Operation Cpu Mem → Option String
  | .submit id _ => some id
  | _ => none

/-- A walk that did not get to its end. -/
def Interrupted : Answer Cpu Mem → Prop
  | .pages _ ending => Failed ending
  | _ => False

/-- The answers of both services. Only walks may differ, and only if one of them
runs into a page token that it cannot read. -/
def Agree (memory : MemoryRepository Cpu Mem) (left right : Answer Cpu Mem) : Prop :=
  left = right ∨ (¬ Listable memory ∧ (Interrupted left ∨ Interrupted right))

/-- The operations that a history may consist of: clocks of whole microseconds,
texts that the server accepts, and no ID handed out twice. -/
structure Admissible (history : List ((Nat → Time) × Operation Cpu Mem)) : Prop where
  clocks : ∀ entry ∈ history, ∀ reading, 1000 ∣ entry.1 reading
  texts : ∀ entry ∈ history, ∀ text ∈ textsOf entry.2, storableText text = true
  unique : (history.filterMap fun entry => submittedID entry.2).Nodup

theorem admissible_earlier {history later : List ((Nat → Time) × Operation Cpu Mem)}
    (admissible : Admissible (history ++ later)) : Admissible history where
  clocks entry member := admissible.clocks entry (List.mem_append_left _ member)
  texts entry member := admissible.texts entry (List.mem_append_left _ member)
  unique := by
    have unique := admissible.unique
    rw [List.filterMap_append] at unique
    exact (List.nodup_append.mp unique).1

section Operations
variable {memory : MemoryRepository Cpu Mem} {db : Database Cpu Mem}

/-- `update_agrees` in the words of the interface. -/
theorem service_update (mirrors : Mirrors memory db) {id : String} (accepted : storableText id = true)
    {fn : Job Cpu Mem → Except JobError (Job Cpu Mem)} (steady : Steady fn) :
    (memoryRepository.update memory id fn).1 =
        ((jobRepository Collation.bytewise).update db id fn).1 ∧
      Mirrors (memoryRepository.update memory id fn).2
        ((jobRepository Collation.bytewise).update db id fn).2 :=
  update_agrees mirrors accepted steady

theorem updated_agrees (mirrors : Mirrors memory db) {id : String} (accepted : storableText id = true)
    {fn : Job Cpu Mem → Except JobError (Job Cpu Mem)} (steady : Steady fn) :
    Agree memory (updated memoryRepository memory id fn).1
        (updated (jobRepository Collation.bytewise) db id fn).1 ∧
      Mirrors (updated memoryRepository memory id fn).2
        (updated (jobRepository Collation.bytewise) db id fn).2 := by
  obtain ⟨same, mirrors'⟩ := service_update mirrors accepted steady
  exact ⟨Or.inl (congrArg Answer.job same), mirrors'⟩

theorem update_known {id other : String} {fn : Job Cpu Mem → Except JobError (Job Cpu Mem)}
    (stored : (memory.update id fn).2.find other ≠ none) : memory.find other ≠ none := by
  rcases MemoryRepository.update_cases memory id fn with
    ⟨problem, same⟩ | ⟨job, updated, found, _, written⟩
  · rwa [same] at stored
  · rw [written, find_put] at stored
    split at stored
    case isTrue own => simp [own, found]
    case isFalse => exact stored

theorem recoverEach_known {clock : Nat → Time} {workerID id : String} {ids : List String}
    {recovered : Nat}
    (stored : (Repositories.recoverEach memoryRepository clock workerID ids recovered memory).2.find id ≠
      none) : memory.find id ≠ none := by
  induction ids generalizing memory recovered with
  | nil => exact stored
  | cons next rest ih =>
      have known : ∀ {answer : Except RepositoryError (Job Cpu Mem)} {after : MemoryRepository Cpu Mem},
          memoryRepository.update memory next (recoverUpdate (clock recovered) workerID) =
            (answer, after) → after.find id ≠ none → memory.find id ≠ none := by
        intro answer after written present
        have same : (memory.update next (recoverUpdate (clock recovered) workerID)).2 = after :=
          congrArg Prod.snd written
        exact update_known (same ▸ present)
      unfold Repositories.recoverEach at stored
      split at stored
      case h_1 refused => exact known refused stored
      case h_2 written => exact known written (ih stored)

theorem recoverEach_agrees (mirrors : Mirrors memory db) {clock : Nat → Time}
    (whole : ∀ reading, 1000 ∣ clock reading) {workerID : String}
    (accepted : storableText workerID = true) {ids : List String}
    (known : ∀ id ∈ ids, storableText id = true) (recovered : Nat) :
    (Repositories.recoverEach memoryRepository clock workerID ids recovered memory).1 =
        (Repositories.recoverEach (jobRepository Collation.bytewise) clock workerID ids recovered db).1 ∧
      Mirrors (Repositories.recoverEach memoryRepository clock workerID ids recovered memory).2
        (Repositories.recoverEach (jobRepository Collation.bytewise) clock workerID ids recovered db).2 := by
  induction ids generalizing memory db recovered with
  | nil => exact ⟨rfl, mirrors⟩
  | cons id rest ih =>
      obtain ⟨same, mirrors'⟩ := service_update mirrors (known id List.mem_cons_self)
        (recoverUpdate_steady (whole recovered) accepted)
      have later := fun other member => known other (List.mem_cons_of_mem id member)
      unfold Repositories.recoverEach
      generalize memoryRepository.update memory id (recoverUpdate (clock recovered) workerID) = left
        at same mirrors' ⊢
      generalize (jobRepository Collation.bytewise).update db id
        (recoverUpdate (clock recovered) workerID) = right at same mirrors' ⊢
      obtain ⟨answer, after⟩ := left
      obtain ⟨answer', after'⟩ := right
      obtain rfl : answer = answer' := same
      cases answer with
      | error problem => exact ⟨rfl, mirrors'⟩
      | ok job => exact ih mirrors' later (recovered + 1)

theorem loseWorker_agrees (mirrors : Mirrors memory db) {clock : Nat → Time}
    (whole : ∀ reading, 1000 ∣ clock reading) {workerID : String}
    (accepted : storableText workerID = true) :
    (Repositories.loseWorker memoryRepository memory clock workerID).1 =
        (Repositories.loseWorker (jobRepository Collation.bytewise) db clock workerID).1 ∧
      Mirrors (Repositories.loseWorker memoryRepository memory clock workerID).2
        (Repositories.loseWorker (jobRepository Collation.bytewise) db clock workerID).2 := by
  have active : (jobRepository Collation.bytewise).listActive db = .ok memory.listActive :=
    (listActive_agrees mirrors).symm
  have active' : memoryRepository.listActive memory = .ok memory.listActive := rfl
  simp only [Repositories.loseWorker, active, active']
  refine recoverEach_agrees mirrors whole accepted (fun id listed => ?_) 0
  obtain ⟨job, isLost, rfl⟩ := List.mem_map.mp listed
  obtain ⟨key, found⟩ := (mem_listActive_iff.mp (List.mem_filter.mp isLost).1).1
  exact (mirrors.storable key job found).texts job.id (by simp)

section Perform
variable [Zero Cpu] [LT Cpu] [DecidableLT Cpu] [Zero Mem] [LT Mem] [DecidableLT Mem]

theorem newJob_storable {now : Time} (whole : 1000 ∣ now) {id : String} {input : SubmitInput Cpu Mem}
    (valid : validateSubmit input = .ok ())
    (accepted : ∀ text ∈ textsOf (.submit id input), storableText text = true) :
    Storable (newJob now id input) := by
  simp only [textsOf, List.forall_mem_append, List.forall_mem_cons] at accepted
  obtain ⟨⟨isID, submissionID, name, owner, image, none⟩, command⟩ := accepted
  have few := validateSubmit_gpus valid
  exact {
    texts := by simp [newJob, isID, submissionID, name, owner, image]; rfl
    command := List.all_eq_true.mpr command
    workers := rfl
    gpus := lt_of_le_of_lt few (by decide)
    created := whole
    started := by simp [newJob]
    completed := by simp [newJob]
    failed := by simp [newJob] }

theorem submit_agrees (mirrors : Mirrors memory db) {now : Time} (whole : 1000 ∣ now) {id : String}
    {input : SubmitInput Cpu Mem}
    (accepted : ∀ text ∈ textsOf (.submit id input), storableText text = true)
    (unused : memory.find id = none) :
    (Repositories.submit memoryRepository memory now id input).1 =
        (Repositories.submit (jobRepository Collation.bytewise) db now id input).1 ∧
      Mirrors (Repositories.submit memoryRepository memory now id input).2
        (Repositories.submit (jobRepository Collation.bytewise) db now id input).2 := by
  unfold Repositories.submit
  cases valid : validateSubmit input with
  | error problem => exact ⟨rfl, mirrors⟩
  | ok =>
      obtain ⟨same, mirrors'⟩ : (memoryRepository.create memory (newJob now id input)).1 =
            ((jobRepository Collation.bytewise).create db (newJob now id input)).1 ∧
          Mirrors (memoryRepository.create memory (newJob now id input)).2
            ((jobRepository Collation.bytewise).create db (newJob now id input)).2 :=
        create_agrees mirrors (newJob_storable whole valid accepted) unused
      generalize memoryRepository.create memory (newJob now id input) = left at same mirrors' ⊢
      generalize (jobRepository Collation.bytewise).create db (newJob now id input) = right
        at same mirrors' ⊢
      obtain ⟨answer, after⟩ := left
      obtain ⟨answer', after'⟩ := right
      obtain rfl : answer = answer' := same
      cases answer <;> exact ⟨rfl, mirrors'⟩

/-- One operation over both repositories. -/
theorem perform_agrees (mirrors : Mirrors memory db) {clock : Nat → Time}
    (whole : ∀ reading, 1000 ∣ clock reading) {operation : Operation Cpu Mem}
    (accepted : ∀ text ∈ textsOf operation, storableText text = true)
    (unused : ∀ id ∈ submittedID operation, memory.find id = none) :
    Agree memory (perform memoryRepository clock memory operation).1
        (perform (jobRepository Collation.bytewise) clock db operation).1 ∧
      Mirrors (perform memoryRepository clock memory operation).2
        (perform (jobRepository Collation.bytewise) clock db operation).2 := by
  have active : (jobRepository Collation.bytewise).listActive db = .ok memory.listActive :=
    (listActive_agrees mirrors).symm
  cases operation with
  | submit id input =>
      obtain ⟨same, mirrors'⟩ := submit_agrees mirrors (whole 0) accepted (unused id rfl)
      simp only [perform]
      exact ⟨Or.inl (congrArg Answer.job same), mirrors'⟩
  | get id =>
      have same : memoryRepository.get memory id = (jobRepository Collation.bytewise).get db id :=
        get_agrees mirrors (accepted id (by simp [textsOf]))
      exact ⟨Or.inl (congrArg Answer.job same), mirrors⟩
  | cancel id =>
      exact updated_agrees mirrors (accepted id (by simp [textsOf])) (cancelUpdate_steady (whole 0))
  | assignToWorkers id workerIDs =>
      have workers : workerIDs.all storableText = true :=
        List.all_eq_true.mpr fun text member => accepted text (by simp [textsOf, member])
      exact updated_agrees mirrors (accepted id (by simp [textsOf])) (assignUpdate_steady workers)
  | start id =>
      exact updated_agrees mirrors (accepted id (by simp [textsOf])) (startUpdate_steady (whole 0))
  | complete id =>
      exact updated_agrees mirrors (accepted id (by simp [textsOf])) (completeUpdate_steady (whole 0))
  | fail id reason =>
      exact updated_agrees mirrors (accepted id (by simp [textsOf]))
        (failUpdate_steady (whole 0) (accepted reason (by simp [textsOf])))
  | preempt id reason =>
      exact updated_agrees mirrors (accepted id (by simp [textsOf]))
        (preemptUpdate_steady (accepted reason (by simp [textsOf])))
  | reportStopped id =>
      exact updated_agrees mirrors (accepted id (by simp [textsOf]))
        (reportStoppedUpdate_steady (whole 0))
  | retry id => exact updated_agrees mirrors (accepted id (by simp [textsOf])) retryUpdate_steady
  | loseWorker workerID =>
      obtain ⟨same, mirrors'⟩ :=
        loseWorker_agrees mirrors whole (accepted workerID (by simp [textsOf]))
      simp only [perform]
      exact ⟨Or.inl (congrArg (fun answer => Answer.recovered answer.1 answer.2) same), mirrors'⟩
  | listActive => exact ⟨Or.inl (congrArg Answer.jobs active.symm), mirrors⟩
  | listAssignedToWorker workerID =>
      refine ⟨Or.inl (congrArg Answer.jobs ?_), mirrors⟩
      simp only [Repositories.listAssignedToWorker, active]
      rfl
  | listStoppableForWorker workerID =>
      refine ⟨Or.inl (congrArg Answer.jobs ?_), mirrors⟩
      simp only [Repositories.listStoppableForWorker, active]
      rfl
  | listWalk pageSize stateFilter calls =>
      have walked := walk_agrees mirrors (accepted stateFilter (by simp [textsOf])) pageSize calls
        (abreast_start mirrors stateFilter)
      refine ⟨?_, mirrors⟩
      rcases walked with same | failed
      · exact Or.inl (by simp only [perform, same])
      · exact Or.inr failed

theorem submit_known {now : Time} {id other : String} {input : SubmitInput Cpu Mem}
    (stored : (JobService.submit memory now id input).2.find other ≠ none) :
    memory.find other ≠ none ∨ id = other := by
  unfold JobService.submit at stored
  split at stored
  · exact Or.inl stored
  · cases known : memory.bySubmission (newJob now id input).submissionID with
    | some existing =>
        rw [create_existing known] at stored
        exact Or.inl stored
    | none =>
        rw [create_new known, find_insertNew] at stored
        split at stored
        case isTrue own => exact Or.inr own.symm
        case isFalse => exact Or.inl stored

/-- Only Submit brings in an ID. -/
theorem perform_known {clock : Nat → Time} {operation : Operation Cpu Mem} {id : String}
    (stored : (perform memoryRepository clock memory operation).2.find id ≠ none) :
    memory.find id ≠ none ∨ submittedID operation = some id := by
  cases operation with
  | submit own input =>
      simp only [perform, submit_memory] at stored
      exact (submit_known stored).imp_right (congrArg some)
  | loseWorker workerID => exact Or.inl (recoverEach_known stored)
  | get | listActive | listAssignedToWorker | listStoppableForWorker | listWalk => exact Or.inl stored
  | _ => exact Or.inl (update_known stored)

theorem serve_append {Store : Type} (repo : Repository Store Cpu Mem) (store : Store)
    (history : List ((Nat → Time) × Operation Cpu Mem)) (clock : Nat → Time)
    (operation : Operation Cpu Mem) :
    serve repo store (history ++ [(clock, operation)]) =
      (perform repo clock (serve repo store history) operation).2 := by
  simp only [serve, List.foldl_append, List.foldl_cons, List.foldl_nil]

/-- The last operation of an admissible history finds the stores as mirrors. -/
theorem last_agrees {history : List ((Nat → Time) × Operation Cpu Mem)} {clock : Nat → Time}
    {operation : Operation Cpu Mem} (admissible : Admissible (history ++ [(clock, operation)]))
    (mirrors : Mirrors memory db)
    (known : ∀ id, memory.find id ≠ none → id ∈ history.filterMap fun entry => submittedID entry.2) :
    Agree memory (perform memoryRepository clock memory operation).1
        (perform (jobRepository Collation.bytewise) clock db operation).1 ∧
      Mirrors (perform memoryRepository clock memory operation).2
        (perform (jobRepository Collation.bytewise) clock db operation).2 := by
  have last : (clock, operation) ∈ history ++ [(clock, operation)] := by simp
  refine perform_agrees mirrors (admissible.clocks _ last) (admissible.texts _ last) fun id isNew => ?_
  by_contra stored
  have unique := admissible.unique
  rw [List.filterMap_append, List.nodup_append] at unique
  exact unique.2.2 id (known id stored) id (by simpa using isNew) rfl

/-- After any admissible history the stores mirror each other, and hold nothing
but what was submitted. -/
theorem serve_agrees {history : List ((Nat → Time) × Operation Cpu Mem)}
    (admissible : Admissible history) :
    Mirrors (serve memoryRepository MemoryRepository.empty history)
        (serve (jobRepository Collation.bytewise) Database.empty history) ∧
      ∀ id, (serve memoryRepository MemoryRepository.empty history).find id ≠ none →
        id ∈ history.filterMap fun entry => submittedID entry.2 := by
  induction history using List.reverseRecOn with
  | nil => exact ⟨empty_mirrors, fun id stored => absurd (find_empty id) stored⟩
  | append_singleton history entry ih =>
      obtain ⟨clock, operation⟩ := entry
      obtain ⟨mirrors, known⟩ := ih (admissible_earlier admissible)
      rw [serve_append, serve_append, List.filterMap_append]
      refine ⟨(last_agrees admissible mirrors known).2, fun id stored => List.mem_append.mpr ?_⟩
      rcases perform_known stored with earlier | submitted
      · exact Or.inl (known id earlier)
      · exact Or.inr (by simp [submitted])

/-- Whatever was asked before, the next operation is answered alike over both
repositories, and leaves the same jobs in both. A walk may end in an unreadable
token; over a listable store it does not, and gets to its end. -/
theorem repositories_interchangeable (history : List ((Nat → Time) × Operation Cpu Mem))
    (clock : Nat → Time) (operation : Operation Cpu Mem)
    (admissible : Admissible (history ++ [(clock, operation)])) :
    Agree (serve memoryRepository MemoryRepository.empty history)
        (perform memoryRepository clock (serve memoryRepository MemoryRepository.empty history)
          operation).1
        (perform (jobRepository Collation.bytewise) clock
          (serve (jobRepository Collation.bytewise) Database.empty history) operation).1 ∧
      (∀ id,
        (serve memoryRepository MemoryRepository.empty (history ++ [(clock, operation)])).find id =
          ((serve (jobRepository Collation.bytewise) Database.empty
            (history ++ [(clock, operation)])).find id).map jobOf) ∧
      ∀ pageSize stateFilter calls, operation = .listWalk pageSize stateFilter calls →
        Listable (serve memoryRepository MemoryRepository.empty history) →
        (serve memoryRepository MemoryRepository.empty history).jobs.length < calls →
        ∃ pages, (perform memoryRepository clock
          (serve memoryRepository MemoryRepository.empty history) operation).1 = .pages pages .complete := by
  obtain ⟨mirrors, known⟩ := serve_agrees (admissible_earlier admissible)
  refine ⟨(last_agrees admissible mirrors known).1, (serve_agrees admissible).1.same, ?_⟩
  rintro pageSize stateFilter calls rfl listable enough
  have few := sortedJobs_length (serve memoryRepository MemoryRepository.empty history) stateFilter
  have ended := walk_completes listable pageSize (Or.inl (show offsetOf "" = .ok ((0 : Nat) : Int) from rfl))
    (Nat.zero_le (sortedJobs _ stateFilter).length) (by omega : _ < 0 + calls)
  exact ⟨_, congrArg (Answer.pages _) ended⟩

end Perform

end Operations

/-- Two jobs; the second attempt of the first one runs on another worker. -/
def twoAttempts : List ((Nat → Time) × Operation Int Int) :=
  [(fun _ => 1000, .submit "job-1" (submission ⟨1, 0, 2, 1024⟩)),
    (fun _ => 1000, .submit "job-2" (submission ⟨1, 0, 2, 1024⟩)),
    (fun _ => 2000, .assignToWorkers "job-1" ["worker-1"]), (fun _ => 3000, .start "job-1"),
    (fun _ => 4000, .loseWorker "worker-1"), (fun _ => 5000, .assignToWorkers "job-1" ["worker-2"])]

def pageByPage : Operation Int Int := .listWalk 1 "" 3

theorem twoAttempts_interchangeable :
    (∃ pages, (perform memoryRepository (fun _ => 6000)
        (serve memoryRepository MemoryRepository.empty twoAttempts) pageByPage).1 =
          .pages pages .complete ∧
        pages.map (fun page => page.map Job.id) = [["job-1"], ["job-2"]]) ∧
      ((serve memoryRepository MemoryRepository.empty (twoAttempts ++ [(fun _ => 6000, pageByPage)])).find
        "job-1").map Job.assignedWorkerIDs = some ["worker-2"] ∧
      (∀ id, (serve memoryRepository MemoryRepository.empty
          (twoAttempts ++ [(fun _ => 6000, pageByPage)])).find id =
        ((serve (jobRepository Collation.bytewise) Database.empty
          (twoAttempts ++ [(fun _ => 6000, pageByPage)])).find id).map jobOf) := by
  have admissible : Admissible (twoAttempts ++ [(fun _ => 6000, pageByPage)]) := by
    refine ⟨?_, by decide, by decide⟩
    simp [twoAttempts]
  refine ⟨⟨_, rfl, rfl⟩, rfl, ?_⟩
  exact (repositories_interchangeable twoAttempts (fun _ => 6000) pageByPage admissible).2.1

end OrionQueue.Interchange
