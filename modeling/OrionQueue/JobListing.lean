import OrionQueue.JobRepository
import OrionQueue.JobStore
import OrionQueue.TokenBytes

/-!
List of both job repositories. MemoryRepository cuts a page out of the sorted
jobs at an offset, JobRepository fetches the rows after a key and one more, to
see whether another page follows. `list_page` says that the latter is a keyset
page, whatever the table holds.
-/

namespace OrionQueue.JobListing

open Jobs JobTable Database JobRepository PageTokens

variable {Cpu Mem : Type}

structure ListOptions where
  pageSize : Int
  pageToken : String
  /-- The name of a state, or nothing. -/
  stateFilter : String
  deriving DecidableEq

structure ListResult (Cpu Mem : Type) where
  jobs : List (Job Cpu Mem)
  nextPageToken : String
  deriving DecidableEq

def defaultPageSize : Nat := 50
def maxPageSize : Nat := 200

def pageSizeOf (pageSize : Int) : Nat :=
  if pageSize ≤ 0 ∨ maxPageSize < pageSize then defaultPageSize else pageSize.toNat

def matchesFilter (stateFilter : String) (state : State) : Bool :=
  stateFilter = "" || state.name = stateFilter

theorem pageSizeOf_pos (pageSize : Int) : 0 < pageSizeOf pageSize := by
  unfold pageSizeOf
  split
  · decide
  · omega

end OrionQueue.JobListing

namespace OrionQueue.JobStore.MemoryRepository

open Jobs JobListing JobRepository PageTokens

variable {Cpu Mem : Type}

def listLess (left right : Job Cpu Mem) : Bool :=
  if left.createdAt = right.createdAt then left.id < right.id
  else left.createdAt < right.createdAt

/-- The jobs that match, in listing order. -/
def sortedJobs (repo : MemoryRepository Cpu Mem) (stateFilter : String) : List (Job Cpu Mem) :=
  -- As in `listActive`, the order of jobs with distinct IDs is total.
  (repo.jobs.filter fun job => matchesFilter stateFilter job.state).insertionSort
    fun left right => listLess right left = false

def offsetOf (pageToken : String) : Except TokenError Int :=
  if pageToken = "" then .ok 0 else decodePageToken pageToken

def list (repo : MemoryRepository Cpu Mem) (options : ListOptions) :
    Except RepositoryError (ListResult Cpu Mem) :=
  let all := sortedJobs repo options.stateFilter
  match offsetOf options.pageToken with
  | .error problem => .error (.pageToken problem)
  | .ok requested =>
      let offset := if requested < 0 ∨ all.length < requested then all.length else requested.toNat
      let last := min (offset + pageSizeOf options.pageSize) all.length
      .ok
        { jobs := (all.drop offset).take (last - offset)
          nextPageToken := if last < all.length then encodePageToken last else "" }

/-- The page that starts after `offset` of the sorted jobs. -/
theorem list_offset {repo : MemoryRepository Cpu Mem} {options : ListOptions} {offset : Nat}
    (read : offsetOf options.pageToken = .ok (offset : Int))
    (inside : offset ≤ (sortedJobs repo options.stateFilter).length) :
    list repo options = .ok
      { jobs := ((sortedJobs repo options.stateFilter).drop offset).take (pageSizeOf options.pageSize)
        nextPageToken :=
          if pageSizeOf options.pageSize < ((sortedJobs repo options.stateFilter).drop offset).length
          then encodePageToken (offset + pageSizeOf options.pageSize) else "" } := by
  simp only [list, read]
  generalize sortedJobs repo options.stateFilter = all at *
  generalize pageSizeOf options.pageSize = size
  rw [if_neg (by omega), Int.toNat_natCast, List.length_drop]
  by_cases more : size < all.length - offset
  · have last : min (offset + size) all.length = offset + size := by omega
    rw [last, if_pos (by omega), if_pos more, Nat.add_sub_cancel_left]
  · have last : min (offset + size) all.length = all.length := by omega
    rw [last, if_neg (by omega), if_neg more, List.take_of_length_le (by rw [List.length_drop]),
      List.take_of_length_le (by rw [List.length_drop]; omega)]

end OrionQueue.JobStore.MemoryRepository

namespace OrionQueue.JobRepository

open Jobs JobTable Database JobListing PageTokens

variable {Cpu Mem SortKey : Type} (collation : Collation SortKey)

/-- The rows that match. -/
def matchingRows (db : Database Cpu Mem) (stateFilter : String) : List (Row Cpu Mem) :=
  db.jobs.filter fun row => matchesFilter stateFilter row.state

/-- The key that the page starts after. An ID that is no text fails in the server. -/
def cursorOf (pageToken : String) : Except RepositoryError (Option (Int ×ₗ SortKey)) :=
  if pageToken = "" then .ok none
  else
    match decodeListToken pageToken with
    | .error problem => .error (.pageToken problem)
    | .ok (time, bytes) =>
        match (ofUTF8 bytes).filter storableText with
        | none => .error (.statement "persistence: list jobs" invalidByteSequence)
        | some id => .ok (some (toLex (micros time, collation.sortKey id)))

/-- The page token after a page that ends with the row. -/
def tokenOf : Option (Row Cpu Mem) → String
  | some row => encodeListToken (ofMicros row.createdAt) row.id
  | none => ""

theorem micros_ofMicros (count : Int) : micros (ofMicros count) = count :=
  Int.mul_ediv_cancel count (by decide)

/-- What List makes of the token of a row. -/
theorem cursorOf_token (row : Row Cpu Mem) :
    cursorOf collation (tokenOf (some row)) =
      match Rfc3339.parse (Rfc3339.format (ofMicros row.createdAt)) with
      | none => .error (.pageToken .timestamp)
      | some time =>
          if storableText row.id then .ok (some (toLex (micros time, collation.sortKey row.id)))
          else .error (.statement "persistence: list jobs" invalidByteSequence) := by
  rw [cursorOf, tokenOf, if_neg (encodeListToken_ne _ _), TokenBytes.decodeText_encode]
  cases Rfc3339.parse (Rfc3339.format (ofMicros row.createdAt)) with
  | none => rfl
  | some time =>
      simp only [ofUTF8_utf8]
      by_cases storable : storableText row.id <;> simp [Option.filter, storable]

theorem cursorOf_token_read {row : Row Cpu Mem}
    (year : Rfc3339.FourDigitYear (ofMicros row.createdAt)) (storable : storableText row.id = true) :
    cursorOf collation (tokenOf (some row)) = .ok (some (listKey collation row)) := by
  rw [cursorOf_token, Rfc3339.parse_format year]
  simp only [storable, if_true, micros_ofMicros, listKey]

/-- A token that is read at all is read as the key of the row it was made from. -/
theorem cursorOf_token_ok {row : Row Cpu Mem} {cursor : Option (Int ×ₗ SortKey)}
    (read : cursorOf collation (tokenOf (some row)) = .ok cursor) :
    Rfc3339.FourDigitYear (ofMicros row.createdAt) ∧ cursor = some (listKey collation row) := by
  have year : Rfc3339.FourDigitYear (ofMicros row.createdAt) := by
    by_contra other
    rw [cursorOf_token, Rfc3339.parse_format_none other] at read
    cases read
  rw [cursorOf_token, Rfc3339.parse_format year] at read
  simp only [micros_ofMicros] at read
  split at read
  · exact ⟨year, (Except.ok.inj read).symm⟩
  · cases read

theorem tokenOf_eq_empty {last : Option (Row Cpu Mem)} : tokenOf last = "" ↔ last = none := by
  cases last with
  | none => simp [tokenOf]
  | some row => simp [tokenOf, encodeListToken_ne]

theorem matchingRows_distinct (db : Database Cpu Mem) (stateFilter : String) :
    ((matchingRows db stateFilter).map (listKey collation)).Nodup := by
  have ids : ((matchingRows db stateFilter).map Row.id).Nodup :=
    db.primaryKey.sublist (List.filter_sublist.map Row.id)
  refine List.pairwise_map.mpr ((List.pairwise_map.mp ids).imp fun apart same => apart ?_)
  exact collation.deterministic (congrArg (fun key => (ofLex key).2) same)

theorem mem_matchingRows {db : Database Cpu Mem} {stateFilter : String} {row : Row Cpu Mem} :
    row ∈ matchingRows db stateFilter ↔
      db.find row.id = some row ∧ matchesFilter stateFilter row.state = true := by
  rw [matchingRows, List.mem_filter, find_iff]
  simp

variable [LinearOrder SortKey]

/-- `WHERE state = ... AND (created_at, id) > ... ORDER BY created_at, id LIMIT`. -/
def selectJobs (db : Database Cpu Mem) (stateFilter : String) (cursor : Option (Int ×ₗ SortKey))
    (limit : Nat) : List (List (Value Cpu Mem)) :=
  ((Keyset.beyond (listKey collation) cursor (matchingRows db stateFilter)).take limit).map select

def list (db : Database Cpu Mem) (options : ListOptions) :
    Except RepositoryError (ListResult Cpu Mem) :=
  let pageSize := pageSizeOf options.pageSize
  match cursorOf collation options.pageToken with
  | .error problem => .error problem
  | .ok cursor =>
      if storableText options.stateFilter then
        match scanRows "persistence: scan listed job"
            (selectJobs collation db options.stateFilter cursor (pageSize + 1)) with
        | .error problem => .error problem
        | .ok page =>
            match if pageSize < page.length then page[pageSize - 1]? else none with
            | some last => .ok ⟨page.take pageSize, encodeListToken last.createdAt last.id⟩
            | none => .ok ⟨page, ""⟩
      else .error (.statement "persistence: list jobs" invalidByteSequence)

/-- Every answer of List is a keyset page of what the table holds. -/
theorem list_page {db : Database Cpu Mem} {options : ListOptions}
    {cursor : Option (Int ×ₗ SortKey)} (started : cursorOf collation options.pageToken = .ok cursor)
    (storable : storableText options.stateFilter = true) :
    list collation db options = .ok
      { jobs := (Keyset.page (listKey collation) (pageSizeOf options.pageSize) cursor
          (matchingRows db options.stateFilter)).map jobOf
        nextPageToken := tokenOf (Keyset.lastItem (listKey collation) (pageSizeOf options.pageSize)
          cursor (matchingRows db options.stateFilter)) } := by
  have positive := pageSizeOf_pos options.pageSize
  generalize isSize : pageSizeOf options.pageSize = size at *
  generalize isItems : matchingRows db options.stateFilter = items
  have fetched : (if size < (((Keyset.beyond (listKey collation) cursor items).take (size + 1)).map
        jobOf).length then (((Keyset.beyond (listKey collation) cursor items).take (size + 1)).map
        jobOf)[size - 1]? else none) =
      (Keyset.lastItem (listKey collation) size cursor items).map jobOf := by
    rw [← Keyset.lastItem_fetched positive, List.length_map, List.getElem?_map]
    split <;> rfl
  simp only [list, started, storable, if_true, isSize, selectJobs, isItems, scanRows_select, fetched]
  cases final : Keyset.lastItem (listKey collation) size cursor items with
  | none => rw [Option.map_none, Keyset.page_complete positive final, tokenOf]
  | some row =>
      rw [Option.map_some, ← List.map_take, ← Keyset.page_fetched, tokenOf]
      rfl

/-- The key that pages are ordered by, of a job. -/
def jobKey (job : Job Cpu Mem) : Int ×ₗ SortKey := toLex (job.createdAt, collation.sortKey job.id)

theorem jobKey_le {left right : Row Cpu Mem} :
    listKey collation left ≤ listKey collation right ↔
      jobKey collation (jobOf left) ≤ jobKey collation (jobOf right) := by
  rw [listKey, listKey, jobKey, jobKey, Prod.Lex.toLex_le_toLex, Prod.Lex.toLex_le_toLex]
  simp only [jobOf_createdAt, jobOf_id, ofMicros]
  rw [Int.mul_lt_mul_right (by decide), Int.mul_eq_mul_right_iff (by decide)]

theorem jobKey_lt {left right : Row Cpu Mem} (less : listKey collation left < listKey collation right) :
    jobKey collation (jobOf left) < jobKey collation (jobOf right) :=
  lt_of_not_ge fun above => not_le_of_gt less ((jobKey_le collation).mpr above)

end OrionQueue.JobRepository
