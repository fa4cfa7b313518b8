import Mathlib.Data.List.Sort
import Mathlib.Data.List.TakeDrop
import Mathlib.Data.Prod.Lex
import Mathlib.Order.Lattice

/-!
Items in the order of their keys, and what stands before and after one of them.
Keyset pagination over a collection that may change between the pages: a page
holds the first items beyond a cursor in the order of their keys; the next
cursor is the key of its last item, as long as something is left beyond it. A
walk follows the cursors to the end, over whatever the collection is at each call.
-/

namespace OrionQueue.Keyset

universe u v
variable {Item : Type u} {Key : Type v} [LinearOrder Key] (key : Item → Key)

def sortBy (items : List Item) : List Item :=
  items.insertionSort fun left right => key left ≤ key right

def beyond (cursor : Option Key) (items : List Item) : List Item :=
  sortBy key (items.filter fun item => cursor.all fun bound => bound < key item)

def page (size : Nat) (cursor : Option Key) (items : List Item) : List Item :=
  (beyond key cursor items).take size

/-- The last item of a page that is not the last one. -/
def lastItem (size : Nat) (cursor : Option Key) (items : List Item) : Option Item :=
  if size < (beyond key cursor items).length then (page key size cursor items).getLast? else none

def nextCursor (size : Nat) (cursor : Option Key) (items : List Item) : Option Key :=
  (lastItem key size cursor items).map key

/-- The pages of a walk from a cursor, with the collection at each call. -/
inductive Walk (size : Nat) : Option Key → List (List Item × List Item) → Prop
  | last {cursor : Option Key} {items : List Item}
      (exhausted : nextCursor key size cursor items = none) :
      Walk size cursor [(items, page key size cursor items)]
  | next {cursor : Option Key} {bound : Key} {items : List Item}
      {rest : List (List Item × List Item)}
      (more : nextCursor key size cursor items = some bound)
      (walked : Walk size (some bound) rest) :
      Walk size cursor ((items, page key size cursor items) :: rest)

variable {key}

theorem sortBy_perm (items : List Item) : (sortBy key items).Perm items :=
  List.perm_insertionSort _ items

theorem sortBy_sorted (items : List Item) :
    (sortBy key items).Pairwise fun left right => key left ≤ key right := by
  have total : Std.Total fun left right : Item => key left ≤ key right :=
    ⟨fun left right => le_total (key left) (key right)⟩
  have trans : IsTrans Item fun left right => key left ≤ key right :=
    ⟨fun _ _ _ first second => le_trans first second⟩
  exact List.pairwise_insertionSort _ items

/-- With distinct keys there is one sorted arrangement. -/
theorem sorted_unique {left right : List Item} (same : left.Perm right)
    (distinct : (left.map key).Nodup)
    (sorted : left.Pairwise fun first second => key first ≤ key second)
    (sorted' : right.Pairwise fun first second => key first ≤ key second) : left = right := by
  refine same.eq_of_pairwise (fun first second member member' below above => ?_) sorted sorted'
  exact List.inj_on_of_nodup_map distinct member (same.mem_iff.mpr member')
    (le_antisymm below above)

/-- Two strictly sorted lists of the same items are one. -/
theorem strict_unique {left right : List Item}
    (sorted : left.Pairwise fun first second => key first < key second)
    (sorted' : right.Pairwise fun first second => key first < key second)
    (same : ∀ item, item ∈ left ↔ item ∈ right) : left = right := by
  have distinct : ∀ {list : List Item},
      (list.Pairwise fun first second => key first < key second) → (list.map key).Nodup :=
    fun ordered => List.pairwise_map.mpr (ordered.imp fun below => ne_of_lt below)
  have perm : left.Perm right :=
    (List.perm_ext_iff_of_nodup (distinct sorted).of_map (distinct sorted').of_map).mpr same
  exact sorted_unique perm (distinct sorted) (sorted.imp fun below => le_of_lt below)
    (sorted'.imp fun below => le_of_lt below)

theorem sortBy_congr {left right : List Item} (same : left.Perm right)
    (distinct : (left.map key).Nodup) : sortBy key left = sortBy key right := by
  have perm : (sortBy key left).Perm (sortBy key right) :=
    (sortBy_perm left).trans (same.trans (sortBy_perm right).symm)
  exact sorted_unique perm (((sortBy_perm left).map key).nodup_iff.mpr distinct)
    (sortBy_sorted left) (sortBy_sorted right)

theorem sortBy_strict {items : List Item} (distinct : (items.map key).Nodup) :
    (sortBy key items).Pairwise fun left right => key left < key right := by
  have keys : ((sortBy key items).map key).Nodup :=
    ((sortBy_perm items).map key).nodup_iff.mpr distinct
  exact ((sortBy_sorted items).and (List.pairwise_map.mp keys)).imp fun both =>
    lt_of_le_of_ne both.1 both.2

theorem sortBy_head_none {items : List Item} : (sortBy key items).head? = none ↔ items = [] := by
  rw [List.head?_eq_none_iff, ← List.length_eq_zero_iff, (sortBy_perm items).length_eq,
    List.length_eq_zero_iff]

theorem sortBy_head {items : List Item} {first : Item}
    (leads : (sortBy key items).head? = some first) :
    first ∈ items ∧ ∀ item ∈ items, key first ≤ key item := by
  have sorted : (sortBy key items).Pairwise fun left right => key left ≤ key right :=
    sortBy_sorted items
  have same : ∀ item, item ∈ sortBy key items ↔ item ∈ items := fun _ => (sortBy_perm items).mem_iff
  obtain ⟨rest, split⟩ := List.head?_eq_some_iff.mp leads
  simp only [split] at sorted same
  refine ⟨(same first).mp List.mem_cons_self, fun item member => ?_⟩
  rcases List.mem_cons.mp ((same item).mpr member) with rfl | later
  · exact le_rfl
  · exact List.rel_of_pairwise_cons sorted later

/-- In a strictly sorted list the smaller items stand in front of an item. -/
theorem sorted_around {items : List Item}
    (sorted : items.Pairwise fun left right => key left < key right) {item : Item}
    (member : item ∈ items) :
    ∃ after, items = (items.filter fun other => key other < key item) ++ item :: after ∧
      ∀ other ∈ after, key item < key other := by
  obtain ⟨before, after, rfl⟩ := List.append_of_mem member
  obtain ⟨_, tail, across⟩ := List.pairwise_append.mp sorted
  have above := (List.pairwise_cons.mp tail).1
  have below : (before.filter fun other => key other < key item) = before :=
    List.filter_eq_self.mpr fun other early => by simpa using across other early item (by simp)
  have none : ((item :: after).filter fun other => key other < key item) = [] := by
    refine List.filter_eq_nil_iff.mpr fun other late => ?_
    rcases List.mem_cons.mp late with rfl | later
    · simp
    · simpa using (above other later).le
  exact ⟨after, by rw [List.filter_append, below, none, List.append_nil], above⟩

/-- The items below a bound come first. -/
theorem sorted_split {items : List Item}
    (sorted : items.Pairwise fun left right => key left < key right) (bound : Key) :
    items = (items.filter fun item => key item < bound) ++
      items.filter fun item => bound ≤ key item := by
  induction items with
  | nil => rfl
  | cons item rest ih =>
      obtain ⟨above, tail⟩ := List.pairwise_cons.mp sorted
      by_cases below : key item < bound
      · simp only [List.filter_cons, below, not_le.mpr below, decide_true, decide_false, if_true,
          Bool.false_eq_true, if_false, List.cons_append]
        exact congrArg (List.cons item) (ih tail)
      · have reached := not_lt.mp below
        have none : (rest.filter fun other => key other < bound) = [] :=
          List.filter_eq_nil_iff.mpr fun other later => by
            simpa using reached.trans (above other later).le
        have all : (rest.filter fun other => bound ≤ key other) = rest :=
          List.filter_eq_self.mpr fun other later => by
            simpa using reached.trans (above other later).le
        simp [below, reached, none, all]

/-- What stands at the front of a sorted list has everything below it there too. -/
theorem sorted_front {items front : List Item}
    (sorted : items.Pairwise fun left right => key left ≤ key right) (leads : front <+: items)
    {item lower : Item} (member : item ∈ front) (listed : lower ∈ items)
    (below : key lower < key item) :
    lower ∈ front := by
  obtain ⟨rest, rfl⟩ := leads
  refine (List.mem_append.mp listed).resolve_right fun behind => ?_
  exact not_lt.mpr ((List.pairwise_append.mp sorted).2.2 item member lower behind) below

/-- Sorting by a comparison that agrees with the keys. -/
theorem insertionSort_eq_sortBy {less : Item → Item → Bool}
    (agrees : ∀ left right, less right left = false ↔ key left ≤ key right) (items : List Item) :
    items.insertionSort (fun left right => less right left = false) = sortBy key items := by
  have sorted := List.map_insertionSort (fun left right => less right left = false)
    (fun left right => key left ≤ key right) id items fun left _ right _ => agrees left right
  simpa [sortBy] using sorted

/-- A comparison by one criterion, and by another where the first does not decide. -/
theorem lexLess_iff {First Second : Type*} [LinearOrder First] [LinearOrder Second]
    {left right : First} {left' right' : Second} {less : Bool}
    (agrees : less = false ↔ left' ≤ right') :
    (if right ≠ left then decide (right < left) else less) = false ↔
      toLex (left, left') ≤ toLex (right, right') := by
  rw [Prod.Lex.toLex_le_toLex]
  by_cases same : right = left
  · simp [same, agrees]
  · simp [same, Ne.symm same, le_iff_lt_or_eq]

/-- An item with a smaller key stands before the other. -/
theorem sortBy_before {items : List Item} {first second : Item} (listed : first ∈ items)
    (listed' : second ∈ items) (less : key first < key second) :
    [first, second].Sublist (sortBy key items) := by
  have sorted : (sortBy key items).Pairwise fun left right => key left ≤ key right :=
    sortBy_sorted items
  have same : ∀ item, item ∈ sortBy key items ↔ item ∈ items := fun _ => (sortBy_perm items).mem_iff
  obtain ⟨before, after, split⟩ := List.append_of_mem ((same first).mpr listed)
  have member := (same second).mpr listed'
  rw [split] at sorted member ⊢
  have later : second ∈ after := by
    rcases List.mem_append.mp member with early | rest
    · have below := (List.pairwise_append.mp sorted).2.2 second early first (by simp)
      exact absurd less (not_lt.mpr below)
    · refine (List.mem_cons.mp rest).resolve_left fun same => absurd less ?_
      rw [same]
      exact lt_irrefl _
  exact ((List.singleton_sublist.mpr later).cons_cons first).trans (List.sublist_append_right _ _)

theorem sortBy_map {Item' : Type u} {Key' : Type v} [LinearOrder Key'] {key' : Item' → Key'}
    {view : Item → Item'}
    (agrees : ∀ left right, key left ≤ key right ↔ key' (view left) ≤ key' (view right))
    (items : List Item) : (sortBy key items).map view = sortBy key' (items.map view) :=
  List.map_insertionSort _ _ view items fun left _ right _ => agrees left right

theorem mem_beyond {cursor : Option Key} {items : List Item} {item : Item} :
    item ∈ beyond key cursor items ↔ item ∈ items ∧ ∀ bound ∈ cursor, bound < key item := by
  rw [beyond, (sortBy_perm _).mem_iff, List.mem_filter]
  cases cursor <;> simp

theorem beyond_sorted (cursor : Option Key) {items : List Item} (distinct : (items.map key).Nodup) :
    (beyond key cursor items).Pairwise fun left right => key left < key right :=
  sortBy_strict (distinct.sublist (List.filter_sublist.map key))

theorem mem_page {size : Nat} {cursor : Option Key} {items : List Item} {item : Item}
    (member : item ∈ page key size cursor items) :
    item ∈ items ∧ ∀ bound ∈ cursor, bound < key item :=
  mem_beyond.mp (List.mem_of_mem_take member)

theorem page_of_exhausted {size : Nat} (positive : 0 < size) {cursor : Option Key}
    {items : List Item} (exhausted : nextCursor key size cursor items = none) :
    page key size cursor items = beyond key cursor items := by
  rw [nextCursor, Option.map_eq_none_iff, lastItem] at exhausted
  split at exhausted
  case isTrue more =>
    rw [List.getLast?_eq_none_iff, page, List.take_eq_nil_iff] at exhausted
    rcases exhausted with none | empty
    · omega
    · simp [empty] at more
  case isFalse few => exact List.take_of_length_le (by omega)

/-- The new cursor separates the page from what is left. -/
theorem nextCursor_separates {size : Nat} {cursor : Option Key} {items : List Item} {bound : Key}
    (distinct : (items.map key).Nodup) (more : nextCursor key size cursor items = some bound) :
    (∃ item ∈ page key size cursor items, key item = bound) ∧
      (∀ item ∈ page key size cursor items, key item ≤ bound) ∧
      ∀ item ∈ (beyond key cursor items).drop size, bound < key item := by
  obtain ⟨final, found, rfl⟩ := Option.map_eq_some_iff.mp more
  have isLast : (page key size cursor items).getLast? = some final := by
    unfold lastItem at found
    split at found
    · exact found
    · cases found
  have sorted := beyond_sorted cursor distinct
  rw [← List.take_append_drop size (beyond key cursor items), List.pairwise_append] at sorted
  obtain ⟨inside, _, across⟩ := sorted
  have listed : final ∈ page key size cursor items := List.mem_of_getLast? isLast
  refine ⟨⟨final, listed, rfl⟩, ?_, fun item member => across final listed item member⟩
  intro item member
  obtain ⟨before, split⟩ := List.getLast?_eq_some_iff.mp isLast
  change (page key size cursor items).Pairwise _ at inside
  rw [split] at member inside
  rcases List.mem_append.mp member with earlier | isFinal
  · exact ((List.pairwise_append.mp inside).2.2 item earlier final (by simp)).le
  · obtain rfl : item = final := by simpa using isFinal
    exact le_rfl

/-- As long as something is left beyond the page, it has a last item. -/
theorem lastItem_more {size : Nat} (positive : 0 < size) {cursor : Option Key} {items : List Item}
    (more : size < (beyond key cursor items).length) :
    ∃ item ∈ page key size cursor items, lastItem key size cursor items = some item := by
  cases final : lastItem key size cursor items with
  | some item =>
      rw [lastItem, if_pos more] at final
      exact ⟨item, List.mem_of_getLast? final, rfl⟩
  | none =>
      have exhausted : nextCursor key size cursor items = none := by rw [nextCursor, final]; rfl
      have whole := page_of_exhausted positive exhausted
      rw [page, List.take_eq_self_iff] at whole
      omega

/-- Fetching one item more than the page holds tells its end. -/
theorem lastItem_fetched {size : Nat} (positive : 0 < size) (cursor : Option Key)
    (items : List Item) :
    (if size < ((beyond key cursor items).take (size + 1)).length then
      ((beyond key cursor items).take (size + 1))[size - 1]? else none) =
      lastItem key size cursor items := by
  unfold lastItem page
  by_cases more : size < (beyond key cursor items).length
  · rw [if_pos more, if_pos (by rw [List.length_take]; omega), List.getLast?_take,
      if_neg (by omega), List.getElem?_take_of_lt (by omega),
      List.getElem?_eq_getElem (by omega : size - 1 < (beyond key cursor items).length)]
    rfl
  · rw [if_neg more, if_neg (by rw [List.length_take]; omega)]

theorem page_fetched {size : Nat} {cursor : Option Key} {items : List Item} :
    page key size cursor items = ((beyond key cursor items).take (size + 1)).take size := by
  rw [List.take_take, min_eq_left (by omega), page]

theorem page_complete {size : Nat} {cursor : Option Key} {items : List Item} (positive : 0 < size)
    (final : lastItem key size cursor items = none) :
    (beyond key cursor items).take (size + 1) = page key size cursor items := by
  have exhausted : nextCursor key size cursor items = none := by rw [nextCursor, final]; rfl
  have whole := page_of_exhausted positive exhausted
  rw [page, List.take_eq_self_iff] at whole
  rw [page, List.take_of_length_le whole, List.take_of_length_le (by omega)]

/-- While nothing changes, the items beyond the new cursor are the rest. -/
theorem beyond_next {size : Nat} {cursor : Option Key} {items : List Item} {bound : Key}
    (distinct : (items.map key).Nodup) (more : nextCursor key size cursor items = some bound) :
    beyond key (some bound) items = (beyond key cursor items).drop size := by
  obtain ⟨⟨final, listed, isBound⟩, inside, outside⟩ := nextCursor_separates distinct more
  refine strict_unique (beyond_sorted (some bound) distinct)
    ((beyond_sorted cursor distinct).sublist (List.drop_sublist size _)) fun item => ?_
  rw [mem_beyond]
  constructor
  · rintro ⟨member, past⟩
    have above : bound < key item := past bound rfl
    have listed' : item ∈ beyond key cursor items := by
      refine mem_beyond.mpr ⟨member, fun earlier isCursor => ?_⟩
      exact lt_trans (isBound ▸ (mem_page listed).2 earlier isCursor) above
    rw [← List.take_append_drop size (beyond key cursor items)] at listed'
    exact (List.mem_append.mp listed').resolve_left fun early =>
      absurd (inside item early) (not_le.mpr above)
  · intro left
    refine ⟨(mem_beyond.mp (List.mem_of_mem_drop left)).1, fun other isBound' => ?_⟩
    obtain rfl := Option.mem_some.mp isBound'
    exact outside item left

variable {size : Nat} {cursor : Option Key} {calls : List (List Item × List Item)}

theorem walk_members (walked : Walk key size cursor calls) :
    ∀ call ∈ calls, ∀ item ∈ call.2, item ∈ call.1 := by
  induction walked with
  | last _ =>
      intro call isCall item member
      obtain rfl := List.mem_singleton.mp isCall
      exact (mem_page member).1
  | next _ _ ih =>
      intro call isCall item member
      rcases List.mem_cons.mp isCall with rfl | later
      · exact (mem_page member).1
      · exact ih call later item member

/-- The pages of a walk, one after the other, go up in the keys. -/
theorem walk_increasing (walked : Walk key size cursor calls)
    (distinct : ∀ call ∈ calls, (call.1.map key).Nodup) :
    ((calls.map Prod.snd).flatten.Pairwise fun left right => key left < key right) ∧
      ∀ item ∈ (calls.map Prod.snd).flatten, ∀ bound ∈ cursor, bound < key item := by
  induction walked with
  | @last cursor items exhausted =>
      have sorted := beyond_sorted cursor (distinct _ List.mem_cons_self)
      simp only [List.map_cons, List.map_nil, List.flatten_cons, List.flatten_nil, List.append_nil]
      exact ⟨sorted.sublist (List.take_sublist size _), fun item member => (mem_page member).2⟩
  | @next cursor bound items rest more walked ih =>
      have keys : (items.map key).Nodup := distinct _ List.mem_cons_self
      obtain ⟨increasing, past⟩ := ih fun call member => distinct call (List.mem_cons_of_mem _ member)
      obtain ⟨⟨final, listed, isBound⟩, inside, _⟩ := nextCursor_separates keys more
      have own := (beyond_sorted cursor keys).sublist (List.take_sublist size _)
      simp only [List.map_cons, List.flatten_cons]
      constructor
      · refine List.pairwise_append.mpr ⟨own, increasing, fun first early second late => ?_⟩
        exact lt_of_le_of_lt (inside first early) (past second late bound rfl)
      · intro item member earlier isCursor
        rcases List.mem_append.mp member with early | late
        · exact (mem_page early).2 earlier isCursor
        · exact lt_trans (isBound ▸ (mem_page listed).2 earlier isCursor) (past item late bound rfl)

/-- A key that is there at every call is met. -/
theorem walk_complete (walked : Walk key size cursor calls) (positive : 0 < size)
    (distinct : ∀ call ∈ calls, (call.1.map key).Nodup) {wanted : Key}
    (ahead : ∀ bound ∈ cursor, bound < wanted)
    (present : ∀ call ∈ calls, ∃ item ∈ call.1, key item = wanted) :
    ∃ item ∈ (calls.map Prod.snd).flatten, key item = wanted := by
  induction walked with
  | @last cursor items exhausted =>
      obtain ⟨item, member, rfl⟩ := present _ List.mem_cons_self
      refine ⟨item, ?_, rfl⟩
      rw [page_of_exhausted positive exhausted]
      simpa using mem_beyond.mpr ⟨member, ahead⟩
  | @next cursor bound items rest more walked ih =>
      have keys : (items.map key).Nodup := distinct _ List.mem_cons_self
      obtain ⟨item, member, isWanted⟩ := present _ List.mem_cons_self
      have listed : item ∈ beyond key cursor items := mem_beyond.mpr ⟨member, isWanted ▸ ahead⟩
      rw [← List.take_append_drop size (beyond key cursor items)] at listed
      simp only [List.map_cons, List.flatten_cons]
      rcases List.mem_append.mp listed with early | late
      · exact ⟨item, List.mem_append_left _ early, isWanted⟩
      · -- The item lies beyond the page, so its key is ahead of the next call.
        have past := (nextCursor_separates keys more).2.2 item late
        obtain ⟨other, found, same⟩ := ih (fun call rested => distinct call (List.mem_cons_of_mem _ rested))
          (fun earlier isBound => by
            obtain rfl := Option.mem_some.mp isBound
            exact isWanted ▸ past)
          (fun call rested => present call (List.mem_cons_of_mem _ rested))
        exact ⟨other, List.mem_append_right _ found, same⟩

end OrionQueue.Keyset
