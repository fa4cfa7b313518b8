import Mathlib.Algebra.BigOperators.Group.Finset.Piecewise
import Mathlib.Algebra.Order.BigOperators.Group.List
import Mathlib.Data.List.Nodup
import Mathlib.Data.List.Perm.Subperm

/-!
Books of amounts reserved under keys, and totals of weighted items. A charge is
admitted when it keeps its key within capacity, provided the key was within
capacity before; a sequence of admitted charges then never overdraws a key.
Several holders may hand amounts on without losing any.
-/

namespace OrionQueue.Ledger

universe u v w
variable {Key : Type u} {Item : Type v} {Amount : Type w}

def total [AddCommMonoid Amount] (weight : Item → Amount) (items : List Item) : Amount :=
  (items.map weight).sum

section Books
variable [DecidableEq Key]

def charge [Add Amount] (books : Key → Amount) (entry : Key × Amount) : Key → Amount :=
  fun key => if key = entry.1 then books key + entry.2 else books key

def chargeAll [Add Amount] (books : Key → Amount) (entries : List (Key × Amount)) : Key → Amount :=
  entries.foldl charge books

theorem chargeAll_apply [AddCommMonoid Amount] (books : Key → Amount)
    (entries : List (Key × Amount)) (key : Key) :
    chargeAll books entries key =
      books key + total Prod.snd (entries.filter fun entry => entry.1 = key) := by
  induction entries generalizing books with
  | nil => simp [chargeAll, total]
  | cons entry rest ih =>
      change chargeAll (charge books entry) rest key = _
      rw [ih]
      by_cases same : entry.1 = key
      · subst same
        simp [charge, total, add_assoc]
      · simp [charge, total, same, Ne.symm same]

def Admitted [Add Amount] [LE Amount] (capacity : Key → Amount) :
    (Key → Amount) → List (Key × Amount) → Prop
  | _, [] => True
  | books, entry :: rest =>
      (books entry.1 ≤ capacity entry.1 → books entry.1 + entry.2 ≤ capacity entry.1) ∧
        Admitted capacity (charge books entry) rest

theorem admitted_within [Add Amount] [LE Amount] {capacity books : Key → Amount}
    {entries : List (Key × Amount)} (admitted : Admitted capacity books entries) {key : Key}
    (within : books key ≤ capacity key) : chargeAll books entries key ≤ capacity key := by
  induction entries generalizing books with
  | nil => exact within
  | cons entry rest ih =>
      apply ih admitted.2
      by_cases same : key = entry.1
      · subst same
        simpa [charge] using admitted.1 within
      · simpa [charge, same] using within

end Books

/-- Several holders of one kind of amount. When one of them changes, what it gives
away plus what it keeps is what it had plus what it gained, and so for all together. -/
theorem sum_transfer {Holder : Type u} [Fintype Holder] [DecidableEq Holder]
    [AddCancelCommMonoid Amount] (weight : Item → Amount) (holdings : Holder → Item)
    (holder : Holder) (item : Item) {given gained : Amount}
    (balance : given + weight item = weight (holdings holder) + gained) :
    given + ∑ other, weight (Function.update holdings holder item other) =
      ∑ other, weight (holdings other) + gained := by
  have after : ∑ other, weight (Function.update holdings holder item other) =
      weight item + ∑ other ∈ Finset.univ \ {holder}, weight (holdings other) := by
    simp only [Function.apply_update fun _ => weight]
    exact Finset.sum_update_of_mem (Finset.mem_univ holder) _ _
  have before : ∑ other, weight (holdings other) =
      weight (holdings holder) + ∑ other ∈ Finset.univ \ {holder}, weight (holdings other) := by
    rw [← Finset.sum_update_of_mem (Finset.mem_univ holder), Function.update_eq_self]
  calc given + ∑ other, weight (Function.update holdings holder item other)
      = (given + weight item) + ∑ other ∈ Finset.univ \ {holder}, weight (holdings other) := by
        rw [after, add_assoc]
    _ = ∑ other, weight (holdings other) + gained := by
        rw [balance, before, add_right_comm]

section Totals
variable [AddCommMonoid Amount] [PartialOrder Amount] [IsOrderedAddMonoid Amount]

theorem total_nonneg {weight : Item → Amount} {items : List Item}
    (nonneg : ∀ item ∈ items, 0 ≤ weight item) : 0 ≤ total weight items :=
  List.sum_nonneg fun amount member => by
    obtain ⟨item, inside, rfl⟩ := List.mem_map.mp member
    exact nonneg item inside

theorem total_subperm {weight : Item → Amount} {left right : List Item}
    (sub : left.Subperm right) (nonneg : ∀ item ∈ right, 0 ≤ weight item) :
    total weight left ≤ total weight right := by
  obtain ⟨listed, permuted, inOrder⟩ := sub
  rw [total, total, ← (permuted.map weight).sum_eq]
  refine (inOrder.map weight).sum_le_sum fun amount member => ?_
  obtain ⟨item, inside, rfl⟩ := List.mem_map.mp member
  exact nonneg item inside

/-- Distinct items that all occur in `cover`, under the same key and weight,
weigh no more than `cover`. -/
theorem total_le_cover {Other : Type v} (keyOf : Item → Key) (keyOf' : Other → Key)
    {weight : Item → Amount} {weight' : Other → Amount} {items : List Item} {cover : List Other}
    (distinct : (items.map keyOf).Nodup) (nonneg : ∀ other ∈ cover, 0 ≤ weight' other)
    (covered : ∀ item ∈ items, ∃ other ∈ cover, keyOf' other = keyOf item ∧
      weight' other = weight item) :
    total weight items ≤ total weight' cover := by
  have pairsDistinct : (items.map fun item => (keyOf item, weight item)).Nodup := by
    refine List.Nodup.of_map Prod.fst ?_
    rw [List.map_map]
    exact distinct
  have subset : (items.map fun item => (keyOf item, weight item)) ⊆
      cover.map fun other => (keyOf' other, weight' other) := by
    intro pair member
    obtain ⟨item, inside, rfl⟩ := List.mem_map.mp member
    obtain ⟨other, found, sameKey, sameWeight⟩ := covered item inside
    exact List.mem_map.mpr ⟨other, found, by rw [sameKey, sameWeight]⟩
  -- Equal weights alone may repeat in `items`; paired with their keys they do not.
  have bound : total Prod.snd (items.map fun item => (keyOf item, weight item)) ≤
      total Prod.snd (cover.map fun other => (keyOf' other, weight' other)) := by
    refine total_subperm (List.subperm_of_subset pairsDistinct subset) fun pair member => ?_
    obtain ⟨other, found, rfl⟩ := List.mem_map.mp member
    exact nonneg other found
  simpa [total, List.map_map, Function.comp_def] using bound

end Totals

end OrionQueue.Ledger
