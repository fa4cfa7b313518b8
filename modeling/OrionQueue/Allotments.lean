import Mathlib.Algebra.GroupWithZero.Nat
import Mathlib.Data.Finset.Card
import Mathlib.Data.List.Forall2
import Mathlib.Algebra.BigOperators.Group.List.Basic

/-!
Handing out disjoint sets of devices, one item after the other. Counting is
enough: if an item finds more suitable devices than are gone so far, in number
and whichever they are, there is a set for it. No choice made for the earlier
items can be wrong, so the devices never have to be matched as a whole.
-/

namespace OrionQueue.Allotments

universe u v
variable {Item : Type u} {Device : Type v} (need : Item → Nat) (suits : Item → Finset Device)

/-- Every item has its number of suitable devices, none of which was taken before
or is given to another item. -/
structure Allotment (taken : Finset Device) (items : List Item) (given : List (Finset Device)) :
    Prop where
  suited : List.Forall₂ (fun item devices => devices.card = need item ∧ devices ⊆ suits item)
    items given
  disjoint : (taken :: given).Pairwise Disjoint

variable {need suits} {taken : Finset Device} {items : List Item} {given : List (Finset Device)}

theorem allotment_nil (taken : Finset Device) : Allotment need suits taken [] [] :=
  ⟨.nil, List.pairwise_singleton _ _⟩

theorem suited_cards (suited : List.Forall₂
    (fun item devices => devices.card = need item ∧ devices ⊆ suits item) items given) :
    given.map Finset.card = items.map need := by
  induction suited with
  | nil => rfl
  | cons own _ ih => rw [List.map_cons, List.map_cons, own.1, ih]

variable [DecidableEq Device]

def union (sets : List (Finset Device)) : Finset Device := sets.foldr (· ∪ ·) ∅

theorem subset_union {sets : List (Finset Device)} {devices : Finset Device}
    (member : devices ∈ sets) : devices ⊆ union sets := by
  induction sets with
  | nil => cases member
  | cons first rest ih =>
      rcases List.mem_cons.mp member with rfl | later
      · exact Finset.subset_union_left
      · exact (ih later).trans Finset.subset_union_right

theorem union_card_le (sets : List (Finset Device)) :
    (union sets).card ≤ (sets.map Finset.card).sum := by
  induction sets with
  | nil => rfl
  | cons first rest ih =>
      calc (first ∪ union rest).card ≤ first.card + (union rest).card := Finset.card_union_le _ _
        _ ≤ first.card + (rest.map Finset.card).sum := Nat.add_le_add_left ih _

/-- Whatever was given so far, the next item finds its devices. -/
theorem allotment_extends (allotted : Allotment need suits taken items given) {item : Item}
    (room : need item ≤ (suits item).card - (taken.card + (items.map need).sum)) :
    ∃ devices, Allotment need suits taken (items ++ [item]) (given ++ [devices]) := by
  have gone : (union (taken :: given)).card ≤ taken.card + (items.map need).sum := by
    have bound := union_card_le (taken :: given)
    rwa [List.map_cons, List.sum_cons, suited_cards allotted.suited] at bound
  have free : need item ≤ (suits item \ union (taken :: given)).card := by
    have left := Finset.le_card_sdiff (union (taken :: given)) (suits item)
    omega
  obtain ⟨devices, inside, size⟩ := Finset.exists_subset_card_eq free
  refine ⟨devices, ?_, ?_⟩
  · refine List.rel_append allotted.suited (.cons ⟨size, ?_⟩ .nil)
    exact inside.trans Finset.sdiff_subset
  · rw [← List.cons_append, List.pairwise_append]
    refine ⟨allotted.disjoint, List.pairwise_singleton _ _, fun earlier member devices' isNew => ?_⟩
    obtain rfl := List.mem_singleton.mp isNew
    exact (Finset.disjoint_sdiff.mono_left (subset_union member)).mono_right inside

/-- So all the items can be served in their order. -/
theorem allotment_exists
    (room : ∀ done item rest, items = done ++ item :: rest →
      need item ≤ (suits item).card - (taken.card + (done.map need).sum)) :
    ∃ given, Allotment need suits taken items given := by
  induction items using List.reverseRecOn with
  | nil => exact ⟨[], allotment_nil taken⟩
  | append_singleton items item ih =>
      obtain ⟨given, allotted⟩ := ih fun done other rest split =>
        room done other (rest ++ [item]) (by rw [split, List.append_assoc, List.cons_append])
      obtain ⟨devices, extended⟩ := allotment_extends allotted (room items item [] rfl)
      exact ⟨given ++ [devices], extended⟩

end OrionQueue.Allotments
