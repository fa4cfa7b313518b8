import Mathlib.Data.List.AList

/-!
Tables of records under unique keys, on top of Mathlib's association lists.
`Keyed` says that every record is filed under the key it carries itself; the
records of such a table are told apart by that key.
-/

namespace OrionQueue.Tables

universe u v
variable {Key : Type u} {Value : Type v}

abbrev Table (Key : Type u) (Value : Type v) := AList (fun _ : Key => Value)

def values (table : Table Key Value) : List Value := table.entries.map Sigma.snd

def Keyed [DecidableEq Key] (keyOf : Value → Key) (table : Table Key Value) : Prop :=
  ∀ key value, table.lookup key = some value → keyOf value = key

/-- A list of distinct items of which one is chosen. -/
theorem filterMap_only {Result : Type v} {choose : Value → Option Result} {items : List Value}
    {item : Value} {result : Result} (distinct : items.Nodup) (member : item ∈ items)
    (chosen : choose item = some result)
    (others : ∀ other ∈ items, other ≠ item → choose other = none) :
    items.filterMap choose = [result] := by
  obtain ⟨before, after, rfl⟩ := List.append_of_mem member
  have apart := List.nodup_middle.mp distinct
  have skipped : ∀ part : List Value, part ⊆ before ++ after → part.filterMap choose = [] := by
    intro part inside
    refine List.filterMap_eq_nil_iff.mpr fun other listed => others other ?_ ?_
    · have member := inside listed
      simp only [List.mem_append, List.mem_cons] at member ⊢
      tauto
    · rintro rfl
      exact (List.nodup_cons.mp apart).1 (inside listed)
  rw [List.filterMap_append, List.filterMap_cons_some chosen,
    skipped before (List.subset_append_left _ _), skipped after (List.subset_append_right _ _)]
  rfl

variable [DecidableEq Key]

theorem mem_values_iff {table : Table Key Value} {value : Value} :
    value ∈ values table ↔ ∃ key, table.lookup key = some value := by
  constructor
  · intro member
    obtain ⟨entry, stored, rfl⟩ := List.mem_map.mp member
    exact ⟨entry.1, AList.mem_lookup_iff.mpr stored⟩
  · rintro ⟨key, found⟩
    exact List.mem_map.mpr ⟨⟨key, value⟩, AList.mem_lookup_iff.mp found, rfl⟩

theorem keyed_empty (keyOf : Value → Key) : Keyed keyOf (∅ : Table Key Value) := by
  intro key value found
  simp at found

theorem keyed_values_keys {keyOf : Value → Key} {table : Table Key Value}
    (keyed : Keyed keyOf table) : (values table).map keyOf = table.keys := by
  unfold values AList.keys List.keys
  rw [List.map_map]
  apply List.map_congr_left
  intro entry member
  exact keyed entry.1 entry.2 (AList.mem_lookup_iff.mpr member)

theorem keyed_values_nodup {keyOf : Value → Key} {table : Table Key Value}
    (keyed : Keyed keyOf table) : ((values table).map keyOf).Nodup := by
  rw [keyed_values_keys keyed]
  exact table.keys_nodup

end OrionQueue.Tables
