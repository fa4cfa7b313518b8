import Mathlib.Data.List.Nodup

/-!
Rows of a table from their cells. A statement gives each column a cell or an error;
there is a row where every cell is there. A column that no two rows agree on is a
key: what it finds is one row. Nothing here mentions a particular table.
-/

namespace OrionQueue.Rows

universe u v w
variable {Column : Type u} {Cell : Column → Type v} {Error : Type w}

/-- The error of the first bad cell. -/
def firstProblem (columns : List Column) (cells : (column : Column) → Except Error (Cell column)) :
    Option Error :=
  columns.findSome? fun column =>
    match cells column with
    | .error problem => some problem
    | .ok _ => none

/-- The row whose cells are all there. -/
def assemble (columns : List Column) (every : ∀ column, column ∈ columns)
    (cells : (column : Column) → Except Error (Cell column)) (problem : Error) :
    Except Error ((column : Column) → Cell column) :=
  if complete : ∀ column ∈ columns, (cells column).toOption.isSome then
    .ok fun column => (cells column).toOption.get (complete column (every column))
  else .error problem

theorem assemble_ok_iff {columns : List Column} (every : ∀ column, column ∈ columns)
    {cells : (column : Column) → Except Error (Cell column)} {problem : Error}
    {row : (column : Column) → Cell column} :
    assemble columns every cells problem = .ok row ↔ ∀ column, cells column = .ok (row column) := by
  have cell_iff : ∀ column, cells column = .ok (row column) ↔
      (cells column).toOption = some (row column) := by
    intro column
    cases cells column <;> simp [Except.toOption]
  simp only [cell_iff]
  unfold assemble
  split
  case isTrue complete =>
    constructor
    · intro built column
      rw [← Except.ok.inj built, Option.some_get]
    · intro known
      congr 1
      funext column
      exact Option.get_of_eq_some _ (known column)
  case isFalse incomplete =>
    constructor
    · intro built
      cases built
    · intro known
      exact absurd (fun column _ => by simp [known column]) incomplete

section Keys
variable {Row Key : Type*} {key : Row → Key}

theorem find_iff [DecidableEq Key] {rows : List Row} (unique : (rows.map key).Nodup)
    {wanted : Key} {row : Row} :
    (rows.find? fun row => key row = wanted) = some row ↔ row ∈ rows ∧ key row = wanted := by
  constructor
  · intro found
    exact ⟨List.mem_of_find?_eq_some found, by simpa using List.find?_some found⟩
  · rintro ⟨member, rfl⟩
    obtain ⟨other, found⟩ : ∃ other, (rows.find? fun other => key other = key row) = some other := by
      rw [← Option.isSome_iff_exists, List.find?_isSome]
      exact ⟨row, member, by simp⟩
    have agree : key other = key row := by simpa using List.find?_some found
    have same := List.inj_on_of_nodup_map unique (List.mem_of_find?_eq_some found) member agree
    rw [found, same]

theorem unique_append {rows : List Row} (unique : (rows.map key).Nodup) {row : Row}
    (unused : key row ∉ rows.map key) : ((rows ++ [row]).map key).Nodup := by
  rw [List.map_append, List.nodup_append]
  refine ⟨unique, by simp, ?_⟩
  rintro known member _ isNew rfl
  obtain rfl : known = key row := by simpa using isNew
  exact unused member

end Keys

end OrionQueue.Rows
