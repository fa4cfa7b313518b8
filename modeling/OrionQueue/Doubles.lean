import Mathlib.Algebra.Order.Group.Defs
import Mathlib.Algebra.Order.Group.Unbundled.Basic
import OrionQueue.Accounting

/-!
Numbers as a double can carry them: finite values, both infinities and NaN. The
comparisons are those of IEEE 754, in which NaN is unordered; sums and
differences of finite values are exact. Both zeros are one number, since no
comparison tells them apart.
-/

namespace OrionQueue.Doubles

universe u

inductive Double (Value : Type u) where
  | finite (value : Value)
  | infinity
  | negInfinity
  | nan
  deriving DecidableEq

namespace Double

variable {Value : Type u}

instance [Zero Value] : Zero (Double Value) := ⟨.finite 0⟩

protected def add [Add Value] : Double Value → Double Value → Double Value
  | .finite left, .finite right => .finite (left + right)
  | .nan, _ | _, .nan | .infinity, .negInfinity | .negInfinity, .infinity => .nan
  | .infinity, _ | _, .infinity => .infinity
  | .negInfinity, _ | _, .negInfinity => .negInfinity

protected def sub [Sub Value] : Double Value → Double Value → Double Value
  | .finite left, .finite right => .finite (left - right)
  | .nan, _ | _, .nan | .infinity, .infinity | .negInfinity, .negInfinity => .nan
  | .infinity, _ | _, .negInfinity => .infinity
  | .negInfinity, _ | _, .infinity => .negInfinity

protected def less [LT Value] [DecidableLT Value] : Double Value → Double Value → Bool
  | .finite left, .finite right => left < right
  | .nan, _ | _, .nan | .infinity, _ | _, .negInfinity => false
  | .negInfinity, _ | _, .infinity => true

protected def lessEq [LE Value] [DecidableLE Value] : Double Value → Double Value → Bool
  | .finite left, .finite right => left ≤ right
  | .nan, _ | _, .nan => false
  | .negInfinity, _ | _, .infinity => true
  | .infinity, _ | _, .negInfinity => false

instance [Add Value] : Add (Double Value) := ⟨Double.add⟩

instance [Sub Value] : Sub (Double Value) := ⟨Double.sub⟩

section Comparison
variable [LT Value] [DecidableLT Value]

instance : LT (Double Value) := ⟨fun left right => left.less right = true⟩

instance : DecidableLT (Double Value) := fun _ _ => inferInstanceAs (Decidable (_ = true))

variable [LE Value] [DecidableLE Value]

instance : LE (Double Value) := ⟨fun left right => left.lessEq right = true⟩

instance : DecidableLE (Double Value) := fun _ _ => inferInstanceAs (Decidable (_ = true))

end Comparison

/-- What a finite number adds to a sum over the finite ones. -/
def finiteValue [Zero Value] : Double Value → Value
  | .finite value => value
  | _ => 0

theorem finite_lt [LT Value] [DecidableLT Value] {left right : Value} :
    (finite left : Double Value) < finite right ↔ left < right :=
  decide_eq_true_iff

theorem finite_lt_infinity [LT Value] [DecidableLT Value] (value : Value) :
    (finite value : Double Value) < infinity := rfl

theorem negInfinity_lt_finite [LT Value] [DecidableLT Value] (value : Value) :
    (negInfinity : Double Value) < finite value := rfl

theorem finite_le [LE Value] [DecidableLE Value] {left right : Value} :
    (finite left : Double Value) ≤ finite right ↔ left ≤ right :=
  decide_eq_true_iff

/-- A check against zero lets infinity and NaN pass with the finite values that are
not negative. -/
theorem finiteValue_nonneg [Zero Value] [LinearOrder Value] {number : Double Value}
    (accepted : ¬ number < 0) : 0 ≤ number.finiteValue := by
  cases number with
  | finite value => exact not_lt.mp fun negative => accepted (finite_lt.mpr negative)
  | infinity | negInfinity | nan => exact le_rfl

/-- What finite room does not refuse is a finite value that fits into it, or NaN. -/
theorem fits_of_not_lt [AddCommGroup Value] [LinearOrder Value] [IsOrderedAddMonoid Value]
    {capacity used : Value} {number : Double Value} (defined : number ≠ nan) (accepted : ¬ number < 0)
    (room : ¬ (finite capacity : Double Value) - finite used < number) :
    ∃ value, number = finite value ∧ used + value ≤ capacity := by
  cases number with
  | finite value =>
      refine ⟨value, rfl, ?_⟩
      have enough : value ≤ capacity - used := not_lt.mp fun less => room (finite_lt.mpr less)
      rw [add_comm]
      exact le_sub_iff_add_le.mp enough
  | infinity => exact absurd (finite_lt_infinity _) room
  | negInfinity => exact absurd (negInfinity_lt_finite 0) accepted
  | nan => exact absurd rfl defined

theorem not_lt_of_le [LinearOrder Value] {left right : Double Value} (ordered : left ≤ right) :
    ¬ right < left := by
  cases left with
  | finite value =>
      cases right with
      | finite value' => exact fun less => (finite_le.mp ordered).not_gt (finite_lt.mp less)
      | infinity | negInfinity | nan => first | exact Bool.false_ne_true | cases ordered
  | infinity | negInfinity | nan =>
      cases right <;> first | exact Bool.false_ne_true | cases ordered

/-- A charge that is not negative leaves no more room, infinities included; one of
NaN leaves a room that no request is at most. -/
theorem sub_add_le [AddCommGroup Value] [LinearOrder Value] [IsOrderedAddMonoid Value]
    {capacity committed charge request : Double Value} (nonneg : ¬ charge < 0)
    (fits : request ≤ capacity - (committed + charge)) : request ≤ capacity - committed := by
  cases charge with
  | negInfinity => exact absurd (negInfinity_lt_finite 0) nonneg
  | nan => cases capacity <;> cases committed <;> cases request <;> cases fits
  | infinity =>
      -- Only negative infinity is at most what is left, if that is a number at all.
      cases capacity <;> cases committed <;> cases request <;> first | rfl | cases fits
  | finite value =>
      cases committed with
      | infinity | negInfinity | nan => cases capacity <;> exact fits
      | finite used =>
          cases capacity with
          | infinity | negInfinity | nan => exact fits
          | finite total =>
              cases request with
              | negInfinity => rfl
              | infinity | nan => cases fits
              | finite wanted =>
                  have positive : 0 ≤ value := not_lt.mp fun less => nonneg (finite_lt.mpr less)
                  have less : total - (used + value) ≤ total - used :=
                    sub_le_sub_left (le_add_of_nonneg_right positive) _
                  exact finite_le.mpr ((finite_le.mp fits).trans less)

instance [AddCommGroup Value] [LinearOrder Value] [IsOrderedAddMonoid Value] :
    Accounting (Double Value) where
  not_short := not_lt_of_le
  fits_before nonneg _ fits := sub_add_le nonneg fits
  keeps amount := by
    cases amount with
    | finite value => exact congrArg finite (sub_zero value)
    | infinity | negInfinity | nan => rfl

end Double

end OrionQueue.Doubles
