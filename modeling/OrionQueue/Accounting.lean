import Mathlib.Algebra.Order.Group.Defs
import Mathlib.Algebra.Order.Group.Unbundled.Basic

/-!
Charges against a capacity, in any arithmetic whose tests are consistent with
each other. Nothing is said of exactness: a sum may wrap around or be no number,
as long as an admitted charge never makes room for another request. Exact
amounts satisfy this, and so do the 64-bit integers, although their sums wrap.
-/

namespace OrionQueue

class Accounting (Amount : Type*) [Zero Amount] [Add Amount] [Sub Amount] [LT Amount] [LE Amount] :
    Prop where
  /-- The test for room and the test for a shortage exclude each other. -/
  not_short : ∀ {room request : Amount}, request ≤ room → ¬ room < request
  /-- What fits after a charge that was admitted has fitted before it. -/
  fits_before : ∀ {capacity committed charge request : Amount}, ¬ charge < 0 →
    ¬ capacity - committed < charge → request ≤ capacity - (committed + charge) →
      request ≤ capacity - committed
  keeps : ∀ amount : Amount, amount - 0 = amount

namespace Accounting

instance {Amount : Type*} [AddCommGroup Amount] [LinearOrder Amount] [IsOrderedAddMonoid Amount] :
    Accounting Amount where
  not_short fits := not_lt.mpr fits
  fits_before nonneg _ fits :=
    fits.trans (sub_le_sub_left (le_add_of_nonneg_right (not_lt.mp nonneg)) _)
  keeps := sub_zero

/-- An admitted charge is between zero and the room, so that taking it from the room
does not wrap even where the commitments have. -/
instance : Accounting Int64 where
  not_short fits := Int64.not_lt.mpr fits
  fits_before {capacity committed charge request} nonneg admitted fits := by
    have low : 0 ≤ charge.toInt := Int64.le_iff_toInt_le.mp (Int64.not_lt.mp nonneg)
    have high : charge.toInt ≤ (capacity - committed).toInt :=
      Int64.le_iff_toInt_le.mp (Int64.not_lt.mp admitted)
    have range := (capacity - committed).toInt_lt
    have left : (capacity - (committed + charge)).toInt =
        (capacity - committed).toInt - charge.toInt := by
      rw [← Int64.sub_sub, Int64.toInt_sub]
      exact Int.bmod_eq_of_le (by omega) (by omega)
    have asked := Int64.le_iff_toInt_le.mp fits
    rw [left] at asked
    exact Int64.le_iff_toInt_le.mpr (by omega)
  keeps := Int64.sub_zero

end Accounting

end OrionQueue
