import Mathlib.Data.List.DropRight
import Mathlib.Data.Nat.Digits.Lemmas

/-!
Decimal numerals: printing with zeros in front, reading back digit by digit, and
the integers of a 64-bit machine as `strconv` prints and reads them.
-/

namespace OrionQueue.Decimal

/-- The numeral of a number with zeros in front up to a width. -/
def padded (width number : Nat) : List Char :=
  List.replicate (width - (Nat.toDigits 10 number).length) '0' ++ Nat.toDigits 10 number

/-- As `padded`, with a sign in front of a negative number. -/
def signed (width : Nat) (number : Int) : List Char :=
  if number < 0 then '-' :: padded width number.natAbs else padded width number.natAbs

/-- The value of a nonempty string of digits. -/
def natural (text : List Char) : Option Nat :=
  if text ≠ [] ∧ text.all Char.isDigit then some (Nat.ofDigitChars 10 text 0) else none

/-- `strconv.Itoa`. -/
def itoa (number : Int) : List Char := signed 0 number

/-- `strconv.Atoi` on a 64-bit machine. -/
def atoi : List Char → Option Int
  | '-' :: rest => (natural rest).bind fun value =>
      if value ≤ 2 ^ 63 then some (-value) else none
  | '+' :: rest => (natural rest).bind fun value =>
      if value < 2 ^ 63 then some value else none
  | text => (natural text).bind fun value => if value < 2 ^ 63 then some value else none

theorem signed_nonneg {width : Nat} {value : Int} (nonneg : 0 ≤ value) :
    signed width value = padded width value.natAbs :=
  if_neg (not_lt.mpr nonneg)

theorem isDigit_padded {width number : Nat} {char : Char} (member : char ∈ padded width number) :
    char.isDigit = true := by
  rcases List.mem_append.mp member with zero | digit
  · rw [(List.mem_replicate.mp zero).2]
    rfl
  · exact Nat.isDigit_of_mem_toDigits (by decide) (by decide) digit

theorem padded_ne_nil (width number : Nat) : padded width number ≠ [] := by
  simp [padded, Nat.toDigits_ne_nil]

theorem value_zeros (count : Nat) (text : List Char) :
    Nat.ofDigitChars 10 (List.replicate count '0' ++ text) 0 = Nat.ofDigitChars 10 text 0 := by
  induction count with
  | zero => rfl
  | succ count ih =>
      rw [List.replicate_succ, List.cons_append, Nat.ofDigitChars_eq_foldl, List.foldl_cons,
        ← Nat.ofDigitChars_eq_foldl]
      exact ih

theorem value_append_zeros (text : List Char) (count : Nat) :
    Nat.ofDigitChars 10 (text ++ List.replicate count '0') 0 =
      Nat.ofDigitChars 10 text 0 * 10 ^ count := by
  have zeros := value_zeros count []
  rw [List.append_nil] at zeros
  rw [Nat.ofDigitChars_eq_foldl, List.foldl_append, ← Nat.ofDigitChars_eq_foldl,
    ← Nat.ofDigitChars_eq_foldl, Nat.ofDigitChars_eq_ofDigitChars_zero, List.length_replicate, zeros,
    Nat.mul_comm]
  rfl

theorem value_padded (width number : Nat) :
    Nat.ofDigitChars 10 (padded width number) 0 = number := by
  rw [padded, value_zeros, Nat.ofDigitChars_ten_toDigits]

theorem natural_padded (width number : Nat) : natural (padded width number) = some number := by
  rw [natural, if_pos, value_padded]
  exact ⟨padded_ne_nil width number, List.all_eq_true.mpr fun char member => isDigit_padded member⟩

theorem length_padded {width number : Nat} (positive : 0 < width) (fits : number < 10 ^ width) :
    (padded width number).length = width := by
  have short := Nat.toDigits_length 10 number width positive fits
  rw [padded, List.length_append, List.length_replicate]
  omega

theorem length_padded_gt {width number : Nat} (positive : 0 < width) (large : 10 ^ width ≤ number) :
    width < (padded width number).length := by
  have long := mt (Nat.length_toDigits_le_iff (by decide) positive).mp (not_lt.mpr large)
  rw [padded, List.length_append]
  omega

/-- A natural number is read back as long as the machine can hold it. -/
theorem atoi_itoa (number : Nat) :
    atoi (itoa number) = if number < 2 ^ 63 then some (number : Int) else none := by
  have plain : atoi (padded 0 number) = (natural (padded 0 number)).bind fun value =>
      if value < 2 ^ 63 then some (value : Int) else none := by
    -- The first character is a digit, so it is no sign.
    cases shape : padded 0 number with
    | nil => exact absurd shape (padded_ne_nil 0 number)
    | cons char rest =>
        have digit : char.isDigit = true :=
          isDigit_padded (shape ▸ List.mem_cons_self : char ∈ padded 0 number)
        unfold atoi
        split
        · simp_all [Char.isDigit]
        · simp_all [Char.isDigit]
        · rfl
  rw [itoa, signed_nonneg (by omega), Int.natAbs_natCast, plain, natural_padded, Option.bind_some]

end OrionQueue.Decimal
