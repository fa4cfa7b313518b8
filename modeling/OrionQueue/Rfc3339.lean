import OrionQueue.Calendar
import OrionQueue.Decimal

/-!
Instants in the layout `time.RFC3339Nano`. An instant is its number of
nanoseconds since 1970-01-01 in UTC. `format` prints a UTC instant; `parse`
reads what `time.Parse` reads in this layout, which is more than `format`
prints: hours of one digit, fractions after a comma or of any length, and zones.
-/

namespace OrionQueue.Rfc3339

open Decimal Calendar

/-- The digits after the point, without the zeros at the end. -/
def fraction (nanos : Nat) : List Char :=
  if nanos = 0 then [] else '.' :: (padded 9 nanos).rdropWhile (· = '0')

def format (time : Int) : List Char :=
  let seconds := time / 10 ^ 9
  let date := ofDays (seconds / 86400)
  let clock := seconds % 86400
  signed 4 date.year ++ '-' :: (signed 2 date.month ++ '-' :: (signed 2 date.day ++ 'T' ::
    (signed 2 (clock / 3600) ++ ':' :: (signed 2 (clock / 60 % 60) ++ ':' ::
      (signed 2 (clock % 60) ++ (fraction (time % 10 ^ 9).toNat ++ ['Z']))))))

def literal (wanted : Char) : List Char → Option (List Char)
  | first :: rest => if first = wanted then some rest else none
  | [] => none

def fourDigits : List Char → Option (Nat × List Char)
  | first :: second :: third :: fourth :: rest =>
      (natural [first, second, third, fourth]).map fun value => (value, rest)
  | _ => none

/-- Two digits, or one where the layout does not fix their number. -/
def number (fixed : Bool) : List Char → Option (Nat × List Char)
  | first :: second :: rest =>
      if first.isDigit = true ∧ second.isDigit = true then
        some (Nat.ofDigitChars 10 [first, second] 0, rest)
      else if first.isDigit = true ∧ fixed = false then
        some (Nat.ofDigitChars 10 [first] 0, second :: rest)
      else none
  | [first] =>
      if first.isDigit = true ∧ fixed = false then some (Nat.ofDigitChars 10 [first] 0, []) else none
  | [] => none

/-- Only nine digits of a fraction count. -/
def nanoseconds (digits : List Char) : Nat :=
  Nat.ofDigitChars 10 (digits.take 9) 0 * 10 ^ (9 - (digits.take 9).length)

def readFraction : List Char → Nat × List Char
  | mark :: digit :: rest =>
      if (mark = '.' ∨ mark = ',') ∧ digit.isDigit = true then
        (nanoseconds ((digit :: rest).takeWhile Char.isDigit), (digit :: rest).dropWhile Char.isDigit)
      else (0, mark :: digit :: rest)
  | rest => (0, rest)

/-- The offset of the zone in seconds; nothing may follow it. -/
def readZone : List Char → Option Int
  | ['Z'] => some 0
  | [sign, hour, hour', colon, minute, minute'] => do
      let hours ← natural [hour, hour']
      let minutes ← natural [minute, minute']
      if colon = ':' ∧ hours ≤ 24 ∧ minutes ≤ 60 then
        if sign = '+' then some (((hours * 60 + minutes) * 60 : Nat) : Int)
        else if sign = '-' then some (-((hours * 60 + minutes) * 60 : Nat) : Int)
        else none
      else none
  | _ => none

def parse (text : List Char) : Option Int := do
  let (year, rest) ← fourDigits text
  let rest ← literal '-' rest
  let (month, rest) ← number true rest
  let rest ← literal '-' rest
  let (day, rest) ← number true rest
  let rest ← literal 'T' rest
  let (hour, rest) ← number false rest
  let rest ← literal ':' rest
  let (minute, rest) ← number true rest
  let rest ← literal ':' rest
  let (second, rest) ← number true rest
  let (nanos, rest) := readFraction rest
  let offset ← readZone rest
  if 1 ≤ month ∧ month ≤ 12 ∧ 1 ≤ day ∧ (day : Int) ≤ daysIn month year ∧
      hour < 24 ∧ minute < 60 ∧ second < 60 then
    some ((toDays ⟨year, month, day⟩ * 86400 + hour * 3600 + minute * 60 + second - offset) * 10 ^ 9 +
      nanos)
  else none

section Reading
variable {Value Result : Type} {read : Option Value} {next : Value → Option Result}

theorem bind_read {value : Value} (succeeds : read = some value) : (read >>= next) = next value := by
  rw [succeeds]
  rfl

theorem bind_refused (fails : read = none) : (read >>= next) = none := by
  rw [fails]
  rfl

end Reading

theorem literal_own (wanted : Char) (rest : List Char) : literal wanted (wanted :: rest) = some rest :=
  if_pos rfl

theorem fourDigits_padded {value : Nat} (small : value < 10000) (rest : List Char) :
    fourDigits (padded 4 value ++ rest) = some (value, rest) := by
  have value_eq := natural_padded 4 value
  obtain ⟨first, second, third, fourth, shape⟩ : ∃ first second third fourth,
      padded 4 value = [first, second, third, fourth] :=
    List.length_eq_four.mp (length_padded (by decide) small)
  rw [shape] at value_eq ⊢
  simp [fourDigits, value_eq]

theorem number_padded {value : Nat} (small : value < 100) (fixed : Bool) (rest : List Char) :
    number fixed (padded 2 value ++ rest) = some (value, rest) := by
  have value_eq := value_padded 2 value
  obtain ⟨first, second, shape⟩ : ∃ first second, padded 2 value = [first, second] :=
    List.length_eq_two.mp (length_padded (by decide) small)
  have digits : ∀ char ∈ [first, second], char.isDigit = true :=
    fun char member => isDigit_padded (shape ▸ member : char ∈ padded 2 value)
  rw [shape] at value_eq ⊢
  simp only [List.cons_append, List.nil_append, number]
  rw [if_pos ⟨digits first (by simp), digits second (by simp)⟩, value_eq]

/-- What is cut off the nine digits are zeros. -/
theorem padded_trimmed (nanos : Nat) (small : nanos < 10 ^ 9) :
    ∃ digits, (padded 9 nanos).rdropWhile (· = '0') = digits ∧
      (∀ char ∈ digits, char.isDigit = true) ∧ digits.length ≤ 9 ∧
      Nat.ofDigitChars 10 digits 0 * 10 ^ (9 - digits.length) = nanos := by
  have whole := List.rdropWhile_append_rtakeWhile (p := fun char => char = '0') (l := padded 9 nanos)
  have zeros : (padded 9 nanos).rtakeWhile (· = '0') =
      List.replicate ((padded 9 nanos).rtakeWhile (· = '0')).length '0' := by
    refine List.eq_replicate_of_mem fun char member => ?_
    simpa using List.mem_rtakeWhile_imp member
  have lengths := congrArg List.length whole
  rw [List.length_append, length_padded (by decide) small] at lengths
  refine ⟨_, rfl, fun char member => ?_, by omega, ?_⟩
  · exact isDigit_padded (whole ▸ List.mem_append_left _ member : char ∈ padded 9 nanos)
  · have value := value_padded 9 nanos
    have cut : 9 - ((padded 9 nanos).rdropWhile (· = '0')).length =
        ((padded 9 nanos).rtakeWhile (· = '0')).length := by omega
    rw [← whole, zeros, value_append_zeros] at value
    rw [cut]
    exact value

theorem readFraction_fraction {nanos : Nat} (small : nanos < 10 ^ 9) :
    readFraction (fraction nanos ++ ['Z']) = (nanos, ['Z']) := by
  unfold fraction
  split
  case isTrue none => rw [none]; rfl
  case isFalse some =>
    obtain ⟨digits, trimmed, all, short, value⟩ := padded_trimmed nanos small
    rw [trimmed]
    cases digits with
    | nil =>
        rw [← value] at some
        exact absurd (by simp [Nat.ofDigitChars_eq_foldl]) some
    | cons digit rest =>
        have taken : (digit :: (rest ++ ['Z'])).takeWhile Char.isDigit = digit :: rest := by
          rw [← List.cons_append, List.takeWhile_append_of_pos all]
          simp
        have dropped : (digit :: (rest ++ ['Z'])).dropWhile Char.isDigit = ['Z'] := by
          rw [← List.cons_append, List.dropWhile_append_of_pos all]
          rfl
        have first : digit.isDigit = true := all digit List.mem_cons_self
        simp only [List.cons_append, readFraction, true_or, first, and_self, if_true, taken, dropped,
          nanoseconds, List.take_of_length_le short, value]

/-- All that follows the year. -/
def afterYear (month day hour minute second nanos : Nat) : List Char :=
  '-' :: (padded 2 month ++ '-' :: (padded 2 day ++ 'T' :: (padded 2 hour ++ ':' ::
    (padded 2 minute ++ ':' :: (padded 2 second ++ (fraction nanos ++ ['Z']))))))

theorem parse_fields {year month day hour minute second nanos : Nat} (years : year < 10000)
    (months : 1 ≤ month ∧ month ≤ 12) (days : 1 ≤ day ∧ (day : Int) ≤ daysIn month year)
    (hours : hour < 24) (minutes : minute < 60) (seconds : second < 60) (fractions : nanos < 10 ^ 9) :
    parse (padded 4 year ++ afterYear month day hour minute second nanos) =
      some ((toDays ⟨year, month, day⟩ * 86400 + hour * 3600 + minute * 60 + second) * 10 ^ 9 +
        nanos) := by
  have short : day < 100 := by
    have bound : daysIn month year ≤ 31 := by
      unfold daysIn
      split
      · split <;> decide
      · split <;> decide
    omega
  have inRange : 1 ≤ month ∧ month ≤ 12 ∧ 1 ≤ day ∧ (day : Int) ≤ daysIn month year ∧
      hour < 24 ∧ minute < 60 ∧ second < 60 := by tauto
  unfold parse afterYear
  -- One reading after the other, in the order of the layout.
  refine (bind_read (fourDigits_padded years _)).trans ?_
  refine (bind_read (literal_own '-' _)).trans ?_
  refine (bind_read (number_padded (by omega : month < 100) true _)).trans ?_
  refine (bind_read (literal_own '-' _)).trans ?_
  refine (bind_read (number_padded short true _)).trans ?_
  refine (bind_read (literal_own 'T' _)).trans ?_
  refine (bind_read (number_padded (by omega : hour < 100) false _)).trans ?_
  refine (bind_read (literal_own ':' _)).trans ?_
  refine (bind_read (number_padded (by omega : minute < 100) true _)).trans ?_
  refine (bind_read (literal_own ':' _)).trans ?_
  refine (bind_read (number_padded (by omega : second < 100) true _)).trans ?_
  simp only [readFraction_fraction fractions, readZone, Option.bind_eq_bind, Option.bind_some,
    if_pos inRange, sub_zero]

/-- The clock of an instant as natural numbers, as they are printed. -/
theorem format_fields (time : Int) : ∃ month day hour minute second nanos : Nat,
    format time = signed 4 (ofDays (time / 10 ^ 9 / 86400)).year ++
      afterYear month day hour minute second nanos ∧
    (ofDays (time / 10 ^ 9 / 86400)).month = month ∧ (ofDays (time / 10 ^ 9 / 86400)).day = day ∧
    hour < 24 ∧ minute < 60 ∧ second < 60 ∧ nanos < 10 ^ 9 ∧
    time = (time / 10 ^ 9 / 86400 * 86400 + hour * 3600 + minute * 60 + second) * 10 ^ 9 + nanos := by
  obtain ⟨firstMonth, _, firstDay, _⟩ := ofDays_valid (time / 10 ^ 9 / 86400)
  generalize isSeconds : time / 10 ^ 9 = seconds at *
  refine ⟨(ofDays (seconds / 86400)).month.natAbs, (ofDays (seconds / 86400)).day.natAbs,
    (seconds % 86400 / 3600).natAbs, (seconds % 86400 / 60 % 60).natAbs,
    (seconds % 86400 % 60).natAbs, (time % 10 ^ 9).toNat, ?_, by omega, by omega, by omega, by omega,
    by omega, by omega, by omega⟩
  unfold format afterYear
  simp only [isSeconds]
  rw [signed_nonneg (by omega : 0 ≤ (ofDays (seconds / 86400)).month),
    signed_nonneg (by omega : 0 ≤ (ofDays (seconds / 86400)).day),
    signed_nonneg (by omega : 0 ≤ seconds % 86400 / 3600),
    signed_nonneg (by omega : 0 ≤ seconds % 86400 / 60 % 60),
    signed_nonneg (by omega : 0 ≤ seconds % 86400 % 60)]

def yearOf (time : Int) : Int := (ofDays (time / 10 ^ 9 / 86400)).year

/-- The layout has room for four digits. -/
def FourDigitYear (time : Int) : Prop := 0 ≤ yearOf time ∧ yearOf time ≤ 9999

theorem parse_format {time : Int} (year : FourDigitYear time) : parse (format time) = some time := by
  obtain ⟨low, high⟩ := year
  obtain ⟨month, day, hour, minute, second, nanos, text, isMonth, isDay, hours, minutes, seconds,
    fractions, whole⟩ := format_fields time
  obtain ⟨firstMonth, lastMonth, firstDay, lastDay⟩ := ofDays_valid (time / 10 ^ 9 / 86400)
  obtain ⟨year, isYear⟩ : ∃ year : Nat, yearOf time = year := ⟨(yearOf time).toNat, by omega⟩
  have date : ofDays (time / 10 ^ 9 / 86400) = ⟨year, month, day⟩ := by
    rw [← isMonth, ← isDay, ← isYear, yearOf]
  rw [date] at firstMonth lastMonth firstDay lastDay
  simp only at firstMonth lastMonth firstDay lastDay
  rw [text, ← yearOf, isYear, signed_nonneg (by omega), Int.natAbs_natCast,
    parse_fields (by omega) (by omega) ⟨by omega, lastDay⟩ hours minutes seconds fractions,
    ← date, toDays_ofDays, ← whole]

theorem fourDigits_negative (rest : List Char) : fourDigits ('-' :: rest) = none := by
  unfold fourDigits
  split
  case h_1 first second third fourth tail shape =>
    obtain ⟨rfl, _⟩ := List.cons.inj shape
    rfl
  case h_2 => rfl

/-- After four digits of a longer year there is no separator. -/
theorem fourDigits_long {year : Nat} (long : 10 ^ 4 ≤ year) (rest : List Char) :
    ((fourDigits (padded 4 year ++ rest)).bind fun read => literal '-' read.2) = none := by
  have digits : ∀ char ∈ padded 4 year, char.isDigit = true := fun char member => isDigit_padded member
  have length := length_padded_gt (by decide) long
  match shape : padded 4 year with
  | first :: second :: third :: fourth :: fifth :: more =>
      have digit : fifth.isDigit = true := digits fifth (by rw [shape]; simp)
      have noDash : fifth ≠ '-' := by
        rintro rfl
        cases digit
      cases read : natural [first, second, third, fourth] <;>
        simp [fourDigits, read, literal, noDash]
  | [] | [_] | [_, _] | [_, _, _] | [_, _, _, _] =>
      rw [shape] at length
      simp at length

theorem parse_format_none {time : Int} (other : ¬ FourDigitYear time) :
    parse (format time) = none := by
  have outside : yearOf time < 0 ∨ 9999 < yearOf time := by
    unfold FourDigitYear at other
    omega
  obtain ⟨month, day, hour, minute, second, nanos, text, _⟩ := format_fields time
  rw [text, ← yearOf]
  unfold parse
  rcases outside with negative | long
  · rw [signed, if_pos negative, List.cons_append, fourDigits_negative]
    rfl
  · have stuck := fourDigits_long (by omega : 10 ^ 4 ≤ (yearOf time).natAbs)
      (afterYear month day hour minute second nanos)
    rw [signed_nonneg (by omega)]
    cases read : fourDigits (padded 4 (yearOf time).natAbs ++
        afterYear month day hour minute second nanos) with
    | none => rfl
    | some pair =>
        rw [read, Option.bind_some] at stuck
        exact (bind_read rfl).trans (bind_refused stuck)

theorem padded_le {width number : Nat} : ∀ char ∈ padded width number, char.toNat ≤ 90 := by
  intro char member
  have digit := isDigit_padded member
  simp only [Char.isDigit, Bool.and_eq_true, decide_eq_true_eq] at digit
  exact (digit.2 : char.toNat ≤ 57).trans (by decide)

/-- An instant is printed in digits, separators and the letters T and Z. -/
theorem format_le (time : Int) : ∀ char ∈ format time, char.toNat ≤ 90 := by
  obtain ⟨month, day, hour, minute, second, nanos, text, _⟩ := format_fields time
  have year : ∀ char ∈ signed 4 (ofDays (time / 10 ^ 9 / 86400)).year, char.toNat ≤ 90 := by
    unfold signed
    split
    · exact List.forall_mem_cons.mpr ⟨by decide, padded_le⟩
    · exact padded_le
  have fractions : ∀ char ∈ fraction nanos, char.toNat ≤ 90 := by
    unfold fraction
    split
    · simp
    · refine List.forall_mem_cons.mpr ⟨by decide, fun char member => ?_⟩
      have digit : char ∈ padded 9 nanos := (List.rdropWhile_prefix _ _).subset member
      exact padded_le char digit
  rw [text]
  simp only [afterYear, List.forall_mem_append, List.forall_mem_cons]
  exact ⟨year, by decide, padded_le, by decide, padded_le, by decide, padded_le, by decide, padded_le,
    by decide, padded_le, fractions, by decide, by simp⟩

end OrionQueue.Rfc3339
