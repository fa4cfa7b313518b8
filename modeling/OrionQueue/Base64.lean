import Mathlib.Data.List.Basic

/-!
Unpadded URL-safe base64, as `base64.RawURLEncoding` does it: three bytes become
four characters. The decoder skips line breaks, refuses every other character
outside the alphabet and a single character left over, and does not look at the
unused bits of the last character.
-/

namespace OrionQueue.Base64

def digit (value : Nat) : Char :=
  if value < 26 then Char.ofNat (65 + value)
  else if value < 52 then Char.ofNat (97 + (value - 26))
  else if value < 62 then Char.ofNat (48 + (value - 52))
  else if value = 62 then '-'
  else '_'

def valueOf (char : Char) : Option Nat :=
  let code := char.toNat
  if 65 ≤ code ∧ code ≤ 90 then some (code - 65)
  else if 97 ≤ code ∧ code ≤ 122 then some (code - 97 + 26)
  else if 48 ≤ code ∧ code ≤ 57 then some (code - 48 + 52)
  else if char = '-' then some 62
  else if char = '_' then some 63
  else none

def lineBreak (char : Char) : Bool := char = '\n' || char = '\r'

/-- The six-bit groups of the bytes, the last one filled up with zeros. -/
def groups : List UInt8 → List Nat
  | first :: second :: third :: rest =>
      first.toNat / 4 :: (first.toNat % 4 * 16 + second.toNat / 16) ::
        (second.toNat % 16 * 4 + third.toNat / 64) :: third.toNat % 64 :: groups rest
  | [first, second] =>
      [first.toNat / 4, first.toNat % 4 * 16 + second.toNat / 16, second.toNat % 16 * 4]
  | [first] => [first.toNat / 4, first.toNat % 4 * 16]
  | [] => []

def ungroup : List Nat → Option (List UInt8)
  | first :: second :: third :: fourth :: rest => (ungroup rest).map fun bytes =>
      UInt8.ofNat (first * 4 + second / 16) :: UInt8.ofNat (second % 16 * 16 + third / 4) ::
        UInt8.ofNat (third % 4 * 64 + fourth) :: bytes
  | [first, second, third] =>
      some [UInt8.ofNat (first * 4 + second / 16), UInt8.ofNat (second % 16 * 16 + third / 4)]
  | [first, second] => some [UInt8.ofNat (first * 4 + second / 16)]
  | [_] => none
  | [] => some []

def encode (bytes : List UInt8) : List Char := (groups bytes).map digit

def decode (text : List Char) : Option (List UInt8) :=
  ((text.filter fun char => !lineBreak char).mapM valueOf).bind ungroup

theorem digit_facts {value : Nat} (small : value < 64) :
    valueOf (digit value) = some value ∧ lineBreak (digit value) = false := by
  have all : ∀ index : Fin 64,
      valueOf (digit index) = some index.val ∧ lineBreak (digit index) = false := by decide
  exact all ⟨value, small⟩

theorem groups_small (bytes : List UInt8) : ∀ value ∈ groups bytes, value < 64 := by
  induction bytes using groups.induct with
  | case1 first second third rest ih =>
      have bound := first.toNat_lt
      have bound' := second.toNat_lt
      have bound'' := third.toNat_lt
      intro value member
      simp only [groups, List.mem_cons] at member
      rcases member with rfl | rfl | rfl | rfl | member
      · omega
      · omega
      · omega
      · omega
      · exact ih value member
  | case2 first second =>
      have bound := first.toNat_lt
      have bound' := second.toNat_lt
      simp only [groups, List.mem_cons, List.not_mem_nil, or_false]
      omega
  | case3 first =>
      have bound := first.toNat_lt
      simp only [groups, List.mem_cons, List.not_mem_nil, or_false]
      omega
  | case4 => simp [groups]

theorem ofNat_toNat (byte : UInt8) {number : Nat} (same : number = byte.toNat) :
    UInt8.ofNat number = byte := by
  rw [same, UInt8.ofNat_toNat]

theorem ungroup_groups (bytes : List UInt8) : ungroup (groups bytes) = some bytes := by
  induction bytes using groups.induct with
  | case1 first second third rest ih =>
      have bound := third.toNat_lt
      have bound' := second.toNat_lt
      rw [groups, ungroup, ih, Option.map_some, ofNat_toNat first (by omega),
        ofNat_toNat second (by omega), ofNat_toNat third (by omega)]
  | case2 first second =>
      have bound := second.toNat_lt
      rw [groups, ungroup, ofNat_toNat first (by omega),
        ofNat_toNat second (by omega)]
  | case3 first => rw [groups, ungroup, ofNat_toNat first (by omega)]
  | case4 => rfl

theorem mapM_valueOf {values : List Nat} (small : ∀ value ∈ values, value < 64) :
    ((values.map digit).filter fun char => !lineBreak char).mapM valueOf = some values := by
  induction values with
  | nil => rfl
  | cons value rest ih =>
      have own := digit_facts (small value List.mem_cons_self)
      have others := ih fun other member => small other (List.mem_cons_of_mem _ member)
      rw [List.map_cons, List.filter_cons_of_pos (by simp [own.2]), List.mapM_cons, own.1, others]
      rfl

theorem decode_encode (bytes : List UInt8) : decode (encode bytes) = some bytes := by
  rw [decode, encode, mapM_valueOf (groups_small bytes), Option.bind_some, ungroup_groups]

theorem encode_plain (bytes : List UInt8) : ∀ char ∈ encode bytes, char.toNat ≤ 127 := by
  have all : ∀ index : Fin 64, (digit index).toNat ≤ 127 := by decide
  intro char member
  obtain ⟨value, listed, rfl⟩ := List.mem_map.mp member
  exact all ⟨value, groups_small bytes value listed⟩

/-- No character beyond ASCII is in the alphabet or skipped. -/
theorem foreign_high {char : Char} (high : 127 < char.toNat) :
    valueOf char = none ∧ lineBreak char = false := by
  have apart : ∀ plain : Char, plain.toNat ≤ 127 → char ≠ plain := by
    rintro plain small rfl
    omega
  constructor
  · unfold valueOf
    simp only
    rw [if_neg (by omega), if_neg (by omega), if_neg (by omega), if_neg (apart '-' (by decide)),
      if_neg (apart '_' (by decide))]
  · rw [lineBreak, decide_eq_false (apart '\n' (by decide)), decide_eq_false (apart '\r' (by decide))]
    rfl

/-- One such character makes the whole text illegal. -/
theorem decode_foreign {text : List Char} {char : Char} (member : char ∈ text)
    (foreign : valueOf char = none ∧ lineBreak char = false) : decode text = none := by
  obtain ⟨noValue, kept⟩ := foreign
  have stays : char ∈ text.filter fun char => !lineBreak char := by
    rw [List.mem_filter, kept]
    exact ⟨member, rfl⟩
  have refused : (text.filter fun char => !lineBreak char).mapM valueOf = none := by
    generalize text.filter (fun char => !lineBreak char) = chars at stays
    induction chars with
    | nil => cases stays
    | cons first rest ih =>
        rw [List.mapM_cons]
        rcases List.mem_cons.mp stays with rfl | later
        · rw [noValue]
          rfl
        · rw [ih later]
          cases valueOf first <;> rfl
  rw [decode, refused]
  rfl

theorem encode_eq_nil {bytes : List UInt8} : encode bytes = [] ↔ bytes = [] := by
  constructor
  · intro empty
    have decoded := decode_encode bytes
    rw [empty] at decoded
    exact (Option.some.inj decoded).symm
  · rintro rfl
    rfl

end OrionQueue.Base64
