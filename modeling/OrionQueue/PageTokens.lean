import OrionQueue.Base64
import OrionQueue.Job
import OrionQueue.Rfc3339

/-!
The page tokens of the two job repositories. JobRepository puts the key of the
last row into its token, MemoryRepository the number of jobs already listed. A
token comes back from a client, so both decoders reject what they cannot read;
what matters to a walk is that each repository reads its own tokens back.
-/

namespace OrionQueue.PageTokens

open Jobs

/-- What "invalid page_token" can go on to say. -/
inductive TokenError where
  | illegalBase64
  | malformed
  | timestamp
  | number
  deriving DecidableEq

/-- The bytes of a text of plain characters. -/
def ascii (text : List Char) : List UInt8 := text.map fun char => UInt8.ofNat char.toNat

def ofAscii (bytes : List UInt8) : List Char := bytes.map fun byte => Char.ofNat byte.toNat

def separator : UInt8 := 124

def utf8 (text : String) : List UInt8 := text.toUTF8.data.toList

def ofUTF8 (bytes : List UInt8) : Option String := String.fromUTF8? ⟨bytes.toArray⟩

def encodeListToken (time : Time) (id : String) : String :=
  String.ofList (Base64.encode (ascii (Rfc3339.format time) ++ separator :: utf8 id))

/-- The ID is whatever bytes follow the separator; the server looks at them next. -/
def decodeListToken (token : String) : Except TokenError (Time × List UInt8) :=
  match Base64.decode token.toList with
  | none => .error .illegalBase64
  | some raw =>
      match raw.dropWhile fun byte => byte ≠ separator with
      | [] => .error .malformed
      | _ :: id =>
          match Rfc3339.parse (ofAscii (raw.takeWhile fun byte => byte ≠ separator)) with
          | none => .error .timestamp
          | some time => .ok (time, id)

def encodePageToken (offset : Nat) : String :=
  String.ofList (Base64.encode (ascii (Decimal.itoa offset)))

def decodePageToken (token : String) : Except TokenError Int :=
  match Base64.decode token.toList with
  | none => .error .illegalBase64
  | some raw =>
      match Decimal.atoi (ofAscii raw) with
      | none => .error .number
      | some offset => .ok offset

theorem ofUTF8_utf8 (text : String) : ofUTF8 (utf8 text) = some text := by
  unfold ofUTF8 utf8
  rw [Array.toArray_toList]
  exact dif_pos text.isValidUTF8

theorem toNat_ascii {char : Char} (plain : char.toNat ≤ 127) :
    (UInt8.ofNat char.toNat).toNat = char.toNat :=
  UInt8.toNat_ofNat_of_lt' (lt_of_le_of_lt plain (by decide))

theorem ofAscii_ascii {text : List Char} (plain : ∀ char ∈ text, char.toNat ≤ 127) :
    ofAscii (ascii text) = text := by
  rw [ofAscii, ascii, List.map_map]
  refine (List.map_congr_left fun char member => ?_).trans (List.map_id text)
  rw [Function.comp_apply, toNat_ascii (plain char member), Char.ofNat_toNat, id]

theorem separator_notMem {text : List Char} (plain : ∀ char ∈ text, char.toNat ≤ 90) :
    ∀ byte ∈ ascii text, (byte ≠ separator : Bool) = true := by
  intro byte member
  obtain ⟨char, listed, rfl⟩ := List.mem_map.mp member
  have small := plain char listed
  rw [decide_eq_true_eq]
  intro same
  have number := congrArg UInt8.toNat same
  rw [toNat_ascii (small.trans (by decide))] at number
  exact absurd (number ▸ small : separator.toNat ≤ 90) (by decide)

theorem ofAscii_format (time : Time) : ofAscii (ascii (Rfc3339.format time)) = Rfc3339.format time :=
  ofAscii_ascii fun char member => (Rfc3339.format_le time char member).trans (by decide)

/-- The instant ends at the first separator, whatever the ID holds. -/
theorem key_split (time : Time) (id : List UInt8) :
    (ascii (Rfc3339.format time) ++ separator :: id).takeWhile (fun byte => byte ≠ separator) =
        ascii (Rfc3339.format time) ∧
      (ascii (Rfc3339.format time) ++ separator :: id).dropWhile (fun byte => byte ≠ separator) =
        separator :: id := by
  have before := separator_notMem (Rfc3339.format_le time)
  constructor
  · rw [List.takeWhile_append_of_pos before]
    simp
  · rw [List.dropWhile_append_of_pos before]
    simp

theorem encodeListToken_ne (time : Time) (id : String) : encodeListToken time id ≠ "" := by
  intro empty
  have chars := congrArg String.toList empty
  rw [encodeListToken, String.toList_ofList, String.toList_empty, Base64.encode_eq_nil] at chars
  simp at chars

theorem decodePageToken_encode (offset : Nat) :
    decodePageToken (encodePageToken offset) =
      if offset < 2 ^ 63 then .ok (offset : Int) else .error .number := by
  have plain : ∀ char ∈ Decimal.itoa offset, char.toNat ≤ 90 := by
    rw [Decimal.itoa, Decimal.signed_nonneg (by omega)]
    exact Rfc3339.padded_le
  simp only [decodePageToken, encodePageToken, String.toList_ofList, Base64.decode_encode,
    ofAscii_ascii fun char member => (plain char member).trans (by decide), Decimal.atoi_itoa]
  by_cases fits : offset < 2 ^ 63
  · rw [if_pos fits, if_pos fits]
  · rw [if_neg fits, if_neg fits]

theorem encodePageToken_ne (offset : Nat) : encodePageToken offset ≠ "" := by
  intro empty
  have chars := congrArg String.toList empty
  rw [encodePageToken, String.toList_ofList, String.toList_empty, Base64.encode_eq_nil, ascii,
    List.map_eq_nil_iff, Decimal.itoa, Decimal.signed_nonneg (by omega)] at chars
  exact Decimal.padded_ne_nil _ _ chars

end OrionQueue.PageTokens
