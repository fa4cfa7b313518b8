import OrionQueue.PageTokens

/-!
List tokens as the bytes that Go strings are. An ID may be any string of bytes and
a token from a client may be no text at all, so the codec is stated here without
texts; on texts it is the one of the repositories. The instant ends at the first
separator and can hold none itself, which is why an ID with separators comes back
whole. What limits the codec is the year, printed with four digits and read back
as four: a token names its key exactly if the instant has such a year.
-/

namespace OrionQueue.TokenBytes

open Jobs PageTokens

def encodeListToken (time : Time) (id : List UInt8) : List UInt8 :=
  ascii (Base64.encode (ascii (Rfc3339.format time) ++ separator :: id))

def decodeListToken (token : List UInt8) : Except TokenError (Time × List UInt8) :=
  match Base64.decode (ofAscii token) with
  | none => .error .illegalBase64
  | some raw =>
      match raw.dropWhile fun byte => byte ≠ separator with
      | [] => .error .malformed
      | _ :: id =>
          match Rfc3339.parse (ofAscii (raw.takeWhile fun byte => byte ≠ separator)) with
          | none => .error .timestamp
          | some time => .ok (time, id)

section Texts

theorem utf8_eq (text : String) : utf8 text = text.toList.flatMap String.utf8EncodeChar := by
  rw [utf8, String.toUTF8, ← String.utf8Encode_toList]
  exact List.toList_data_toByteArray

theorem encodeChar_plain {char : Char} (plain : char.toNat ≤ 127) :
    String.utf8EncodeChar char = [UInt8.ofNat char.toNat] :=
  if_pos plain

/-- A character beyond ASCII leaves a byte beyond ASCII. -/
theorem encodeChar_high {char : Char} (high : 127 < char.toNat) :
    ∃ byte ∈ String.utf8EncodeChar char, 127 < byte.toNat := by
  have last : ∀ number : Nat, 127 < (UInt8.ofNat (number % 64 + 128)).toNat := by
    intro number
    rw [UInt8.toNat_ofNat_of_lt' (show number % 64 + 128 < 256 by omega)]
    omega
  refine ⟨UInt8.ofNat (char.val.toNat % 64 + 128), ?_, last _⟩
  have beyond : ¬ char.val.toNat ≤ 127 := not_le.mpr high
  unfold String.utf8EncodeChar
  simp only
  rw [if_neg beyond]
  split
  · simp
  · split <;> simp

theorem utf8_plain {chars : List Char} (plain : ∀ char ∈ chars, char.toNat ≤ 127) :
    chars.flatMap String.utf8EncodeChar = ascii chars := by
  induction chars with
  | nil => rfl
  | cons char rest ih =>
      have tail := ih fun other member => plain other (List.mem_cons_of_mem _ member)
      rw [List.flatMap_cons, encodeChar_plain (plain char List.mem_cons_self), tail]
      rfl

/-- The decoder reads the same from a text and from its bytes, since a character
beyond ASCII is illegal in either form. -/
theorem decode_utf8 (text : String) :
    Base64.decode (ofAscii (utf8 text)) = Base64.decode text.toList := by
  rw [utf8_eq]
  by_cases plain : ∀ char ∈ text.toList, char.toNat ≤ 127
  · rw [utf8_plain plain, ofAscii_ascii plain]
  · push Not at plain
    obtain ⟨char, member, high⟩ := plain
    obtain ⟨byte, inside, large⟩ := encodeChar_high high
    have read : Char.ofNat byte.toNat ∈ ofAscii (text.toList.flatMap String.utf8EncodeChar) :=
      List.mem_map_of_mem (List.mem_flatMap.mpr ⟨char, member, inside⟩)
    have code : (Char.ofNat byte.toNat).toNat = byte.toNat := by
      have valid : byte.toNat.isValidChar := .inl (lt_trans byte.toNat_lt (by decide))
      rw [Char.ofNat, dif_pos valid]
      rfl
    rw [Base64.decode_foreign member (Base64.foreign_high high),
      Base64.decode_foreign read (Base64.foreign_high (by rw [code]; exact large))]

theorem decodeListToken_utf8 (token : String) :
    decodeListToken (utf8 token) = PageTokens.decodeListToken token := by
  rw [decodeListToken, decode_utf8]
  rfl

theorem encodeListToken_utf8 (time : Time) (id : String) :
    utf8 (PageTokens.encodeListToken time id) = encodeListToken time (utf8 id) := by
  rw [utf8_eq, PageTokens.encodeListToken, String.toList_ofList]
  exact utf8_plain (Base64.encode_plain _)

end Texts

theorem decodeListToken_encode (time : Time) (id : List UInt8) :
    decodeListToken (encodeListToken time id) =
      match Rfc3339.parse (Rfc3339.format time) with
      | none => .error .timestamp
      | some read => .ok (read, id) := by
  obtain ⟨taken, dropped⟩ := key_split time id
  simp only [decodeListToken, encodeListToken, ofAscii_ascii (Base64.encode_plain _),
    Base64.decode_encode, dropped, taken, ofAscii_format]

/-- A list token of the repositories holds the ID as it is and the instant as it is printed. -/
theorem decodeText_encode (time : Time) (id : String) :
    PageTokens.decodeListToken (PageTokens.encodeListToken time id) =
      match Rfc3339.parse (Rfc3339.format time) with
      | none => .error .timestamp
      | some read => .ok (read, utf8 id) := by
  rw [← decodeListToken_utf8, encodeListToken_utf8, decodeListToken_encode]

/-- A token leads back to its key for the four-digit years and for no other. -/
theorem decodeListToken_encode_iff {time : Time} {id : List UInt8} :
    decodeListToken (encodeListToken time id) = .ok (time, id) ↔ Rfc3339.FourDigitYear time := by
  rw [decodeListToken_encode]
  by_cases year : Rfc3339.FourDigitYear time
  · rw [Rfc3339.parse_format year]
    exact ⟨fun _ => year, fun _ => rfl⟩
  · rw [Rfc3339.parse_format_none year]
    exact ⟨fun decoded => (by cases decoded), fun four => absurd four year⟩

/-- Keys with such years go through a token unchanged, so that different keys have
different tokens. Every token is refused or read as a key, and a key that was read
goes through a token of its own. -/
theorem listToken_codec :
    (∀ time id, Rfc3339.FourDigitYear time →
      decodeListToken (encodeListToken time id) = .ok (time, id)) ∧
    (∀ time id time' id', Rfc3339.FourDigitYear time → Rfc3339.FourDigitYear time' →
      encodeListToken time id = encodeListToken time' id' → time = time' ∧ id = id') ∧
    (∀ token, (∃ error, decodeListToken token = .error error) ∨
      ∃ time id, decodeListToken token = .ok (time, id)) ∧
    (∀ token time id, decodeListToken token = .ok (time, id) → Rfc3339.FourDigitYear time →
      decodeListToken (encodeListToken time id) = .ok (time, id)) := by
  refine ⟨?roundTrip, ?injective, ?total, ?again⟩
  case roundTrip =>
    intro time id year
    exact decodeListToken_encode_iff.mpr year
  case injective =>
    intro time id time' id' year year' same
    have decoded := congrArg decodeListToken same
    rw [decodeListToken_encode_iff.mpr year, decodeListToken_encode_iff.mpr year'] at decoded
    exact Prod.mk.inj (Except.ok.inj decoded)
  case total =>
    intro token
    cases decodeListToken token with
    | error error => exact .inl ⟨error, rfl⟩
    | ok key => exact .inr ⟨key.1, key.2, rfl⟩
  case again =>
    intro token time id _ year
    exact decodeListToken_encode_iff.mpr year

/-- The first instant of the year 2024, and an ID that holds a separator and a byte
that is no text. -/
theorem listToken_codec_separator :
    Rfc3339.FourDigitYear (1704067200 * 10 ^ 9) ∧
      decodeListToken (encodeListToken (1704067200 * 10 ^ 9) [97, separator, 255]) =
        .ok (1704067200 * 10 ^ 9, [97, separator, 255]) := by
  have year : Rfc3339.FourDigitYear (1704067200 * 10 ^ 9) := ⟨by decide, by decide⟩
  exact ⟨year, listToken_codec.1 _ _ year⟩

end OrionQueue.TokenBytes
