import Mathlib
import RecordFilter.Proofs.Expression.Lexing

/-!
# Percent — a written form stands for the text that it was written from

A text is written byte by byte: the plain characters are bytes of their own, every other byte becomes a triple. A
triple stands for its byte whatever follows it. So the bytes of a written form are those of the text, its percent
signs included; and the bytes of a text are no other text's.

* `Percent.encodeByte`, `Percent.encode_eq`: the written form of a byte, and of a text.
* `Percent.Written`, `Percent.written_encode`: the characters of a written form.
* `Percent.bytes_encodeByte`, `Percent.bytes_of_not_mem`: what written bytes stand for, and plain text.
* `Utf8.decode_encode`, `Percent.decode_encode`: the bytes of a text, and its written form, are read as the text.
* `Filter.parseEncoded_encode`: a percent-encoded text is parsed as the text.
-/

namespace RecordFilter

open Number

namespace Text

theorem Utf8.decode_encode (s : String) : decode (encode s) = .ok s := by
  have hbytes : (⟨(encode s).toArray⟩ : ByteArray) = s.toByteArray := by
    conv_rhs => rw [← String.ofList_toList (s := s), String.toByteArray_ofList]
    exact ByteArray.ext List.data_toByteArray.symm
  rw [decode, hbytes, String.fromUTF8?, dif_pos s.isValidUTF8]
  rfl

namespace Percent

variable {c : Char} {cs rest : List Char}

/-! ## Bytes of characters -/

theorem toNat_of_isPlain (h : isPlain c = true) : c.toNat < 0x80 := by
  simp only [isPlain, Char.isAlphanum, Bool.or_eq_true, beq_iff_eq] at h
  rcases h with ((((h | h) | rfl) | rfl) | rfl) | rfl
  · have := toNat_of_isAlpha h
    omega
  · have := toNat_of_isDigit h
    omega
  all_goals decide

theorem toNat_ofNat_byte (b : UInt8) : (Char.ofNat b.toNat).toNat = b.toNat := by
  have hvalid : b.toNat.isValidChar := .inl (b.toNat_lt.trans (by decide))
  rw [Char.toNat_ofNat, if_pos hvalid]

theorem utf8EncodeChar_of_ascii (h : c.toNat < 0x80) : String.utf8EncodeChar c = [UInt8.ofNat c.toNat] :=
  if_pos (Nat.le_of_lt_succ h)

/-- The bytes of a character beyond ASCII are beyond it too. -/
theorem le_of_mem_utf8EncodeChar (h : 0x80 ≤ c.toNat) : ∀ b ∈ String.utf8EncodeChar c, 0x80 ≤ b.toNat := by
  have hlong : ¬c.val.toNat ≤ 127 := Nat.not_le_of_lt h
  simp only [String.utf8EncodeChar, if_neg hlong]
  -- every byte is a remainder and the mark of its place in the sequence
  split_ifs <;>
    simp only [List.forall_mem_cons, List.not_mem_nil, IsEmpty.forall_iff, implies_true, and_true,
      UInt8.toNat_ofNat'] <;> omega

/-! ## Writing -/

/-- The written form of one byte. -/
def encodeByte (b : UInt8) : List Char :=
  if isPlain (Char.ofNat b.toNat) then [Char.ofNat b.toNat] else triple b

theorem encodeChar_eq (c : Char) : encodeChar c = (String.utf8EncodeChar c).flatMap encodeByte := by
  unfold encodeChar
  by_cases hascii : c.toNat < 0x80
  · have hbyte : (UInt8.ofNat c.toNat).toNat = c.toNat :=
      UInt8.toNat_ofNat_of_lt (hascii.trans (by decide))
    rw [utf8EncodeChar_of_ascii hascii, List.flatMap_singleton, List.flatMap_singleton, encodeByte, hbyte,
      Char.ofNat_toNat]
  · rw [if_neg fun hplain => hascii (toNat_of_isPlain hplain)]
    refine List.flatMap_congr fun b hb => ?_
    have hbeyond := le_of_mem_utf8EncodeChar (not_lt.mp hascii) b hb
    refine (if_neg fun hplain => ?_).symm
    have hlt := toNat_of_isPlain hplain
    rw [toNat_ofNat_byte] at hlt
    omega

/-- **A text is written byte by byte.** -/
theorem encode_eq (s : String) : (encode s).toList = (Utf8.encode s).flatMap encodeByte := by
  rw [encode, String.toList_ofList, Utf8.encode, List.flatMap_assoc]
  exact List.flatMap_congr fun c _ => encodeChar_eq c

/-- A digit, or one of the first six upper-case letters. -/
def isUpperHex (c : Char) : Bool := c.isDigit || ('A' ≤ c && c ≤ 'F')

/-- Plain characters, and percent signs with two upper-case hexadecimal digits. -/
inductive Written : List Char → Prop
  | nil : Written []
  | plain {c : Char} {rest : List Char} (hc : isPlain c = true) (h : Written rest) : Written (c :: rest)
  | triple {high low : Char} {rest : List Char} (hhigh : isUpperHex high = true) (hlow : isUpperHex low = true)
      (h : Written rest) : Written ('%' :: high :: low :: rest)

theorem div_lt (b : UInt8) : b.toNat / 16 < 16 := Nat.div_lt_of_lt_mul b.toNat_lt

theorem mod_lt (b : UInt8) : b.toNat % 16 < 16 := Nat.mod_lt _ (by decide)

theorem isUpperHex_hexDigit {n : Nat} (h : n < 16) : isUpperHex (hexDigit n) = true := by
  decide +revert

theorem written_encode (s : String) : Written (encode s).toList := by
  rw [encode_eq]
  induction Utf8.encode s with
  | nil => exact .nil
  | cons b bs ih =>
    rw [List.flatMap_cons, encodeByte]
    split
    · next hplain => exact .plain hplain ih
    · exact .triple (isUpperHex_hexDigit (div_lt b)) (isUpperHex_hexDigit (mod_lt b)) ih

/-! ## Reading -/

theorem hexValue?_hexDigit {n : Nat} (h : n < 16) : hexValue? (hexDigit n) = some n := by
  decide +revert

theorem byte?_hexDigit (b : UInt8) : byte? (hexDigit (b.toNat / 16)) (hexDigit (b.toNat % 16)) = some b := by
  rw [byte?, hexValue?_hexDigit (div_lt b), hexValue?_hexDigit (mod_lt b)]
  simp only [Nat.div_add_mod, UInt8.ofNat_toNat]

/-- A character that is no percent sign stands for itself. -/
theorem bytes_cons_of_ne (hc : c ≠ '%') (rest : List Char) :
    bytes (c :: rest) = String.utf8EncodeChar c ++ bytes rest := by
  rw [bytes]
  rintro _ _ _ rfl
  exact absurd rfl hc

/-- **A written byte stands for itself**, whatever follows it. -/
theorem bytes_encodeByte (b : UInt8) (rest : List Char) : bytes (encodeByte b ++ rest) = b :: bytes rest := by
  unfold encodeByte
  split
  · next hplain =>
    have hne : Char.ofNat b.toNat ≠ '%' := fun h => absurd (h ▸ hplain) (by decide)
    rw [List.singleton_append, bytes_cons_of_ne hne, utf8EncodeChar_of_ascii (toNat_of_isPlain hplain),
      toNat_ofNat_byte, UInt8.ofNat_toNat, List.singleton_append]
  · simp only [triple, List.cons_append, List.nil_append, bytes, byte?_hexDigit]

theorem bytes_flatMap_encodeByte (bs : List UInt8) : bytes (bs.flatMap encodeByte) = bs := by
  induction bs with
  | nil => rfl
  | cons b bs ih => rw [List.flatMap_cons, bytes_encodeByte, ih]

theorem bytes_of_not_mem (h : '%' ∉ cs) : bytes cs = cs.flatMap String.utf8EncodeChar := by
  induction cs with
  | nil => rfl
  | cons c cs ih =>
    rw [List.mem_cons, not_or] at h
    rw [bytes_cons_of_ne (Ne.symm h.1), ih h.2, List.flatMap_cons]

/-- **What was written is read back**, whatever the text. -/
theorem decode_encode (s : String) : decode (encode s) = .ok s := by
  rw [decode, encode_eq, bytes_flatMap_encodeByte, Utf8.decode_encode]

/-- A text without percent signs is read as it is. -/
theorem decode_of_not_mem {s : String} (h : '%' ∉ s.toList) : decode s = .ok s := by
  rw [decode, bytes_of_not_mem h]
  exact Utf8.decode_encode s

end Percent

end Text

open Text

namespace Filter

/-- **Percent-encoding is transparent.** The written form of a text is parsed as the text: to the same filter, or with
the same error at the same place. So is the written form of a filter's text. Nothing but plain characters and triples
stands in a written form, and a text without percent signs is parsed as it is. -/
theorem parseEncoded_encode :
    (∀ limit text, parseEncoded limit (Percent.encode text) = Filter.parse limit text) ∧
    (∀ limit (f : Filter), parseEncoded limit (f.queryText true) = Filter.parse limit (f.queryText false)) ∧
    (∀ text, Percent.Written (Percent.encode text).toList) ∧
    ∀ limit (text : String), '%' ∉ text.toList → parseEncoded limit text = Filter.parse limit text := by
  have hencode : ∀ limit text, parseEncoded limit (Percent.encode text) = Filter.parse limit text := by
    intro limit text
    rw [parseEncoded, Percent.decode_encode]
  refine ⟨hencode, fun limit f => hencode limit f.text, Percent.written_encode, fun limit text h => ?_⟩
  rw [parseEncoded, Percent.decode_of_not_mem h]

/-- Percent signs, reserved characters and characters of two and three bytes; an error behind them, and the same
error in a text that is not encoded. -/
theorem parseEncoded_encode_percent :
    Percent.encode "/é like \"%41_%€\"" = "%2F%C3%A9%20like%20%22%2541_%25%E2%82%AC%22" ∧
    (∃ f, parseEncoded 0 "%2F%C3%A9%20like%20%22%2541_%25%E2%82%AC%22" = .ok f ∧
      Filter.parse 0 "/é like \"%41_%€\"" = .ok f) ∧
    Percent.encode "\"€%\" eq +" = "%22%E2%82%AC%25%22%20eq%20%2B" ∧
    parseEncoded 0 "%22%E2%82%AC%25%22%20eq%20%2B" = .error (.unexpectedCharacter '+' 8) ∧
    parseEncoded 0 "\"€\" eq +" = .error (.unexpectedCharacter '+' 7) := by
  obtain ⟨hencode, -, -, hplain⟩ := parseEncoded_encode
  have hlike : Percent.encode "/é like \"%41_%€\"" = "%2F%C3%A9%20like%20%22%2541_%25%E2%82%AC%22" := by
    decide +kernel
  have hplus : Percent.encode "\"€%\" eq +" = "%22%E2%82%AC%25%22%20eq%20%2B" := by
    decide +kernel
  have hread : ∃ f, Filter.parse 0 "/é like \"%41_%€\"" = .ok f := by
    have hok : (Filter.parse 0 "/é like \"%41_%€\"").toBool = true := by
      decide +kernel
    cases hf : Filter.parse 0 "/é like \"%41_%€\"" with
    | error e =>
      rw [hf] at hok
      cases hok
    | ok f => exact ⟨f, rfl⟩
  have herror : ∀ text e, tokenize text = .error e → allBlank text = false → Filter.parse 0 text = .error e := by
    intro text e ht hblank
    rw [Filter.parse, if_neg (by simp [hblank]), ht]
    rfl
  obtain ⟨f, hf⟩ := hread
  refine ⟨hlike, ⟨f, ?_, hf⟩, hplus, ?_, ?_⟩
  · rw [← hlike, hencode, hf]
  · rw [← hplus, hencode]
    exact herror _ _ (by decide +kernel) (by decide +kernel)
  · rw [hplain 0 _ (by decide)]
    exact herror _ _ (by decide +kernel) (by decide +kernel)

end Filter

end RecordFilter
