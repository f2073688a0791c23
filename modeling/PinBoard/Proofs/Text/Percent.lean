import PinBoard.Proofs.Text.Utf8
import PinBoard.Text.Percent

/-!
# Percent encoding, there and back

What is written holds percent signs, digits and characters that need no encoding, and nothing
else. As long as the percent sign itself is encoded, it is read back.
-/

namespace PinBoard.Text

open Utf8

/-! ## What is written -/

/-- A digit of a written byte. -/
def IsHexDigit (c : Char) : Prop := ∃ n < 16, c = hexDigit n

/-- A digit is no more than one byte, and its value is known. -/
theorem hexDigit?_hexDigit {n : Nat} (h : n < 16) :
    encodeChar (hexDigit n) = [UInt8.ofNat (hexDigit n).toNat] ∧
      hexDigit? (UInt8.ofNat (hexDigit n).toNat) = some n := by
  have hall : ∀ n < 16, encodeChar (hexDigit n) = [UInt8.ofNat (hexDigit n).toNat] ∧
      hexDigit? (UInt8.ofNat (hexDigit n).toNat) = some n := by decide
  exact hall n h

/-- The characters of a written byte. -/
theorem mem_percentByte {c : Char} {b : UInt8} (h : c ∈ percentByte b) :
    c = '%' ∨ IsHexDigit c := by
  have hb := b.toNat_lt
  simp only [percentByte, List.mem_cons, List.not_mem_nil, or_false] at h
  rcases h with rfl | rfl | rfl
  · exact Or.inl rfl
  · exact Or.inr ⟨_, by omega, rfl⟩
  · exact Or.inr ⟨_, by omega, rfl⟩

/-- The characters of a written text: those of written bytes, and those that need no encoding. -/
theorem mem_percentEncode {special : Char → Bool} {cs : List Char} {c : Char}
    (h : c ∈ percentEncode special cs) :
    (c = '%' ∨ IsHexDigit c) ∨ c ∈ cs ∧ isAlwaysEncoded c = false ∧ special c = false := by
  obtain ⟨d, hd, hc⟩ := List.mem_flatMap.mp h
  rw [percentChar] at hc
  split at hc
  · obtain ⟨b, -, hb⟩ := List.mem_flatMap.mp hc
    exact Or.inl (mem_percentByte hb)
  · rename_i hplain
    rw [Bool.or_eq_true, not_or, Bool.not_eq_true, Bool.not_eq_true] at hplain
    obtain rfl := List.mem_singleton.mp hc
    exact Or.inr ⟨hd, hplain⟩

/-! ## Bytes that stand for themselves -/

/-- The byte of the percent sign belongs to no other character of ASCII. -/
theorem eq_percent_of_byte {c : Char} (hc : c.toNat < 0x80) (h : UInt8.ofNat c.toNat = 0x25) :
    c = '%' := by
  have hnat := congrArg UInt8.toNat h
  rw [UInt8.toNat_ofNat_of_lt' (Nat.lt_trans hc (by decide))] at hnat
  rw [← Char.ofNat_toNat c, hnat]
  rfl

/-- A byte that is no percent sign stands for itself. -/
theorem percentDecode_cons_of_ne {a : UInt8} (ha : a ≠ 0x25) (rest : List UInt8) :
    percentDecode (a :: rest) = a :: percentDecode rest := by
  rcases rest with _ | ⟨b, _ | ⟨c, rest⟩⟩
  · rfl
  · rfl
  · rw [percentDecode, if_neg ha]

/-- Bytes without a percent sign stand for themselves. -/
theorem percentDecode_of_not_mem {bytes : List UInt8} (h : 0x25 ∉ bytes) :
    percentDecode bytes = bytes := by
  induction bytes with
  | nil => rfl
  | cons a rest ih =>
    rw [List.mem_cons, not_or] at h
    rw [percentDecode_cons_of_ne (Ne.symm h.1), ih h.2]

/-! ## Round trip -/

theorem encodeChars_append (cs ds : List Char) :
    encodeChars (cs ++ ds) = encodeChars cs ++ encodeChars ds := List.flatMap_append

/-- A written byte is read back, whatever follows it. -/
theorem percentDecode_percentByte (b : UInt8) (rest : List UInt8) :
    percentDecode (encodeChars (percentByte b) ++ rest) = b :: percentDecode rest := by
  have hb := b.toNat_lt
  obtain ⟨hhigh, hhighValue⟩ := hexDigit?_hexDigit (n := b.toNat / 16) (by omega)
  obtain ⟨hlow, hlowValue⟩ := hexDigit?_hexDigit (n := b.toNat % 16) (by omega)
  have hbytes : encodeChars (percentByte b) =
      [0x25, UInt8.ofNat (hexDigit (b.toNat / 16)).toNat,
        UInt8.ofNat (hexDigit (b.toNat % 16)).toNat] := by
    show encodeChar '%' ++ (encodeChar _ ++ (encodeChar _ ++ [])) = _
    rw [hhigh, hlow]
    rfl
  have hvalue : b.toNat / 16 * 16 + b.toNat % 16 = b.toNat := by omega
  rw [hbytes]
  simp only [List.cons_append, List.nil_append, percentDecode, if_true, hhighValue, hlowValue,
    hvalue, UInt8.ofNat_toNat]

/-- Written bytes are read back. -/
theorem percentDecode_percentBytes (bytes rest : List UInt8) :
    percentDecode (encodeChars (bytes.flatMap percentByte) ++ rest) =
      bytes ++ percentDecode rest := by
  induction bytes with
  | nil => rfl
  | cons b bytes ih =>
    rw [List.flatMap_cons, encodeChars_append, List.append_assoc, percentDecode_percentByte, ih,
      List.cons_append]

/-- A written character is read back, unless it is a percent sign that was left as it is. -/
theorem percentDecode_percentChar {special : Char → Bool} {c : Char}
    (hpercent : c = '%' → special c = true) (rest : List UInt8) :
    percentDecode (encodeChars (percentChar special c) ++ rest) =
      encodeChar c ++ percentDecode rest := by
  rw [percentChar]
  split
  · exact percentDecode_percentBytes (encodeChar c) rest
  · rename_i hplain
    rw [Bool.or_eq_true, not_or, isAlwaysEncoded, Bool.or_eq_true, not_or] at hplain
    obtain ⟨⟨-, hascii⟩, hspecial⟩ := hplain
    have hascii : c.toNat ≤ 0x7E := by simpa using hascii
    have hne : UInt8.ofNat c.toNat ≠ 0x25 := fun hbyte =>
      hspecial (hpercent (eq_percent_of_byte (by omega) hbyte))
    have hbytes : encodeChars [c] = [UInt8.ofNat c.toNat] := by
      rw [encodeChars, List.flatMap_cons, List.flatMap_nil, List.append_nil,
        encodeChar_ascii (by omega)]
    rw [hbytes, encodeChar_ascii (by omega)]
    exact percentDecode_cons_of_ne hne rest

section RoundTrip

variable {special : Char → Bool} (hpercent : special '%' = true)
include hpercent

/-- **Percent encoding loses nothing.** -/
theorem percentDecode_percentEncode (cs : List Char) :
    percentDecode (encodeChars (percentEncode special cs)) = encodeChars cs := by
  induction cs with
  | nil => rfl
  | cons c cs ih =>
    have hcons : percentEncode special (c :: cs) = percentChar special c ++ percentEncode special cs :=
      rfl
    rw [hcons, encodeChars_append, percentDecode_percentChar (fun hc => hc ▸ hpercent), ih]
    rfl

/-- A written text stands for the characters it was written from. -/
theorem percentDecode?_percentEncode (cs : List Char) :
    percentDecode? (String.ofList (percentEncode special cs)) = some (String.ofList cs) := by
  have hread := decode?_encode (String.ofList cs)
  rw [encode, String.toList_ofList] at hread
  rw [percentDecode?, encode, String.toList_ofList, percentDecode_percentEncode hpercent, hread]

end RoundTrip

end PinBoard.Text
