import PinBoard.Proofs.Text.Percent

/-!
# Percent signs of a text's own

Where percent signs are written as they are, a text is read back unless one of them has two
hexadecimal digits behind it: the three are then taken for a written byte, and what is read is
shorter than the text.
-/

namespace PinBoard.Text

open Utf8

/-! ## Escapes -/

/-- A hexadecimal digit, in either case. -/
def isHex (c : Char) : Bool :=
  let n := c.toNat
  (0x30 ≤ n && n ≤ 0x39) || (0x41 ≤ n && n ≤ 0x46) || (0x61 ≤ n && n ≤ 0x66)

/-- Whether a text begins with two hexadecimal digits. -/
def hasHexPair : List Char → Bool
  | h :: l :: _ => isHex h && isHex l
  | _ => false

/-- Whether somewhere in a text a percent sign has two hexadecimal digits behind it. -/
def hasEscape : List Char → Bool
  | [] => false
  | c :: cs => (c = '%' && hasHexPair cs) || hasEscape cs

/-! ## Reading a percent sign -/

/-- Whether bytes begin with two hexadecimal digits. -/
def readsHexPair : List UInt8 → Bool
  | b :: c :: _ => (hexDigit? b).isSome && (hexDigit? c).isSome
  | _ => false

/-- Bytes whose first one is no digit do not. -/
theorem readsHexPair_of_none {b : UInt8} (hb : hexDigit? b = none) (bytes : List UInt8) :
    readsHexPair (b :: bytes) = false := by
  cases bytes with
  | nil => rfl
  | cons c bytes => rw [readsHexPair, hb]; rfl

/-- A percent sign with two digits behind it is read as one byte. -/
theorem percentDecode_of_hexPair {b c : UInt8} (hb : (hexDigit? b).isSome = true)
    (hc : (hexDigit? c).isSome = true) :
    ∃ byte, ∀ rest, percentDecode (0x25 :: b :: c :: rest) = byte :: percentDecode rest := by
  obtain ⟨high, hhigh⟩ := Option.isSome_iff_exists.mp hb
  obtain ⟨low, hlow⟩ := Option.isSome_iff_exists.mp hc
  refine ⟨UInt8.ofNat (high * 16 + low), fun rest => ?_⟩
  rw [percentDecode, if_pos rfl, hhigh, hlow]

/-- Any other percent sign stands for itself. -/
theorem percentDecode_of_not_hexPair {bytes : List UInt8} (h : readsHexPair bytes = false) :
    percentDecode (0x25 :: bytes) = 0x25 :: percentDecode bytes := by
  match bytes, h with
  | [], _ => rfl
  | [_], _ => rfl
  | b :: c :: rest, h =>
    rw [percentDecode, if_pos rfl]
    rcases hb : hexDigit? b with _ | high
    · rfl
    · rcases hc : hexDigit? c with _ | low
      · rfl
      · rw [readsHexPair, hb, hc] at h
        exact absurd h.symm Bool.false_ne_true

/-- Bytes without a percent sign stand for themselves, whatever follows. -/
theorem percentDecode_append_of_not_mem {bytes : List UInt8} (h : 0x25 ∉ bytes)
    (rest : List UInt8) : percentDecode (bytes ++ rest) = bytes ++ percentDecode rest := by
  induction bytes with
  | nil => rfl
  | cons b bytes ih =>
    rw [List.mem_cons, not_or] at h
    rw [List.cons_append, percentDecode_cons_of_ne (Ne.symm h.1), ih h.2, List.cons_append]

/-- Reading makes no bytes. -/
theorem length_percentDecode_le (bytes : List UInt8) :
    (percentDecode bytes).length ≤ bytes.length := by
  fun_induction percentDecode bytes with
  | case1 | case2 | case3 => exact Nat.le_refl _
  | case4 b c rest high hhigh low hlow ih =>
    simp only [List.length_cons]
    omega
  | case5 b c rest hnone ih => exact Nat.succ_le_succ ih
  | case6 a b c rest ha ih => exact Nat.succ_le_succ ih

/-! ## Ways of spelling characters -/

/-- A way of spelling characters that can be read: percent signs and hexadecimal digits stand for
themselves, and any other character begins with a byte that is no digit. -/
structure IsSpelling (f : Char → List UInt8) : Prop where
  percent : f '%' = [0x25]
  digit : ∀ c, isHex c = true → f c = encodeChar c
  other : ∀ c, isHex c = false → ∃ b bs, f c = b :: bs ∧ hexDigit? b = none
  read : ∀ c ≠ '%', ∀ rest, percentDecode (f c ++ rest) = encodeChar c ++ percentDecode rest

/-- A character beyond ASCII is written in bytes beyond ASCII. -/
theorem high_of_mem_encodeChar {c : Char} (hc : 0x80 ≤ c.toNat) {b : UInt8}
    (hb : b ∈ encodeChar c) : 0x80 ≤ b.toNat := by
  have hvalid := toNat_lt_or_lt c
  have hbyte : ∀ n, 0x80 ≤ n → n < 0x100 → 0x80 ≤ (UInt8.ofNat n).toNat := by
    intro n hlow hhigh
    rwa [UInt8.toNat_ofNat_of_lt' hhigh]
  unfold encodeChar at hb
  dsimp only at hb
  rw [if_neg (by omega)] at hb
  split_ifs at hb <;> simp only [List.mem_cons, List.not_mem_nil, or_false] at hb
  · rcases hb with rfl | rfl <;> exact hbyte _ (by omega) (by omega)
  · rcases hb with rfl | rfl | rfl <;> exact hbyte _ (by omega) (by omega)
  · rcases hb with rfl | rfl | rfl | rfl <;> exact hbyte _ (by omega) (by omega)

/-- UTF-8 keeps percent signs out of all other characters. -/
theorem percent_not_mem_encodeChar {c : Char} (hc : c ≠ '%') : 0x25 ∉ encodeChar c := by
  intro hmem
  by_cases hascii : c.toNat < 0x80
  · rw [encodeChar_ascii hascii, List.mem_singleton] at hmem
    exact hc (eq_percent_of_byte hascii hmem.symm)
  · have hhigh := high_of_mem_encodeChar (Nat.le_of_not_lt hascii) hmem
    exact absurd hhigh (by decide)

/-- A character of ASCII is a digit if its byte is read as one. -/
theorem isSome_hexDigit?_ofNat {c : Char} (hc : c.toNat < 0x80) :
    (hexDigit? (UInt8.ofNat c.toNat)).isSome = isHex c := by
  have hall : ∀ n < 0x80, (hexDigit? (UInt8.ofNat n)).isSome = isHex (Char.ofNat n) := by decide
  rw [hall c.toNat hc, Char.ofNat_toNat]

/-- A hexadecimal digit is one byte, which is read as a digit. -/
theorem exists_encodeChar_of_isHex {c : Char} (hc : isHex c = true) :
    ∃ b, encodeChar c = [b] ∧ (hexDigit? b).isSome = true := by
  have hascii : c.toNat < 0x80 := by
    simp only [isHex, Bool.or_eq_true, Bool.and_eq_true, decide_eq_true_eq] at hc
    omega
  refine ⟨_, encodeChar_ascii hascii, ?_⟩
  rw [isSome_hexDigit?_ofNat hascii, hc]

/-- Any other character begins with a byte that is no digit. -/
theorem exists_encodeChar_of_not_isHex {c : Char} (hc : isHex c = false) :
    ∃ b bs, encodeChar c = b :: bs ∧ hexDigit? b = none := by
  by_cases hascii : c.toNat < 0x80
  · refine ⟨_, [], encodeChar_ascii hascii, ?_⟩
    rw [← Option.isNone_iff_eq_none, ← Option.isSome_eq_false_iff, isSome_hexDigit?_ofNat hascii,
      hc]
  · obtain ⟨b, bs, hbytes⟩ := List.exists_cons_of_ne_nil (encodeChar_ne_nil c)
    have hhigh : 0x80 ≤ b.toNat := by
      refine high_of_mem_encodeChar (Nat.le_of_not_lt hascii) ?_
      rw [hbytes]
      exact List.mem_cons_self
    refine ⟨b, bs, hbytes, ?_⟩
    simp only [hexDigit?, Bool.and_eq_true, decide_eq_true_eq]
    rw [if_neg (by omega), if_neg (by omega), if_neg (by omega)]

/-- A percent sign before two digits is read as one byte, whatever follows them. -/
theorem exists_escape {cs : List Char} (h : hasHexPair cs = true) :
    ∃ high low rest byte, cs = high :: low :: rest ∧ isHex high = true ∧ isHex low = true ∧
      ∀ bytes, percentDecode (0x25 :: (encodeChar high ++ (encodeChar low ++ bytes))) =
        byte :: percentDecode bytes := by
  match cs, h with
  | high :: low :: rest, h =>
    rw [hasHexPair, Bool.and_eq_true] at h
    obtain ⟨b, hb, hbsome⟩ := exists_encodeChar_of_isHex h.1
    obtain ⟨b', hb', hbsome'⟩ := exists_encodeChar_of_isHex h.2
    obtain ⟨byte, hread⟩ := percentDecode_of_hexPair hbsome hbsome'
    refine ⟨high, low, rest, byte, rfl, h.1, h.2, fun bytes => ?_⟩
    rw [hb, hb']
    exact hread bytes

/-- UTF-8 is such a way. -/
theorem isSpelling_encodeChar : IsSpelling encodeChar where
  percent := rfl
  digit _ _ := rfl
  other _ hc := exists_encodeChar_of_not_isHex hc
  read _ hc rest := percentDecode_append_of_not_mem (percent_not_mem_encodeChar hc) rest

/-- So is percent encoding that leaves percent signs and digits as they are. -/
theorem isSpelling_percentChar {special : Char → Bool} (hpercent : special '%' = false)
    (hdigit : ∀ c, isHex c = true → special c = false) :
    IsSpelling fun c => encodeChars (percentChar special c) where
  percent := by
    rw [percentChar, hpercent]
    rfl
  digit c hc := by
    have hplain : isAlwaysEncoded c = false := by
      simp only [isHex, Bool.or_eq_true, Bool.and_eq_true, decide_eq_true_eq] at hc
      simp only [isAlwaysEncoded, Bool.or_eq_false_iff, decide_eq_false_iff_not]
      omega
    rw [percentChar, hplain, hdigit c hc]
    exact List.append_nil _
  other c hc := by
    rw [percentChar]
    split
    · obtain ⟨b, bs, hbytes⟩ := List.exists_cons_of_ne_nil (encodeChar_ne_nil c)
      rw [hbytes]
      exact ⟨0x25, _, rfl, rfl⟩
    · obtain ⟨b, bs, hbytes, hnone⟩ := exists_encodeChar_of_not_isHex hc
      exact ⟨b, bs, (List.append_nil _).trans hbytes, hnone⟩
  read c hc rest := percentDecode_percentChar (fun h => absurd h hc) rest

/-- Two digits at the beginning are digits of the text. -/
theorem IsSpelling.readsHexPair {f : Char → List UInt8} (hf : IsSpelling f) (cs : List Char) :
    Text.readsHexPair (cs.flatMap f) = hasHexPair cs := by
  match cs with
  | [] => rfl
  | [c] =>
    by_cases hc : isHex c = true
    · obtain ⟨b, hb, -⟩ := exists_encodeChar_of_isHex hc
      rw [List.flatMap_cons, hf.digit c hc, hb]
      rfl
    · rw [Bool.not_eq_true] at hc
      obtain ⟨b, bs, hb, hnone⟩ := hf.other c hc
      rw [List.flatMap_cons, hb, List.cons_append, readsHexPair_of_none hnone]
      rfl
  | c :: d :: rest =>
    by_cases hc : isHex c = true
    · obtain ⟨b, hb, hsome⟩ := exists_encodeChar_of_isHex hc
      rw [List.flatMap_cons, List.flatMap_cons, hf.digit c hc, hb, hasHexPair, hc]
      by_cases hd : isHex d = true
      · obtain ⟨b', hb', hsome'⟩ := exists_encodeChar_of_isHex hd
        rw [hf.digit d hd, hb', hd]
        simp [Text.readsHexPair, hsome, hsome']
      · rw [Bool.not_eq_true] at hd
        obtain ⟨b', bs', hb', hnone'⟩ := hf.other d hd
        rw [hb', hd]
        simp [Text.readsHexPair, hnone']
    · rw [Bool.not_eq_true] at hc
      obtain ⟨b, bs, hb, hnone⟩ := hf.other c hc
      rw [List.flatMap_cons, hb, List.cons_append, readsHexPair_of_none hnone, hasHexPair, hc]
      rfl

theorem readsHexPair_encodeChars (cs : List Char) :
    readsHexPair (encodeChars cs) = hasHexPair cs := isSpelling_encodeChar.readsHexPair cs

/-- **What is read does not depend on the spelling.** -/
theorem IsSpelling.percentDecode_flatMap {f : Char → List UInt8} (hf : IsSpelling f)
    (cs : List Char) :
    percentDecode (cs.flatMap f) = percentDecode (encodeChars cs) := by
  -- an escape takes three characters at once, so the induction is on their number
  induction hlength : cs.length using Nat.strongRecOn generalizing cs with
  | ind length ih =>
    cases cs with
    | nil => rfl
    | cons c cs =>
      have hnext := ih cs.length (by rw [← hlength]; exact Nat.lt_succ_self _) cs rfl
      show percentDecode (f c ++ cs.flatMap f) = percentDecode (encodeChar c ++ encodeChars cs)
      by_cases hc : c = '%'
      · subst hc
        rw [hf.percent, isSpelling_encodeChar.percent]
        by_cases hpair : hasHexPair cs = true
        · obtain ⟨high, low, rest, byte, rfl, hhigh, hlow, hread⟩ := exists_escape hpair
          have hrest := ih rest.length (by simp only [← hlength, List.length_cons]; omega) rest rfl
          show percentDecode (0x25 :: (f high ++ (f low ++ rest.flatMap f))) =
            percentDecode (0x25 :: (encodeChar high ++ (encodeChar low ++ encodeChars rest)))
          rw [hf.digit _ hhigh, hf.digit _ hlow, hread, hread, hrest]
        · rw [Bool.not_eq_true] at hpair
          have hleft := (hf.readsHexPair cs).trans hpair
          have hright := (readsHexPair_encodeChars cs).trans hpair
          show percentDecode (0x25 :: cs.flatMap f) = percentDecode (0x25 :: encodeChars cs)
          rw [percentDecode_of_not_hexPair hleft, percentDecode_of_not_hexPair hright, hnext]
      · rw [hf.read c hc, isSpelling_encodeChar.read c hc, hnext]

/-! ## Reading a text with percent signs -/

/-- The bytes of a text without escapes stand for themselves. -/
theorem percentDecode_of_no_escape {cs : List Char} (h : hasEscape cs = false) :
    percentDecode (encodeChars cs) = encodeChars cs := by
  induction cs with
  | nil => rfl
  | cons c cs ih =>
    rw [hasEscape, Bool.or_eq_false_iff, Bool.and_eq_false_iff, decide_eq_false_iff_not] at h
    have hcons : encodeChars (c :: cs) = encodeChar c ++ encodeChars cs := rfl
    rw [hcons]
    by_cases hc : c = '%'
    · have hpair : readsHexPair (encodeChars cs) = false :=
        (readsHexPair_encodeChars cs).trans (h.1.resolve_left (not_not_intro hc))
      rw [hc, isSpelling_encodeChar.percent, List.singleton_append,
        percentDecode_of_not_hexPair hpair, ih h.2]
    · rw [isSpelling_encodeChar.read c hc, ih h.2]

/-- Where there is an escape, reading takes bytes away. -/
theorem length_percentDecode_lt {cs : List Char} (h : hasEscape cs = true) :
    (percentDecode (encodeChars cs)).length < (encodeChars cs).length := by
  induction cs with
  | nil => exact absurd h Bool.false_ne_true
  | cons c cs ih =>
    rw [hasEscape, Bool.or_eq_true, Bool.and_eq_true, decide_eq_true_eq] at h
    have hcons : encodeChars (c :: cs) = encodeChar c ++ encodeChars cs := rfl
    rw [hcons]
    by_cases hc : c = '%'
    · rw [hc, isSpelling_encodeChar.percent, List.singleton_append]
      by_cases hpair : hasHexPair cs = true
      · obtain ⟨high, low, rest, byte, rfl, -, -, hread⟩ := exists_escape hpair
        have hhigh := List.length_pos_of_ne_nil (encodeChar_ne_nil high)
        have hlow := List.length_pos_of_ne_nil (encodeChar_ne_nil low)
        have hrest := length_percentDecode_le (encodeChars rest)
        show (percentDecode (0x25 :: (encodeChar high ++ (encodeChar low ++ encodeChars rest)))).length <
          (0x25 :: (encodeChar high ++ (encodeChar low ++ encodeChars rest))).length
        rw [hread]
        simp only [List.length_cons, List.length_append]
        omega
      · have hescape := ih (h.resolve_left fun hboth => hpair hboth.2)
        rw [Bool.not_eq_true] at hpair
        rw [percentDecode_of_not_hexPair ((readsHexPair_encodeChars cs).trans hpair)]
        exact Nat.succ_lt_succ hescape
    · have hescape := ih (h.resolve_left fun hboth => hc hboth.1)
      rw [isSpelling_encodeChar.read c hc, List.length_append, List.length_append]
      omega

/-- A text is read as another one if its bytes are. -/
theorem percentDecode?_eq_some_iff {s t : String} :
    percentDecode? s = some t ↔ percentDecode (encode s) = encode t := decode?_eq_some_iff

/-- A text without escapes is read as it is. -/
theorem percentDecode?_of_no_escape {s : String} (h : hasEscape s.toList = false) :
    percentDecode? s = some s :=
  percentDecode?_eq_some_iff.mpr (percentDecode_of_no_escape h)

/-- What is read is no longer than the text, and shorter if there is an escape. -/
theorem length_encode_le {s t : String} (h : percentDecode? s = some t) :
    (encode t).length ≤ (encode s).length ∧
      (hasEscape s.toList = true → (encode t).length < (encode s).length) := by
  rw [← percentDecode?_eq_some_iff.mp h]
  exact ⟨length_percentDecode_le _, length_percentDecode_lt⟩

/-- **Percent encoding that leaves percent signs as they are adds no meaning and takes none
away.** -/
theorem percentDecode?_percentEncode_of_bare {special : Char → Bool}
    (hpercent : special '%' = false) (hdigit : ∀ c, isHex c = true → special c = false)
    (cs : List Char) :
    percentDecode? (String.ofList (percentEncode special cs)) =
      percentDecode? (String.ofList cs) := by
  have hspelled := (isSpelling_percentChar hpercent hdigit).percentDecode_flatMap cs
  have hbytes : encodeChars (percentEncode special cs) =
      cs.flatMap fun c => encodeChars (percentChar special c) := List.flatMap_assoc
  rw [percentDecode?, percentDecode?, encode, encode, String.toList_ofList, String.toList_ofList,
    hbytes, hspelled]

end PinBoard.Text
