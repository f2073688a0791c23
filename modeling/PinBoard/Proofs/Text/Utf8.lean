import PinBoard.Text.Utf8
import Mathlib.Data.List.Basic

/-!
# UTF-8 round trip

What is written as bytes is read back character by character, so no two texts share their bytes,
and no other bytes are read as a text. Each length of a written character is followed through the
reader: the first byte says how many follow and which numbers it leaves open, every further byte
adds six bits.
-/

namespace PinBoard.Text.Utf8

/-! ## Steps of the reader -/

/-- A byte that is a whole character. -/
theorem decodeFrom_ascii {b : Nat} (hb : b < 0x80) (rest : List UInt8) :
    decodeFrom none (UInt8.ofNat b :: rest) = some (Char.ofNat b) :: decodeFrom none rest := by
  have hbyte : (UInt8.ofNat b).toNat = b := UInt8.toNat_ofNat_of_lt (Nat.lt_trans hb (by decide))
  have hstart : start b = some (.inl (Char.ofNat b)) := if_pos hb
  rw [decodeFrom, hbyte]
  simp only [startAt, hstart]
  rfl

/-- A byte that starts a longer character. -/
theorem decodeFrom_start {b : Nat} {p : Partial} (hb : b < 0x100)
    (hstart : start b = some (.inr p)) (rest : List UInt8) :
    decodeFrom none (UInt8.ofNat b :: rest) = decodeFrom (some p) rest := by
  have hbyte : (UInt8.ofNat b).toNat = b := UInt8.toNat_ofNat_of_lt hb
  rw [decodeFrom, hbyte]
  simp only [startAt, hstart]
  rfl

section Tail

variable {p : Partial} {b : Nat}

/-- A further byte that is not the last one. -/
theorem decodeFrom_more (hb : b < 0x100) (hlow : p.low ≤ b) (hhigh : b ≤ p.high)
    (hmissing : 1 < p.missing) (rest : List UInt8) :
    decodeFrom (some p) (UInt8.ofNat b :: rest) =
      decodeFrom (some ⟨p.missing - 1, 0x80, 0xBF, p.value * 0x40 + (b - 0x80)⟩) rest := by
  have hbyte : (UInt8.ofNat b).toNat = b := UInt8.toNat_ofNat_of_lt hb
  rw [decodeFrom, hbyte, if_pos (by simp [hlow, hhigh]), if_neg (by omega)]

/-- The last byte of a character. -/
theorem decodeFrom_last (hb : b < 0x100) (hlow : p.low ≤ b) (hhigh : b ≤ p.high)
    (hmissing : p.missing ≤ 1) (rest : List UInt8) :
    decodeFrom (some p) (UInt8.ofNat b :: rest) =
      some (Char.ofNat (p.value * 0x40 + (b - 0x80))) :: decodeFrom none rest := by
  have hbyte : (UInt8.ofNat b).toNat = b := UInt8.toNat_ofNat_of_lt hb
  rw [decodeFrom, hbyte, if_pos (by simp [hlow, hhigh]), if_pos hmissing]

end Tail

/-! ## First bytes -/

/-- The first byte of two. -/
theorem start_two {n : Nat} (hlow : 0x80 ≤ n) (hhigh : n < 0x800) :
    start (0xC0 + n / 0x40) = some (.inr ⟨1, 0x80, 0xBF, n / 0x40⟩) := by
  unfold start
  rw [if_neg (by omega), if_neg (by omega), if_pos (by omega), Nat.add_sub_cancel_left]

/-- The first byte of three: the bounds that it sets for the second one hold, since no character
is a surrogate. -/
theorem start_three {n : Nat} (hlow : 0x800 ≤ n) (hhigh : n < 0x10000)
    (hvalid : n < 0xD800 ∨ 0xDFFF < n) :
    ∃ low high, start (0xE0 + n / 0x1000) = some (.inr ⟨2, low, high, n / 0x1000⟩) ∧
      low ≤ 0x80 + n / 0x40 % 0x40 ∧ 0x80 + n / 0x40 % 0x40 ≤ high := by
  unfold start
  rw [if_neg (by omega), if_neg (by omega), if_neg (by omega)]
  by_cases hfirst : n / 0x1000 = 0
  · rw [if_pos (by omega), hfirst]
    exact ⟨0xA0, 0xBF, rfl, by omega, by omega⟩
  rw [if_neg (by omega)]
  by_cases hgap : n / 0x1000 = 0xD
  · rw [if_pos (by omega), hgap]
    exact ⟨0x80, 0x9F, rfl, by omega, by omega⟩
  rw [if_neg (by omega), if_pos (by omega), Nat.add_sub_cancel_left]
  exact ⟨0x80, 0xBF, rfl, by omega, by omega⟩

/-- The first byte of four, likewise: no character lies beyond U+10FFFF. -/
theorem start_four {n : Nat} (hlow : 0x10000 ≤ n) (hhigh : n < 0x110000) :
    ∃ low high, start (0xF0 + n / 0x40000) = some (.inr ⟨3, low, high, n / 0x40000⟩) ∧
      low ≤ 0x80 + n / 0x1000 % 0x40 ∧ 0x80 + n / 0x1000 % 0x40 ≤ high := by
  unfold start
  rw [if_neg (by omega), if_neg (by omega), if_neg (by omega), if_neg (by omega),
    if_neg (by omega), if_neg (by omega)]
  by_cases hfirst : n / 0x40000 = 0
  · rw [if_pos (by omega), hfirst]
    exact ⟨0x90, 0xBF, rfl, by omega, by omega⟩
  rw [if_neg (by omega)]
  by_cases hlast : n / 0x40000 = 4
  · rw [if_neg (by omega), if_pos (by omega), hlast]
    exact ⟨0x80, 0x8F, rfl, by omega, by omega⟩
  rw [if_pos (by omega), Nat.add_sub_cancel_left]
  exact ⟨0x80, 0xBF, rfl, by omega, by omega⟩

/-! ## Round trip -/

/-- The numbers of characters leave out the surrogates. -/
theorem toNat_lt_or_lt (c : Char) :
    c.toNat < 0xD800 ∨ 0xDFFF < c.toNat ∧ c.toNat < 0x110000 := c.valid

/-- A written character is read back, whatever follows it. -/
theorem decodeFrom_encodeChar (c : Char) (rest : List UInt8) :
    decodeFrom none (encodeChar c ++ rest) = some c :: decodeFrom none rest := by
  have hvalid := toNat_lt_or_lt c
  have hchar : ∀ n, n = c.toNat → Char.ofNat n = c := by
    intro n hn
    rw [hn, Char.ofNat_toNat]
  unfold encodeChar
  dsimp only
  -- by the number of bytes; each time the reader has put the number of the character together again
  by_cases hone : c.toNat < 0x80
  · rw [if_pos hone, List.cons_append, List.nil_append, decodeFrom_ascii hone, hchar _ rfl]
  rw [if_neg hone]
  by_cases htwo : c.toNat < 0x800
  · have hstart := start_two (by omega) htwo
    rw [if_pos htwo, List.cons_append, List.cons_append, List.nil_append,
      decodeFrom_start (by omega) hstart,
      decodeFrom_last (by omega) (by simp only; omega) (by simp only; omega) (by simp only; omega),
      hchar]
    simp only
    omega
  rw [if_neg htwo]
  by_cases hthree : c.toNat < 0x10000
  · obtain ⟨low, high, hstart, hlow, hhigh⟩ := start_three (n := c.toNat) (by omega) hthree (by omega)
    rw [if_pos hthree, List.cons_append, List.cons_append, List.cons_append, List.nil_append,
      decodeFrom_start (by omega) hstart,
      decodeFrom_more (by omega) hlow hhigh (by simp only; omega),
      decodeFrom_last (by omega) (by simp only; omega) (by simp only; omega) (by simp only; omega),
      hchar]
    simp only
    omega
  · obtain ⟨low, high, hstart, hlow, hhigh⟩ := start_four (n := c.toNat) (by omega) (by omega)
    rw [if_neg hthree, List.cons_append, List.cons_append, List.cons_append, List.cons_append,
      List.nil_append, decodeFrom_start (by omega) hstart,
      decodeFrom_more (by omega) hlow hhigh (by simp only; omega),
      decodeFrom_more (by omega) (by simp only; omega) (by simp only; omega) (by simp only; omega),
      decodeFrom_last (by omega) (by simp only; omega) (by simp only; omega) (by simp only; omega),
      hchar]
    simp only
    omega

/-- **UTF-8 round trip.**  The bytes of characters are read back as these characters. -/
theorem decode_encodeChars (cs : List Char) : decode (encodeChars cs) = cs.map some := by
  unfold decode encodeChars
  induction cs with
  | nil => rfl
  | cons c rest ih => rw [List.flatMap_cons, decodeFrom_encodeChar, ih, List.map_cons]

/-- No two sequences of characters share their bytes. -/
theorem encodeChars_injective {cs ds : List Char} (h : encodeChars cs = encodeChars ds) :
    cs = ds := by
  have hread := congrArg decode h
  rw [decode_encodeChars, decode_encodeChars] at hread
  exact List.map_injective_iff.mpr (fun _ _ => Option.some.inj) hread

/-- Where every symbol is a character, the characters are what the symbols spell. -/
theorem mapM_id_map_some (cs : List Char) : (cs.map some).mapM id = some cs := by
  induction cs with
  | nil => rfl
  | cons c rest ih => simp [ih]

/-- The bytes of a string spell this string. -/
theorem decode?_encode (s : String) : decode? (encode s) = some s := by
  rw [decode?, encode, decode_encodeChars, mapM_id_map_some, Option.map_some, String.ofList_toList]

/-! ## ASCII -/

/-- A character of ASCII is one byte. -/
theorem encodeChar_ascii {c : Char} (h : c.toNat < 0x80) :
    encodeChar c = [UInt8.ofNat c.toNat] := if_pos h

/-! ## What is read -/

/-- The number of a character that was made from a number. -/
theorem toNat_charOfNat {n : Nat} (h : n < 0xD800 ∨ 0xDFFF < n ∧ n < 0x110000) :
    (Char.ofNat n).toNat = n := by
  have hvalid : n.isValidChar := h
  rw [Char.ofNat, dif_pos hvalid]
  rfl

section Reading

variable {p : Partial} {bytes : List UInt8} {cs : List Char}

/-- A character under way that is read has another byte, within its bounds. -/
theorem of_decodeFrom_some (h : decodeFrom (some p) bytes = cs.map some) :
    ∃ b rest, bytes = b :: rest ∧ p.low ≤ b.toNat ∧ b.toNat ≤ p.high ∧
      cs.map some = if p.missing ≤ 1
        then some (Char.ofNat (p.value * 0x40 + (b.toNat - 0x80))) :: decodeFrom none rest
        else decodeFrom
          (some ⟨p.missing - 1, 0x80, 0xBF, p.value * 0x40 + (b.toNat - 0x80)⟩) rest := by
  cases bytes with
  | nil =>
    cases cs with
    | nil => exact absurd h (List.cons_ne_nil none [])
    | cons c cs => exact absurd (List.cons.inj h).1 (Option.some_ne_none c).symm
  | cons b rest =>
    rw [decodeFrom] at h
    by_cases hb : p.low ≤ b.toNat ∧ b.toNat ≤ p.high
    · rw [if_pos (by simpa using hb)] at h
      exact ⟨b, rest, rfl, hb.1, hb.2, h.symm⟩
    · rw [if_neg (by simpa using hb)] at h
      cases cs with
      | nil => exact absurd h (List.cons_ne_nil none _)
      | cons c cs => exact absurd (List.cons.inj h).1 (Option.some_ne_none c).symm

/-- Its last byte makes it a character. -/
theorem of_decodeFrom_last (hmissing : p.missing ≤ 1)
    (h : decodeFrom (some p) bytes = cs.map some) :
    ∃ b rest cs', bytes = b :: rest ∧ p.low ≤ b.toNat ∧ b.toNat ≤ p.high ∧
      cs = Char.ofNat (p.value * 0x40 + (b.toNat - 0x80)) :: cs' ∧
      decodeFrom none rest = cs'.map some := by
  obtain ⟨b, rest, hbytes, hlow, hhigh, hcs⟩ := of_decodeFrom_some h
  rw [if_pos hmissing] at hcs
  cases cs with
  | nil => exact absurd hcs.symm (List.cons_ne_nil _ _)
  | cons c cs =>
    obtain ⟨hc, hrest⟩ := List.cons.inj hcs
    exact ⟨b, rest, cs, hbytes, hlow, hhigh, by rw [Option.some.inj hc], hrest.symm⟩

/-- Any other byte leaves one less to come. -/
theorem of_decodeFrom_more (hmissing : 1 < p.missing)
    (h : decodeFrom (some p) bytes = cs.map some) :
    ∃ b rest, bytes = b :: rest ∧ p.low ≤ b.toNat ∧ b.toNat ≤ p.high ∧
      decodeFrom (some ⟨p.missing - 1, 0x80, 0xBF, p.value * 0x40 + (b.toNat - 0x80)⟩) rest =
        cs.map some := by
  obtain ⟨b, rest, hbytes, hlow, hhigh, hcs⟩ := of_decodeFrom_some h
  rw [if_neg (Nat.not_le.mpr hmissing)] at hcs
  exact ⟨b, rest, hbytes, hlow, hhigh, hcs.symm⟩

end Reading

/-- What the first byte of a longer character says: how many bytes follow, with which bounds for the
next one, and the highest bits of its number. -/
structure Opens (b : Nat) (p : Partial) : Prop where
  bounds : 0x80 ≤ p.low ∧ p.high ≤ 0xBF
  leads : (0xC2 ≤ b ∧ b < 0xE0 ∧ p.missing = 1 ∧ p.value = b - 0xC0) ∨
    (0xE0 ≤ b ∧ b < 0xF0 ∧ p.missing = 2 ∧ p.value = b - 0xE0 ∧
      (b = 0xE0 → 0xA0 ≤ p.low) ∧ (b = 0xED → p.high ≤ 0x9F)) ∨
    (0xF0 ≤ b ∧ b < 0xF5 ∧ p.missing = 3 ∧ p.value = b - 0xF0 ∧
      (b = 0xF0 → 0x90 ≤ p.low) ∧ (b = 0xF4 → p.high ≤ 0x8F))

/-- A first byte is a character of ASCII, starts nothing, or opens a longer character. -/
theorem start_cases (b : Nat) :
    (b < 0x80 ∧ start b = some (.inl (Char.ofNat b))) ∨ start b = none ∨
      ∃ p, start b = some (.inr p) ∧ Opens b p := by
  unfold start
  by_cases hone : b < 0x80
  · rw [if_pos hone]
    exact Or.inl ⟨hone, rfl⟩
  rw [if_neg hone]
  right
  by_cases hnone : b < 0xC2
  · rw [if_pos hnone]
    exact Or.inl rfl
  rw [if_neg hnone]
  by_cases htwo : b < 0xE0
  · rw [if_pos htwo]
    exact Or.inr ⟨_, rfl, by simp, Or.inl ⟨by omega, htwo, rfl, rfl⟩⟩
  rw [if_neg htwo]
  by_cases hshort : b = 0xE0
  · rw [if_pos hshort]
    exact Or.inr ⟨_, rfl, by simp, Or.inr (Or.inl ⟨by omega, by omega, rfl, by simp [hshort],
      by simp, by simp [hshort]⟩)⟩
  rw [if_neg hshort]
  by_cases hgap : b = 0xED
  · rw [if_pos hgap]
    exact Or.inr ⟨_, rfl, by simp, Or.inr (Or.inl ⟨by omega, by omega, rfl, by simp [hgap],
      by simp [hgap], by simp⟩)⟩
  rw [if_neg hgap]
  by_cases hthree : b < 0xF0
  · rw [if_pos hthree]
    exact Or.inr ⟨_, rfl, by simp, Or.inr (Or.inl ⟨by omega, hthree, rfl, rfl,
      fun h => absurd h hshort, fun h => absurd h hgap⟩)⟩
  rw [if_neg hthree]
  by_cases hlow : b = 0xF0
  · rw [if_pos hlow]
    exact Or.inr ⟨_, rfl, by simp, Or.inr (Or.inr ⟨by omega, by omega, rfl, by simp [hlow],
      by simp, by simp [hlow]⟩)⟩
  rw [if_neg hlow]
  by_cases hfour : b < 0xF4
  · rw [if_pos hfour]
    exact Or.inr ⟨_, rfl, by simp, Or.inr (Or.inr ⟨by omega, by omega, rfl, rfl,
      fun h => absurd h hlow, fun h => by omega⟩)⟩
  rw [if_neg hfour]
  by_cases hlast : b = 0xF4
  · rw [if_pos hlast]
    exact Or.inr ⟨_, rfl, by simp, Or.inr (Or.inr ⟨by omega, by omega, rfl, by simp [hlast],
      by simp [hlast], by simp⟩)⟩
  · rw [if_neg hlast]
    exact Or.inl rfl

section Written

variable {n : Nat}

/-- How a character of two bytes is written. -/
theorem encodeChar_two (hlow : 0x80 ≤ n) (hhigh : n < 0x800) :
    encodeChar (Char.ofNat n) =
      [UInt8.ofNat (0xC0 + n / 0x40), UInt8.ofNat (0x80 + n % 0x40)] := by
  unfold encodeChar
  rw [toNat_charOfNat (by omega)]
  dsimp only
  rw [if_neg (by omega), if_pos (by omega)]

/-- How a character of three bytes is written. -/
theorem encodeChar_three (hlow : 0x800 ≤ n) (hhigh : n < 0x10000)
    (hvalid : n < 0xD800 ∨ 0xDFFF < n) :
    encodeChar (Char.ofNat n) =
      [UInt8.ofNat (0xE0 + n / 0x1000), UInt8.ofNat (0x80 + n / 0x40 % 0x40),
        UInt8.ofNat (0x80 + n % 0x40)] := by
  unfold encodeChar
  rw [toNat_charOfNat (by omega)]
  dsimp only
  rw [if_neg (by omega), if_neg (by omega), if_pos (by omega)]

/-- How a character of four bytes is written. -/
theorem encodeChar_four (hlow : 0x10000 ≤ n) (hhigh : n < 0x110000) :
    encodeChar (Char.ofNat n) =
      [UInt8.ofNat (0xF0 + n / 0x40000), UInt8.ofNat (0x80 + n / 0x1000 % 0x40),
        UInt8.ofNat (0x80 + n / 0x40 % 0x40), UInt8.ofNat (0x80 + n % 0x40)] := by
  unfold encodeChar
  rw [toNat_charOfNat (by omega)]
  dsimp only
  rw [if_neg (by omega), if_neg (by omega), if_neg (by omega)]

/-- A byte is known by its number. -/
theorem ofNat_eq_of_toNat {b : UInt8} (h : b.toNat = n) : UInt8.ofNat n = b := by
  rw [← h, UInt8.ofNat_toNat]

end Written

/-- A longer character that is read stands there as it is written. -/
theorem exists_encodeChar_of_opens {b : UInt8} {rest : List UInt8} {p : Partial} {cs : List Char}
    (hopens : Opens b.toNat p) (h : decodeFrom (some p) rest = cs.map some) :
    ∃ c cs' rest', cs = c :: cs' ∧ b :: rest = encodeChar c ++ rest' ∧
      decodeFrom none rest' = cs'.map some := by
  obtain ⟨⟨hlow, hhigh⟩, htwo | hthree | hfour⟩ := hopens
  · obtain ⟨hfirst, hfirst', hmissing, hvalue⟩ := htwo
    obtain ⟨b₁, rest', cs', rfl, hb, hb', rfl, hrest⟩ := of_decodeFrom_last (by omega) h
    refine ⟨_, cs', rest', rfl, ?_, hrest⟩
    generalize hn : p.value * 0x40 + (b₁.toNat - 0x80) = n
    rw [encodeChar_two (by omega) (by omega), ofNat_eq_of_toNat (b := b) (by omega),
      ofNat_eq_of_toNat (b := b₁) (by omega)]
    rfl
  · obtain ⟨hfirst, hfirst', hmissing, hvalue, hshort, hgap⟩ := hthree
    obtain ⟨b₁, rest₁, rfl, hb, hb', hmore⟩ := of_decodeFrom_more (by omega) h
    obtain ⟨b₂, rest', cs', rfl, hc, hc', rfl, hrest⟩ :=
      of_decodeFrom_last (by simp only; omega) hmore
    simp only at hc hc'
    refine ⟨_, cs', rest', rfl, ?_, hrest⟩
    simp only
    generalize hn : (p.value * 0x40 + (b₁.toNat - 0x80)) * 0x40 + (b₂.toNat - 0x80) = n
    rw [encodeChar_three (by omega) (by omega) (by omega),
      ofNat_eq_of_toNat (b := b) (by omega), ofNat_eq_of_toNat (b := b₁) (by omega),
      ofNat_eq_of_toNat (b := b₂) (by omega)]
    rfl
  · obtain ⟨hfirst, hfirst', hmissing, hvalue, hshort, hgap⟩ := hfour
    obtain ⟨b₁, rest₁, rfl, hb, hb', hmore⟩ := of_decodeFrom_more (by omega) h
    obtain ⟨b₂, rest₂, rfl, hc, hc', hmore⟩ := of_decodeFrom_more (by simp only; omega) hmore
    obtain ⟨b₃, rest', cs', rfl, hd, hd', rfl, hrest⟩ :=
      of_decodeFrom_last (by simp only; omega) hmore
    simp only at hc hc' hd hd'
    refine ⟨_, cs', rest', rfl, ?_, hrest⟩
    simp only
    generalize hn : ((p.value * 0x40 + (b₁.toNat - 0x80)) * 0x40 + (b₂.toNat - 0x80)) * 0x40 +
      (b₃.toNat - 0x80) = n
    rw [encodeChar_four (by omega) (by omega), ofNat_eq_of_toNat (b := b) (by omega),
      ofNat_eq_of_toNat (b := b₁) (by omega), ofNat_eq_of_toNat (b := b₂) (by omega),
      ofNat_eq_of_toNat (b := b₃) (by omega)]
    rfl

/-- The first character that is read stands there as it is written. -/
theorem exists_encodeChar_of_decodeFrom {b : UInt8} {rest : List UInt8} {cs : List Char}
    (h : decodeFrom none (b :: rest) = cs.map some) :
    ∃ c cs' rest', cs = c :: cs' ∧ b :: rest = encodeChar c ++ rest' ∧
      decodeFrom none rest' = cs'.map some := by
  rw [decodeFrom] at h
  rcases start_cases b.toNat with ⟨hone, hstart⟩ | hstart | ⟨p, hstart, hopens⟩
  · simp only [startAt, hstart] at h
    cases cs with
    | nil => exact absurd h (List.cons_ne_nil _ _)
    | cons c cs =>
      obtain ⟨hc, hrest⟩ := List.cons.inj h
      obtain rfl := Option.some.inj hc
      refine ⟨_, cs, rest, rfl, ?_, hrest⟩
      have hcode : (Char.ofNat b.toNat).toNat = b.toNat := toNat_charOfNat (by omega)
      rw [encodeChar_ascii (by omega), hcode, UInt8.ofNat_toNat]
      rfl
  · simp only [startAt, hstart] at h
    cases cs with
    | nil => exact absurd h (List.cons_ne_nil none _)
    | cons c cs => exact absurd (List.cons.inj h).1 (Option.some_ne_none c).symm
  · simp only [startAt, hstart, List.nil_append] at h
    exact exists_encodeChar_of_opens hopens h

/-- No character is written without a byte. -/
theorem encodeChar_ne_nil (c : Char) : encodeChar c ≠ [] := by
  unfold encodeChar
  dsimp only
  split_ifs <;> exact List.cons_ne_nil _ _

/-- **Nothing else is UTF-8.**  Bytes that are read as characters are these characters written. -/
theorem eq_encodeChars_of_decode {bytes : List UInt8} {cs : List Char}
    (h : decode bytes = cs.map some) : bytes = encodeChars cs := by
  unfold decode at h
  -- each character that is read takes its bytes away, so the induction is on their number
  induction hlength : bytes.length using Nat.strongRecOn generalizing bytes cs with
  | ind length ih =>
    cases bytes with
    | nil =>
      cases cs with
      | nil => rfl
      | cons c cs => exact absurd h.symm (List.cons_ne_nil (some c) (cs.map some))
    | cons b rest =>
      obtain ⟨c, cs', rest', rfl, hbytes, hrest⟩ := exists_encodeChar_of_decodeFrom h
      have hshorter : rest'.length < length := by
        have hone : 0 < (encodeChar c).length := List.length_pos_of_ne_nil (encodeChar_ne_nil c)
        rw [← hlength, hbytes, List.length_append]
        omega
      rw [hbytes, ih rest'.length hshorter hrest rfl]
      rfl

/-- Symbols that spell characters are these characters. -/
theorem eq_map_some_of_mapM_id {symbols : List (Option Char)} {cs : List Char}
    (h : symbols.mapM id = some cs) : symbols = cs.map some := by
  induction symbols generalizing cs with
  | nil =>
    obtain rfl : [] = cs := by simpa using h
    rfl
  | cons symbol symbols ih =>
    simp only [List.mapM_cons, id, Option.bind_eq_bind, Option.bind_eq_some_iff, Option.pure_def,
      Option.some.injEq] at h
    obtain ⟨c, rfl, cs', hcs, rfl⟩ := h
    rw [ih hcs, List.map_cons]

/-- The bytes of a text, and no others, spell it. -/
theorem decode?_eq_some_iff {bytes : List UInt8} {s : String} :
    decode? bytes = some s ↔ bytes = encode s := by
  constructor
  · intro h
    obtain ⟨cs, hcs, rfl⟩ := Option.map_eq_some_iff.mp h
    rw [encode, String.toList_ofList]
    exact eq_encodeChars_of_decode (eq_map_some_of_mapM_id hcs)
  · rintro rfl
    exact decode?_encode s

end PinBoard.Text.Utf8
