import PinBoard.Proofs.Text.Escape
import PinBoard.Text.Decimal
import Mathlib.Data.List.Induction
import Mathlib.Data.Nat.Digits.Defs

/-!
# Numerals

What spells a number in decimal is said here of the codes of characters, without reading them: a
plus sign, if any, and digits, however many zeros stand at their front. Exactly that is read as a
number. The codes are those of ASCII, so it makes no difference whether they are taken from the
characters of a text or from its bytes.
-/

namespace PinBoard.Text

/-- Codes spell a number: that of a plus sign, if any, and those of one or more digits, the last of
which counts the units. -/
def Spells (codes : List Nat) (n : Nat) : Prop :=
  ∃ sign digits : List Nat, (sign = [] ∨ sign = [0x2B]) ∧ codes = sign ++ digits ∧
    digits ≠ [] ∧ (∀ d ∈ digits, 0x30 ≤ d ∧ d ≤ 0x39) ∧
    n = Nat.ofDigits 10 (digits.reverse.map (· - 0x30))

/-! ## Characters -/

theorem isDigitChar_iff {c : Char} : isDigitChar c = true ↔ 0x30 ≤ c.toNat ∧ c.toNat ≤ 0x39 := by
  rw [isDigitChar, Bool.and_eq_true, decide_eq_true_iff, decide_eq_true_iff]
  exact and_congr UInt32.le_iff_toNat_le UInt32.le_iff_toNat_le

/-- A number is written in digits. -/
theorem isDigitChar_of_mem_toDigits {n : Nat} {c : Char} (h : c ∈ Nat.toDigits 10 n) :
    isDigitChar c = true := by
  have hdigit := Nat.isDigit_of_mem_toDigits (by decide) (by decide) h
  rw [Char.isDigit, Bool.and_eq_true, decide_eq_true_iff, decide_eq_true_iff] at hdigit
  rw [isDigitChar_iff]
  exact ⟨UInt32.le_iff_toNat_le.mp hdigit.1, UInt32.le_iff_toNat_le.mp hdigit.2⟩

/-- The number that digits spell counts its units by the last of them. -/
theorem digitsValue_eq_ofDigits (ds : List Char) :
    digitsValue ds = Nat.ofDigits 10 ((ds.map Char.toNat).reverse.map (· - 0x30)) := by
  induction ds using List.reverseRecOn with
  | nil => rfl
  | append_singleton ds c ih =>
    rw [List.map_append, List.reverse_append, List.map_append, List.map_singleton,
      List.reverse_singleton, List.map_singleton, List.singleton_append, Nat.ofDigits_cons, ← ih,
      digitsValue, Nat.ofDigitChars_append, Nat.ofDigitChars_cons, Nat.ofDigitChars_nil,
      Nat.add_comm]
    rfl

/-- The first digit counts for as many places as stand behind it. -/
theorem digitsValue_cons (c : Char) (ds : List Char) :
    digitsValue (c :: ds) = (c.toNat - 0x30) * 10 ^ ds.length + digitsValue ds := by
  rw [digitsValue_eq_ofDigits, digitsValue_eq_ofDigits, List.map_cons, List.reverse_cons,
    List.map_append, Nat.ofDigits_append, List.map_singleton, Nat.ofDigits_singleton,
    List.length_map, List.length_reverse, List.length_map]
  ring

theorem digitsValue_lt {ds : List Char} (h : ∀ c ∈ ds, isDigitChar c = true) :
    digitsValue ds < 10 ^ ds.length := by
  induction ds with
  | nil => decide
  | cons c rest ih =>
    rw [List.forall_mem_cons, isDigitChar_iff] at h
    have hrest := ih h.2
    have hdigit : (c.toNat - 0x30) * 10 ^ rest.length ≤ 9 * 10 ^ rest.length :=
      Nat.mul_le_mul_right _ (by omega)
    rw [digitsValue_cons, List.length_cons, Nat.pow_succ]
    omega

/-- Numbers are compared by their first place, and then by the others. -/
theorem place_lt_iff {place x y a b : Nat} (ha : a < place) (hb : b < place) :
    x * place + a < y * place + b ↔ x < y ∨ x = y ∧ a < b := by
  rcases Nat.lt_trichotomy x y with h | rfl | h
  · have hplace : (x + 1) * place ≤ y * place := Nat.mul_le_mul_right place h
    rw [Nat.add_mul, Nat.one_mul] at hplace
    omega
  · omega
  · have hplace : (y + 1) * place ≤ x * place := Nat.mul_le_mul_right place h
    rw [Nat.add_mul, Nat.one_mul] at hplace
    omega

/-- As many digits on both sides are in the order of their numbers. -/
theorem digits_lt_iff {ds es : List Char} (hlength : ds.length = es.length)
    (hds : ∀ c ∈ ds, isDigitChar c = true) (hes : ∀ c ∈ es, isDigitChar c = true) :
    ds < es ↔ digitsValue ds < digitsValue es := by
  induction ds generalizing es with
  | nil =>
    obtain rfl := List.eq_nil_of_length_eq_zero hlength.symm
    simp
  | cons c ds ih =>
    obtain ⟨d, es, rfl⟩ := List.exists_cons_of_length_eq_add_one hlength.symm
    rw [List.forall_mem_cons, isDigitChar_iff] at hds hes
    have hrest : ds.length = es.length := Nat.succ.inj hlength
    have hlt := digitsValue_lt hds.2
    have hlt' := digitsValue_lt hes.2
    have hfirst : c < d ↔ c.toNat - 0x30 < d.toNat - 0x30 := by
      rw [Char.lt_def, UInt32.lt_iff_toNat_lt]
      show c.toNat < d.toNat ↔ _
      omega
    have hsame : c = d ↔ c.toNat - 0x30 = d.toNat - 0x30 := by
      rw [← Char.toNat_inj]
      omega
    rw [hrest] at hlt
    rw [List.cons_lt_cons_iff, ih hrest hds.2 hes.2, hfirst, hsame, digitsValue_cons,
      digitsValue_cons, hrest, place_lt_iff hlt hlt']

/-- The number that digits spell, if there is nothing else. -/
def digits? (cs : List Char) : Option Nat :=
  if !cs.isEmpty && cs.all isDigitChar then some (digitsValue cs) else none

theorem digits?_eq_some_iff {cs : List Char} {n : Nat} :
    digits? cs = some n ↔ cs ≠ [] ∧ (∀ c ∈ cs, isDigitChar c = true) ∧ n = digitsValue cs := by
  rw [digits?, Option.ite_none_right_eq_some, Bool.and_eq_true, Bool.not_eq_true',
    List.isEmpty_eq_false_iff, List.all_eq_true, Option.some_inj, and_assoc, eq_comm (a := n)]

/-- Before the digits a plus sign may stand. -/
theorem numeral?_eq_some_iff {cs : List Char} {n : Nat} :
    numeral? cs = some n ↔ ∃ sign digits, (sign = [] ∨ sign = ['+']) ∧ cs = sign ++ digits ∧
      digits ≠ [] ∧ (∀ c ∈ digits, isDigitChar c = true) ∧ n = digitsValue digits := by
  unfold numeral?
  split
  · rename_i rest
    show digits? rest = some n ↔ _
    rw [digits?_eq_some_iff]
    constructor
    · intro h
      exact ⟨['+'], rest, Or.inr rfl, rfl, h⟩
    · rintro ⟨sign, digits, rfl | rfl, hcs, hne, hall, hn⟩
      · -- the plus sign is no digit
        rw [List.nil_append] at hcs
        exact absurd (hall '+' (hcs ▸ List.mem_cons_self)) (by decide)
      · obtain rfl := (List.cons.inj hcs).2
        exact ⟨hne, hall, hn⟩
  · rename_i hplus
    show digits? cs = some n ↔ _
    rw [digits?_eq_some_iff]
    constructor
    · intro h
      exact ⟨[], cs, Or.inl rfl, rfl, h⟩
    · rintro ⟨sign, digits, rfl | rfl, hcs, h⟩
      · rw [hcs]
        exact h
      · exact absurd hcs (hplus digits)

/-- The characters that are read as a number are those whose codes spell it. -/
theorem numeral?_iff_spells {cs : List Char} {n : Nat} :
    numeral? cs = some n ↔ Spells (cs.map Char.toNat) n := by
  rw [numeral?_eq_some_iff]
  constructor
  · rintro ⟨sign, digits, hsign, rfl, hne, hall, rfl⟩
    refine ⟨sign.map Char.toNat, digits.map Char.toNat, ?_, List.map_append, by simpa using hne, ?_,
      digitsValue_eq_ofDigits digits⟩
    · exact hsign.imp (congrArg (List.map Char.toNat)) (congrArg (List.map Char.toNat))
    · intro d hd
      obtain ⟨c, hc, rfl⟩ := List.mem_map.mp hd
      exact isDigitChar_iff.mp (hall c hc)
  · rintro ⟨sign, digits, hsign, hcodes, hne, hall, rfl⟩
    obtain ⟨before, behind, rfl, rfl, rfl⟩ := List.map_eq_append_iff.mp hcodes
    have hinj : Function.Injective (List.map Char.toNat) :=
      List.map_injective_iff.mpr fun _ _ => Char.toNat_inj.mp
    refine ⟨before, behind, ?_, rfl, by simpa using hne, fun c hc => ?_,
      (digitsValue_eq_ofDigits behind).symm⟩
    · exact hsign.imp (fun h => hinj h) (fun h => hinj h)
    · exact isDigitChar_iff.mpr (hall _ (List.mem_map_of_mem hc))

/-! ## Bytes -/

/-- Whatever spells a number is ASCII. -/
theorem Spells.ascii {codes : List Nat} {n : Nat} (h : Spells codes n) : ∀ d ∈ codes, d < 0x80 := by
  obtain ⟨sign, digits, hsign, rfl, -, hall, -⟩ := h
  intro d hd
  rcases List.mem_append.mp hd with hd | hd
  · rcases hsign with rfl | rfl
    · exact absurd hd List.not_mem_nil
    · rw [List.mem_singleton.mp hd]
      decide
  · have hhigh := (hall d hd).2
    omega

/-- The bytes of ASCII have the codes of the characters. -/
theorem Utf8.map_toNat_encodeChars {cs : List Char} (h : ∀ c ∈ cs, c.toNat < 0x80) :
    (encodeChars cs).map UInt8.toNat = cs.map Char.toNat := by
  induction cs with
  | nil => rfl
  | cons c rest ih =>
    rw [List.forall_mem_cons] at h
    have hcode : (UInt8.ofNat c.toNat).toNat = c.toNat := UInt8.toNat_ofNat_of_lt' (by
      exact Nat.lt_trans h.1 (by decide))
    rw [encodeChars, List.flatMap_cons, encodeChar_ascii h.1, List.map_append, List.map_singleton,
      hcode, List.map_cons]
    exact congrArg (c.toNat :: ·) (ih h.2)

/-- Bytes of ASCII are those of a text. -/
theorem Utf8.exists_encode_of_ascii {bytes : List UInt8} (h : ∀ b ∈ bytes, b.toNat < 0x80) :
    ∃ s, bytes = encode s := by
  have hcode : ∀ b ∈ bytes, (Char.ofNat b.toNat).toNat = b.toNat := fun b hb =>
    toNat_charOfNat (Or.inl (Nat.lt_trans (h b hb) (by decide)))
  refine ⟨String.ofList (bytes.map fun b => Char.ofNat b.toNat), ?_⟩
  apply List.map_injective_iff.mpr fun _ _ => UInt8.toNat_inj.mp
  rw [encode, String.toList_ofList, map_toNat_encodeChars]
  · rw [List.map_map]
    exact List.map_congr_left fun b hb => (hcode b hb).symm
  · intro c hc
    obtain ⟨b, hb, rfl⟩ := List.mem_map.mp hc
    rw [hcode b hb]
    exact h b hb

/-- **Numerals in bytes.**  A text is read as the number that its bytes spell. -/
theorem numeral?_iff_spells_encode {s : String} {n : Nat} :
    numeral? s.toList = some n ↔ Spells ((Utf8.encode s).map UInt8.toNat) n := by
  rw [numeral?_iff_spells]
  constructor
  · intro h
    have hascii : ∀ c ∈ s.toList, c.toNat < 0x80 := fun c hc => h.ascii _ (List.mem_map_of_mem hc)
    rw [Utf8.encode, Utf8.map_toNat_encodeChars hascii]
    exact h
  · intro h
    have hascii : ∀ c ∈ s.toList, c.toNat < 0x80 := by
      -- a character beyond ASCII would have a byte beyond it
      intro c hc
      by_contra hbeyond
      obtain ⟨b, bs, hbytes⟩ := List.exists_cons_of_ne_nil (Utf8.encodeChar_ne_nil c)
      have hfirst : b ∈ Utf8.encodeChar c := hbytes ▸ List.mem_cons_self
      have hmem : b ∈ Utf8.encode s := List.mem_flatMap.mpr ⟨c, hc, hfirst⟩
      have hlow : b.toNat < 0x80 := h.ascii _ (List.mem_map_of_mem hmem)
      have hhigh : 0x80 ≤ b.toNat := high_of_mem_encodeChar (Nat.le_of_not_lt hbeyond) hfirst
      omega
    rw [Utf8.encode, Utf8.map_toNat_encodeChars hascii] at h
    exact h

end PinBoard.Text
