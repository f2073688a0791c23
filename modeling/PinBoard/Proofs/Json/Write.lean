import PinBoard.Json.Writer
import PinBoard.Proofs.Json.Build

/-!
# Written trees are read back

The written form of a tree is one of its texts: the one without blanks, in which only quotes,
backslashes and controls are escaped. Reading it gives the tree back.
-/

namespace PinBoard.Json

/-! ## Trees that have a written form -/

mutual

/-- A tree without a break in it, whose numbers are integers. -/
def Tree.IsWritable : Tree → Prop
  | .null | .bool _ => True
  | .number n => ∃ i, n = Numeral.ofInt i
  | .string t => ∃ s, t = .ok s
  | .array is => is.IsWritable
  | .object ms => ms.IsWritable
  | .broken _ => False

/-- Items that end at their bracket and have written forms. -/
def Items.IsWritable : Items → Prop
  | .closed => True
  | .cons item rest => item.IsWritable ∧ rest.IsWritable
  | .ended | .foreign | .comma => False

/-- Members that end at their bracket and have written forms. -/
def Members.IsWritable : Members → Prop
  | .closed => True
  | .cons key value rest => (∃ k, key = .ok k) ∧ value.IsWritable ∧ rest.IsWritable
  | .ended | .foreign | .comma | .commaEnded | .noKey _ => False

end

mutual

theorem Tree.isWhole_of_isWritable (t : Tree) (h : t.IsWritable) : t.IsWhole := by
  cases t with
  | null | bool _ | number _ | string _ => exact trivial
  | array is => exact is.isWhole_of_isWritable h
  | object ms => exact ms.isWhole_of_isWritable h
  | broken _ =>
    rw [Tree.IsWritable] at h
    exact h.elim

theorem Items.isWhole_of_isWritable (is : Items) (h : is.IsWritable) : is.IsWhole := by
  cases is with
  | closed => exact trivial
  | cons item rest =>
    rw [Items.IsWritable] at h
    exact ⟨item.isWhole_of_isWritable h.1, rest.isWhole_of_isWritable h.2⟩
  | ended | foreign | comma =>
    rw [Items.IsWritable] at h
    exact h.elim

theorem Members.isWhole_of_isWritable (ms : Members) (h : ms.IsWritable) : ms.IsWhole := by
  cases ms with
  | closed => exact trivial
  | cons key value rest =>
    rw [Members.IsWritable] at h
    exact ⟨value.isWhole_of_isWritable h.2.1, rest.isWhole_of_isWritable h.2.2⟩
  | ended | foreign | comma | commaEnded | noKey _ =>
    rw [Members.IsWritable] at h
    exact h.elim

end

/-! ## Strings -/

/-- The digit of a number below sixteen. -/
theorem hexValue?_digitChar {n : Nat} (h : n < 16) : hexValue? (Nat.digitChar n) = some n := by
  have hall : ∀ n < 16, hexValue? (Nat.digitChar n) = some n := by decide
  exact hall n h

/-- A hexadecimal digit by its value. -/
def HexDigit.ofNat (n : Nat) (h : n < 16) : HexDigit :=
  ⟨Nat.digitChar n, n, hexValue?_digitChar h⟩

/-- A code unit that is half of no pair is the character of its number. -/
theorem joinUnits_of_not_surrogate {n : Nat} (hlow : ¬ IsLowSurrogate n)
    (hhigh : ¬ IsHighSurrogate n) (rest : List (Char ⊕ Nat)) :
    joinUnits (.inr n :: rest) = (joinUnits rest).map (Char.ofNat n :: ·) := by
  -- only the first half of a pair looks at what follows, but every equation splits it
  rcases rest with _ | ⟨_ | _, _⟩ <;> rw [joinUnits.eq_def] <;> simp only [if_neg hlow, if_neg hhigh]

/-- The written form of a character is a piece that stands for it. -/
theorem exists_piece (c : Char) :
    ∃ p : Piece, p.chars = escapeChar c ∧
      ∀ rest, joinUnits (p.meaning :: rest) = (joinUnits rest).map (c :: ·) := by
  by_cases hletter : c ∈ ['"', '\\', '\x08', '\t', '\n', '\x0c', '\r']
  · simp only [List.mem_cons, List.not_mem_nil, or_false] at hletter
    rcases hletter with rfl | rfl | rfl | rfl | rfl | rfl | rfl
    · exact ⟨.letter '"' '"' rfl, rfl, fun _ => rfl⟩
    · exact ⟨.letter '\\' '\\' rfl, rfl, fun _ => rfl⟩
    · exact ⟨.letter 'b' '\x08' rfl, rfl, fun _ => rfl⟩
    · exact ⟨.letter 't' '\t' rfl, rfl, fun _ => rfl⟩
    · exact ⟨.letter 'n' '\n' rfl, rfl, fun _ => rfl⟩
    · exact ⟨.letter 'f' '\x0c' rfl, rfl, fun _ => rfl⟩
    · exact ⟨.letter 'r' '\r' rfl, rfl, fun _ => rfl⟩
  · simp only [List.mem_cons, List.not_mem_nil, or_false, not_or] at hletter
    obtain ⟨hquote, hbackslash, hback, htab, hnewline, hfeed, hreturn⟩ := hletter
    rw [escapeChar, if_neg hquote, if_neg hbackslash, if_neg hback, if_neg htab, if_neg hnewline,
      if_neg hfeed, if_neg hreturn]
    by_cases hcontrol : c.toNat < 0x20
    · rw [if_pos hcontrol]
      refine ⟨.unit (.ofNat 0 (by omega)) (.ofNat 0 (by omega))
        (.ofNat (c.toNat / 16) (by omega)) (.ofNat (c.toNat % 16) (by omega)), rfl, fun rest => ?_⟩
      have hunit : ((0 * 16 + 0) * 16 + c.toNat / 16) * 16 + c.toNat % 16 = c.toNat := by omega
      have hlow : ¬ IsLowSurrogate c.toNat := by
        unfold IsLowSurrogate
        omega
      have hhigh : ¬ IsHighSurrogate c.toNat := by
        unfold IsHighSurrogate
        omega
      show joinUnits (.inr (((0 * 16 + 0) * 16 + c.toNat / 16) * 16 + c.toNat % 16) :: rest) = _
      rw [hunit, joinUnits_of_not_surrogate hlow hhigh, Char.ofNat_toNat]
    · rw [if_neg hcontrol]
      exact ⟨.plain c ⟨hquote, hbackslash, by omega⟩, rfl, fun _ => rfl⟩

/-- Written characters are pieces that spell them. -/
theorem exists_pieces (cs : List Char) :
    ∃ pieces : List Piece, pieces.flatMap Piece.chars = cs.flatMap escapeChar ∧
      joinUnits (pieces.map Piece.meaning) = .ok cs := by
  induction cs with
  | nil => exact ⟨[], rfl, rfl⟩
  | cons c cs ih =>
    obtain ⟨p, hchars, hmeaning⟩ := exists_piece c
    obtain ⟨pieces, hpieces, hjoined⟩ := ih
    refine ⟨p :: pieces, ?_, ?_⟩
    · rw [List.flatMap_cons, List.flatMap_cons, hchars, hpieces]
    · rw [List.map_cons, hmeaning, hjoined]
      rfl

/-- A written string is a text of it. -/
theorem isText_writeString (s : String) : Token.IsText (.string (.ok s)) (writeString s) := by
  obtain ⟨pieces, hchars, hjoined⟩ := exists_pieces s.toList
  have htext : textOf pieces = .ok s := by
    rw [textOf, hjoined]
    show Except.ok (String.ofList s.toList) = _
    rw [String.ofList_toList]
  have hstring := Token.IsText.string pieces
  rw [htext, hchars] at hstring
  exact hstring

/-! ## Numbers -/

/-- The digit of a number below ten: it is a zero for zero only. -/
theorem isDigit_digitChar {n : Nat} (h : n < 10) :
    isDigit (Nat.digitChar n) = true ∧ (Nat.digitChar n = '0' → n = 0) := by
  have hall : ∀ n < 10, isDigit (Nat.digitChar n) = true ∧ (Nat.digitChar n = '0' → n = 0) := by
    decide
  exact hall n h

/-- The digits of an integer: the first one is a zero only if it stands alone. -/
theorem exists_toDigits (n : Nat) :
    ∃ d ds, Nat.toDigits 10 n = d :: ds ∧ (∀ c ∈ d :: ds, isDigit c = true) ∧
      (d = '0' → ds = [] ∧ n = 0) := by
  induction n using Nat.strongRecOn with
  | _ n ih =>
    by_cases hsmall : n < 10
    · obtain ⟨hdigit, hzero⟩ := isDigit_digitChar hsmall
      refine ⟨Nat.digitChar n, [], Nat.toDigits_of_lt_base hsmall, ?_, fun h => ⟨rfl, hzero h⟩⟩
      simpa using hdigit
    · obtain ⟨d, ds, hsplit, hdigits, hzero⟩ := ih (n / 10) (by omega)
      have hlast : isDigit (Nat.digitChar (n % 10)) = true := (isDigit_digitChar (by omega)).1
      refine ⟨d, ds ++ [Nat.digitChar (n % 10)], ?_, ?_, ?_⟩
      · rw [Nat.toDigits_of_base_le (by omega) (by omega), hsplit, List.cons_append]
      · intro c hc
        rw [← List.cons_append, List.mem_append, List.mem_singleton] at hc
        rcases hc with hc | rfl
        · exact hdigits c hc
        · exact hlast
      -- the first digit is that of a smaller number, which is not zero
      · intro hd
        have hfirst : n / 10 = 0 := (hzero hd).2
        omega

/-- A written integer is a text of it. -/
theorem isText_ofInt (i : Int) : (Numeral.ofInt i).IsText (Numeral.ofInt i).write := by
  obtain ⟨d, ds, hsplit, hdigits, hzero⟩ := exists_toDigits i.natAbs
  have hwhole : (Numeral.ofInt i).whole = d :: ds := hsplit
  refine ⟨⟨⟨?_, ?_⟩, ?_, ?_⟩, [], .none, ?_⟩
  · rw [hwhole]
    exact ⟨List.cons_ne_nil d ds, hdigits⟩
  · rw [hwhole]
    intro hfirst
    obtain rfl : d = '0' := Option.some.inj hfirst
    rw [(hzero rfl).1]
  · rintro digits ⟨⟩
  · rintro e ⟨⟩
  · rfl

/-! ## Trees -/

theorem Items.write_cons_cons (item next : Tree) (more : Items) :
    (Items.cons item (.cons next more)).write =
      item.write ++ ',' :: (Items.cons next more).write := rfl

theorem Members.write_cons_cons (k : String) (key : Text) (value next : Tree) (more : Members) :
    (Members.cons (.ok k) value (.cons key next more)).write =
      writeString k ++ ':' :: value.write ++ ',' :: (Members.cons key next more).write := rfl

/-- No tokens, and no blanks either. -/
theorem isRow_nil : IsRow [] [] := .nil fun _ hc => absurd hc List.not_mem_nil

/-- A token without blanks in front of it. -/
theorem isRow_cons {token : Token} {lexeme rest : List Char} {tokens : List Token}
    (htoken : token.IsText lexeme) (hrest : IsRow tokens rest) :
    IsRow (token :: tokens) (lexeme ++ rest) := by
  have hnone : ∀ c ∈ ([] : List Char), isSpace c = true := fun c hc => absurd hc List.not_mem_nil
  exact .cons hnone htoken hrest

mutual

/-- A written tree spells its tokens. -/
theorem Tree.isRow_write (t : Tree) (h : t.IsWritable) {tokens : List Token} {rest : List Char}
    (hrest : IsRow tokens rest) : IsRow (t.tokens ++ tokens) (t.write ++ rest) := by
  cases t with
  | null =>
    rw [Tree.tokens, Tree.write]
    exact isRow_cons .null hrest
  | bool b =>
    cases b
    · exact isRow_cons .no hrest
    · exact isRow_cons .yes hrest
  | number n =>
    rw [Tree.IsWritable] at h
    obtain ⟨i, rfl⟩ := h
    exact isRow_cons (.number (isText_ofInt i)) hrest
  | string text =>
    rw [Tree.IsWritable] at h
    obtain ⟨s, rfl⟩ := h
    exact isRow_cons (isText_writeString s) hrest
  | array is =>
    rw [Tree.IsWritable] at h
    have hitems := is.isRow_write h (isRow_cons .closeList hrest)
    rw [Tree.tokens, Tree.write]
    simp only [List.cons_append, List.append_assoc]
    exact isRow_cons .openList hitems
  | object ms =>
    rw [Tree.IsWritable] at h
    have hmembers := ms.isRow_write h (isRow_cons .closeObject hrest)
    rw [Tree.tokens, Tree.write]
    simp only [List.cons_append, List.append_assoc]
    exact isRow_cons .openObject hmembers
  | broken _ =>
    rw [Tree.IsWritable] at h
    exact h.elim

theorem Items.isRow_write (is : Items) (h : is.IsWritable) {tokens : List Token}
    {rest : List Char} (hrest : IsRow tokens rest) :
    IsRow (is.tokens ++ tokens) (is.write ++ rest) := by
  cases is with
  | closed => exact hrest
  | ended | foreign | comma =>
    rw [Items.IsWritable] at h
    exact h.elim
  | cons item more =>
    rw [Items.IsWritable] at h
    have hmore := more.isRow_write h.2 hrest
    -- only an item with another one behind it is followed by a comma
    cases more with
    | closed => exact item.isRow_write h.1 hrest
    | ended | foreign | comma =>
      rw [Items.IsWritable] at h
      exact h.2.elim
    | cons next more =>
      rw [Items.write_cons_cons, Items.tokens_cons_cons]
      simp only [List.cons_append, List.append_assoc]
      exact item.isRow_write h.1 (isRow_cons .comma hmore)

theorem Members.isRow_write (ms : Members) (h : ms.IsWritable) {tokens : List Token}
    {rest : List Char} (hrest : IsRow tokens rest) :
    IsRow (ms.tokens ++ tokens) (ms.write ++ rest) := by
  cases ms with
  | closed => exact hrest
  | ended | foreign | comma | commaEnded | noKey _ =>
    rw [Members.IsWritable] at h
    exact h.elim
  | cons key value more =>
    rw [Members.IsWritable] at h
    obtain ⟨⟨k, rfl⟩, hvalue, hmore⟩ := h
    have htail := more.isRow_write hmore hrest
    cases more with
    | closed =>
      rw [Members.write, Members.tokens]
      simp only [List.cons_append, List.append_assoc]
      exact isRow_cons (isText_writeString k) (isRow_cons .colon (value.isRow_write hvalue hrest))
    | ended | foreign | comma | commaEnded | noKey _ =>
      rw [Members.IsWritable] at hmore
      exact hmore.elim
    | cons key next more =>
      rw [Members.write_cons_cons, Members.tokens_cons_cons]
      simp only [List.cons_append, List.append_assoc]
      exact isRow_cons (isText_writeString k)
        (isRow_cons .colon (value.isRow_write hvalue (isRow_cons .comma htail)))

end

/-- **The written form of a tree is one of its texts.** -/
theorem Tree.isText_write {t : Tree} (h : t.IsWritable) : t.IsText t.write := by
  have hrow := t.isRow_write h isRow_nil
  rw [List.append_nil, List.append_nil] at hrow
  exact ⟨t.isWhole_of_isWritable h, hrow⟩

/-! ## Round trip -/

section RoundTrip

variable {α : Type} (d : Decoder α) {t : Tree}

/-- What is read of a written tree is what is read of the tree. -/
theorem ofString_toText (h : t.IsWritable) : ofString d t.toText = d t := by
  refine ofString_text d ?_
  rw [Tree.toText, String.toList_ofList]
  exact Tree.isText_write h

/-- So it is with the bytes of a written tree. -/
theorem ofBytes_write (h : t.IsWritable) : ofBytes d (Text.Utf8.encodeChars t.write) = d t :=
  ofBytes_text d (Tree.isText_write h)

end RoundTrip

end PinBoard.Json
