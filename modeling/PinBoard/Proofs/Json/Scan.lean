import PinBoard.Proofs.Json.Grammar
import PinBoard.Proofs.Text.Utf8

/-!
# Scanning the grammar

A row of tokens is found again in each of its spellings. Strings are followed piece by piece and
numbers digit by digit; a number ends only where something follows that cannot be part of one, so
no token that begins a value may stand behind it.
-/

namespace PinBoard.Json

/-! ## Blanks and words -/

/-- Blanks are passed over. -/
theorem tokensFrom_blanks {blanks : List Char} (h : ∀ c ∈ blanks, isSpace c = true)
    (rest : Source) :
    tokensFrom .nothing (blanks.map some ++ rest) = tokensFrom .nothing rest := by
  induction blanks with
  | nil => rfl
  | cons c blanks ih =>
    have hspace : isSpace c = true := h c List.mem_cons_self
    have hstep : outsideStep (some c) = ([], some .nothing) := by
      show openingStep c = _
      rw [openingStep, if_pos hspace]
    rw [List.map_cons, List.cons_append, tokensFrom, walkStep, hstep]
    exact ih fun c hc => h c (List.mem_cons_of_mem _ hc)

/-! ## Strings -/

/-- Where a piece of a string ends, so that another one or the closing quote may follow. -/
def Quote.BetweenPieces (q : Quote) : Prop :=
  q.escape = .outside ∨ ∃ high, q.escape = .high high

/-- A string without the first half of a pair that waits for the second one in vain. -/
def Quote.unpaired (q : Quote) : Quote :=
  match q.escape with
  | .high _ => q.spoil .unfinishedSurrogate .outside
  | _ => q

/-- A string with one more piece. -/
def Quote.put (q : Quote) : Char ⊕ Nat → Quote
  | .inl c => q.unpaired.take (some c)
  | .inr n =>
    match q.escape with
    | .high high => q.endLow high n
    | _ => q.endHex n

theorem Quote.betweenPieces_put (q : Quote) (m : Char ⊕ Nat) : (q.put m).BetweenPieces := by
  cases m with
  | inl c => exact Or.inl rfl
  | inr n =>
    have hhex : (q.endHex n).BetweenPieces := by
      rw [Quote.endHex]
      split
      · exact Or.inl rfl
      · split
        · exact Or.inr ⟨n, rfl⟩
        · exact Or.inl rfl
    have hlow : ∀ high, (q.endLow high n).BetweenPieces := by
      intro high
      rw [Quote.endLow]
      split <;> exact Or.inl rfl
    rw [Quote.put]
    split
    · exact hlow _
    · exact hhex

/-- A symbol with which a string goes on. -/
theorem tokensFrom_quote_on {q next : Quote} {c : Option Char} {rest : Source}
    (h : q.step c rest = .on next) :
    tokensFrom (.quote q) (c :: rest) = tokensFrom (.quote next) rest := by
  rw [tokensFrom, walkStep, h]
  rfl

/-- Between pieces a character that is no backslash is met as it is outside of every escape. -/
theorem Quote.step_of_ne {q : Quote} (hq : q.BetweenPieces) {c : Option Char}
    (hc : c ≠ some '\\') (rest : Source) : q.step c rest = q.unpaired.plain c := by
  obtain ⟨taken, spoilt, escape⟩ := q
  rcases hq with rfl | ⟨high, rfl⟩
  · rfl
  · show (if c = some '\\' then _ else _) = _
    rw [if_neg hc]
    rfl

/-- A character that stands for itself. -/
theorem tokensFrom_plain {q : Quote} (hq : q.BetweenPieces) {c : Char}
    (hfree : c ≠ '"' ∧ c ≠ '\\' ∧ 0x20 ≤ c.toNat) (rest : Source) :
    tokensFrom (.quote q) (some c :: rest) = tokensFrom (.quote (q.put (.inl c))) rest := by
  obtain ⟨hquote, hbackslash, hprintable⟩ := hfree
  have hne : some c ≠ some '\\' := fun heq => hbackslash (Option.some.inj heq)
  refine tokensFrom_quote_on ?_
  rw [Quote.step_of_ne hq hne, Quote.plain]
  · rw [if_neg (by omega)]
    rfl
  · exact hquote
  · exact hbackslash

/-- A letter behind a backslash. -/
theorem tokensFrom_letter {q : Quote} (hq : q.BetweenPieces) {letter c : Char}
    (hknown : escaped? letter = some c) (rest : Source) :
    tokensFrom (.quote q) (some '\\' :: some letter :: rest) =
      tokensFrom (.quote (q.put (.inl c))) rest := by
  have hletter : letter ≠ 'u' := by
    rintro rfl
    have hnone : escaped? 'u' = none := rfl
    rw [hnone] at hknown
    exact absurd hknown (by simp)
  have hbehind : ∀ q : Quote, q.behindBackslash (some letter) = .on (q.take (some c)) := by
    intro q
    rw [Quote.behindBackslash]
    · rw [hknown]
    · exact hletter
  obtain ⟨taken, spoilt, escape⟩ := q
  rcases hq with rfl | ⟨high, rfl⟩
  · have hbegun : Quote.step ⟨taken, spoilt, .outside⟩ (some '\\') (some letter :: rest) =
        .on ⟨taken, spoilt, .begun⟩ := rfl
    rw [tokensFrom_quote_on hbegun]
    exact tokensFrom_quote_on (hbehind _)
  · have hbegun : Quote.step ⟨taken, spoilt, .high high⟩ (some '\\') (some letter :: rest) =
        .on ⟨taken, spoilt, .highBegun high⟩ := rfl
    rw [tokensFrom_quote_on hbegun]
    refine tokensFrom_quote_on ?_
    show (if some letter = some 'u' then _ else _) = _
    rw [if_neg (fun heq => hletter (Option.some.inj heq))]
    exact hbehind _

/-- Four digits end the group that they fill. -/
theorem tokensFrom_digits_of_group (group : Nat → Nat → Quote) (done : Nat → Quote)
    (hgroup : ∀ missing value c rest, (group missing value).step c rest =
      (group missing value).digit missing value (c :: rest) group done) (a b c d : HexDigit)
    (rest : Source) :
    tokensFrom (.quote (group 4 0))
        (some a.char :: some b.char :: some c.char :: some d.char :: rest) =
      tokensFrom
        (.quote (done (((a.value * 16 + b.value) * 16 + c.value) * 16 + d.value))) rest := by
  have hmore : ∀ (missing value : Nat) (d : HexDigit) (rest : Source), 1 < missing →
      tokensFrom (.quote (group missing value)) (some d.char :: rest) =
        tokensFrom (.quote (group (missing - 1) (value * 16 + d.value))) rest := by
    intro missing value d rest hmissing
    refine tokensFrom_quote_on ?_
    rw [hgroup]
    simp only [Quote.digit, d.valued]
    rw [if_neg (by omega)]
  have hlast : ∀ (value : Nat) (d : HexDigit) (rest : Source),
      tokensFrom (.quote (group 1 value)) (some d.char :: rest) =
        tokensFrom (.quote (done (value * 16 + d.value))) rest := by
    intro value d rest
    refine tokensFrom_quote_on ?_
    rw [hgroup]
    simp only [Quote.digit, d.valued]
    rw [if_pos (by omega)]
  rw [hmore 4 0 a _ (by omega), hmore 3 _ b _ (by omega), hmore 2 _ c _ (by omega), hlast,
    Nat.zero_mul, Nat.zero_add]

/-- A code unit. -/
theorem tokensFrom_unit {q : Quote} (hq : q.BetweenPieces) (a b c d : HexDigit) (rest : Source) :
    tokensFrom (.quote q) (some '\\' :: some 'u' :: some a.char :: some b.char :: some c.char ::
        some d.char :: rest) =
      tokensFrom (.quote (q.put (Piece.unit a b c d).meaning)) rest := by
  obtain ⟨taken, spoilt, escape⟩ := q
  rcases hq with rfl | ⟨high, rfl⟩
  · have hbegun : ∀ rest, Quote.step ⟨taken, spoilt, .outside⟩ (some '\\') rest =
        .on ⟨taken, spoilt, .begun⟩ := fun _ => rfl
    have hopen : ∀ rest, Quote.step ⟨taken, spoilt, .begun⟩ (some 'u') rest =
        .on ⟨taken, spoilt, .hex 4 0⟩ := fun _ => rfl
    rw [tokensFrom_quote_on (hbegun _), tokensFrom_quote_on (hopen _)]
    exact tokensFrom_digits_of_group (fun missing value => ⟨taken, spoilt, .hex missing value⟩)
      (Quote.endHex ⟨taken, spoilt, .outside⟩) (fun _ _ _ _ => rfl) a b c d rest
  · have hbegun : ∀ rest, Quote.step ⟨taken, spoilt, .high high⟩ (some '\\') rest =
        .on ⟨taken, spoilt, .highBegun high⟩ := fun _ => rfl
    have hopen : ∀ rest, Quote.step ⟨taken, spoilt, .highBegun high⟩ (some 'u') rest =
        .on ⟨taken, spoilt, .low high 4 0⟩ := fun _ => rfl
    rw [tokensFrom_quote_on (hbegun _), tokensFrom_quote_on (hopen _)]
    exact tokensFrom_digits_of_group
      (fun missing value => ⟨taken, spoilt, .low high missing value⟩)
      (Quote.endLow ⟨taken, spoilt, .high high⟩ high) (fun _ _ _ _ => rfl) a b c d rest

/-- A piece is put into the string that it stands in. -/
theorem tokensFrom_piece {q : Quote} (hq : q.BetweenPieces) (p : Piece) (rest : Source) :
    tokensFrom (.quote q) (p.chars.map some ++ rest) =
      tokensFrom (.quote (q.put p.meaning)) rest := by
  cases p with
  | plain c hfree => exact tokensFrom_plain hq hfree rest
  | letter l c hknown => exact tokensFrom_letter hq hknown rest
  | unit a b c d => exact tokensFrom_unit hq a b c d rest

/-- The closing quote ends the string with the pieces that were put into it. -/
theorem tokensFrom_pieces {q : Quote} (hq : q.BetweenPieces) (pieces : List Piece)
    (rest : Source) :
    tokensFrom (.quote q) ((pieces.flatMap Piece.chars).map some ++ some '"' :: rest) =
      .string ((pieces.map Piece.meaning).foldl Quote.put q).unpaired.text ::
        tokensFrom .nothing rest := by
  induction pieces generalizing q with
  | nil =>
    have hend : q.step (some '"') rest = .ends q.unpaired.text := by
      rw [Quote.step_of_ne hq (by decide)]
      rfl
    rw [List.flatMap_nil, List.map_nil, List.nil_append, tokensFrom, walkStep, hend]
    rfl
  | cons p pieces ih =>
    rw [List.flatMap_cons, List.map_append, List.append_assoc, tokensFrom_piece hq, List.map_cons,
      List.foldl_cons]
    exact ih (q.betweenPieces_put _)

/-! ## What a string holds -/

/-- A string that is spoilt stays so, for the first reason. -/
theorem Quote.text_of_spoilt {q : Quote} {e : Error} (h : q.spoilt = some e)
    (ms : List (Char ⊕ Nat)) : (ms.foldl Quote.put q).unpaired.text = .error e := by
  have hunpaired : ∀ {q : Quote}, q.spoilt = some e → q.unpaired.spoilt = some e := by
    intro q h
    rw [Quote.unpaired]
    split
    · rw [Quote.spoil, h]
      rfl
    · exact h
  induction ms generalizing q with
  | nil =>
    rw [List.foldl_nil, Quote.text, hunpaired h]
  | cons m ms ih =>
    rw [List.foldl_cons]
    refine ih ?_
    cases m with
    | inl c => exact hunpaired h
    | inr n =>
      have hspoil : ∀ e' escape, (q.spoil e' escape).spoilt = some e := by
        intro e' escape
        rw [Quote.spoil, h]
        rfl
      rw [Quote.put]
      split
      · rw [Quote.endLow]
        split
        · exact h
        · exact hspoil _ _
      · rw [Quote.endHex]
        split
        · exact hspoil _ _
        · split <;> exact h

/-- A string of which some characters were taken and nothing is wrong. -/
def Quote.holding (cs : List Char) : Quote := ⟨(cs.map some).reverse, none, .outside⟩

theorem Quote.take_holding (cs : List Char) (c : Char) :
    (Quote.holding cs).take (some c) = Quote.holding (cs ++ [c]) := by
  simp [Quote.holding, Quote.take]

/-- The text of such a string. -/
theorem Quote.text_holding (cs : List Char) :
    (Quote.holding cs).text = .ok (String.ofList cs) := by
  simp only [Quote.text, Quote.holding, List.reverse_reverse, Text.Utf8.mapM_id_map_some]

section Surrogates

variable (q : Quote) {high n : Nat}

theorem Quote.endHex_of_low (h : IsLowSurrogate n) :
    q.endHex n = q.spoil .loneSurrogate .outside := by
  rw [Quote.endHex, if_pos (by simpa [IsLowSurrogate] using h)]

theorem Quote.endHex_of_high (h : IsHighSurrogate n) :
    q.endHex n = { q with escape := .high n } := by
  have hnotlow : ¬ IsLowSurrogate n := by
    unfold IsHighSurrogate at h
    unfold IsLowSurrogate
    omega
  rw [Quote.endHex, if_neg (by simpa [IsLowSurrogate] using hnotlow),
    if_pos (by simpa [IsHighSurrogate] using h)]

theorem Quote.endHex_of_char (hlow : ¬ IsLowSurrogate n) (hhigh : ¬ IsHighSurrogate n) :
    q.endHex n = q.take (some (Char.ofNat n)) := by
  rw [Quote.endHex, if_neg (by simpa [IsLowSurrogate] using hlow),
    if_neg (by simpa [IsHighSurrogate] using hhigh)]

theorem Quote.endLow_of_low (h : IsLowSurrogate n) :
    q.endLow high n =
      q.take (some (Char.ofNat (0x10000 + (high - 0xD800) * 0x400 + (n - 0xDC00)))) := by
  rw [Quote.endLow, if_pos (by simpa [IsLowSurrogate] using h)]

theorem Quote.endLow_of_not_low (h : ¬ IsLowSurrogate n) :
    q.endLow high n = q.spoil .loneSurrogate .outside := by
  rw [Quote.endLow, if_neg (by simpa [IsLowSurrogate] using h)]

end Surrogates

/-- **What pieces spell** is what a string holds that they were put into, behind the characters
that it held before. -/
theorem Quote.text_of_joinUnits (ms : List (Char ⊕ Nat)) (done : List Char) :
    (ms.foldl Quote.put (.holding done)).unpaired.text =
      (joinUnits ms).map fun cs => String.ofList (done ++ cs) := by
  have hmore : ∀ (done : List Char) (c : Char) (rest : Except Error (List Char)),
      rest.map (fun cs => String.ofList (done ++ [c] ++ cs)) =
        (rest.map (c :: ·)).map fun cs => String.ofList (done ++ cs) := by
    intro done c rest
    rcases rest with e | cs <;> simp [Except.map]
  -- the first half of a pair waits for the second one
  have hwait : ∀ done n, IsHighSurrogate n →
      (Quote.holding done).put (.inr n) = { Quote.holding done with escape := .high n } :=
    fun done n h => Quote.endHex_of_high _ h
  fun_induction joinUnits ms generalizing done with
  | case1 =>
    rw [List.foldl_nil]
    exact (Quote.text_holding done).trans (by simp [Except.map])
  | case2 c rest ih =>
    have hput : (Quote.holding done).put (.inl c) = .holding (done ++ [c]) :=
      Quote.take_holding done c
    rw [List.foldl_cons, hput, ih, hmore]
  | case3 n rest hlow =>
    have hput : (Quote.holding done).put (.inr n) =
        (Quote.holding done).spoil .loneSurrogate .outside := Quote.endHex_of_low _ hlow
    rw [List.foldl_cons, hput]
    exact Quote.text_of_spoilt rfl rest
  | case4 n hnotlow hhigh m rest hlow ih =>
    have hput : Quote.put { Quote.holding done with escape := .high n } (.inr m) =
        .holding (done ++ [Char.ofNat (0x10000 + (n - 0xD800) * 0x400 + (m - 0xDC00))]) :=
      (Quote.endLow_of_low _ hlow).trans (Quote.take_holding done _)
    rw [List.foldl_cons, List.foldl_cons, hwait done n hhigh, hput, ih, hmore]
  | case5 n hnotlow hhigh m rest hlow =>
    rw [List.foldl_cons, List.foldl_cons, hwait done n hhigh]
    show (rest.foldl Quote.put (Quote.endLow _ n m)).unpaired.text = _
    rw [Quote.endLow_of_not_low _ hlow]
    exact Quote.text_of_spoilt rfl rest
  | case6 n rest hnotlow hhigh hother =>
    rw [List.foldl_cons, hwait done n hhigh]
    rcases rest with _ | ⟨c | m, rest⟩
    · rfl
    · rw [List.foldl_cons]
      exact Quote.text_of_spoilt rfl rest
    · exact absurd rfl (hother m rest)
  | case7 n rest hnotlow hnothigh ih =>
    have hput : (Quote.holding done).put (.inr n) = .holding (done ++ [Char.ofNat n]) :=
      (Quote.endHex_of_char _ hnotlow hnothigh).trans (Quote.take_holding done _)
    rw [List.foldl_cons, hput, ih, hmore]

/-- A string is one token, in each of its spellings. -/
theorem tokensFrom_string (pieces : List Piece) (rest : Source) :
    tokensFrom .nothing (('"' :: pieces.flatMap Piece.chars ++ ['"']).map some ++ rest) =
      .string (textOf pieces) :: tokensFrom .nothing rest := by
  have hstart : ∀ rest : Source, tokensFrom .nothing (some '"' :: rest) =
      tokensFrom (.quote (.holding [])) rest := fun _ => rfl
  have hspelled : ('"' :: pieces.flatMap Piece.chars ++ ['"']).map some ++ rest =
      some '"' :: ((pieces.flatMap Piece.chars).map some ++ some '"' :: rest) := by
    simp
  have htext := Quote.text_of_joinUnits (pieces.map Piece.meaning) []
  rw [hspelled, hstart, tokensFrom_pieces (Or.inl rfl), htext, textOf]
  rfl

/-! ## Numbers -/

/-- What may stand behind a number: nothing that could be part of it. -/
def EndsNumber : Source → Prop
  | some c :: _ => isDigit c = false ∧ c ≠ '.' ∧ c ≠ 'e' ∧ c ≠ 'E'
  | _ => True

/-- A number that is complete if nothing more of it follows. -/
def Count.MayEnd (n : Count) : Prop :=
  n.place = .zero ∨ n.place = .whole ∨ n.place = .fraction ∨ n.place = .exponent

/-- A number ends where no part of a number follows. -/
theorem tokensFrom_number_end {n : Count} (hplace : n.MayEnd) {rest : Source}
    (hrest : EndsNumber rest) :
    tokensFrom (.number n) rest = .number n.numeral :: tokensFrom .nothing rest := by
  obtain ⟨place, negative, whole, fraction, exponentNegative, exponent⟩ := n
  have hbehind : ∀ (n : Count) (c : Char), c ≠ '.' → c ≠ 'e' → c ≠ 'E' →
      n.behindDigits c = .complete := by
    intro n c hpoint hsmall hlarge
    rw [Count.behindDigits, if_neg (by simp [hpoint]), if_neg (by simp [hsmall, hlarge])]
  cases rest with
  | nil => rcases hplace with rfl | rfl | rfl | rfl <;> rfl
  | cons c tail =>
    have hcomplete : Count.step ⟨place, negative, whole, fraction, exponentNegative, exponent⟩ c =
        .complete := by
      cases c with
      | none => rcases hplace with rfl | rfl | rfl | rfl <;> rfl
      | some c =>
        obtain ⟨hdigit, hpoint, hsmall, hlarge⟩ := hrest
        rcases hplace with rfl | rfl | rfl | rfl <;>
          simp only [Count.step, Count.charStep, hdigit, Bool.false_eq_true, if_false,
            hbehind _ c hpoint hsmall hlarge]
    -- the symbol that ends the number is looked at again from outside
    rw [tokensFrom, walkStep, hcomplete]
    show (match (.number _ :: (outsideStep c).1, (outsideStep c).2) with
      | (out, some next) => out ++ tokensFrom next tail
      | (out, none) => out) = _ :: tokensFrom .nothing (c :: tail)
    rw [tokensFrom, walkStep]
    rcases outsideStep c with ⟨out, next | next⟩ <;> rfl

/-- A symbol with which a number goes on. -/
theorem tokensFrom_number_on {n next : Count} {c : Char} (h : n.charStep c = .on next)
    (rest : Source) :
    tokensFrom (.number n) (some c :: rest) = tokensFrom (.number next) rest := by
  have hstep : n.step (some c) = .on next := h
  rw [tokensFrom, walkStep, hstep]
  rfl

/-- Digits are put into the part of a number that they stand in, latest first. -/
theorem tokensFrom_digits {put : List Char → Count}
    (hput : ∀ done d, isDigit d = true → (put done).charStep d = .on (put (d :: done)))
    {digits : List Char} (hdigits : ∀ c ∈ digits, isDigit c = true) (done : List Char)
    (rest : Source) :
    tokensFrom (.number (put done)) (digits.map some ++ rest) =
      tokensFrom (.number (put (digits.reverse ++ done))) rest := by
  induction digits generalizing done with
  | nil => rfl
  | cons d digits ih =>
    have hd : isDigit d = true := hdigits d List.mem_cons_self
    rw [List.map_cons, List.cons_append, tokensFrom_number_on (hput done d hd),
      ih fun c hc => hdigits c (List.mem_cons_of_mem d hc)]
    simp

/-- Digits of which the first one may stand elsewhere than those behind it. -/
theorem tokensFrom_areDigits {start : Count} {put : List Char → Count}
    (hfirst : ∀ d, isDigit d = true → start.charStep d = .on (put [d]))
    (hput : ∀ done d, isDigit d = true → (put done).charStep d = .on (put (d :: done)))
    {digits : List Char} (hdigits : AreDigits digits) (rest : Source) :
    tokensFrom (.number start) (digits.map some ++ rest) =
      tokensFrom (.number (put digits.reverse)) rest := by
  obtain ⟨hne, hall⟩ := hdigits
  obtain ⟨d, digits, rfl⟩ := List.exists_cons_of_ne_nil hne
  have hd : isDigit d = true := hall d List.mem_cons_self
  rw [List.map_cons, List.cons_append, tokensFrom_number_on (hfirst d hd),
    tokensFrom_digits hput fun c hc => hall c (List.mem_cons_of_mem d hc), List.reverse_cons]

/-- The digits of a number. -/
theorem mem_of_isDigit {d : Char} (h : isDigit d = true) :
    d ∈ ['0', '1', '2', '3', '4', '5', '6', '7', '8', '9'] := by
  have hall : ∀ n < 58, 48 ≤ n →
      Char.ofNat n ∈ ['0', '1', '2', '3', '4', '5', '6', '7', '8', '9'] := by decide
  rw [isDigit, Bool.and_eq_true, decide_eq_true_iff, decide_eq_true_iff] at h
  have hlow : 48 ≤ d.toNat := h.1
  have hhigh : d.toNat ≤ 57 := h.2
  have hmem := hall d.toNat (by omega) hlow
  rwa [Char.ofNat_toNat] at hmem

/-- A number of which only the part in front of the point is there. -/
def Count.ofWhole (place : NumberPlace) (negative : Bool) (latestFirst : List Char) : Count :=
  ⟨place, negative, latestFirst, [], false, []⟩

/-- One more digit in front of the point. -/
theorem Count.charStep_ofWhole (negative : Bool) (done : List Char) (d : Char)
    (hd : isDigit d = true) :
    (Count.ofWhole .whole negative done).charStep d =
      .on (.ofWhole .whole negative (d :: done)) := by
  show (if isDigit d = true then _ else _) = _
  rw [if_pos hd]
  rfl

/-- The sign and the first digit of a number. -/
theorem tokensFrom_first_digit (negative : Bool) {d : Char} (hd : isDigit d = true)
    (rest : Source) :
    tokensFrom .nothing ((signChars negative).map some ++ some d :: rest) =
      tokensFrom (.number (.ofWhole (if d = '0' then .zero else .whole) negative [d])) rest := by
  cases negative with
  | false =>
    have hopening : openingStep d =
        ([], some (.number (.ofWhole (if d = '0' then .zero else .whole) false [d]))) := by
      have hmem := mem_of_isDigit hd
      simp only [List.mem_cons, List.not_mem_nil, or_false] at hmem
      rcases hmem with rfl | rfl | rfl | rfl | rfl | rfl | rfl | rfl | rfl | rfl <;> rfl
    show tokensFrom .nothing (some d :: rest) = _
    rw [tokensFrom, walkStep, outsideStep, hopening]
    rfl
  | true =>
    have hsign : tokensFrom .nothing (some '-' :: some d :: rest) =
        tokensFrom (.number (.ofWhole .sign true [])) (some d :: rest) := rfl
    have hfirst : (Count.ofWhole .sign true []).charStep d =
        .on (.ofWhole (if d = '0' then .zero else .whole) true [d]) := by
      show (if isDigit d = true then _ else _) = _
      rw [if_pos hd]
      rfl
    exact hsign.trans (tokensFrom_number_on hfirst rest)

/-- The sign of a number and what stands in front of its point. -/
theorem exists_tokensFrom_whole (negative : Bool) {whole : List Char} (hdigits : AreDigits whole)
    (hzero : whole.head? = some '0' → whole = ['0']) :
    ∃ place, (place = .zero ∨ place = .whole) ∧ ∀ rest,
      tokensFrom .nothing ((signChars negative ++ whole).map some ++ rest) =
        tokensFrom (.number (.ofWhole place negative whole.reverse)) rest := by
  obtain ⟨hne, hall⟩ := hdigits
  obtain ⟨d, digits, rfl⟩ := List.exists_cons_of_ne_nil hne
  have hsplit : ∀ rest : Source, (signChars negative ++ d :: digits).map some ++ rest =
      (signChars negative).map some ++ some d :: (digits.map some ++ rest) := by
    intro rest
    simp
  have hfirst := tokensFrom_first_digit negative (hall d List.mem_cons_self)
  by_cases hd : d = '0'
  · subst hd
    obtain rfl : digits = [] := by simpa using hzero rfl
    refine ⟨.zero, Or.inl rfl, fun rest => ?_⟩
    rw [hsplit, hfirst, if_pos rfl]
    rfl
  · refine ⟨.whole, Or.inr rfl, fun rest => ?_⟩
    rw [hsplit, hfirst, if_neg hd, tokensFrom_digits (Count.charStep_ofWhole negative)
      fun c hc => hall c (List.mem_cons_of_mem d hc), List.reverse_cons]

/-- A number with what stands behind its point. -/
def Count.withFraction (n : Count) : Option (List Char) → Count
  | none => n
  | some digits => { n with place := .fraction, fraction := digits.reverse }

/-- What stands behind the point of a number. -/
theorem tokensFrom_fraction {place : NumberPlace} (hplace : place = .zero ∨ place = .whole)
    (negative : Bool) (whole : List Char) {fraction : Option (List Char)}
    (hdigits : ∀ digits ∈ fraction, AreDigits digits) (rest : Source) :
    tokensFrom (.number (.ofWhole place negative whole))
        ((fractionChars fraction).map some ++ rest) =
      tokensFrom (.number ((Count.ofWhole place negative whole).withFraction fraction)) rest := by
  cases fraction with
  | none => rfl
  | some digits =>
    have hpoint : (Count.ofWhole place negative whole).charStep '.' =
        .on { Count.ofWhole place negative whole with place := .point } := by
      rcases hplace with rfl | rfl <;> rfl
    have hfirst : ∀ d, isDigit d = true →
        Count.charStep { Count.ofWhole place negative whole with place := .point } d =
          .on { Count.ofWhole place negative whole with place := .fraction, fraction := [d] } := by
      intro d hd
      show (if isDigit d = true then _ else _) = _
      rw [if_pos hd]
    have hput : ∀ done d, isDigit d = true →
        Count.charStep
            { Count.ofWhole place negative whole with place := .fraction, fraction := done } d =
          .on { Count.ofWhole place negative whole with
            place := .fraction, fraction := d :: done } := by
      intro done d hd
      show (if isDigit d = true then _ else _) = _
      rw [if_pos hd]
    rw [fractionChars, List.map_cons, List.cons_append, tokensFrom_number_on hpoint]
    exact tokensFrom_areDigits hfirst hput (hdigits digits rfl) rest

/-- A number with its exponent. -/
def Count.withExponent (n : Count) : Option (Bool × List Char) → Count
  | none => n
  | some (negative, digits) =>
    { n with place := .exponent, exponentNegative := negative, exponent := digits.reverse }

/-- The exponent of a number. -/
theorem tokensFrom_exponent {n : Count}
    (hplace : n.place = .zero ∨ n.place = .whole ∨ n.place = .fraction)
    (hnone : n.exponentNegative = false) {exponent : Option (Bool × List Char)}
    (hdigits : ∀ e ∈ exponent, AreDigits e.2) {cs : List Char} (h : IsExponent exponent cs)
    (rest : Source) :
    tokensFrom (.number n) (cs.map some ++ rest) =
      tokensFrom (.number (n.withExponent exponent)) rest := by
  obtain ⟨place, negative, whole, fraction, exponentNegative, done⟩ := n
  obtain rfl : exponentNegative = false := hnone
  have hmark : ∀ mark, mark = 'e' ∨ mark = 'E' →
      Count.charStep ⟨place, negative, whole, fraction, false, done⟩ mark =
        .on ⟨.mark, negative, whole, fraction, false, done⟩ := by
    rintro mark (rfl | rfl) <;> rcases hplace with rfl | rfl | rfl <;> rfl
  -- the digits are the same whichever sign stands in front of them
  have hrun : ∀ (place : NumberPlace) (minus : Bool) (digits : List Char), AreDigits digits →
      (∀ d, isDigit d = true → Count.charStep ⟨place, negative, whole, fraction, minus, done⟩ d =
        .on ⟨.exponent, negative, whole, fraction, minus, [d]⟩) →
      tokensFrom (.number ⟨place, negative, whole, fraction, minus, done⟩)
          (digits.map some ++ rest) =
        tokensFrom (.number ⟨.exponent, negative, whole, fraction, minus, digits.reverse⟩)
          rest := by
    intro place minus digits hdigits hfirst
    refine tokensFrom_areDigits hfirst (fun done d hd => ?_) hdigits rest
    show (if isDigit d = true then _ else _) = _
    rw [if_pos hd]
  have hbehindSign : ∀ (minus : Bool) (d : Char), isDigit d = true →
      Count.charStep ⟨.markSign, negative, whole, fraction, minus, done⟩ d =
        .on ⟨.exponent, negative, whole, fraction, minus, [d]⟩ := by
    intro minus d hd
    show (if isDigit d = true then _ else _) = _
    rw [if_pos hd]
  have hbehindMark : ∀ d, isDigit d = true →
      Count.charStep ⟨.mark, negative, whole, fraction, false, done⟩ d =
        .on ⟨.exponent, negative, whole, fraction, false, [d]⟩ := by
    intro d hd
    have hmem := mem_of_isDigit hd
    simp only [List.mem_cons, List.not_mem_nil, or_false] at hmem
    rcases hmem with rfl | rfl | rfl | rfl | rfl | rfl | rfl | rfl | rfl | rfl <;> rfl
  cases h with
  | none => rfl
  | minus hletter digits =>
    have hsign : Count.charStep ⟨.mark, negative, whole, fraction, false, done⟩ '-' =
        .on ⟨.markSign, negative, whole, fraction, true, done⟩ := rfl
    rw [List.map_cons, List.map_cons, List.cons_append, List.cons_append,
      tokensFrom_number_on (hmark _ hletter), tokensFrom_number_on hsign]
    exact hrun .markSign true digits (hdigits _ rfl) (hbehindSign true)
  | plus hletter digits =>
    have hsign : Count.charStep ⟨.mark, negative, whole, fraction, false, done⟩ '+' =
        .on ⟨.markSign, negative, whole, fraction, false, done⟩ := rfl
    rw [List.map_cons, List.map_cons, List.cons_append, List.cons_append,
      tokensFrom_number_on (hmark _ hletter), tokensFrom_number_on hsign]
    exact hrun .markSign false digits (hdigits _ rfl) (hbehindSign false)
  | plain hletter digits =>
    rw [List.map_cons, List.cons_append, tokensFrom_number_on (hmark _ hletter)]
    exact hrun .mark false digits (hdigits _ rfl) hbehindMark

section Parts

variable {place : NumberPlace} (hplace : place = .zero ∨ place = .whole) (negative : Bool)
  (whole : List Char) (fraction : Option (List Char)) (exponent : Option (Bool × List Char))
include hplace

/-- A number may have an exponent whether or not it has a fraction. -/
theorem Count.place_withFraction :
    ((Count.ofWhole place negative whole).withFraction fraction).place = .zero ∨
      ((Count.ofWhole place negative whole).withFraction fraction).place = .whole ∨
      ((Count.ofWhole place negative whole).withFraction fraction).place = .fraction := by
  cases fraction with
  | none => exact hplace.elim Or.inl fun h => Or.inr (Or.inl h)
  | some digits => exact Or.inr (Or.inr rfl)

/-- A number may end with whichever parts it has. -/
theorem Count.mayEnd_parts :
    (((Count.ofWhole place negative whole).withFraction fraction).withExponent
      exponent).MayEnd := by
  cases exponent with
  | none =>
    exact (Count.place_withFraction hplace negative whole fraction).imp id (Or.imp id Or.inl)
  | some e => exact Or.inr (Or.inr (Or.inr rfl))

/-- The numeral of a number is made of its parts. -/
theorem Count.numeral_parts (hfraction : ∀ digits ∈ fraction, digits ≠ []) :
    (((Count.ofWhole place negative whole.reverse).withFraction fraction).withExponent
      exponent).numeral = ⟨negative, whole, fraction, exponent⟩ := by
  cases fraction with
  | none =>
    rcases hplace with rfl | rfl <;> rcases exponent with _ | ⟨minus, digits⟩ <;>
      simp [Count.numeral, Count.withExponent, Count.withFraction, Count.ofWhole]
  | some digits =>
    have hne : digits ≠ [] := hfraction digits rfl
    rcases exponent with _ | ⟨minus, e⟩ <;>
      simp [Count.numeral, Count.withExponent, Count.withFraction, Count.ofWhole, hne]

end Parts

/-- A number is one token, in each of its spellings. -/
theorem tokensFrom_number {n : Numeral} {cs : List Char} (h : n.IsText cs) {rest : Source}
    (hrest : EndsNumber rest) :
    tokensFrom .nothing (cs.map some ++ rest) = .number n :: tokensFrom .nothing rest := by
  obtain ⟨negative, whole, fraction, exponent⟩ := n
  obtain ⟨⟨⟨hdigits, hzero⟩, hfraction, hexponent⟩, tail, htail, rfl⟩ := h
  obtain ⟨place, hplace, hwhole⟩ := exists_tokensFrom_whole negative hdigits hzero
  have hbehind := Count.place_withFraction hplace negative whole.reverse fraction
  have hend := Count.mayEnd_parts hplace negative whole.reverse fraction exponent
  have hnumeral := Count.numeral_parts hplace negative whole fraction exponent
    fun digits hmem => (hfraction digits hmem).1
  have hnone : ((Count.ofWhole place negative whole.reverse).withFraction
      fraction).exponentNegative = false := by
    cases fraction <;> rfl
  rw [List.map_append, List.map_append, List.append_assoc, List.append_assoc, hwhole,
    tokensFrom_fraction hplace negative _ hfraction,
    tokensFrom_exponent hbehind hnone hexponent htail, tokensFrom_number_end hend hrest, hnumeral]

/-! ## Rows of tokens -/

/-- A token that can be the first one of a value. -/
def Token.opens : Token → Bool
  | .closeList | .closeObject | .comma | .colon => false
  | _ => true

/-- A token that is a number. -/
def Token.isNumber : Token → Bool
  | .number _ => true
  | _ => false

/-- Tokens of which the first one, if there is any, begins no value. -/
def Closing (tokens : List Token) : Prop :=
  ∀ token ∈ tokens.head?, token.opens = false

/-- Rows in which no value begins right behind a number. -/
def Separated : List Token → Prop
  | [] => True
  | token :: rest => (token.isNumber = true → Closing rest) ∧ Separated rest

/-- A number ends before a blank. -/
theorem endsNumber_of_isSpace {c : Char} (h : isSpace c = true) (rest : Source) :
    EndsNumber (some c :: rest) := by
  have hspace : c = ' ' ∨ c = '\n' ∨ c = '\t' ∨ c = '\r' := by
    simpa [isSpace, or_assoc] using h
  rcases hspace with rfl | rfl | rfl | rfl <;> exact ⟨rfl, by decide⟩

/-- A number ends before a row that begins no value. -/
theorem endsNumber_of_closing {tokens : List Token} (h : Closing tokens) {cs : List Char}
    (hcs : IsRow tokens cs) : EndsNumber (cs.map some) := by
  have hblank : ∀ (blanks rest : List Char), (∀ c ∈ blanks, isSpace c = true) →
      EndsNumber (rest.map some) → EndsNumber ((blanks ++ rest).map some) := by
    intro blanks rest hblanks hrest
    cases blanks with
    | nil => exact hrest
    | cons c blanks => exact endsNumber_of_isSpace (hblanks c List.mem_cons_self) _
  cases hcs with
  | nil hblanks =>
    rw [← List.append_nil cs]
    exact hblank cs [] hblanks trivial
  | cons hblanks htoken hrest =>
    refine hblank _ _ hblanks ?_
    have hcloses := h _ rfl
    cases htoken with
    | closeList | closeObject | comma | colon => exact ⟨rfl, by decide⟩
    | openList | openObject | null | yes | no | number _ | string _ =>
      exact absurd hcloses (by simp [Token.opens])

/-- A token in one of its spellings. -/
theorem tokensFrom_token {token : Token} {lexeme : List Char} (h : token.IsText lexeme)
    {rest : Source} (hrest : token.isNumber = true → EndsNumber rest) :
    tokensFrom .nothing (lexeme.map some ++ rest) = token :: tokensFrom .nothing rest := by
  cases h with
  | number hnumeral => exact tokensFrom_number hnumeral (hrest rfl)
  | string pieces => exact tokensFrom_string pieces rest
  | openList | closeList | openObject | closeObject | comma | colon | null | yes | no => rfl

/-- **Scanning.**  A row of tokens is found in each of its spellings, unless a number runs into
the value behind it. -/
theorem tokens_of_isRow {row : List Token} (hseparated : Separated row) {cs : List Char}
    (h : IsRow row cs) : tokens (cs.map some) = row := by
  rw [tokens]
  induction h with
  | nil hblanks =>
    have hnothing := tokensFrom_blanks hblanks []
    rw [List.append_nil] at hnothing
    rw [hnothing]
    rfl
  | cons hblanks htoken hrest ih =>
    obtain ⟨hnumber, hseparated⟩ := hseparated
    rw [List.map_append, List.map_append, tokensFrom_blanks hblanks,
      tokensFrom_token htoken fun h => endsNumber_of_closing (hnumber h) hrest, ih hseparated]

/-! ## Trees -/

theorem Items.tokens_cons_cons (item next : Tree) (more : Items) :
    (Items.cons item (.cons next more)).tokens =
      item.tokens ++ .comma :: (Items.cons next more).tokens := rfl

theorem Members.tokens_cons_cons (text key : Text) (value next : Tree) (more : Members) :
    (Members.cons text value (.cons key next more)).tokens =
      .string text :: .colon :: value.tokens ++ .comma :: (Members.cons key next more).tokens := rfl

/-- The tokens of members begin with those of the first key. -/
theorem Members.tokens_cons (text : Text) (value : Tree) (more : Members) :
    ∃ tail, (Members.cons text value more).tokens = .string text :: tail := by
  cases more <;> exact ⟨_, rfl⟩

/-- Behind a token that is no number anything may stand. -/
theorem separated_cons {token : Token} (h : token.isNumber = false) {rest : List Token}
    (hrest : Separated rest) : Separated (token :: rest) :=
  ⟨fun hnumber => absurd (h.symm.trans hnumber) Bool.false_ne_true, hrest⟩

/-- A row that starts with a token that begins no value. -/
theorem closing_cons {token : Token} (h : token.opens = false) (rest : List Token) :
    Closing (token :: rest) := by
  intro first hfirst
  rw [List.head?_cons, Option.mem_some_iff] at hfirst
  rw [← hfirst]
  exact h

mutual

/-- In the row of a tree only commas and brackets stand behind numbers. -/
theorem Tree.separated_tokens (t : Tree) (h : t.IsWhole) {rest : List Token}
    (hclosing : Closing rest) (hrest : Separated rest) : Separated (t.tokens ++ rest) := by
  cases t with
  | null | bool _ | string _ =>
    rw [Tree.tokens]
    exact separated_cons rfl hrest
  | number n =>
    rw [Tree.tokens]
    exact ⟨fun _ => hclosing, hrest⟩
  | array is =>
    rw [Tree.IsWhole] at h
    have hitems := is.separated_tokens h (closing_cons (rfl : Token.closeList.opens = false) rest)
      (separated_cons rfl hrest)
    rw [Tree.tokens, List.cons_append, List.cons_append, List.append_assoc]
    exact separated_cons rfl hitems
  | object ms =>
    rw [Tree.IsWhole] at h
    have hmembers := ms.separated_tokens h
      (closing_cons (rfl : Token.closeObject.opens = false) rest) (separated_cons rfl hrest)
    rw [Tree.tokens, List.cons_append, List.cons_append, List.append_assoc]
    exact separated_cons rfl hmembers
  | broken _ =>
    rw [Tree.IsWhole] at h
    exact h.elim

theorem Items.separated_tokens (is : Items) (h : is.IsWhole) {rest : List Token}
    (hclosing : Closing rest) (hrest : Separated rest) : Separated (is.tokens ++ rest) := by
  cases is with
  | closed => exact hrest
  | ended | foreign | comma =>
    rw [Items.IsWhole] at h
    exact h.elim
  | cons item more =>
    rw [Items.IsWhole] at h
    have hmore := more.separated_tokens h.2 hclosing hrest
    cases more with
    | closed => exact item.separated_tokens h.1 hclosing hrest
    | ended | foreign | comma =>
      rw [Items.IsWhole] at h
      exact h.2.elim
    | cons next more =>
      rw [Items.tokens_cons_cons, List.append_assoc, List.cons_append]
      exact item.separated_tokens h.1 (closing_cons rfl _) (separated_cons rfl hmore)

theorem Members.separated_tokens (ms : Members) (h : ms.IsWhole) {rest : List Token}
    (hclosing : Closing rest) (hrest : Separated rest) : Separated (ms.tokens ++ rest) := by
  cases ms with
  | closed => exact hrest
  | ended | foreign | comma | commaEnded | noKey _ =>
    rw [Members.IsWhole] at h
    exact h.elim
  | cons key value more =>
    rw [Members.IsWhole] at h
    have hmore := more.separated_tokens h.2 hclosing hrest
    cases more with
    | closed =>
      exact separated_cons rfl (separated_cons rfl (value.separated_tokens h.1 hclosing hrest))
    | ended | foreign | comma | commaEnded | noKey _ =>
      rw [Members.IsWhole] at h
      exact h.2.elim
    | cons next nextValue more =>
      rw [Members.tokens_cons_cons, List.append_assoc]
      exact separated_cons rfl (separated_cons rfl
        (value.separated_tokens h.1 (closing_cons rfl _) (separated_cons rfl hmore)))

end

/-- **The tokens of a text** are those of its tree. -/
theorem Tree.IsText.tokens_eq {t : Tree} {cs : List Char} (h : t.IsText cs) :
    Json.tokens (cs.map some) = t.tokens := by
  have hseparated : Separated (t.tokens ++ []) :=
    t.separated_tokens h.1 (by rintro _ ⟨⟩) trivial
  rw [List.append_nil] at hseparated
  exact tokens_of_isRow hseparated h.2

end PinBoard.Json
