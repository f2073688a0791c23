import PinBoard.Proofs.Json.Scan

/-!
# Tokens are spelled

A text that is cut into tokens without a break spells these tokens: strings are made of pieces,
numbers of their parts, and nothing but blanks stands around a token. So scanning finds a row
of tokens in its spellings and in no other text.
-/

namespace PinBoard.Json

/-- A row without a break in it. -/
def Unbroken (row : List Token) : Prop := ∀ fault, Token.broken fault ∉ row

theorem Unbroken.tail {token : Token} {row : List Token} (h : Unbroken (token :: row)) :
    Unbroken row := fun fault hmem => h fault (List.mem_cons_of_mem _ hmem)

theorem not_unbroken_cons (fault : Fault) (row : List Token) :
    ¬ Unbroken (.broken fault :: row) := fun h => h fault List.mem_cons_self

/-! ## Strings -/

section Strings

variable {q : Quote} {cs : List Char}

/-- A string does not break at a symbol that leaves the row unbroken. -/
theorem step_ne_breaks {c : Char} {rest : List Char} {fault : Fault}
    (h : Unbroken (tokensFrom (.quote q) ((c :: rest).map some))) :
    q.step (some c) (rest.map some) ≠ .breaks fault := by
  intro hbreaks
  rw [List.map_cons, tokensFrom, walkStep, hbreaks] at h
  exact not_unbroken_cons fault [] h

/-- A string does not end with the text. -/
theorem exists_cons_of_quote (h : Unbroken (tokensFrom (.quote q) (cs.map some))) :
    ∃ c rest, cs = c :: rest := by
  cases cs with
  | nil => exact absurd h (not_unbroken_cons _ [])
  | cons c rest => exact ⟨c, rest, rfl⟩

/-- Where a digit of a group is due there is one, and it is taken. -/
theorem exists_digit {missing value : Nat} {go : Nat → Nat → Quote} {done : Nat → Quote}
    (hstep : ∀ c rest, q.step c rest = q.digit missing value (c :: rest) go done)
    (h : Unbroken (tokensFrom (.quote q) (cs.map some))) :
    ∃ (d : HexDigit) (rest : List Char), cs = d.char :: rest ∧
      tokensFrom (.quote q) (cs.map some) =
        tokensFrom (.quote (if missing ≤ 1 then done (value * 16 + d.value)
          else go (missing - 1) (value * 16 + d.value))) (rest.map some) := by
  obtain ⟨c, rest, rfl⟩ := exists_cons_of_quote h
  cases hvalue : hexValue? c with
  | none =>
    have hbreaks : q.step (some c) (rest.map some) =
        q.noDigit missing (some c :: rest.map some) := by
      rw [hstep]
      simp only [Quote.digit, hvalue]
    exact absurd hbreaks (step_ne_breaks h)
  | some d =>
    refine ⟨⟨c, d, hvalue⟩, rest, rfl, ?_⟩
    rw [List.map_cons]
    apply tokensFrom_quote_on
    rw [hstep]
    simp only [Quote.digit, hvalue]
    split_ifs
    · rfl
    · rfl

/-- Where a group of four digits begins there are four digits. -/
theorem exists_group {group : Nat → Nat → Quote} {done : Nat → Quote}
    (hgroup : ∀ missing value c rest, (group missing value).step c rest =
      (group missing value).digit missing value (c :: rest) group done)
    (h : Unbroken (tokensFrom (.quote (group 4 0)) (cs.map some))) :
    ∃ (a b c d : HexDigit) (rest : List Char),
      cs = a.char :: b.char :: c.char :: d.char :: rest := by
  obtain ⟨a, rest, rfl, ha⟩ := exists_digit (hgroup 4 0) h
  rw [ha, if_neg (by omega)] at h
  obtain ⟨b, rest, rfl, hb⟩ := exists_digit (hgroup _ _) h
  rw [hb, if_neg (by omega)] at h
  obtain ⟨c, rest, rfl, hc⟩ := exists_digit (hgroup _ _) h
  rw [hc, if_neg (by omega)] at h
  obtain ⟨d, rest, rfl, -⟩ := exists_digit (hgroup _ _) h
  exact ⟨a, b, c, d, rest, rfl⟩

/-- What stands behind a backslash is a letter that is known, or opens a group of four digits. -/
theorem exists_escape {begun : Quote} (plain : Quote) (group : Nat → Nat → Quote)
    (done : Nat → Quote)
    (hletter : ∀ c rest, c ≠ 'u' → begun.step (some c) rest = plain.behindBackslash (some c))
    (hopen : ∀ rest, begun.step (some 'u') rest = .on (group 4 0))
    (hgroup : ∀ missing value c rest, (group missing value).step c rest =
      (group missing value).digit missing value (c :: rest) group done)
    (h : Unbroken (tokensFrom (.quote begun) (cs.map some))) :
    ∃ (p : Piece) (rest : List Char), '\\' :: cs = p.chars ++ rest := by
  obtain ⟨c, rest, rfl⟩ := exists_cons_of_quote h
  by_cases hc : c = 'u'
  · subst hc
    rw [List.map_cons, tokensFrom_quote_on (hopen _)] at h
    obtain ⟨a, b, c, d, rest, rfl⟩ := exists_group hgroup h
    exact ⟨.unit a b c d, rest, rfl⟩
  · cases hknown : escaped? c with
    | some d => exact ⟨.letter c d hknown, rest, rfl⟩
    | none =>
      have hbreaks : begun.step (some c) (rest.map some) =
          .breaks (plain.fault .invalidEscape) := by
        rw [hletter c _ hc, Quote.behindBackslash]
        · rw [hknown]
        · exact hc
      exact absurd hbreaks (step_ne_breaks h)

/-- Between pieces a string ends or goes on with a piece. -/
theorem exists_next_piece (hq : q.BetweenPieces)
    (h : Unbroken (tokensFrom (.quote q) (cs.map some))) :
    (∃ rest, cs = '"' :: rest) ∨
      ∃ (p : Piece) (rest : List Char), cs = p.chars ++ rest := by
  obtain ⟨c, rest, rfl⟩ := exists_cons_of_quote h
  by_cases hquote : c = '"'
  · exact Or.inl ⟨rest, by rw [hquote]⟩
  refine Or.inr ?_
  by_cases hbackslash : c = '\\'
  · subst hbackslash
    obtain ⟨taken, spoilt, escape⟩ := q
    rw [List.map_cons] at h
    rcases hq with rfl | ⟨high, rfl⟩
    · have hbegun : ∀ rest, Quote.step ⟨taken, spoilt, .outside⟩ (some '\\') rest =
          .on ⟨taken, spoilt, .begun⟩ := fun _ => rfl
      rw [tokensFrom_quote_on (hbegun _)] at h
      exact exists_escape ⟨taken, spoilt, .begun⟩
        (fun missing value => ⟨taken, spoilt, .hex missing value⟩)
        (Quote.endHex ⟨taken, spoilt, .outside⟩)
        (fun _ _ _ => rfl) (fun _ => rfl) (fun _ _ _ _ => rfl) h
    · have hbegun : ∀ rest, Quote.step ⟨taken, spoilt, .high high⟩ (some '\\') rest =
          .on ⟨taken, spoilt, .highBegun high⟩ := fun _ => rfl
      rw [tokensFrom_quote_on (hbegun _)] at h
      refine exists_escape
        (Quote.spoil ⟨taken, spoilt, .highBegun high⟩ .unfinishedSurrogate .begun)
        (fun missing value => ⟨taken, spoilt, .low high missing value⟩)
        (Quote.endLow ⟨taken, spoilt, .high high⟩ high)
        (fun c _ hc => ?_) (fun _ => rfl) (fun _ _ _ _ => rfl) h
      show (if some c = some 'u' then _ else _) = _
      rw [if_neg fun heq => hc (Option.some.inj heq)]
  · -- any other character stands for itself, unless it is a control
    by_cases hprintable : 0x20 ≤ c.toNat
    · exact ⟨.plain c ⟨hquote, hbackslash, hprintable⟩, rest, rfl⟩
    · have hne : some c ≠ some '\\' := fun heq => hbackslash (Option.some.inj heq)
      have hbreaks : q.step (some c) (rest.map some) =
          .breaks (q.unpaired.fault .controlCharacter) := by
        rw [Quote.step_of_ne hq hne, Quote.plain]
        · rw [if_pos (by omega)]
        · exact hquote
        · exact hbackslash
      exact absurd hbreaks (step_ne_breaks h)

/-- **A string is made of pieces** up to its closing quote. -/
theorem exists_pieces_of_unbroken (hq : q.BetweenPieces)
    (h : Unbroken (tokensFrom (.quote q) (cs.map some))) :
    ∃ (pieces : List Piece) (rest : List Char), cs = pieces.flatMap Piece.chars ++ '"' :: rest := by
  induction hlength : cs.length using Nat.strongRecOn generalizing q cs with
  | _ n ih =>
    rcases exists_next_piece hq h with ⟨rest, rfl⟩ | ⟨p, rest, rfl⟩
    · exact ⟨[], rest, rfl⟩
    · rw [List.map_append, tokensFrom_piece hq] at h
      have hshorter : rest.length < n := by
        have hpiece : 0 < p.chars.length := by
          cases p <;> exact Nat.succ_pos _
        rw [List.length_append] at hlength
        omega
      obtain ⟨pieces, behind, rfl⟩ := ih _ hshorter (q.betweenPieces_put _) h rfl
      exact ⟨p :: pieces, behind, by rw [List.flatMap_cons, List.append_assoc]⟩

end Strings

/-! ## Numbers -/

/-- No digit stands in front. -/
def StartsNoDigit (cs : List Char) : Prop := ∀ c ∈ cs.head?, isDigit c = false

/-- Digits in front of a text come off as a whole. -/
theorem exists_digits (cs : List Char) :
    ∃ digits tail, cs = digits ++ tail ∧ (∀ c ∈ digits, isDigit c = true) ∧
      StartsNoDigit tail := by
  refine ⟨cs.takeWhile isDigit, cs.dropWhile isDigit, List.takeWhile_append_dropWhile.symm,
    List.all_eq_true.mp List.all_takeWhile, ?_⟩
  intro c hc
  have hhead := List.head?_dropWhile_not isDigit cs
  rw [hc] at hhead
  simpa using hhead

section Numbers

variable {n : Count} {cs : List Char}

/-- A number does not break at a character that leaves the row unbroken. -/
theorem charStep_ne_breaks {c : Char} {rest : List Char} {fault : Fault}
    (h : Unbroken (tokensFrom (.number n) ((c :: rest).map some))) :
    n.charStep c ≠ .breaks fault := by
  intro hbreaks
  have hstep : n.step (some c) = .breaks fault := hbreaks
  rw [List.map_cons, tokensFrom, walkStep, hstep] at h
  exact not_unbroken_cons fault [] h

/-- **Digits that are due.**  Where a number cannot do without digits they are there. -/
theorem exists_digits_due {start : Count} (put : List Char → Count)
    (hend : ∃ fault, start.atEnd = .broken fault)
    (hbreaks : ∀ c ∈ cs.head?, isDigit c = false → start.charStep c = .breaks wrongNumber)
    (hfirst : ∀ d, isDigit d = true → start.charStep d = .on (put [d]))
    (hput : ∀ done d, isDigit d = true → (put done).charStep d = .on (put (d :: done)))
    (h : Unbroken (tokensFrom (.number start) (cs.map some))) :
    ∃ digits tail, cs = digits ++ tail ∧ AreDigits digits ∧ StartsNoDigit tail ∧
      Unbroken (tokensFrom (.number (put digits.reverse)) (tail.map some)) := by
  cases cs with
  | nil =>
    obtain ⟨fault, hfault⟩ := hend
    have hrow : tokensFrom (.number start) [] = [.broken fault] := by
      rw [← hfault]
      rfl
    rw [List.map_nil, hrow] at h
    exact absurd h (not_unbroken_cons fault [])
  | cons c rest =>
    have hc : isDigit c = true := by
      by_contra hno
      exact charStep_ne_breaks h (hbreaks c rfl (Bool.not_eq_true _ ▸ hno))
    obtain ⟨digits, tail, rfl, hall, htail⟩ := exists_digits rest
    have hdigits : AreDigits (c :: digits) :=
      ⟨List.cons_ne_nil c digits, List.forall_mem_cons.mpr ⟨hc, hall⟩⟩
    refine ⟨c :: digits, tail, rfl, hdigits, htail, ?_⟩
    rw [← tokensFrom_areDigits hfirst hput hdigits, ← List.map_append]
    exact h

/-- What stands behind a number that is complete is no part of one. -/
theorem endsNumber_of_complete (htail : StartsNoDigit cs)
    (hcomplete : ∀ c, c = '.' ∨ c = 'e' ∨ c = 'E' → c ∈ cs.head? → n.charStep c = .complete)
    (h : Unbroken (tokensFrom (.number n) (cs.map some))) : EndsNumber (cs.map some) := by
  cases cs with
  | nil => exact trivial
  | cons c rest =>
    -- behind a complete number a point or a mark would begin something of its own, which it cannot
    have hforeign : c = '.' ∨ c = 'e' ∨ c = 'E' → False := by
      intro hc
      have hstep : n.step (some c) = .complete := hcomplete c hc rfl
      have hopening : outsideStep (some c) = stop .foreign := by
        rcases hc with rfl | rfl | rfl <;> rfl
      rw [List.map_cons, tokensFrom, walkStep, hstep] at h
      simp only [hopening, stop] at h
      exact not_unbroken_cons _ _ h.tail
    exact ⟨htail c rfl, fun hc => hforeign (Or.inl hc), fun hc => hforeign (Or.inr (Or.inl hc)),
      fun hc => hforeign (Or.inr (Or.inr hc))⟩

section Exponent

variable {negative : Bool} {whole fraction : List Char}

/-- An exponent has the same digits whichever sign stands in front of them. -/
theorem exists_exponent_digits {place : NumberPlace} {minus : Bool}
    (hend : ∃ fault, Count.atEnd ⟨place, negative, whole, fraction, minus, []⟩ = .broken fault)
    (hbreaks : ∀ c ∈ cs.head?, isDigit c = false →
      Count.charStep ⟨place, negative, whole, fraction, minus, []⟩ c = .breaks wrongNumber)
    (hfirst : ∀ d, isDigit d = true → Count.charStep ⟨place, negative, whole, fraction, minus, []⟩ d
      = .on ⟨.exponent, negative, whole, fraction, minus, [d]⟩)
    (h : Unbroken (tokensFrom (.number ⟨place, negative, whole, fraction, minus, []⟩)
      (cs.map some))) :
    ∃ digits tail, cs = digits ++ tail ∧ AreDigits digits ∧ EndsNumber (tail.map some) := by
  have hput : ∀ done d, isDigit d = true →
      Count.charStep ⟨.exponent, negative, whole, fraction, minus, done⟩ d =
        .on ⟨.exponent, negative, whole, fraction, minus, d :: done⟩ := by
    intro done d hd
    show (if isDigit d = true then _ else _) = _
    rw [if_pos hd]
  obtain ⟨digits, tail, rfl, hdigits, htail, h⟩ := exists_digits_due
    (fun done => ⟨.exponent, negative, whole, fraction, minus, done⟩) hend hbreaks hfirst hput h
  refine ⟨digits, tail, rfl, hdigits, endsNumber_of_complete htail ?_ h⟩
  intro c hc _
  rcases hc with rfl | rfl | rfl <;> rfl

/-- Behind a sign there are digits. -/
theorem exists_digits_behind_sign {minus : Bool}
    (h : Unbroken (tokensFrom (.number ⟨.markSign, negative, whole, fraction, minus, []⟩)
      (cs.map some))) :
    ∃ digits tail, cs = digits ++ tail ∧ AreDigits digits ∧ EndsNumber (tail.map some) := by
  apply exists_exponent_digits ⟨_, rfl⟩ _ _ h
  · intro c _ hc
    show (if isDigit c = true then _ else _) = _
    rw [if_neg (by rw [hc]; exact Bool.false_ne_true)]
  · intro d hd
    show (if isDigit d = true then _ else _) = _
    rw [if_pos hd]

/-- Without a sign a mark is followed by digits. -/
theorem exists_digits_behind_mark (hplus : cs.head? ≠ some '+') (hminus : cs.head? ≠ some '-')
    (h : Unbroken (tokensFrom (.number ⟨.mark, negative, whole, fraction, false, []⟩)
      (cs.map some))) :
    ∃ digits tail, cs = digits ++ tail ∧ AreDigits digits ∧ EndsNumber (tail.map some) := by
  have hstep : ∀ c, c ≠ '+' → c ≠ '-' →
      Count.charStep ⟨.mark, negative, whole, fraction, false, []⟩ c =
        if isDigit c then .on ⟨.exponent, negative, whole, fraction, false, [c]⟩
        else .breaks wrongNumber := by
    intro c hplus hminus
    show (if c = '+' then _ else if c = '-' then _ else _) = _
    rw [if_neg hplus, if_neg hminus]
  apply exists_exponent_digits ⟨_, rfl⟩ _ _ h
  · intro c hhead hc
    rw [hstep c (fun heq => hplus (heq ▸ hhead)) (fun heq => hminus (heq ▸ hhead)),
      if_neg (by rw [hc]; exact Bool.false_ne_true)]
  · intro d hd
    rw [hstep d (by rintro rfl; exact absurd hd (by decide))
      (by rintro rfl; exact absurd hd (by decide)), if_pos hd]

/-- **An exponent** has digits, with a sign or without one. -/
theorem exists_exponent
    (h : Unbroken (tokensFrom (.number ⟨.mark, negative, whole, fraction, false, []⟩)
      (cs.map some))) :
    ∃ (e : Bool × List Char) (chars tail : List Char), cs = chars ++ tail ∧
      (∀ mark, mark = 'e' ∨ mark = 'E' → IsExponent (some e) (mark :: chars)) ∧
      AreDigits e.2 ∧ EndsNumber (tail.map some) := by
  by_cases hplus : cs.head? = some '+'
  · obtain ⟨rest, rfl⟩ := List.head?_eq_some_iff.mp hplus
    have hsign : Count.charStep ⟨.mark, negative, whole, fraction, false, []⟩ '+' =
        .on ⟨.markSign, negative, whole, fraction, false, []⟩ := rfl
    rw [List.map_cons, tokensFrom_number_on hsign] at h
    obtain ⟨digits, tail, rfl, hdigits, hend⟩ := exists_digits_behind_sign h
    exact ⟨(false, digits), '+' :: digits, tail, rfl, fun mark hmark => .plus hmark digits,
      hdigits, hend⟩
  by_cases hminus : cs.head? = some '-'
  · obtain ⟨rest, rfl⟩ := List.head?_eq_some_iff.mp hminus
    have hsign : Count.charStep ⟨.mark, negative, whole, fraction, false, []⟩ '-' =
        .on ⟨.markSign, negative, whole, fraction, true, []⟩ := rfl
    rw [List.map_cons, tokensFrom_number_on hsign] at h
    obtain ⟨digits, tail, rfl, hdigits, hend⟩ := exists_digits_behind_sign h
    exact ⟨(true, digits), '-' :: digits, tail, rfl, fun mark hmark => .minus hmark digits,
      hdigits, hend⟩
  · obtain ⟨digits, tail, rfl, hdigits, hend⟩ := exists_digits_behind_mark hplus hminus h
    exact ⟨(false, digits), digits, tail, rfl, fun mark hmark => .plain hmark digits, hdigits,
      hend⟩

end Exponent

/-- Digits that are followed by no point and no digit are followed by an exponent or by no part of
a number. -/
theorem exists_end {place : NumberPlace} {negative : Bool} {whole fraction : List Char}
    (hplace : place = .zero ∨ place = .whole ∨ place = .fraction)
    (hpoint : cs.head? = some '.' → fraction ≠ []) (hdigit : StartsNoDigit cs)
    (h : Unbroken (tokensFrom (.number ⟨place, negative, whole, fraction, false, []⟩)
      (cs.map some))) :
    ∃ (exponent : Option (Bool × List Char)) (chars tail : List Char), cs = chars ++ tail ∧
      IsExponent exponent chars ∧ (∀ e ∈ exponent, AreDigits e.2) ∧
      EndsNumber (tail.map some) := by
  by_cases hmark : cs.head? = some 'e' ∨ cs.head? = some 'E'
  · obtain ⟨mark, rest, rfl, hletter⟩ : ∃ mark rest, cs = mark :: rest ∧
        (mark = 'e' ∨ mark = 'E') := by
      rcases hmark with hmark | hmark
      · obtain ⟨rest, rfl⟩ := List.head?_eq_some_iff.mp hmark
        exact ⟨'e', rest, rfl, Or.inl rfl⟩
      · obtain ⟨rest, rfl⟩ := List.head?_eq_some_iff.mp hmark
        exact ⟨'E', rest, rfl, Or.inr rfl⟩
    have hstep : Count.charStep ⟨place, negative, whole, fraction, false, []⟩ mark =
        .on ⟨.mark, negative, whole, fraction, false, []⟩ := by
      rcases hletter with rfl | rfl <;> rcases hplace with rfl | rfl | rfl <;> rfl
    rw [List.map_cons, tokensFrom_number_on hstep] at h
    obtain ⟨e, chars, tail, rfl, hexponent, hdigits, hend⟩ := exists_exponent h
    refine ⟨some e, mark :: chars, tail, rfl, hexponent mark hletter, ?_, hend⟩
    rintro _ ⟨⟩
    exact hdigits
  · rw [not_or] at hmark
    refine ⟨none, [], cs, rfl, .none, by simp, endsNumber_of_complete hdigit ?_ h⟩
    rintro c (rfl | rfl | rfl) hhead
    · have hne := hpoint hhead
      obtain ⟨d, digits, rfl⟩ := List.exists_cons_of_ne_nil hne
      rcases hplace with rfl | rfl | rfl <;> rfl
    · exact absurd hhead hmark.1
    · exact absurd hhead hmark.2

/-- What stands behind the whole digits of a number. -/
theorem exists_fraction {place : NumberPlace} {negative : Bool} {whole : List Char}
    (hplace : place = .zero ∨ place = .whole) (hdigit : StartsNoDigit cs)
    (h : Unbroken (tokensFrom (.number (.ofWhole place negative whole)) (cs.map some))) :
    ∃ (fraction : Option (List Char)) (exponent : Option (Bool × List Char))
      (chars tail : List Char), cs = fractionChars fraction ++ chars ++ tail ∧
      (∀ digits ∈ fraction, AreDigits digits) ∧ IsExponent exponent chars ∧
      (∀ e ∈ exponent, AreDigits e.2) ∧ EndsNumber (tail.map some) := by
  by_cases hpoint : cs.head? = some '.'
  · obtain ⟨rest, rfl⟩ := List.head?_eq_some_iff.mp hpoint
    have hstep : (Count.ofWhole place negative whole).charStep '.' =
        .on ⟨.point, negative, whole, [], false, []⟩ := by
      rcases hplace with rfl | rfl <;> rfl
    rw [List.map_cons, tokensFrom_number_on hstep] at h
    obtain ⟨digits, tail, rfl, hdigits, hnodigit, h⟩ := exists_digits_due
      (fun done => ⟨.fraction, negative, whole, done, false, []⟩) ⟨_, rfl⟩
      (fun c _ hc => by
        show (if isDigit c = true then _ else _) = _
        rw [if_neg (by rw [hc]; exact Bool.false_ne_true)])
      (fun d hd => by
        show (if isDigit d = true then _ else _) = _
        rw [if_pos hd])
      (fun done d hd => by
        show (if isDigit d = true then _ else _) = _
        rw [if_pos hd]) h
    obtain ⟨exponent, chars, tail, rfl, hexponent, hall, hend⟩ := exists_end
      (Or.inr (Or.inr rfl)) (fun _ => by simpa using hdigits.1) hnodigit h
    refine ⟨some digits, exponent, chars, tail, by simp [fractionChars], ?_, hexponent, hall, hend⟩
    rintro _ ⟨⟩
    exact hdigits
  · obtain ⟨exponent, chars, tail, rfl, hexponent, hall, hend⟩ := exists_end
      (hplace.imp id Or.inl) (fun h => absurd h hpoint) hdigit h
    exact ⟨none, exponent, chars, tail, rfl, by simp, hexponent, hall, hend⟩

/-- The whole digits of a number, of which the first one was read. -/
theorem exists_whole {negative : Bool} {d : Char} (hd : isDigit d = true)
    (h : Unbroken (tokensFrom (.number (.ofWhole (if d = '0' then .zero else .whole) negative [d]))
      (cs.map some))) :
    ∃ (n : Numeral) (lexeme tail : List Char), n.IsText lexeme ∧
      signChars negative ++ d :: cs = lexeme ++ tail ∧ EndsNumber (tail.map some) := by
  by_cases hzero : d = '0'
  · subst hzero
    rw [if_pos rfl] at h
    have hdigit : StartsNoDigit cs := by
      intro c hc
      obtain ⟨rest, rfl⟩ := List.head?_eq_some_iff.mp hc
      by_contra hno
      have hbreaks : (Count.ofWhole .zero negative ['0']).charStep c = .breaks wrongNumber := by
        show (if isDigit c = true then _ else _) = _
        rw [if_pos (by simpa using hno)]
      exact charStep_ne_breaks h hbreaks
    obtain ⟨fraction, exponent, chars, tail, rfl, hfraction, hexponent, hall, hend⟩ :=
      exists_fraction (Or.inl rfl) hdigit h
    have hwhole : AreDigits ['0'] := by
      refine ⟨List.cons_ne_nil _ _, ?_⟩
      intro c hc
      rw [List.mem_singleton.mp hc]
      rfl
    exact ⟨⟨negative, ['0'], fraction, exponent⟩, _, tail,
      ⟨⟨⟨hwhole, fun _ => rfl⟩, hfraction, hall⟩, chars, hexponent, rfl⟩, by simp, hend⟩
  · rw [if_neg hzero] at h
    obtain ⟨digits, rest, rfl, hdigits, hdigit⟩ := exists_digits cs
    rw [List.map_append, tokensFrom_digits (Count.charStep_ofWhole negative) hdigits] at h
    obtain ⟨fraction, exponent, chars, tail, rfl, hfraction, hexponent, hall, hend⟩ :=
      exists_fraction (Or.inr rfl) hdigit h
    have hwhole : AreDigits (d :: digits) :=
      ⟨List.cons_ne_nil d digits, List.forall_mem_cons.mpr ⟨hd, hdigits⟩⟩
    exact ⟨⟨negative, d :: digits, fraction, exponent⟩, _, tail,
      ⟨⟨⟨hwhole, fun hhead => absurd (Option.some.inj hhead) hzero⟩, hfraction, hall⟩, chars,
        hexponent, rfl⟩, by simp, hend⟩

/-- A number has digits. -/
theorem Numeral.IsText.ne_nil {n : Numeral} {lexeme : List Char} (h : n.IsText lexeme) :
    lexeme ≠ [] := by
  obtain ⟨⟨⟨⟨hwhole, -⟩, -⟩, -, -⟩, chars, -, rfl⟩ := h
  simp [hwhole]

/-- **A number is spelled** where a sign or a digit stands. -/
theorem exists_numeral {c : Char} (hc : c = '-' ∨ isDigit c = true)
    (h : Unbroken (tokensFrom .nothing ((c :: cs).map some))) :
    ∃ (n : Numeral) (lexeme tail : List Char), n.IsText lexeme ∧ c :: cs = lexeme ++ tail ∧
      EndsNumber (tail.map some) := by
  rcases hc with rfl | hd
  · have hsign : tokensFrom .nothing (('-' :: cs).map some) =
        tokensFrom (.number (.ofWhole .sign true [])) (cs.map some) := rfl
    cases cs with
    | nil => exact absurd h (not_unbroken_cons _ [])
    | cons d rest =>
      have hd : isDigit d = true := by
        rw [hsign] at h
        by_contra hno
        have hbreaks : (Count.ofWhole .sign true []).charStep d = .breaks wrongNumber := by
          show (if isDigit d = true then _ else _) = _
          rw [if_neg hno]
        exact charStep_ne_breaks h hbreaks
      have hfirst := tokensFrom_first_digit true hd (rest.map some)
      exact exists_whole hd (hfirst ▸ h)
  · have hfirst := tokensFrom_first_digit false hd (cs.map some)
    exact exists_whole hd (hfirst ▸ h)

end Numbers

/-! ## Tokens -/

section Tokens

variable {cs : List Char}

/-- A literal is spelled as a whole. -/
theorem exists_word {next : Char} {due : List Char} {token : Token}
    (h : Unbroken (tokensFrom (.word next due token) (cs.map some))) :
    ∃ rest, cs = next :: due ++ rest := by
  induction due generalizing next cs with
  | nil =>
    cases cs with
    | nil => exact absurd h (not_unbroken_cons _ [])
    | cons c rest =>
      by_cases hc : c = next
      · exact ⟨rest, by rw [hc]; rfl⟩
      · rw [List.map_cons, tokensFrom, walkStep, if_neg fun heq => hc (Option.some.inj heq)] at h
        exact absurd h (not_unbroken_cons _ [])
  | cons d due ih =>
    cases cs with
    | nil => exact absurd h (not_unbroken_cons _ [])
    | cons c rest =>
      by_cases hc : c = next
      · rw [List.map_cons, tokensFrom, walkStep, if_pos (congrArg some hc)] at h
        obtain ⟨rest, rfl⟩ := ih h
        exact ⟨rest, by rw [hc]; rfl⟩
      · rw [List.map_cons, tokensFrom, walkStep, if_neg fun heq => hc (Option.some.inj heq)] at h
        exact absurd h (not_unbroken_cons _ [])

/-- **A token is spelled** where something other than a blank stands, and behind a number stands no
part of one. -/
theorem exists_token {c : Char} (hspace : isSpace c = false)
    (h : Unbroken (tokensFrom .nothing ((c :: cs).map some))) :
    ∃ (token : Token) (lexeme tail : List Char), token.IsText lexeme ∧ lexeme ≠ [] ∧
      c :: cs = lexeme ++ tail ∧ (token.isNumber = true → EndsNumber (tail.map some)) := by
  -- a token that is one character
  have hone : ∀ {token : Token} {mark : Char}, c = mark → token.IsText [mark] →
      token.isNumber = false →
      ∃ (token : Token) (lexeme tail : List Char), token.IsText lexeme ∧ lexeme ≠ [] ∧
        c :: cs = lexeme ++ tail ∧ (token.isNumber = true → EndsNumber (tail.map some)) := by
    rintro token mark rfl htext hno
    exact ⟨token, [c], cs, htext, List.cons_ne_nil c [], rfl,
      fun hyes => absurd (hno.symm.trans hyes) Bool.false_ne_true⟩
  by_cases hopenList : c = '['
  · exact hone hopenList .openList rfl
  by_cases hcloseList : c = ']'
  · exact hone hcloseList .closeList rfl
  by_cases hopenObject : c = '\x7b'
  · exact hone hopenObject .openObject rfl
  by_cases hcloseObject : c = '\x7d'
  · exact hone hcloseObject .closeObject rfl
  by_cases hcomma : c = ','
  · exact hone hcomma .comma rfl
  by_cases hcolon : c = ':'
  · exact hone hcolon .colon rfl
  by_cases hquote : c = '"'
  · subst hquote
    have hstring : Unbroken (tokensFrom (.quote Quote.start) (cs.map some)) := h
    obtain ⟨pieces, rest, rfl⟩ := exists_pieces_of_unbroken (Or.inl rfl) hstring
    exact ⟨_, _, rest, .string pieces, List.cons_ne_nil _ _, by simp, nofun⟩
  by_cases hnull : c = 'n'
  · subst hnull
    have hword : Unbroken (tokensFrom (.word 'u' ['l', 'l'] .null) (cs.map some)) := h
    obtain ⟨rest, rfl⟩ := exists_word hword
    exact ⟨_, _, rest, .null, List.cons_ne_nil _ _, rfl, nofun⟩
  by_cases hyes : c = 't'
  · subst hyes
    have hword : Unbroken (tokensFrom (.word 'r' ['u', 'e'] (.bool true)) (cs.map some)) := h
    obtain ⟨rest, rfl⟩ := exists_word hword
    exact ⟨_, _, rest, .yes, List.cons_ne_nil _ _, rfl, nofun⟩
  by_cases hno : c = 'f'
  · subst hno
    have hword : Unbroken (tokensFrom (.word 'a' ['l', 's', 'e'] (.bool false)) (cs.map some)) := h
    obtain ⟨rest, rfl⟩ := exists_word hword
    exact ⟨_, _, rest, .no, List.cons_ne_nil _ _, rfl, nofun⟩
  by_cases hdigit : c = '-' ∨ isDigit c = true
  · obtain ⟨n, lexeme, tail, htext, hsplit, hend⟩ := exists_numeral hdigit h
    exact ⟨.number n, lexeme, tail, .number htext, htext.ne_nil, hsplit, fun _ => hend⟩
  -- nothing else begins a token
  · have hforeign : openingStep c = stop .foreign := by
      rw [openingStep, if_neg (by rw [hspace]; exact Bool.false_ne_true), if_neg hopenList,
        if_neg hcloseList, if_neg hopenObject, if_neg hcloseObject, if_neg hcomma, if_neg hcolon,
        if_neg hquote, if_neg hnull, if_neg hyes, if_neg hno, if_neg (by simpa using hdigit)]
    rw [List.map_cons, tokensFrom, walkStep, outsideStep, hforeign] at h
    exact absurd h (not_unbroken_cons _ [])

/-- A blank in front of a row makes no difference. -/
theorem IsRow.blank {row : List Token} {c : Char} (hspace : isSpace c = true) (h : IsRow row cs) :
    IsRow row (c :: cs) := by
  cases h with
  | nil hblanks => exact .nil (List.forall_mem_cons.mpr ⟨hspace, hblanks⟩)
  | cons hblanks htoken hrest =>
    exact .cons (List.forall_mem_cons.mpr ⟨hspace, hblanks⟩) htoken hrest

/-- **Scanning finds what is spelled.**  A text whose tokens hold no break spells them. -/
theorem isRow_of_unbroken (cs : List Char) (h : Unbroken (tokens (cs.map some))) :
    IsRow (tokens (cs.map some)) cs := by
  unfold tokens at h ⊢
  induction hlength : cs.length using Nat.strongRecOn generalizing cs with
  | _ n ih =>
    cases cs with
    | nil => exact .nil fun _ hc => absurd hc List.not_mem_nil
    | cons c rest =>
      cases hspace : isSpace c with
      | true =>
        have hblanks : ∀ b ∈ [c], isSpace b = true := fun b hb => by
          rw [List.mem_singleton.mp hb]
          exact hspace
        have hskip := tokensFrom_blanks hblanks (rest.map some)
        rw [show (c :: rest).map some = [c].map some ++ rest.map some from rfl, hskip] at h ⊢
        exact (ih rest.length (by rw [← hlength]; exact Nat.lt_succ_self _) rest h rfl).blank hspace
      | false =>
        obtain ⟨token, lexeme, tail, htext, hne, hsplit, hend⟩ := exists_token hspace h
        have hrow := tokensFrom_token htext hend
        have hshorter : tail.length < n := by
          have hpositive : 0 < lexeme.length := List.length_pos_iff.mpr hne
          rw [← hlength, hsplit, List.length_append]
          omega
        rw [hsplit, List.map_append, hrow] at h ⊢
        show IsRow _ ([] ++ (lexeme ++ tail))
        exact .cons (fun _ hc => absurd hc List.not_mem_nil) htext (ih _ hshorter tail h.tail rfl)

end Tokens

end PinBoard.Json
