import PinBoard.Proofs.Text.Collapse
import PinBoard.Text.Units

/-!
# Collapsing piece by piece

A collapsed text is put together from its end, one character at a time. So it makes no difference
whether the parts of a text are collapsed before they are joined, and a text from which characters
were deleted never collapses to a longer one.
-/

namespace PinBoard.Text

/-! ## One character in front -/

/-- Puts a character in front of a collapsed text: a blank before a blank makes one space with
it. -/
def consTidy (c : Char) : List Char → List Char
  | [] => [c]
  | d :: out => if isScriptBlank c = true ∧ isScriptBlank d = true then ' ' :: out else c :: d :: out

/-- A character that is no blank stands for itself. -/
theorem consTidy_of_not_blank {c : Char} (hc : isScriptBlank c = false) (out : List Char) :
    consTidy c out = c :: out := by
  cases out with
  | nil => rfl
  | cons d out =>
    rw [consTidy, if_neg]
    rintro ⟨hblank, -⟩
    rw [hc] at hblank
    exact Bool.false_ne_true hblank

/-- So does every character before one that is no blank. -/
theorem consTidy_cons_of_not_blank (c : Char) {d : Char} (hd : isScriptBlank d = false)
    (out : List Char) : consTidy c (d :: out) = c :: d :: out := by
  rw [consTidy, if_neg]
  rintro ⟨-, hblank⟩
  rw [hd] at hblank
  exact Bool.false_ne_true hblank

/-- A blank before a blank makes a space with it. -/
theorem consTidy_cons_of_blank {c d : Char} (hc : isScriptBlank c = true)
    (hd : isScriptBlank d = true) (out : List Char) : consTidy c (d :: out) = ' ' :: out :=
  if_pos ⟨hc, hd⟩

/-- Two blanks are as good as one space. -/
theorem consTidy_consTidy {c d : Char} (hc : isScriptBlank c = true) (hd : isScriptBlank d = true)
    (out : List Char) : consTidy c (consTidy d out) = consTidy ' ' out := by
  have hspace : isScriptBlank ' ' = true := by decide
  cases out with
  | nil => exact consTidy_cons_of_blank hc hd []
  | cons e out =>
    by_cases he : isScriptBlank e = true
    · rw [consTidy_cons_of_blank hd he, consTidy_cons_of_blank hc hspace,
        consTidy_cons_of_blank hspace he]
    · rw [Bool.not_eq_true] at he
      rw [consTidy_cons_of_not_blank d he, consTidy_cons_of_blank hc hd,
        consTidy_cons_of_not_blank ' ' he]

/-! ## The pass, from its end -/

/-- The pass puts what is pending in front of the collapsed rest. -/
theorem collapseFrom_eq_foldr (pending : Option (Char × Bool)) (cs : List Char)
    (hpending : ∀ c ∈ Pending.flush pending, isScriptBlank c = true) :
    collapseFrom pending cs = (Pending.flush pending).foldr consTidy (collapseChars cs) := by
  -- on the text still to read; a blank changes what is pending, so that is general
  induction cs generalizing pending with
  | nil => rcases pending with _ | ⟨first, _ | _⟩ <;> rfl
  | cons c cs ih =>
    by_cases hc : isScriptBlank c = true
    · have hsingle : collapseChars (c :: cs) = consTidy c (collapseChars cs) := by
        rw [collapseChars, collapseFrom_cons_of_blank none cs hc]
        exact ih _ (by simpa [Pending.hold, Pending.flush] using hc)
      have hlong : ∀ first, collapseFrom (some (first, true)) cs =
          consTidy ' ' (collapseChars cs) := by
        intro first
        refine ih (some (first, true)) fun d hd => ?_
        rw [List.mem_singleton.mp hd]
        decide
      rcases pending with _ | ⟨first, _ | _⟩
      · rfl
      · have hfirst : isScriptBlank first = true := hpending first List.mem_cons_self
        rw [collapseFrom_cons_of_blank _ cs hc, hsingle]
        exact (hlong first).trans (consTidy_consTidy hfirst hc _).symm
      · rw [collapseFrom_cons_of_blank _ cs hc, hsingle]
        exact (hlong first).trans (consTidy_consTidy (by decide) hc _).symm
    · rw [Bool.not_eq_true] at hc
      have hplain : collapseChars (c :: cs) = c :: collapseChars cs :=
        collapseFrom_cons_of_not_blank none cs hc
      rw [collapseFrom_cons_of_not_blank pending cs hc, hplain]
      rcases pending with _ | ⟨first, _ | _⟩
      · rfl
      · exact (consTidy_cons_of_not_blank first hc _).symm
      · exact (consTidy_cons_of_not_blank ' ' hc _).symm

/-- A character more is put in front of what the rest collapses to. -/
theorem collapseChars_cons (c : Char) (cs : List Char) :
    collapseChars (c :: cs) = consTidy c (collapseChars cs) := by
  by_cases hc : isScriptBlank c = true
  · rw [collapseChars, collapseFrom_cons_of_blank none cs hc]
    exact collapseFrom_eq_foldr _ cs (by simpa [Pending.hold, Pending.flush] using hc)
  · rw [Bool.not_eq_true] at hc
    rw [consTidy_of_not_blank hc]
    exact collapseFrom_cons_of_not_blank none cs hc

/-- A text collapses in front of what the text behind it collapses to. -/
theorem collapseChars_append (cs ds : List Char) :
    collapseChars (cs ++ ds) = cs.foldr consTidy (collapseChars ds) := by
  induction cs with
  | nil => rfl
  | cons c cs ih => rw [List.cons_append, collapseChars_cons, ih, List.foldr_cons]

/-! ## Joining collapsed texts -/

/-- What was put together and comes before a text once more is put in front of it as before. -/
theorem foldr_consTidy (c : Char) (out behind : List Char) :
    (consTidy c out).foldr consTidy behind = consTidy c (out.foldr consTidy behind) := by
  cases out with
  | nil => rfl
  | cons d out =>
    by_cases hblank : isScriptBlank c = true ∧ isScriptBlank d = true
    · rw [consTidy_cons_of_blank hblank.1 hblank.2, List.foldr_cons, List.foldr_cons,
        consTidy_consTidy hblank.1 hblank.2]
    · rw [consTidy, if_neg hblank]
      rfl

/-- A collapsed text in front is as good as the text itself. -/
theorem foldr_collapseChars (cs behind : List Char) :
    (collapseChars cs).foldr consTidy behind = cs.foldr consTidy behind := by
  induction cs with
  | nil => rfl
  | cons c cs ih => rw [collapseChars_cons, foldr_consTidy, ih, List.foldr_cons]

/-- The part in front may be collapsed before. -/
theorem collapseChars_append_left (cs ds : List Char) :
    collapseChars (collapseChars cs ++ ds) = collapseChars (cs ++ ds) := by
  rw [collapseChars_append, collapseChars_append, foldr_collapseChars]

/-- The part behind may be collapsed before. -/
theorem collapseChars_append_right (cs ds : List Char) :
    collapseChars (cs ++ collapseChars ds) = collapseChars (cs ++ ds) := by
  have honce : collapseChars (collapseChars ds) = collapseChars ds := by
    have hleft := collapseChars_append_left ds []
    rwa [List.append_nil, List.append_nil] at hleft
  rw [collapseChars_append, collapseChars_append, honce]

/-- The text in front of another may be collapsed before they are joined. -/
theorem collapse_append_left (s t : String) : collapse (collapse s ++ t) = collapse (s ++ t) := by
  simp only [collapse, String.toList_append, String.toList_ofList, collapseChars_append_left]

/-- **Texts may be collapsed before they are joined.** -/
theorem collapse_append (s t : String) :
    collapse (s ++ t) = collapse (collapse s ++ collapse t) := by
  simp only [collapse, String.toList_append, String.toList_ofList, collapseChars_append_left,
    collapseChars_append_right]

/-! ## Lengths -/

theorem unitsOf_cons (c : Char) (cs : List Char) :
    unitsOf (c :: cs) = charUnits c + unitsOf cs := rfl

/-- Every blank is one unit long. -/
theorem charUnits_of_blank {c : Char} (hc : isScriptBlank c = true) : charUnits c = 1 := by
  have hcode : c.toNat < 0x10000 := by
    simp only [isScriptBlank, isCommonBlank, Bool.or_eq_true, Bool.and_eq_true, decide_eq_true_eq,
      beq_iff_eq] at hc
    omega
  exact if_pos hcode

/-- Every character is one unit long at least. -/
theorem one_le_charUnits (c : Char) : 1 ≤ charUnits c := by
  rw [charUnits]
  split <;> omega

/-- A character in front adds its own length at most. -/
theorem unitsOf_consTidy_le (c : Char) (out : List Char) :
    unitsOf (consTidy c out) ≤ charUnits c + unitsOf out := by
  cases out with
  | nil => exact Nat.le_refl _
  | cons d out =>
    by_cases hblank : isScriptBlank c = true ∧ isScriptBlank d = true
    · have hspace : charUnits ' ' = 1 := rfl
      rw [consTidy_cons_of_blank hblank.1 hblank.2, unitsOf_cons, unitsOf_cons, hspace,
        charUnits_of_blank hblank.1, charUnits_of_blank hblank.2]
      omega
    · rw [consTidy, if_neg hblank, unitsOf_cons]

/-- A text collapses to one that is no longer. -/
theorem unitsOf_collapseChars_le (cs : List Char) : unitsOf (collapseChars cs) ≤ unitsOf cs := by
  induction cs with
  | nil => exact Nat.le_refl _
  | cons c cs ih =>
    have hcons := unitsOf_consTidy_le c (collapseChars cs)
    rw [collapseChars_cons, unitsOf_cons]
    omega

/-- A character that is no blank adds its length. -/
theorem unitsOf_collapseChars_cons {c : Char} (hc : isScriptBlank c = false) (cs : List Char) :
    unitsOf (collapseChars (c :: cs)) = charUnits c + unitsOf (collapseChars cs) := by
  rw [collapseChars_cons, consTidy_of_not_blank hc, unitsOf_cons]

/-- So it does behind a space, which adds its own. -/
theorem unitsOf_collapseChars_space_cons {c : Char} (hc : isScriptBlank c = false)
    (cs : List Char) :
    unitsOf (collapseChars (' ' :: c :: cs)) = 1 + (charUnits c + unitsOf (collapseChars cs)) := by
  rw [collapseChars_cons, collapseChars_cons, consTidy_of_not_blank hc,
    consTidy_cons_of_not_blank ' ' hc, unitsOf_cons, unitsOf_cons]
  rfl

/-- A blank behind a space adds nothing. -/
theorem collapseChars_space_cons {c : Char} (hc : isScriptBlank c = true) (cs : List Char) :
    collapseChars (' ' :: c :: cs) = collapseChars (' ' :: cs) := by
  rw [collapseChars_cons, collapseChars_cons, collapseChars_cons,
    consTidy_consTidy (by decide) hc]

/-- Whichever blank is in front, the length is that with a space. -/
theorem unitsOf_collapseChars_blank {c : Char} (hc : isScriptBlank c = true) (cs : List Char) :
    unitsOf (collapseChars (c :: cs)) = unitsOf (collapseChars (' ' :: cs)) := by
  have hspace : isScriptBlank ' ' = true := by decide
  have hunits : charUnits c = charUnits ' ' := by
    rw [charUnits_of_blank hc, charUnits_of_blank hspace]
  rw [collapseChars_cons, collapseChars_cons]
  generalize collapseChars cs = out
  cases out with
  | nil => exact congrArg (· + unitsOf []) hunits
  | cons d out =>
    by_cases hd : isScriptBlank d = true
    · rw [consTidy_cons_of_blank hc hd, consTidy_cons_of_blank hspace hd]
    · rw [Bool.not_eq_true] at hd
      rw [consTidy_cons_of_not_blank c hd, consTidy_cons_of_not_blank ' ' hd, unitsOf_cons, hunits,
        unitsOf_cons ' ']

/-- A space in front adds one unit or none. -/
theorem unitsOf_collapseChars_space (cs : List Char) :
    unitsOf (collapseChars cs) ≤ unitsOf (collapseChars (' ' :: cs)) ∧
      unitsOf (collapseChars (' ' :: cs)) ≤ 1 + unitsOf (collapseChars cs) := by
  rw [collapseChars_cons]
  refine ⟨?_, unitsOf_consTidy_le ' ' (collapseChars cs)⟩
  generalize collapseChars cs = out
  cases out with
  | nil => exact Nat.zero_le _
  | cons d out =>
    by_cases hd : isScriptBlank d = true
    · rw [consTidy_cons_of_blank (by decide) hd, unitsOf_cons, unitsOf_cons, charUnits_of_blank hd]
      exact Nat.le_refl _
    · rw [Bool.not_eq_true] at hd
      rw [consTidy_cons_of_not_blank ' ' hd, unitsOf_cons ' ']
      exact Nat.le_add_left _ _

/-! ## Deleting characters -/

/-- What is left of a text collapses to no more than the text did, and the same behind a space. -/
theorem unitsOf_collapseChars_of_sublist {left cs : List Char} (h : left.Sublist cs) :
    unitsOf (collapseChars left) ≤ unitsOf (collapseChars cs) ∧
      unitsOf (collapseChars (' ' :: left)) ≤ unitsOf (collapseChars (' ' :: cs)) := by
  -- the second half is for the blanks that a deletion brings together
  induction h with
  | slnil => exact ⟨Nat.le_refl _, Nat.le_refl _⟩
  | @cons left cs c h ih =>
    obtain ⟨hplain, hspace⟩ := ih
    by_cases hc : isScriptBlank c = true
    · rw [unitsOf_collapseChars_blank hc, collapseChars_space_cons hc]
      have hgrows := (unitsOf_collapseChars_space cs).1
      omega
    · rw [Bool.not_eq_true] at hc
      rw [unitsOf_collapseChars_cons hc, unitsOf_collapseChars_space_cons hc]
      have hone := one_le_charUnits c
      have hgrows := (unitsOf_collapseChars_space left).2
      omega
  | @cons_cons left cs c h ih =>
    obtain ⟨hplain, hspace⟩ := ih
    by_cases hc : isScriptBlank c = true
    · rw [unitsOf_collapseChars_blank hc, unitsOf_collapseChars_blank hc,
        collapseChars_space_cons hc, collapseChars_space_cons hc]
      exact ⟨hspace, hspace⟩
    · rw [Bool.not_eq_true] at hc
      rw [unitsOf_collapseChars_cons hc, unitsOf_collapseChars_cons hc,
        unitsOf_collapseChars_space_cons hc, unitsOf_collapseChars_space_cons hc]
      omega

/-- **Deleting characters never makes a collapsed text longer.** -/
theorem units_collapse_of_sublist {left s : String} (h : left.toList.Sublist s.toList) :
    units (collapse left) ≤ units (collapse s) := by
  have hunits := (unitsOf_collapseChars_of_sublist h).1
  simpa only [units, collapse, String.toList_ofList] using hunits

/-- A text collapses to one that is no longer than itself. -/
theorem units_collapse_le (s : String) : units (collapse s) ≤ units s := by
  simpa only [units, collapse, String.toList_ofList] using unitsOf_collapseChars_le s.toList

end PinBoard.Text
