import PinBoard.Text.Collapse
import Mathlib.Data.List.Chain

/-!
# Collapsed texts

The one-pass collapse leaves no two blanks side by side: what it holds back for a run of blanks
comes out as one character at most, and the character behind it is no blank.
-/

namespace PinBoard.Text

/-! ## One character of the pass -/

/-- What is pending once one more blank was read. -/
def Pending.hold (c : Char) : Option (Char × Bool) → Char × Bool
  | none => (c, false)
  | some (first, _) => (first, true)

/-- A blank is held back. -/
theorem collapseFrom_cons_of_blank (pending : Option (Char × Bool)) {c : Char} (rest : List Char)
    (hc : isScriptBlank c = true) :
    collapseFrom pending (c :: rest) = collapseFrom (some (Pending.hold c pending)) rest := by
  rcases pending with _ | ⟨first, _⟩ <;> rw [collapseFrom.eq_def] <;> simp only [hc, if_true] <;> rfl

/-- Any other character is written behind what was pending. -/
theorem collapseFrom_cons_of_not_blank (pending : Option (Char × Bool)) {c : Char}
    (rest : List Char) (hc : isScriptBlank c = false) :
    collapseFrom pending (c :: rest) = Pending.flush pending ++ c :: collapseFrom none rest := by
  rw [collapseFrom.eq_def]
  simp only [hc, Bool.false_eq_true, if_false]

/-! ## Neighbouring blanks -/

/-- No two neighbours are both blanks of the script class. -/
def HasNoBlankPair (cs : List Char) : Prop :=
  cs.IsChain fun c d => ¬ (isScriptBlank c = true ∧ isScriptBlank d = true)

/-- A character that is no blank may stand before a text without blank pairs. -/
theorem hasNoBlankPair_cons_of_not_blank {c : Char} {cs : List Char}
    (hc : isScriptBlank c = false) (hcs : HasNoBlankPair cs) : HasNoBlankPair (c :: cs) := by
  rw [HasNoBlankPair, List.isChain_cons]
  refine ⟨fun d _ hcd => ?_, hcs⟩
  rw [hc] at hcd
  exact Bool.false_ne_true hcd.1

/-- A pending run may stand before a character that is no blank: it is written as at most one
character. -/
theorem hasNoBlankPair_flush_append (pending : Option (Char × Bool)) {c : Char} {cs : List Char}
    (hc : isScriptBlank c = false) (hcs : HasNoBlankPair (c :: cs)) :
    HasNoBlankPair (Pending.flush pending ++ c :: cs) := by
  -- one character in front cannot make a pair, whatever it is: its neighbour is no blank
  have hone : ∀ d : Char, HasNoBlankPair (d :: c :: cs) := by
    intro d
    rw [HasNoBlankPair, List.isChain_cons_cons]
    refine ⟨fun hdc => ?_, hcs⟩
    rw [hc] at hdc
    exact Bool.false_ne_true hdc.2
  rcases pending with _ | ⟨first, _ | _⟩
  · exact hcs
  · exact hone first
  · exact hone ' '

/-! ## The pass -/

/-- **The pass leaves no blank pair**, whatever run it starts within. -/
theorem hasNoBlankPair_collapseFrom (pending : Option (Char × Bool)) (cs : List Char) :
    HasNoBlankPair (collapseFrom pending cs) := by
  -- on the text still to read; a blank changes what is pending, so that is general
  induction cs generalizing pending with
  | nil =>
    rw [collapseFrom]
    rcases pending with _ | ⟨first, _ | _⟩
    · exact List.isChain_nil
    · exact List.isChain_singleton first
    · exact List.isChain_singleton ' '
  | cons c rest ih =>
    by_cases hc : isScriptBlank c = true
    · rw [collapseFrom_cons_of_blank pending rest hc]
      exact ih _
    · rw [Bool.not_eq_true] at hc
      rw [collapseFrom_cons_of_not_blank pending rest hc]
      exact hasNoBlankPair_flush_append pending hc (hasNoBlankPair_cons_of_not_blank hc (ih none))

/-- A collapsed text has no two blanks side by side. -/
theorem hasNoBlankPair_collapse (s : String) : HasNoBlankPair (collapse s).toList := by
  rw [collapse, String.toList_ofList]
  exact hasNoBlankPair_collapseFrom none s.toList

end PinBoard.Text
