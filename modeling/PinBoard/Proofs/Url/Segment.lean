import PinBoard.Proofs.Text.Percent
import PinBoard.Url.Parse

/-!
# Segments that are added to a path

Whatever text is added to the path of an address makes one segment at most, and nothing in it ends
the segment. Only a text that has become two dots by the loss of its tabs and line breaks reaches
beyond its place.
-/

namespace PinBoard.Url

/-! ## Plain segments -/

/-- A segment of visible characters of ASCII that ends at its end and nowhere before it, and that is
taken neither for the place it stands in nor for the one above. -/
structure IsPlainSegment (s : String) : Prop where
  visible : ∀ c ∈ s.toList, 0x20 < c.toNat ∧ c.toNat ≤ 0x7E
  closed : ∀ c ∈ s.toList, c ≠ '/' ∧ c ≠ '\\' ∧ c ≠ '?' ∧ c ≠ '#'
  noDots : s ∉ doubleDots ∧ s ∉ singleDots

/-- A text without its tabs and line breaks. -/
def withoutIgnored (s : String) : String :=
  String.ofList (s.toList.filter fun c => !isIgnored c)

/-- A text that becomes two dots by the loss of tabs and line breaks. -/
def Climbs (s : String) : Prop := s ≠ ".." ∧ withoutIgnored s = ".."

instance (s : String) : Decidable (Climbs s) := inferInstanceAs (Decidable (_ ∧ _))

/-! ## Written segments -/

/-- A written segment stands for the text that it was written from. -/
theorem percentDecode?_segmentText (special : Bool) (s : String) :
    Text.percentDecode? (segmentText special s) = some (withoutIgnored s) :=
  Text.percentDecode?_percentEncode rfl _

/-- What is dropped from a text makes no difference to its segment. -/
theorem segmentText_withoutIgnored (special : Bool) (s : String) :
    segmentText special (withoutIgnored s) = segmentText special s := by
  unfold segmentText withoutIgnored
  rw [String.toList_ofList, List.filter_filter]
  simp only [Bool.and_self]

/-- So it is two dots, or one, if the text has come to that. -/
theorem segmentText_eq_iff {special : Bool} {s dots : String}
    (hdots : segmentText special dots = dots) (hclean : withoutIgnored dots = dots) :
    segmentText special s = dots ↔ withoutIgnored s = dots := by
  constructor
  · intro h
    have hread := percentDecode?_segmentText special s
    rw [h, ← hdots, percentDecode?_segmentText, hclean] at hread
    exact (Option.some.inj hread).symm
  · intro h
    rw [← segmentText_withoutIgnored, h, hdots]

theorem segmentText_eq_doubleDot_iff {special : Bool} {s : String} :
    segmentText special s = ".." ↔ withoutIgnored s = ".." := by
  cases special <;> exact segmentText_eq_iff rfl rfl

theorem segmentText_eq_singleDot_iff {special : Bool} {s : String} :
    segmentText special s = "." ↔ withoutIgnored s = "." := by
  cases special <;> exact segmentText_eq_iff rfl rfl

/-- A digit of a written byte is visible and ends nothing. -/
theorem plain_of_isHexDigit {c : Char} (h : Text.IsHexDigit c) :
    (0x20 < c.toNat ∧ c.toNat ≤ 0x7E) ∧ c ≠ '/' ∧ c ≠ '\\' ∧ c ≠ '?' ∧ c ≠ '#' := by
  have hall : ∀ n < 16, (0x20 < (Text.hexDigit n).toNat ∧ (Text.hexDigit n).toNat ≤ 0x7E) ∧
      Text.hexDigit n ≠ '/' ∧ Text.hexDigit n ≠ '\\' ∧ Text.hexDigit n ≠ '?' ∧
      Text.hexDigit n ≠ '#' := by decide
  obtain ⟨n, hn, rfl⟩ := h
  exact hall n hn

/-- The characters of a segment of a special address are visible and end nothing. -/
theorem plain_of_mem_segmentText {s : String} {c : Char} (h : c ∈ (segmentText true s).toList) :
    (0x20 < c.toNat ∧ c.toNat ≤ 0x7E) ∧ c ≠ '/' ∧ c ≠ '\\' ∧ c ≠ '?' ∧ c ≠ '#' := by
  rw [segmentText, String.toList_ofList] at h
  rcases Text.mem_percentEncode h with (rfl | hdigit) | ⟨-, hvisible, hfree⟩
  · decide
  · exact plain_of_isHexDigit hdigit
  · simp only [Text.isAlwaysEncoded, Bool.or_eq_false_iff, decide_eq_false_iff_not] at hvisible
    simp only [isEncodedInSegment, isEncodedInPath, isEncodedInFragment, Bool.or_eq_false_iff,
      decide_eq_false_iff_not, Bool.true_and] at hfree
    have hblank : c.toNat ≠ 0x20 := by
      intro hcode
      have hspace : c = ' ' := by
        rw [← Char.ofNat_toNat c, hcode]
      exact absurd hspace (by tauto)
    exact ⟨by omega, by tauto⟩

/-- **A written segment is plain**, unless it stands for the place it is in or the one above. -/
theorem isPlainSegment_segmentText {s : String} (hdouble : withoutIgnored s ≠ "..")
    (hsingle : withoutIgnored s ≠ ".") : IsPlainSegment (segmentText true s) where
  visible c hc := (plain_of_mem_segmentText hc).1
  closed c hc := (plain_of_mem_segmentText hc).2
  noDots := by
    -- whatever way dots are spelled, they are read as dots, and this segment is not
    have hdots : (∀ d ∈ doubleDots, Text.percentDecode? d = some "..") ∧
        ∀ d ∈ singleDots, Text.percentDecode? d = some "." := by decide +kernel
    have hread := percentDecode?_segmentText true s
    constructor
    · intro hmem
      rw [hdots.1 _ hmem] at hread
      exact hdouble (Option.some.inj hread).symm
    · intro hmem
      rw [hdots.2 _ hmem] at hread
      exact hsingle (Option.some.inj hread).symm

theorem isPlainSegment_empty : IsPlainSegment "" where
  visible c hc := absurd hc (by simp)
  closed c hc := absurd hc (by simp)
  noDots := by decide

/-! ## Paths -/

theorem openPath_of_ne {path : List String} (h : path ≠ [""]) : openPath path = path := if_neg h

/-- Only a path of two empty segments leaves one empty segment, the root's. -/
theorem dropEmptyEnd_eq_root_iff {path : List String} :
    dropEmptyEnd path = [""] ↔ path = ["", ""] := by
  constructor
  · intro h
    rw [dropEmptyEnd] at h
    split at h
    · rename_i hlast
      rw [← List.dropLast_append_getLast? "" hlast, h]
      rfl
    · rename_i hlast
      rw [h] at hlast
      exact absurd rfl hlast
  · rintro rfl
    rfl

section Adding

variable {special : Bool} {path : List String} {s : String}

theorem addSegment_of_dots (h : s = "." ∨ s = "..") : addSegment special path s = path := by
  rw [addSegment, if_pos (by simpa using h)]

theorem addSegment_of_not_dots (h : ¬ (s = "." ∨ s = "..")) :
    addSegment special path s = addWritten path (segmentText special s) := by
  rw [addSegment, if_neg (by simpa using h)]

/-- A text that is written as it is and is no dot segment comes to the end of the path. -/
theorem addSegment_of_written (hwritten : segmentText special s = s) (h : ¬ (s = "." ∨ s = "..")) :
    addSegment special path s = openPath path ++ [s] := by
  rw [not_or] at h
  rw [addSegment_of_not_dots (not_or.mpr h), hwritten, addWritten, if_neg h.2, if_neg h.1]

/-- **One segment at most.**  A text that does not climb adds one plain segment to a path, or none,
whatever the path is. -/
theorem exists_addSegment (h : ¬ Climbs s) :
    ∃ added : Option String, (∀ segment ∈ added, IsPlainSegment segment) ∧
      ∀ path ≠ [""], addSegment true path s = path ++ added.toList := by
  by_cases hskipped : s = "." ∨ s = ".."
  · refine ⟨none, by simp, fun path _ => ?_⟩
    rw [addSegment_of_dots hskipped, Option.toList_none, List.append_nil]
  · have hdouble : withoutIgnored s ≠ ".." := fun heq => h ⟨(not_or.mp hskipped).2, heq⟩
    by_cases hsingle : withoutIgnored s = "."
    -- nothing but a dot is left: the place stays empty
    · refine ⟨some "", by simpa using isPlainSegment_empty, fun path hpath => ?_⟩
      rw [addSegment_of_not_dots hskipped, segmentText_eq_singleDot_iff.mpr hsingle, addWritten,
        if_neg (by decide), if_pos rfl, openPath_of_ne hpath, Option.toList_some]
    · refine ⟨some (segmentText true s), ?_, fun path hpath => ?_⟩
      · simpa using isPlainSegment_segmentText hdouble hsingle
      · rw [addSegment_of_not_dots hskipped, addWritten,
          if_neg (mt segmentText_eq_doubleDot_iff.mp hdouble),
          if_neg (mt segmentText_eq_singleDot_iff.mp hsingle), openPath_of_ne hpath,
          Option.toList_some]

/-- A text that climbs takes the segment before it away. -/
theorem addSegment_of_climbs (h : Climbs s) (hpath : path ≠ [""]) :
    addSegment special path s = path.dropLast ++ [""] := by
  have hskipped : ¬ (s = "." ∨ s = "..") := by
    rintro (rfl | rfl)
    · exact absurd h (by decide +kernel)
    · exact h.1 rfl
  rw [addSegment_of_not_dots hskipped, segmentText_eq_doubleDot_iff.mpr h.2, addWritten,
    if_pos rfl, openPath_of_ne hpath]

end Adding

end PinBoard.Url
