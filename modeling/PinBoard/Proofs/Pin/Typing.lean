import PinBoard.Proofs.Pin.Flow
import PinBoard.Proofs.Text.Pieces

/-!
# Typing and deleting

The blurb comes out the same whether a text is typed piece by piece or pasted at once, as long as
the whole of it fits. And whatever is deleted from the blurb, what is left is accepted, so nobody is
stuck at the limit.
-/

namespace PinBoard

/-! ## Edits that are accepted -/

/-- An edit whose collapsed text fits takes effect. -/
theorem Blurb.text_edit_of_fits (b : Blurb) {raw : String}
    (hfits : Text.units (Text.collapse raw) ≤ 250) : (b.edit raw).text = Text.collapse raw := by
  rw [Flow.text_edit, if_pos hfits]

/-- What is left of the text after a deletion fits. -/
theorem Blurb.fits_of_sublist (b : Blurb) {left : String}
    (h : left.toList.Sublist b.text.toList) : Text.units (Text.collapse left) ≤ 250 :=
  calc Text.units (Text.collapse left)
      ≤ Text.units (Text.collapse b.text) := Text.units_collapse_of_sublist h
    _ ≤ Text.units b.text := Text.units_collapse_le b.text
    _ ≤ 250 := b.fits

/-- **Deleting is never refused.**  A text from which characters were deleted collapses to no more
units than the text itself. So whatever is deleted from a blurb, in every state of a run, the edit
is accepted, and the text becomes what is left, collapsed. -/
theorem deletion_accepted :
    (∀ s left : String, left.toList.Sublist s.toList →
      Text.units (Text.collapse left) ≤ Text.units (Text.collapse s)) ∧
    (∀ (b : Blurb) (left : String), left.toList.Sublist b.text.toList →
      Text.units (Text.collapse left) ≤ 250 ∧ (b.edit left).text = Text.collapse left) ∧
    ∀ (viewer : Viewer) (recording : Option Listen) (steps : List Flow.Step) (n : Nat),
      n ≤ steps.length → ∃ s, ((Flow.State.start viewer recording).trail steps)[n]? = some s ∧
        ∀ left : String, left.toList.Sublist s.blurb.text.toList →
          Text.units (Text.collapse left) ≤ 250 ∧
            (s.step (.edit left)).1.blurb.text = Text.collapse left := by
  have hblurb : ∀ (b : Blurb) (left : String), left.toList.Sublist b.text.toList →
      Text.units (Text.collapse left) ≤ 250 ∧ (b.edit left).text = Text.collapse left := by
    intro b left h
    have hfits := b.fits_of_sublist h
    exact ⟨hfits, b.text_edit_of_fits hfits⟩
  refine ⟨fun s left h => Text.units_collapse_of_sublist h, hblurb, ?_⟩
  intro viewer recording steps n hn
  refine ⟨_, Flow.State.getElem?_trail _ steps hn, fun left h => ?_⟩
  exact hblurb ((Flow.State.start viewer recording).after (steps.take n)).blurb left h

/-- The letters between three blanks are deleted, and the blanks become one. -/
theorem deletion_accepted_letters :
    "\t \n".toList.Sublist "\ta b\n".toList ∧
      Text.units (Text.collapse "\t \n") ≤ Text.units (Text.collapse "\ta b\n") ∧
      1 ≤ [Flow.Step.edit "\ta b\n"].length ∧
      ∃ s, ((Flow.State.start ⟨none, false⟩ none).trail [.edit "\ta b\n"])[1]? = some s ∧
        "\t \n".toList.Sublist s.blurb.text.toList ∧
        (s.step (.edit "\t \n")).1.blurb.text = " " := by
  have hsublist : "\t \n".toList.Sublist "\ta b\n".toList := by decide
  obtain ⟨hunits, -, hrun⟩ := deletion_accepted
  obtain ⟨s, hs, hdelete⟩ := hrun ⟨none, false⟩ none [.edit "\ta b\n"] 1 (by decide)
  have htext : s.blurb.text = "\ta b\n" := by
    have hstate := Flow.State.getElem?_trail (Flow.State.start ⟨none, false⟩ none)
      [.edit "\ta b\n"] (n := 1) (by decide)
    rw [hs, Option.some.injEq] at hstate
    rw [hstate]
    decide +kernel
  have hleft : "\t \n".toList.Sublist s.blurb.text.toList := by
    rw [htext]
    exact hsublist
  refine ⟨hsublist, hunits _ _ hsublist, by decide, s, hs, hleft, ?_⟩
  rw [(hdelete _ hleft).2]
  decide +kernel

/-! ## Typing piece by piece -/

/-- Types pieces one after the other, each behind the text that is there. -/
def Blurb.type (b : Blurb) (pieces : List String) : Blurb :=
  pieces.foldl (fun b piece => b.edit (b.text ++ piece)) b

/-- The last piece is typed behind what the others have become. -/
theorem Blurb.type_concat (b : Blurb) (pieces : List String) (piece : String) :
    b.type (pieces ++ [piece]) = (b.type pieces).edit ((b.type pieces).text ++ piece) := by
  rw [Blurb.type, List.foldl_concat]
  rfl

/-- The first part of a text that fits, fits as well. -/
theorem fits_of_append {s t : String} (h : Text.units (Text.collapse (s ++ t)) ≤ 250) :
    Text.units (Text.collapse s) ≤ 250 := by
  refine Nat.le_trans (Text.units_collapse_of_sublist ?_) h
  rw [String.toList_append]
  exact List.sublist_append_left s.toList t.toList

/-- A piece behind text that was typed is accepted as long as the whole fits. -/
theorem Blurb.fits_of_typed {b : Blurb} {typed piece : String}
    (htyped : b.text = Text.collapse typed)
    (hfits : Text.units (Text.collapse (typed ++ piece)) ≤ 250) :
    Text.units (Text.collapse (b.text ++ piece)) ≤ 250 ∧
      (b.edit (b.text ++ piece)).text = Text.collapse (typed ++ piece) := by
  have hwhole : Text.collapse (b.text ++ piece) = Text.collapse (typed ++ piece) := by
    rw [htyped, Text.collapse_append_left]
  rw [← hwhole] at hfits
  refine ⟨hfits, ?_⟩
  rw [b.text_edit_of_fits hfits, hwhole]

/-- What was typed is there, collapsed as a whole. -/
theorem Blurb.text_type {pieces : List String}
    (hfits : Text.units (Text.collapse (String.join pieces)) ≤ 250) :
    (Blurb.empty.type pieces).text = Text.collapse (String.join pieces) := by
  -- from the last piece backwards, as each is typed behind the ones before it
  induction pieces using List.reverseRecOn with
  | nil => decide +kernel
  | append_singleton pieces piece ih =>
    have hjoin : String.join (pieces ++ [piece]) = String.join pieces ++ piece := by
      simp [String.join_append]
    rw [hjoin] at hfits ⊢
    rw [Blurb.type_concat]
    exact (Blurb.fits_of_typed (ih (fits_of_append hfits)) hfits).2

/-- **Typing is as good as pasting.**  Texts may be collapsed before they are joined and after.
So pieces that fit as a whole may be typed into an empty blurb one by one: each is accepted, and the
text that comes out is that of a single edit with the whole. -/
theorem typing_is_pasting :
    (∀ s t : String,
      Text.collapse (s ++ t) = Text.collapse (Text.collapse s ++ Text.collapse t)) ∧
    ∀ pieces : List String, Text.units (Text.collapse (String.join pieces)) ≤ 250 →
      (∀ (before : List String) (piece : String) (behind : List String),
        pieces = before ++ piece :: behind →
          let b := Blurb.empty.type before
          Text.units (Text.collapse (b.text ++ piece)) ≤ 250 ∧
            (b.edit (b.text ++ piece)).text = Text.collapse (b.text ++ piece)) ∧
      (Blurb.empty.type pieces).text = Text.collapse (String.join pieces) ∧
      (Blurb.empty.type pieces).text = (Blurb.empty.edit (String.join pieces)).text := by
  refine ⟨Text.collapse_append, fun pieces hfits => ⟨?_, Blurb.text_type hfits, ?_⟩⟩
  · rintro before piece behind rfl
    have hjoin : String.join (before ++ piece :: behind) =
        String.join before ++ piece ++ String.join behind := by
      simp [String.join_append, String.append_assoc]
    rw [hjoin] at hfits
    have hpiece := fits_of_append hfits
    have htyped := Blurb.text_type (fits_of_append hpiece)
    have haccepted := (Blurb.fits_of_typed htyped hpiece).1
    exact ⟨haccepted, Blurb.text_edit_of_fits _ haccepted⟩
  · rw [Blurb.text_type hfits, Blurb.text_edit_of_fits _ hfits]

/-- Blanks at the ends of pieces, and a piece of nothing else, make one space. -/
theorem typing_is_pasting_blanks :
    Text.units (Text.collapse (String.join ["a ", "", "\t\t", "\nb"])) ≤ 250 ∧
      (Blurb.empty.type ["a ", "", "\t\t", "\nb"]).text = "a b" := by
  have hfits : Text.units (Text.collapse (String.join ["a ", "", "\t\t", "\nb"])) ≤ 250 := by
    decide +kernel
  refine ⟨hfits, ((typing_is_pasting.2 _ hfits).2.1).trans ?_⟩
  decide +kernel

end PinBoard
