import PinBoard.Markup

/-!
# Written markup

The written form of a text holds none of the characters that would end a text or the value of an
attribute, and the text is read from it again. Pieces in a row are written one after the other.
-/

namespace PinBoard

/-! ## Characters -/

/-- The characters that have a written form of their own. -/
def escapedChars : List Char := ['&', '<', '>', '"', '\'']

/-- The characters that end a text or the value of an attribute. -/
def endingChars : List Char := ['<', '>', '"', '\'']

/-- All others stand for themselves. -/
theorem escapeChar_of_not_mem {c : Char} (h : c ∉ escapedChars) : escapeChar c = [c] := by
  unfold escapeChar
  split
  case h_6 => rfl
  all_goals exact absurd (by decide) h

/-- No character that ends a text is left of a character. -/
theorem not_mem_escapeChar {d : Char} (hd : d ∈ endingChars) (c : Char) : d ∉ escapeChar c := by
  by_cases hc : c ∈ escapedChars
  · have hescaped : ∀ c ∈ escapedChars, ∀ d ∈ endingChars, d ∉ escapeChar c := by
      simp [escapedChars, endingChars, escapeChar]
    exact hescaped c hc d hd
  · have hkept : ∀ d ∈ endingChars, d ∈ escapedChars := by
      simp [escapedChars, endingChars]
    rw [escapeChar_of_not_mem hc, List.mem_singleton]
    rintro rfl
    exact hc (hkept d hd)

/-- What begins no written form is read as it stands. -/
theorem unescape_cons_of_ne {c : Char} (h : c ≠ '&') (rest : List Char) :
    unescape (c :: rest) = c :: unescape rest := by
  rw [unescape]
  all_goals
    intro more heq
    exact absurd heq h

/-- A character is read from its written form, whatever follows. -/
theorem unescape_escapeChar (c : Char) (rest : List Char) :
    unescape (escapeChar c ++ rest) = c :: unescape rest := by
  by_cases hc : c ∈ escapedChars
  · simp only [escapedChars, List.mem_cons, List.not_mem_nil, or_false] at hc
    rcases hc with rfl | rfl | rfl | rfl | rfl
    all_goals rfl
  · have hne : c ≠ '&' := by
      rintro rfl
      exact hc List.mem_cons_self
    rw [escapeChar_of_not_mem hc, List.singleton_append, unescape_cons_of_ne hne]

/-! ## Texts -/

/-- **No character that ends a text is left of a text.** -/
theorem not_mem_escape {d : Char} (hd : d ∈ endingChars) (text : String) : d ∉ escape text := by
  intro hmem
  obtain ⟨c, -, hc⟩ := List.mem_flatMap.mp hmem
  exact not_mem_escapeChar hd c hc

/-- **A text is read from its written form.** -/
theorem unescape_escape (text : String) : unescape (escape text) = text.toList := by
  unfold escape
  induction text.toList with
  | nil => rfl
  | cons c cs ih => rw [List.flatMap_cons, unescape_escapeChar, ih]

example : String.ofList (escape "<b>&\"") = "&#60;b&#62;&#38;&#34;" := by decide

/-- Texts are written one after the other. -/
theorem escape_append (a b : String) : escape (a ++ b) = escape a ++ escape b := by
  unfold escape
  rw [String.toList_append, List.flatMap_append]

/-! ## Rows of pieces -/

/-- What is read off a row one by one is what is read off each, in a row. -/
theorem eq_flatMap {β γ : Type} {f : β → List γ} {g : List β → List γ} (hnil : g [] = [])
    (hcons : ∀ b rest, g (b :: rest) = f b ++ g rest) (bs : List β) : g bs = bs.flatMap f := by
  induction bs with
  | nil => exact hnil
  | cons b rest ih => rw [hcons, ih, List.flatMap_cons]

variable {α : Type}

theorem Node.allChars_eq (ns : List (Node α)) : Node.allChars ns = ns.flatMap Node.chars :=
  eq_flatMap rfl (fun _ _ => rfl) ns

/-- A piece by itself is written as it is in a row. -/
theorem toList_html_singleton (n : Node α) : (html [n]).toList = n.chars := by
  rw [html, String.toList_ofList, Node.allChars_eq, List.flatMap_singleton]

end PinBoard
