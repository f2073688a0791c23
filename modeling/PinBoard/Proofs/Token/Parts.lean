import PinBoard.Proofs.Text.Base64Url
import PinBoard.Token
import Mathlib.Data.List.TakeWhile

/-!
# The parts of a token

A token is taken apart at its last two dots. The symbols of base64 are no dots, so what is put
together of written forms comes apart at the same places, and a text whose first part holds a dot
has no header that could be read.
-/

namespace PinBoard.Token

/-! ## The last dot -/

/-- In a text without a dot nothing is a dot. -/
theorem ne_dot_of_not_mem {cs : List Char} (h : '.' ∉ cs) :
    ∀ c ∈ cs.reverse, decide (c ≠ '.') = true := by
  intro c hc
  rw [decide_eq_true_iff]
  rintro rfl
  exact h (List.mem_reverse.mp hc)

/-- A text is split at a dot with no dot behind it. -/
theorem splitLastDot_append (before : List Char) {behind : List Char} (h : '.' ∉ behind) :
    splitLastDot (before ++ '.' :: behind) = some (before, behind) := by
  have hreverse : (before ++ '.' :: behind).reverse = behind.reverse ++ '.' :: before.reverse := by
    simp
  have htake : (behind.reverse ++ '.' :: before.reverse).takeWhile (· ≠ '.') = behind.reverse := by
    rw [List.takeWhile_append_of_pos (ne_dot_of_not_mem h), List.takeWhile_cons_of_neg (by decide),
      List.append_nil]
  have hdrop : (behind.reverse ++ '.' :: before.reverse).dropWhile (· ≠ '.') =
      '.' :: before.reverse := by
    rw [List.dropWhile_append_of_pos (ne_dot_of_not_mem h), List.dropWhile_cons_of_neg (by decide)]
  unfold splitLastDot
  rw [hreverse, htake, hdrop]
  simp only [List.reverse_reverse]

/-- A text without a dot is not split. -/
theorem splitLastDot_of_not_mem {cs : List Char} (h : '.' ∉ cs) : splitLastDot cs = none := by
  have hdrop : cs.reverse.dropWhile (· ≠ '.') = [] :=
    List.dropWhile_eq_nil_iff.mpr (ne_dot_of_not_mem h)
  unfold splitLastDot
  rw [hdrop]

/-- What a split says of a text. -/
theorem splitLastDot_eq_some_iff {cs before behind : List Char} :
    splitLastDot cs = some (before, behind) ↔ cs = before ++ '.' :: behind ∧ '.' ∉ behind := by
  constructor
  · intro h
    by_cases hmem : '.' ∈ cs.reverse
    · obtain ⟨last, first, hreverse, hlast⟩ := List.eq_append_cons_of_mem hmem
      have hcs : cs = first.reverse ++ '.' :: last.reverse := by
        rw [← List.reverse_reverse cs, hreverse]
        simp
      have hdot : '.' ∉ last.reverse := by
        rw [List.mem_reverse]
        exact hlast
      rw [hcs, splitLastDot_append _ hdot] at h
      obtain ⟨rfl, rfl⟩ := Prod.mk.inj (Option.some.inj h)
      exact ⟨hcs, hdot⟩
    · rw [List.mem_reverse] at hmem
      rw [splitLastDot_of_not_mem hmem] at h
      exact absurd h (by simp)
  · rintro ⟨rfl, hdot⟩
    exact splitLastDot_append before hdot

/-! ## Three parts -/

/-- A token consists of three parts, of which the last two have no dot in them. -/
theorem Parts.ofChars?_eq_some_iff {cs : List Char} {p : Parts} :
    Parts.ofChars? cs = some p ↔
      cs = p.message ++ '.' :: p.signature ∧ '.' ∉ p.claims ∧ '.' ∉ p.signature := by
  unfold Parts.ofChars? Parts.message
  constructor
  · intro h
    obtain ⟨⟨message, signature⟩, houter, h⟩ := Option.bind_eq_some_iff.mp h
    obtain ⟨⟨header, claims⟩, hinner, h⟩ := Option.bind_eq_some_iff.mp h
    rw [← Option.some.inj h]
    obtain ⟨rfl, hsignature⟩ := splitLastDot_eq_some_iff.mp houter
    obtain ⟨rfl, hclaims⟩ := splitLastDot_eq_some_iff.mp hinner
    exact ⟨rfl, hclaims, hsignature⟩
  · rintro ⟨rfl, hclaims, hsignature⟩
    refine Option.bind_eq_some_iff.mpr ⟨_, splitLastDot_append _ hsignature, ?_⟩
    exact Option.bind_eq_some_iff.mpr ⟨_, splitLastDot_append _ hclaims, rfl⟩

/-! ## Written parts -/

/-- A part is read as the bytes it is the written form of. -/
theorem bytesOfPart_eq_ok_iff {cs : List Char} {bytes : List UInt8} :
    bytesOfPart cs = .ok bytes ↔ cs = Base64Url.encode bytes := by
  rw [bytesOfPart, mapError_eq_ok_iff, Base64Url.decode_eq_ok_iff]
  exact ⟨Text.Utf8.encodeChars_injective, fun h => by rw [h]⟩

/-- A part that can be read has no dot in it. -/
theorem dot_not_mem_encode (bytes : List UInt8) : '.' ∉ Base64Url.encode bytes := by
  intro h
  have hall : '.' ∉ Base64Url.alphabet := by decide
  exact hall (Base64Url.mem_alphabet_of_mem_encode h)

/-- What is read of a part. -/
theorem readPart_eq_ok_iff {α : Type} {d : Json.Decoder α} {bytes : List UInt8} {a : α} :
    readPart d bytes = .ok a ↔ Json.ofBytes d bytes = .ok a := by
  rw [readPart, mapError_eq_ok_iff]

end PinBoard.Token
