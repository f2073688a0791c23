import PinBoard.Cookie
import PinBoard.Proofs.Text.Base64Url
import PinBoard.Proofs.Text.Percent
import PinBoard.Token
import Mathlib.Data.List.TakeWhile

/-!
# Cookies that come back

A name and a value of plain characters are read back from the header they are sent in: nothing in
them ends the cookie, is trimmed away or is taken for an encoded byte. Session tokens are plain.
-/

namespace PinBoard

/-! ## Plain characters -/

/-- A visible character of ASCII that neither ends a cookie nor begins an encoded byte. -/
def IsPlain (c : Char) : Prop := 0x20 < c.toNat ∧ c.toNat < 0x7F ∧ c ≠ ';' ∧ c ≠ '%'

instance (c : Char) : Decidable (IsPlain c) := by
  unfold IsPlain
  infer_instance

variable {cs : List Char} (hplain : ∀ c ∈ cs, IsPlain c)
include hplain

/-- Plain characters are no blanks. -/
theorem isBlank_of_plain : ∀ c ∈ cs, Text.isBlank c = false := by
  intro c hc
  obtain ⟨hlow, hhigh, -⟩ := hplain c hc
  simp only [Text.isBlank, Text.isCommonBlank, Bool.or_eq_false_iff, Bool.and_eq_false_iff,
    beq_eq_false_iff_ne, decide_eq_false_iff_not]
  omega

/-- Nothing is trimmed off plain characters. -/
theorem trimChars_of_plain : Text.trimChars cs = cs := by
  have hblank := isBlank_of_plain hplain
  have hfront : cs.dropWhile Text.isBlank = cs := by
    rw [List.dropWhile_eq_self_iff]
    intro hl
    rw [hblank _ (List.getElem_mem hl)]
    decide
  have hback : cs.reverse.dropWhile Text.isBlank = cs.reverse := by
    rw [List.dropWhile_eq_self_iff]
    intro hl
    rw [hblank _ (List.mem_reverse.mp (List.getElem_mem hl))]
    decide
  rw [Text.trimChars, hfront, hback, List.reverse_reverse]

/-- Plain characters are one byte each, and none is the percent sign. -/
theorem percent_not_mem_of_plain : 0x25 ∉ Text.Utf8.encodeChars cs := by
  intro hmem
  obtain ⟨c, hc, hbyte⟩ := List.mem_flatMap.mp hmem
  obtain ⟨-, hhigh, -, hpercent⟩ := hplain c hc
  rw [Text.Utf8.encodeChar_ascii (by omega), List.mem_singleton] at hbyte
  exact hpercent (Text.eq_percent_of_byte (by omega) hbyte.symm)

omit hplain

/-- A text of plain characters stands for itself. -/
theorem percentDecode?_of_plain {s : String} (h : ∀ c ∈ s.toList, IsPlain c) :
    Text.percentDecode? s = some s := by
  rw [Text.percentDecode?, Text.Utf8.encode,
    Text.percentDecode_of_not_mem (percent_not_mem_of_plain h)]
  exact Text.Utf8.decode?_encode s

/-! ## One cookie -/

/-- A name without an equals sign and a value, both of plain characters, are read back. -/
theorem cookie?_of_plain {name value : String} (hname : ∀ c ∈ name.toList, IsPlain c)
    (hequals : '=' ∉ name.toList) (hnonempty : name ≠ "")
    (hvalue : ∀ c ∈ value.toList, IsPlain c) :
    cookie? (name.toList ++ '=' :: value.toList) = some (name, value) := by
  have hne : ∀ c ∈ name.toList, decide (c ≠ '=') = true := by
    intro c hc
    rw [decide_eq_true_iff]
    rintro rfl
    exact hequals hc
  have htake : (name.toList ++ '=' :: value.toList).takeWhile (· ≠ '=') = name.toList := by
    rw [List.takeWhile_append_of_pos hne, List.takeWhile_cons_of_neg (by decide), List.append_nil]
  have hdrop : (name.toList ++ '=' :: value.toList).dropWhile (· ≠ '=') = '=' :: value.toList := by
    rw [List.dropWhile_append_of_pos hne, List.dropWhile_cons_of_neg (by decide)]
  have hsome : name.toList.isEmpty = false := by
    rw [List.isEmpty_eq_false_iff]
    intro hnil
    exact hnonempty (String.toList_eq_nil_iff.mp hnil)
  unfold cookie?
  rw [hdrop, htake]
  simp only [trimChars_of_plain hname, trimChars_of_plain hvalue, hsome, String.ofList_toList,
    percentDecode?_of_plain hname, percentDecode?_of_plain hvalue]
  rfl

/-- **A plain cookie comes back** under its name when its header is sent. -/
theorem get?_ofHeaders_of_plain {name value : String} (hname : ∀ c ∈ name.toList, IsPlain c)
    (hequals : '=' ∉ name.toList) (hnonempty : name ≠ "")
    (hvalue : ∀ c ∈ value.toList, IsPlain c) :
    (Jar.ofHeaders [name ++ "=" ++ value]).get? name = some value := by
  have hchars : (name ++ "=" ++ value).toList = name.toList ++ '=' :: value.toList := by
    simp
  have hmem : ∀ c ∈ (name ++ "=" ++ value).toList, c = '=' ∨ IsPlain c := by
    intro c hc
    rw [hchars, List.mem_append, List.mem_cons] at hc
    rcases hc with hc | rfl | hc
    · exact Or.inr (hname c hc)
    · exact Or.inl rfl
    · exact Or.inr (hvalue c hc)
  have hreadable : isReadableHeader (name ++ "=" ++ value) = true := by
    rw [isReadableHeader, List.all_eq_true]
    intro c hc
    rcases hmem c hc with rfl | ⟨hlow, hhigh, -⟩
    · decide
    · simp only [Bool.or_eq_true, Bool.and_eq_true, decide_eq_true_eq]
      omega
  have hsemicolon : ';' ∉ (name ++ "=" ++ value).toList := by
    intro hc
    rcases hmem ';' hc with heq | ⟨-, -, hne, -⟩
    · exact absurd heq (by decide)
    · exact hne rfl
  have hcookies : cookiesOfHeader (name ++ "=" ++ value) = [(name, value)] := by
    rw [cookiesOfHeader, if_pos hreadable, List.splitOn_eq_singleton hsemicolon, hchars,
      List.filterMap_cons, cookie?_of_plain hname hequals hnonempty hvalue]
    rfl
  rw [Jar.ofHeaders, List.flatMap_cons, hcookies]
  show [(name, value)].lookup name = some value
  exact List.lookup_cons_self

/-! ## Session tokens -/

/-- Whatever a session token is signed for, its characters are plain. -/
theorem Token.isPlain_sign (secret : String) (claims : Claims) :
    ∀ c ∈ (Token.sign secret claims).toList, IsPlain c := by
  have hsymbols : Base64Url.alphabet.all (fun c => decide (IsPlain c)) = true := by decide
  have hencode : ∀ bytes, ∀ c ∈ Base64Url.encode bytes, IsPlain c := by
    intro bytes c hc
    have hsymbol := List.all_eq_true.mp hsymbols c (Base64Url.mem_alphabet_of_mem_encode hc)
    exact of_decide_eq_true hsymbol
  intro c hc
  rw [Token.sign, String.toList_ofList] at hc
  simp only [List.mem_append, List.mem_cons] at hc
  rcases hc with (hc | rfl | hc) | rfl | hc
  · exact hencode _ c hc
  · decide
  · exact hencode _ c hc
  · decide
  · exact hencode _ c hc

/-- A session token comes back in the cookie of the session. -/
theorem Token.get?_ofHeaders_sign (secret : String) (claims : Claims) :
    (Jar.ofHeaders [sessionCookie ++ "=" ++ Token.sign secret claims]).get? sessionCookie =
      some (Token.sign secret claims) := by
  have hletters : sessionCookie.toList.all (fun c => decide (IsPlain c)) = true := by decide
  have hname : ∀ c ∈ sessionCookie.toList, IsPlain c := by
    intro c hc
    exact of_decide_eq_true (List.all_eq_true.mp hletters c hc)
  exact get?_ofHeaders_of_plain hname (by decide) (by decide) (Token.isPlain_sign secret claims)

end PinBoard
