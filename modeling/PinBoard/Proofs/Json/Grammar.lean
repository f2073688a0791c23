import PinBoard.Json.Token

/-!
# The grammar

Which texts are JSON, and which tree a text stands for, said without the reader: a tree is a row of
tokens, every token has its spellings, and blanks may stand around each of them. A string may spell
its characters in several ways, a number its exponent; a string whose surrogates do not pair
belongs to the grammar too, but it spells no characters.
-/

namespace PinBoard.Json

/-! ## Strings -/

/-- A hexadecimal digit and its value. -/
structure HexDigit where
  char : Char
  value : Nat
  valued : hexValue? char = some value

/-- What a string is made of. -/
inductive Piece where
  /-- A character that stands for itself. -/
  | plain (c : Char) (free : c ≠ '"' ∧ c ≠ '\\' ∧ 0x20 ≤ c.toNat)
  /-- A letter behind a backslash, which stands for a character. -/
  | letter (l c : Char) (known : escaped? l = some c)
  /-- A code unit of UTF-16, by its number. -/
  | unit (a b c d : HexDigit)

/-- How a piece is spelled. -/
def Piece.chars : Piece → List Char
  | .plain c _ => [c]
  | .letter l _ _ => ['\\', l]
  | .unit a b c d => ['\\', 'u', a.char, b.char, c.char, d.char]

/-- What a piece stands for: a character or a code unit. -/
def Piece.meaning : Piece → Char ⊕ Nat
  | .plain c _ => .inl c
  | .letter _ c _ => .inl c
  | .unit a b c d => .inr (((a.value * 16 + b.value) * 16 + c.value) * 16 + d.value)

/-- A code unit that can only be the first one of a pair. -/
def IsHighSurrogate (n : Nat) : Prop := 0xD800 ≤ n ∧ n ≤ 0xDBFF

/-- A code unit that can only be the second one of a pair. -/
def IsLowSurrogate (n : Nat) : Prop := 0xDC00 ≤ n ∧ n ≤ 0xDFFF

instance (n : Nat) : Decidable (IsHighSurrogate n) := inferInstanceAs (Decidable (_ ∧ _))

instance (n : Nat) : Decidable (IsLowSurrogate n) := inferInstanceAs (Decidable (_ ∧ _))

/-- The characters of a row of characters and code units, or the first surrogate that has no
partner. -/
def joinUnits : List (Char ⊕ Nat) → Except Error (List Char)
  | [] => .ok []
  | .inl c :: rest => (joinUnits rest).map (c :: ·)
  | .inr n :: rest =>
    if IsLowSurrogate n then .error .loneSurrogate
    else if IsHighSurrogate n then
      match rest with
      | .inr m :: rest =>
        if IsLowSurrogate m then
          (joinUnits rest).map
            (Char.ofNat (0x10000 + (n - 0xD800) * 0x400 + (m - 0xDC00)) :: ·)
        else .error .loneSurrogate
      | _ => .error .unfinishedSurrogate
    else (joinUnits rest).map (Char.ofNat n :: ·)

/-- What pieces spell together. -/
def textOf (pieces : List Piece) : Text :=
  (joinUnits (pieces.map Piece.meaning)).map String.ofList

/-! ## Numbers -/

/-- At least one digit and nothing else. -/
def AreDigits (cs : List Char) : Prop :=
  cs ≠ [] ∧ ∀ c ∈ cs, isDigit c = true

/-- A numeral has digits wherever they are due, and in front of the point no zero before others. -/
structure Numeral.IsProper (n : Numeral) : Prop where
  whole : AreDigits n.whole ∧ (n.whole.head? = some '0' → n.whole = ['0'])
  fraction : ∀ digits ∈ n.fraction, AreDigits digits
  exponent : ∀ e ∈ n.exponent, AreDigits e.2

/-- The spellings of an exponent: the letter may be of either size, a plus may be left out. -/
inductive IsExponent : Option (Bool × List Char) → List Char → Prop
  | none : IsExponent none []
  | minus {mark : Char} (hmark : mark = 'e' ∨ mark = 'E') (digits : List Char) :
    IsExponent (some (true, digits)) (mark :: '-' :: digits)
  | plus {mark : Char} (hmark : mark = 'e' ∨ mark = 'E') (digits : List Char) :
    IsExponent (some (false, digits)) (mark :: '+' :: digits)
  | plain {mark : Char} (hmark : mark = 'e' ∨ mark = 'E') (digits : List Char) :
    IsExponent (some (false, digits)) (mark :: digits)

/-- The spelling of what stands behind the point. -/
def fractionChars : Option (List Char) → List Char
  | none => []
  | some digits => '.' :: digits

/-- The spelling of a sign. -/
def signChars (negative : Bool) : List Char :=
  if negative then ['-'] else []

/-- The spellings of a numeral. -/
def Numeral.IsText (n : Numeral) (cs : List Char) : Prop :=
  n.IsProper ∧ ∃ exponent, IsExponent n.exponent exponent ∧
    cs = signChars n.negative ++ n.whole ++ fractionChars n.fraction ++ exponent

/-! ## Tokens -/

/-- The spellings of a token. -/
inductive Token.IsText : Token → List Char → Prop
  | openList : IsText .openList ['[']
  | closeList : IsText .closeList [']']
  | openObject : IsText .openObject ['\x7b']
  | closeObject : IsText .closeObject ['\x7d']
  | comma : IsText .comma [',']
  | colon : IsText .colon [':']
  | null : IsText .null ['n', 'u', 'l', 'l']
  | yes : IsText (.bool true) ['t', 'r', 'u', 'e']
  | no : IsText (.bool false) ['f', 'a', 'l', 's', 'e']
  | number {n : Numeral} {cs : List Char} (h : n.IsText cs) : IsText (.number n) cs
  | string (pieces : List Piece) :
    IsText (.string (textOf pieces)) ('"' :: pieces.flatMap Piece.chars ++ ['"'])

/-- The spellings of a row of tokens: blanks may stand in front of every token and behind the
last one. -/
inductive IsRow : List Token → List Char → Prop
  | nil {blanks : List Char} (hblanks : ∀ c ∈ blanks, isSpace c = true) : IsRow [] blanks
  | cons {blanks lexeme rest : List Char} {token : Token} {tokens : List Token}
    (hblanks : ∀ c ∈ blanks, isSpace c = true) (htoken : token.IsText lexeme)
    (hrest : IsRow tokens rest) : IsRow (token :: tokens) (blanks ++ (lexeme ++ rest))

/-! ## Trees -/

mutual

/-- A tree without a break in it. -/
def Tree.IsWhole : Tree → Prop
  | .null | .bool _ | .number _ | .string _ => True
  | .array is => is.IsWhole
  | .object ms => ms.IsWhole
  | .broken _ => False

/-- Items that end at their bracket. -/
def Items.IsWhole : Items → Prop
  | .closed => True
  | .cons item rest => item.IsWhole ∧ rest.IsWhole
  | .ended | .foreign | .comma => False

/-- Members that end at their bracket. -/
def Members.IsWhole : Members → Prop
  | .closed => True
  | .cons _ value rest => value.IsWhole ∧ rest.IsWhole
  | .ended | .foreign | .comma | .commaEnded | .noKey _ => False

end

mutual

/-- The tokens of a tree. -/
def Tree.tokens : Tree → List Token
  | .null => [.null]
  | .bool b => [.bool b]
  | .number n => [.number n]
  | .string t => [.string t]
  | .array is => .openList :: is.tokens ++ [.closeList]
  | .object ms => .openObject :: ms.tokens ++ [.closeObject]
  | .broken fault => [.broken fault]

/-- The tokens of items, with commas between them. -/
def Items.tokens : Items → List Token
  | .cons item .closed => item.tokens
  | .cons item rest => item.tokens ++ .comma :: rest.tokens
  | _ => []

/-- The tokens of members, with commas between them. -/
def Members.tokens : Members → List Token
  | .cons key value .closed => .string key :: .colon :: value.tokens
  | .cons key value rest => .string key :: .colon :: value.tokens ++ .comma :: rest.tokens
  | _ => []

end

/-- **The texts of a tree.** -/
def Tree.IsText (t : Tree) (cs : List Char) : Prop :=
  t.IsWhole ∧ IsRow t.tokens cs

end PinBoard.Json
