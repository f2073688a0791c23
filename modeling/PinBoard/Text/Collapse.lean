import PinBoard.Text.Blank

/-!
# Collapsing blanks

A run of two or more script blanks becomes one space; a blank that stands alone is kept as it is.
`collapse` walks the text once; `runs` is the decomposition into maximal runs against which it is
measured.
-/

namespace PinBoard.Text

/-! ## One pass over the text -/

/-- What a pending run of blanks is written as: nothing, the single blank itself, or one space. -/
def Pending.flush : Option (Char × Bool) → List Char
  | none => []
  | some (c, false) => [c]
  | some (_, true) => [' ']

/-- Walks over the text; `pending` is the first blank of the run under way and whether more
followed it. -/
def collapseFrom (pending : Option (Char × Bool)) : List Char → List Char
  | [] => Pending.flush pending
  | c :: rest =>
    if isScriptBlank c then
      match pending with
      | none => collapseFrom (some (c, false)) rest
      | some (first, _) => collapseFrom (some (first, true)) rest
    else
      Pending.flush pending ++ c :: collapseFrom none rest

/-- Replaces every run of two or more blanks by one space. -/
def collapseChars (cs : List Char) : List Char :=
  collapseFrom none cs

/-- Replaces every run of two or more blanks of a string by one space. -/
def collapse (s : String) : String :=
  String.ofList (collapseChars s.toList)

/-! ## Maximal runs -/

/-- Puts a character in front of a list of runs: it joins the first run when both are blank or
both are not. -/
def consRun (c : Char) : List (List Char) → List (List Char)
  | (d :: run) :: runs =>
    if isScriptBlank c = isScriptBlank d then (c :: d :: run) :: runs
    else [c] :: (d :: run) :: runs
  | runs => [c] :: runs

/-- The maximal runs of blanks and of other characters, in order. -/
def runs (cs : List Char) : List (List Char) :=
  cs.foldr consRun []

/-- A run of at least two blanks. -/
def IsLongBlankRun : List Char → Prop
  | c :: _ :: _ => isScriptBlank c = true
  | _ => False

instance : DecidablePred IsLongBlankRun := fun run =>
  match run with
  | [] => inferInstanceAs (Decidable False)
  | [_] => inferInstanceAs (Decidable False)
  | c :: _ :: _ => inferInstanceAs (Decidable (isScriptBlank c = true))

/-- What a run becomes: a long blank run is one space, all else stays. -/
def collapseRun (run : List Char) : List Char :=
  if IsLongBlankRun run then [' '] else run

end PinBoard.Text
