import PinBoard.Proofs.View.Writing

/-!
# Templates

Written markup is a template of the program's with the written forms of given texts in its places. A
piece of markup has its template and the texts that were given for it, in the order of the document;
put together they are its written form, and the template with nothing in its places is what is
written when all is left out that was given. So two views with one template differ in their texts
only.
-/

namespace PinBoard

/-! ## Filling -/

/-- Written markup with places in it. -/
abbrev Template := List (Option Char)

namespace Template

/-- A template without places. -/
def fixed (cs : List Char) : Template := cs.map some

/-- The template with texts in its places, each in its written form; places without a text stay
empty. -/
def fill : Template → List String → List Char
  | [], _ => []
  | some c :: rest, texts => c :: fill rest texts
  | none :: rest, text :: texts => escape text ++ fill rest texts
  | none :: rest, [] => fill rest []

/-- The number of its places. -/
def places (t : Template) : Nat := t.count none

/-- What is put into two templates in a row. -/
theorem fill_append (t t' : Template) (texts texts' : List String)
    (h : t.places = texts.length) :
    (t ++ t').fill (texts ++ texts') = t.fill texts ++ t'.fill texts' := by
  induction t generalizing texts with
  | nil =>
    obtain rfl := List.length_eq_zero_iff.mp h.symm
    rfl
  | cons place rest ih =>
    cases place with
    | some c =>
      have hrest : places rest = texts.length := by
        simpa [places] using h
      simp only [List.cons_append, fill, ih texts hrest]
    | none =>
      rcases texts with _ | ⟨text, texts⟩
      · simp [places] at h
      · have hrest : places rest = texts.length := by
          simpa [places] using h
        simp only [List.cons_append, fill, ih texts hrest, List.append_assoc]

/-- So it is with nothing. -/
theorem fill_append_nil (t t' : Template) : (t ++ t').fill [] = t.fill [] ++ t'.fill [] := by
  induction t with
  | nil => rfl
  | cons place rest ih =>
    cases place with
    | some c => simp only [List.cons_append, fill, ih]
    | none => simp only [List.cons_append, fill, ih]

theorem fill_fixed (cs : List Char) (texts : List String) : (fixed cs).fill texts = cs := by
  induction cs with
  | nil => rfl
  | cons c cs ih =>
    show c :: fill (fixed cs) texts = c :: cs
    rw [ih]

theorem places_fixed (cs : List Char) : (fixed cs).places = 0 := by
  have hnone : none ∉ cs.map some := by
    simp
  exact List.count_eq_zero_of_not_mem hnone

/-- What is written by a template: each text takes one place, and `blank` is what is left without
them. -/
structure Writes (t : Template) (cs blank : List Char) (texts : List String) : Prop where
  places : t.places = texts.length
  filled : t.fill texts = cs
  blanked : t.fill [] = blank

namespace Writes

variable {t t' : Template} {cs cs' blank blank' : List Char} {texts texts' : List String}

theorem append (h : t.Writes cs blank texts) (h' : t'.Writes cs' blank' texts') :
    (t ++ t').Writes (cs ++ cs') (blank ++ blank') (texts ++ texts') where
  places := by
    have hcount : (t ++ t').places = t.places + t'.places := List.count_append
    rw [hcount, h.places, h'.places, List.length_append]
  filled := by
    rw [fill_append t t' texts texts' h.places, h.filled, h'.filled]
  blanked := by
    rw [fill_append_nil, h.blanked, h'.blanked]

theorem fixed (cs : List Char) : (Template.fixed cs).Writes cs cs [] where
  places := places_fixed cs
  filled := fill_fixed cs []
  blanked := fill_fixed cs []

/-- One place takes one text. -/
theorem place (text : String) : Template.Writes [none] (escape text) [] [text] where
  places := rfl
  filled := List.append_nil _
  blanked := rfl

end Writes

end Template

/-! ## Markup -/

/-- The template of an attribute. -/
def Attribute.template : Attribute → Template
  | .own name value => Template.fixed (attributeChars name value)
  | .given name _ =>
    Template.fixed (' ' :: name.toList ++ ['=', '"']) ++ none :: Template.fixed ['"']
  | .flag name => Template.fixed (' ' :: name.toList ++ ['=', 't', 'r', 'u', 'e'])

/-- The value of an attribute, if it was given. -/
def Attribute.texts : Attribute → List String
  | .own _ _ => []
  | .given _ value => [value]
  | .flag _ => []

mutual

/-- The template of a piece of markup. -/
def Node.template {α : Type} : Node α → Template
  | .own text => Template.fixed (escape text)
  | .given _ => [none]
  | .element tag attributes _ children =>
    let start := Template.fixed ('<' :: tag.toList) ++ attributes.flatMap Attribute.template
    if isVoid tag then start ++ Template.fixed ['/', '>']
    else start ++ Template.fixed ['>'] ++ Node.allTemplate children ++
      Template.fixed ('<' :: '/' :: tag.toList ++ ['>'])

/-- The template of pieces in a row. -/
def Node.allTemplate {α : Type} : List (Node α) → Template
  | [] => []
  | n :: rest => n.template ++ Node.allTemplate rest

end

mutual

/-- The texts that were given for a piece of markup, in the order of the document. -/
def Node.texts {α : Type} : Node α → List String
  | .own _ => []
  | .given text => [text]
  | .element tag attributes _ children =>
    attributes.flatMap Attribute.texts ++ if isVoid tag then [] else Node.allTexts children

/-- The texts for pieces in a row. -/
def Node.allTexts {α : Type} : List (Node α) → List String
  | [] => []
  | n :: rest => n.texts ++ Node.allTexts rest

end

/-! ## What templates write -/

/-- An attribute is written by its template. -/
theorem Attribute.writes (a : Attribute) : a.template.Writes a.chars a.blank.chars a.texts := by
  cases a with
  | own name value => exact .fixed _
  | flag name => exact .fixed _
  | given name value =>
    have hvalue := (Template.Writes.fixed (' ' :: name.toList ++ ['=', '"'])).append
      ((Template.Writes.place value).append (.fixed ['"']))
    simpa [Attribute.template, Attribute.chars, Attribute.blank, Attribute.texts, attributeChars,
      escape] using hvalue

/-- So are attributes in a row. -/
theorem Attribute.all_writes (attributes : List Attribute) :
    Template.Writes (attributes.flatMap Attribute.template) (attributes.flatMap Attribute.chars)
      ((attributes.map Attribute.blank).flatMap Attribute.chars)
      (attributes.flatMap Attribute.texts) := by
  induction attributes with
  | nil => exact .fixed []
  | cons a rest ih => exact a.writes.append ih

mutual

/-- **A piece of markup is written by its template.** -/
theorem Node.writes {α : Type} (n : Node α) :
    n.template.Writes n.chars n.blank.chars n.texts := by
  cases n with
  | own text => exact .fixed _
  | given text => exact .place text
  | element tag attributes listeners children =>
    have hstart := (Template.Writes.fixed ('<' :: tag.toList)).append
      (Attribute.all_writes attributes)
    rw [Node.template, Node.blank, Node.chars, Node.chars, Node.texts]
    by_cases hvoid : isVoid tag = true
    · have helement := hstart.append (.fixed ['/', '>'])
      simpa [hvoid] using helement
    · have helement := ((hstart.append (.fixed ['>'])).append (Node.all_writes children)).append
        (.fixed ('<' :: '/' :: tag.toList ++ ['>']))
      simpa [hvoid] using helement

/-- So are pieces in a row. -/
theorem Node.all_writes {α : Type} (ns : List (Node α)) :
    (Node.allTemplate ns).Writes (Node.allChars ns) (Node.allChars (Node.allBlank ns))
      (Node.allTexts ns) := by
  cases ns with
  | nil => exact .fixed []
  | cons n ns =>
    rw [Node.allTemplate, Node.allChars, Node.allBlank, Node.allChars, Node.allTexts]
    exact n.writes.append (Node.all_writes ns)

end

/-- And so is the HTML of a view. -/
theorem writes_html {α : Type} (view : List (Node α)) :
    (Node.allTemplate view).Writes (html view).toList (html (Node.allBlank view)).toList
      (Node.allTexts view) := by
  rw [html, html, String.toList_ofList, String.toList_ofList]
  exact Node.all_writes view

end PinBoard
