import PinBoard.Proofs.View.Writing
import PinBoard.View.Profile

/-!
# Tags in written markup

Texts and values of attributes are escaped, so no element is opened in them: the tags that are
opened in the written form of a view are those of its elements, in the order of the document. That
holds of views in which tags and names of attributes are words of the program's, as they are on a
profile.
-/

namespace PinBoard

/-! ## Tags -/

/-- The tags that are opened in written markup: the words that follow an angle bracket directly. -/
def openedTags : List Char → List String
  | [] => []
  | c :: rest =>
    if c = '<' ∧ rest.takeWhile Char.isAlphanum ≠ [] then
      String.ofList (rest.takeWhile Char.isAlphanum) :: openedTags rest
    else openedTags rest

mutual

/-- The tags of the elements in a piece of markup, in the order of the document. -/
def Node.tags {α : Type} : Node α → List String
  | .own _ => []
  | .given _ => []
  | .element tag _ _ children => tag :: Node.allTags children

/-- The tags in pieces in a row. -/
def Node.allTags {α : Type} : List (Node α) → List String
  | [] => []
  | n :: rest => n.tags ++ Node.allTags rest

end

/-- The tags of the program. -/
def tagWords : List String :=
  ["b", "blockquote", "br", "button", "div", "h1", "h2", "h3", "h4", "h5", "li", "p", "path",
    "section", "small", "span", "svg", "textarea", "ul"]

/-- The names of its attributes. -/
def attributeWords : List String :=
  ["aria-label", "class", "d", "fill", "id", "name", "placeholder", "role", "rows", "spellcheck",
    "stroke", "stroke-linecap", "stroke-linejoin", "stroke-width", "title", "type", "value",
    "viewBox"]

/-- The name of an attribute. -/
def Attribute.name : Attribute → String
  | .own name _ => name
  | .given name _ => name
  | .flag name => name

mutual

/-- Markup in the words of the program, in which nothing is inside an element without an end. -/
def Node.IsTidy {α : Type} : Node α → Prop
  | .own _ => True
  | .given _ => True
  | .element tag attributes _ children =>
    (tag ∈ tagWords ∧ (∀ a ∈ attributes, a.name ∈ attributeWords) ∧
      (isVoid tag = true → children = [])) ∧ Node.AreTidy children

/-- Pieces in a row, all of them so. -/
def Node.AreTidy {α : Type} : List (Node α) → Prop
  | [] => True
  | n :: rest => n.IsTidy ∧ Node.AreTidy rest

end

/-! ## Reading tags -/

/-- Nothing is opened where no angle bracket is. -/
theorem openedTags_append {cs : List Char} (h : '<' ∉ cs) (rest : List Char) :
    openedTags (cs ++ rest) = openedTags rest := by
  induction cs with
  | nil => rfl
  | cons c cs ih =>
    have hc : c ≠ '<' := fun hc => h (hc ▸ List.mem_cons_self)
    rw [List.cons_append, openedTags, if_neg fun hopen => hc hopen.1]
    exact ih fun hmem => h (List.mem_cons_of_mem c hmem)

/-- A tag that is opened is read. -/
theorem openedTags_tag {tag : String} (htag : tag ∈ tagWords) {c : Char}
    (hc : c.isAlphanum = false) (rest : List Char) :
    openedTags ('<' :: (tag.toList ++ c :: rest)) = tag :: openedTags (c :: rest) := by
  have hwords : ∀ tag ∈ tagWords, tag.toList ≠ [] ∧ '<' ∉ tag.toList ∧
      tag.toList.all Char.isAlphanum = true := by
    decide +kernel
  obtain ⟨hne, hlt, hall⟩ := hwords tag htag
  have hword : ∀ x ∈ tag.toList, x.isAlphanum = true := List.all_eq_true.mp hall
  have htake : (tag.toList ++ c :: rest).takeWhile Char.isAlphanum = tag.toList := by
    rw [List.takeWhile_append_of_pos hword, List.takeWhile_cons_of_neg (by simp [hc]),
      List.append_nil]
  rw [openedTags, htake, if_pos ⟨rfl, hne⟩, String.ofList_toList, openedTags_append hlt]

/-- The end of an element opens nothing. -/
theorem openedTags_end {tag : String} (htag : tag ∈ tagWords) (rest : List Char) :
    openedTags ('<' :: '/' :: (tag.toList ++ '>' :: rest)) = openedTags rest := by
  have hwords : ∀ tag ∈ tagWords, '<' ∉ '/' :: tag.toList ++ ['>'] := by
    decide +kernel
  have hopened := openedTags_append (hwords tag htag) rest
  rw [openedTags, if_neg]
  · simpa using hopened
  · rintro ⟨-, hne⟩
    exact hne (List.takeWhile_cons_of_neg (by decide))

/-- Nor do attributes. -/
theorem lt_not_mem_attributes {attributes : List Attribute}
    (h : ∀ a ∈ attributes, a.name ∈ attributeWords) :
    '<' ∉ attributes.flatMap Attribute.chars := by
  have hwords : ∀ name ∈ attributeWords, '<' ∉ name.toList := by
    decide +kernel
  intro hmem
  obtain ⟨a, ha, hlt⟩ := List.mem_flatMap.mp hmem
  have hname := hwords a.name (h a ha)
  have hvalue : ∀ name value, '<' ∉ name.toList → '<' ∉ attributeChars name value := by
    intro name value hname
    have hescape := not_mem_escape (by decide : '<' ∈ endingChars) value
    simp [attributeChars, hname, hescape]
  cases a with
  | own name value => exact hvalue name value hname hlt
  | given name value => exact hvalue name value hname hlt
  | flag name =>
    have hflag : '<' ∉ (Attribute.flag name).chars := by
      simpa [Attribute.chars, Attribute.name] using hname
    exact hflag hlt

/-- What is written of the attributes of an element and behind them begins with no letter. -/
theorem exists_attributes (attributes : List Attribute) {close : Char}
    (hclose : close.isAlphanum = false) (rest : List Char) :
    ∃ c cs, attributes.flatMap Attribute.chars ++ close :: rest = c :: cs ∧
      c.isAlphanum = false := by
  rcases attributes with _ | ⟨a, more⟩
  · exact ⟨close, rest, rfl, hclose⟩
  · cases a with
    | own | given | flag => exact ⟨' ', _, rfl, by decide⟩

/-- The start of an element opens its tag. -/
theorem openedTags_start {tag : String} (htag : tag ∈ tagWords) {attributes : List Attribute}
    (hattributes : ∀ a ∈ attributes, a.name ∈ attributeWords) {close : Char}
    (hclose : close.isAlphanum = false ∧ close ≠ '<') (rest : List Char) :
    openedTags ('<' :: (tag.toList ++ (attributes.flatMap Attribute.chars ++ close :: rest))) =
      tag :: openedTags rest := by
  obtain ⟨c, cs, hcs, hc⟩ := exists_attributes attributes hclose.1 rest
  rw [hcs, openedTags_tag htag hc, ← hcs, openedTags_append (lt_not_mem_attributes hattributes),
    openedTags, if_neg fun hopen => hclose.2 hopen.1]

mutual

/-- **The tags that are opened** in written markup are those of its elements. -/
theorem Node.openedTags_chars {α : Type} (n : Node α) (h : n.IsTidy) (rest : List Char) :
    openedTags (n.chars ++ rest) = n.tags ++ openedTags rest := by
  cases n with
  | own text => exact openedTags_append (not_mem_escape (by decide) text) rest
  | given text => exact openedTags_append (not_mem_escape (by decide) text) rest
  | element tag attributes listeners children =>
    obtain ⟨⟨htag, hattributes, hvoid⟩, hchildren⟩ := h
    rw [Node.chars, Node.tags]
    by_cases hends : isVoid tag = true
    · have hslash : ('/').isAlphanum = false ∧ '/' ≠ '<' := by decide
      have hclosed : openedTags ('>' :: rest) = openedTags rest :=
        openedTags_append (by decide : '<' ∉ ['>']) rest
      have hstart := openedTags_start htag hattributes hslash ('>' :: rest)
      simp only [if_pos hends, List.cons_append, List.append_assoc, List.nil_append]
      -- what is inside is not written, and there is nothing
      rw [hstart, hclosed, hvoid hends]
      rfl
    · have hbracket : ('>').isAlphanum = false ∧ '>' ≠ '<' := by decide
      have hstart := openedTags_start htag hattributes hbracket
        (Node.allChars children ++ '<' :: '/' :: (tag.toList ++ '>' :: rest))
      have hinside := Node.openedTags_allChars children hchildren
      simp only [if_neg hends, List.cons_append, List.append_assoc, List.nil_append]
      rw [hstart, hinside, openedTags_end htag]

/-- So are those in pieces in a row. -/
theorem Node.openedTags_allChars {α : Type} (ns : List (Node α)) (h : Node.AreTidy ns)
    (rest : List Char) :
    openedTags (Node.allChars ns ++ rest) = Node.allTags ns ++ openedTags rest := by
  cases ns with
  | nil => rfl
  | cons n ns =>
    rw [Node.allChars, Node.allTags, List.append_assoc, Node.openedTags_chars n h.1,
      Node.openedTags_allChars ns h.2, List.append_assoc]

end

/-- So the tags that HTML opens are those of the elements that it was written from. -/
theorem openedTags_html {α : Type} {view : List (Node α)} (h : Node.AreTidy view) :
    openedTags (html view).toList = Node.allTags view := by
  have hchars := Node.openedTags_allChars view h []
  rw [List.append_nil] at hchars
  rw [html, String.toList_ofList, hchars, openedTags, List.append_nil]

/-- So the tags that are opened in the HTML of a piece by itself are its own. -/
theorem openedTags_html_singleton {α : Type} {n : Node α} (h : n.IsTidy) :
    openedTags (html [n]).toList = n.tags := by
  have hrow : Node.AreTidy [n] := ⟨h, trivial⟩
  rw [openedTags_html hrow, Node.allTags, Node.allTags, List.append_nil]

theorem Node.allTags_eq {α : Type} (ns : List (Node α)) : Node.allTags ns = ns.flatMap Node.tags :=
  eq_flatMap rfl (fun _ _ => rfl) ns

theorem Node.allTags_append {α : Type} (xs ys : List (Node α)) :
    Node.allTags (xs ++ ys) = Node.allTags xs ++ Node.allTags ys := by
  simp only [Node.allTags_eq, List.flatMap_append]

/-! ## Views -/

/-- Pieces in a row are tidy if each of them is. -/
theorem Node.areTidy_iff {α : Type} (ns : List (Node α)) :
    Node.AreTidy ns ↔ ∀ n ∈ ns, n.IsTidy := by
  induction ns with
  | nil => simp [Node.AreTidy]
  | cons n ns ih => rw [Node.AreTidy, ih, List.forall_mem_cons]

@[simp] theorem Node.areTidy_append {α : Type} (xs ys : List (Node α)) :
    Node.AreTidy (xs ++ ys) ↔ Node.AreTidy xs ∧ Node.AreTidy ys := by
  rw [Node.areTidy_iff, Node.areTidy_iff, Node.areTidy_iff, List.forall_mem_append]

@[simp] theorem Node.areTidy_cons {α : Type} (n : Node α) (ns : List (Node α)) :
    Node.AreTidy (n :: ns) ↔ n.IsTidy ∧ Node.AreTidy ns := Iff.rfl

@[simp] theorem Node.areTidy_nil {α : Type} : Node.AreTidy ([] : List (Node α)) := trivial

@[simp] theorem Node.isTidy_own {α : Type} (text : String) :
    (Node.own text : Node α).IsTidy := trivial

@[simp] theorem Node.isTidy_given {α : Type} (text : String) :
    (Node.given text : Node α).IsTidy := trivial

/-- The style of an element is no matter. -/
@[simp] theorem Node.isTidy_styled {α : Type} (tag style : String) (children : List (Node α)) :
    (Node.styled tag style children).IsTidy ↔
      (tag ∈ tagWords ∧ (isVoid tag = true → children = [])) ∧ Node.AreTidy children := by
  simp [Node.styled, Node.IsTidy, Attribute.name, attributeWords]

namespace View

variable {α : Type}

theorem isTidy_pinButton (pin : α) : (pinButton pin).IsTidy := by
  simp [pinButton, Node.IsTidy, tagWords, attributeWords, Attribute.name, isVoid]

theorem isTidy_plainButton (rank : Rank) (action : α) (caption : String) :
    (plainButton rank action caption).IsTidy := by
  simp [plainButton, button, disabledFlag, Node.IsTidy, tagWords, attributeWords, Attribute.name,
    isVoid]

theorem isTidy_listenItem (canPin : Bool) (pin : Listen → α) (l : Listen) :
    (listenItem canPin pin l).IsTidy := by
  have hrelease : Node.AreTidy (release l.trackMetadata.releaseName : List (Node α)) := by
    rcases l.trackMetadata.releaseName with _ | name
    · exact trivial
    · simp [release, tagWords, isVoid]
  have htime : Node.AreTidy (listenTime l.shownTime : List (Node α)) := by
    rcases l.shownTime with _ | time
    · exact trivial
    · simp [listenTime, tagWords, isVoid]
  unfold listenItem
  cases canPin with
  | false => simp [hrelease, htime, tagWords, isVoid]
  | true => simp [hrelease, htime, isTidy_pinButton, tagWords, isVoid]

theorem isTidy_listenList (canPin : Bool) (pin : Listen → α) (ls : List Listen) :
    (listenList canPin pin ls).IsTidy := by
  unfold listenList
  by_cases hempty : ls.isEmpty = true
  · rw [if_pos hempty]
    simp [tagWords, isVoid]
  · rw [if_neg hempty]
    have hitems : Node.AreTidy (ls.map (listenItem canPin pin)) := by
      rw [Node.areTidy_iff, List.forall_mem_map]
      exact fun l _ => isTidy_listenItem canPin pin l
    simp [hitems, tagWords, isVoid]

theorem isTidy_pinnedCard (now : Int64) (canUnpin : Bool) (unpin : α) (p : PinnedRecording) :
    (pinnedCard now canUnpin unpin p).IsTidy := by
  have hblurb : Node.AreTidy (blurb p.blurbContent : List (Node α)) := by
    rcases p.blurbContent with _ | text
    · exact trivial
    · simp [blurb, tagWords, isVoid]
  have hdays : (daysLeft (p.daysRemaining now) : Node α).IsTidy := by
    unfold daysLeft
    split
    · exact trivial
    · exact trivial
  unfold pinnedCard unpinButton
  cases canUnpin with
  | false => simp [hblurb, hdays, tagWords, isVoid]
  | true => simp [hblurb, hdays, isTidy_plainButton, tagWords, isVoid]

theorem areTidy_pinDialog (act : PinDialog.Action → α) (recording : Option Listen)
    (d : PinDialog) : Node.AreTidy (pinDialog act recording d) := by
  unfold pinDialog
  by_cases hopen : d.isOpen = true
  · rw [if_pos hopen]
    simp [modal, modalWindow, modalFooter, closeButton, closeIcon, pinDialogBody, blurbField,
      blurbCounter, pinNotice, isTidy_plainButton, Node.IsTidy, tagWords, attributeWords,
      Attribute.name, isVoid]
  · rw [if_neg hopen]
    exact trivial

theorem isTidy_pinSection (act : Profile.Action → α) (now : Int64) (isOwn : Bool) (p : Profile) :
    (pinSection act now isOwn p).IsTidy := by
  unfold pinSection
  rcases p.pin with _ | ⟨e | _ | pin⟩
  · simp [loadingLine, tagWords, isVoid]
  · simp [failedLine, tagWords, isVoid]
  · cases isOwn with
    | false => simp [noPinLine, tagWords, isVoid]
    | true => simp [noPinLine, tagWords, isVoid]
  · exact isTidy_pinnedCard now isOwn _ pin

theorem isTidy_listensSection (act : Profile.Action → α) (isOwn : Bool) (p : Profile) :
    (listensSection act isOwn p).IsTidy := by
  unfold listensSection
  rcases p.listens with _ | ⟨e | ls⟩
  · simp [loadingLine, tagWords, isVoid]
  · simp [failedLine, tagWords, isVoid]
  · exact isTidy_listenList isOwn _ ls

/-- **A profile is tidy**, whatever was given. -/
theorem isTidy_profile (act : Profile.Action → α) (now : Int64) (isOwn : Bool) (p : Profile) :
    (profile act now isOwn p).IsTidy := by
  have hpin := isTidy_pinSection act now isOwn p
  have hlistens := isTidy_listensSection act isOwn p
  have hdialog := areTidy_pinDialog (fun a => act (.dialog a)) p.chosen p.dialog
  unfold profile
  simp [hpin, hlistens, hdialog, Node.IsTidy, tagWords, isVoid]

end View

end PinBoard
