import PinBoard.Proofs.View.Tags

/-!
# The buttons of a view

The buttons in a piece of markup are listed in the order of the document, each with its text and
with what it does. A text that was given is never a button, in the tree as in its HTML, so the
buttons of a profile are told by who looks at it, by what could be loaded, and by whether the dialog
is open.
-/

namespace PinBoard

/-! ## Buttons in markup -/

/-- A button: what it says and what it does. -/
structure Button (α : Type) where
  text : String
  listeners : List (Listener α)

mutual

/-- The buttons in a piece of markup, in the order of the document. -/
def Node.buttons {α : Type} : Node α → List (Button α)
  | .own _ => []
  | .given _ => []
  | .element tag _ listeners children =>
    (if tag = "button" then [⟨Node.allText children, listeners⟩] else []) ++
      Node.allButtons children

/-- The buttons in pieces in a row. -/
def Node.allButtons {α : Type} : List (Node α) → List (Button α)
  | [] => []
  | n :: rest => n.buttons ++ Node.allButtons rest

end

section Markup

variable {α : Type}

@[simp] theorem Node.buttons_own (text : String) : (Node.own text : Node α).buttons = [] := rfl

@[simp] theorem Node.buttons_given (text : String) : (Node.given text : Node α).buttons = [] := rfl

@[simp] theorem Node.buttons_element (tag : String) (attributes : List Attribute)
    (listeners : List (Listener α)) (children : List (Node α)) :
    (Node.element tag attributes listeners children).buttons =
      (if tag = "button" then [⟨Node.allText children, listeners⟩] else []) ++
        Node.allButtons children := rfl

@[simp] theorem Node.buttons_styled (tag style : String) (children : List (Node α)) :
    (Node.styled tag style children).buttons =
      (if tag = "button" then [⟨Node.allText children, []⟩] else []) ++ Node.allButtons children :=
  rfl

@[simp] theorem Node.allButtons_nil : Node.allButtons ([] : List (Node α)) = [] := rfl

@[simp] theorem Node.allButtons_cons (n : Node α) (rest : List (Node α)) :
    Node.allButtons (n :: rest) = n.buttons ++ Node.allButtons rest := rfl

theorem Node.allButtons_eq (ns : List (Node α)) :
    Node.allButtons ns = ns.flatMap Node.buttons :=
  eq_flatMap rfl (fun _ _ => rfl) ns

@[simp] theorem Node.allButtons_append (xs ys : List (Node α)) :
    Node.allButtons (xs ++ ys) = Node.allButtons xs ++ Node.allButtons ys := by
  simp only [Node.allButtons_eq, List.flatMap_append]

mutual

/-- The buttons are the elements of their tag. -/
theorem Node.count_tags (n : Node α) : n.tags.count "button" = n.buttons.length := by
  cases n with
  | own | given => rfl
  | element tag attributes listeners children =>
    have hinside := Node.count_allTags children
    rw [Node.tags, Node.buttons, List.length_append, ← hinside]
    by_cases htag : tag = "button"
    · rw [if_pos htag, htag, List.count_cons_self, List.length_singleton, Nat.add_comm]
    · rw [if_neg htag, List.count_cons_of_ne htag, List.length_nil, Nat.zero_add]

/-- So are those in pieces in a row. -/
theorem Node.count_allTags (ns : List (Node α)) :
    (Node.allTags ns).count "button" = (Node.allButtons ns).length := by
  cases ns with
  | nil => rfl
  | cons n ns =>
    rw [Node.allTags, Node.allButtons, List.count_append, List.length_append, Node.count_tags n,
      Node.count_allTags ns]

end

end Markup

namespace View

variable {α : Type}

/-! ## Buttons of the program -/

/-- The text of the button that pins a listen. -/
def pinText : String := "[ Pin ]"

/-- The text of the button that takes a pin off. -/
def unpinText : String := "Unpin"

/-- A button that acts on a click. -/
def acting (text : String) (action : α) : Button α := ⟨text, [.click (some action)]⟩

theorem buttons_pinButton (pin : α) : (pinButton pin).buttons = [acting pinText pin] := by
  have htext : Node.allText [(Node.own "[ Pin ]" : Node α)] = pinText := by
    show "[ Pin ]" ++ "" = pinText
    rfl
  unfold pinButton
  rw [Node.buttons_element, if_pos rfl, htext]
  rfl

theorem buttons_plainButton (rank : Rank) (action : α) (caption : String) :
    (plainButton rank action caption).buttons = [acting caption action] := by
  have htext : Node.allText [(Node.own caption : Node α)] = caption := by
    show caption ++ "" = caption
    rw [String.append_empty]
  unfold plainButton button
  rw [Node.buttons_element, if_pos rfl, htext]
  rfl

theorem buttons_closeButton (close : α) : (closeButton close).buttons = [acting "" close] := by
  have htext : Node.allText [(closeIcon : Node α)] = "" := rfl
  have hicon : Node.allButtons [(closeIcon : Node α)] = [] := rfl
  unfold closeButton
  rw [Node.buttons_element, if_pos rfl, htext, hicon]
  rfl

/-! ## Listens -/

/-- A listen has one button, which pins it, where listens can be pinned, and none elsewhere. -/
theorem buttons_listenItem (canPin : Bool) (pin : Listen → α) (l : Listen) :
    (listenItem canPin pin l).buttons = if canPin then [acting pinText (pin l)] else [] := by
  have hrelease : Node.allButtons (release l.trackMetadata.releaseName : List (Node α)) = [] := by
    rcases l.trackMetadata.releaseName with _ | name
    · rfl
    · rfl
  have htime : Node.allButtons (listenTime l.shownTime : List (Node α)) = [] := by
    rcases l.shownTime with _ | time
    · rfl
    · rfl
  unfold listenItem
  cases canPin with
  | false => simp [hrelease, htime]
  | true => simp [hrelease, htime, buttons_pinButton]

/-- A list of listens has the buttons of its listens. -/
theorem buttons_listenList (canPin : Bool) (pin : Listen → α) (ls : List Listen) :
    (listenList canPin pin ls).buttons =
      if canPin then ls.map fun l => acting pinText (pin l) else [] := by
  unfold listenList
  rcases ls with _ | ⟨l, rest⟩
  · simp
  · rw [List.isEmpty_cons, if_neg Bool.false_ne_true, Node.buttons_styled, Node.allButtons_eq,
      List.flatMap_map, if_neg (by decide), List.nil_append]
    simp only [buttons_listenItem]
    cases canPin with
    | false => simp
    | true =>
      rw [if_pos rfl, List.map_eq_flatMap]
      rfl

/-! ## The pin -/

/-- The card of a pin has a button where the pin can be taken off, and none elsewhere. -/
theorem buttons_pinnedCard (now : Int64) (canUnpin : Bool) (unpin : α) (p : PinnedRecording) :
    (pinnedCard now canUnpin unpin p).buttons =
      if canUnpin then [acting unpinText unpin] else [] := by
  have hblurb : Node.allButtons (blurb p.blurbContent : List (Node α)) = [] := by
    rcases p.blurbContent with _ | text
    · rfl
    · rfl
  have hdays : (daysLeft (p.daysRemaining now) : Node α).buttons = [] := by
    unfold daysLeft
    split
    · rfl
    · rfl
  unfold pinnedCard unpinButton
  cases canUnpin with
  | false => simp [hblurb, hdays]
  | true => simp [hblurb, hdays, buttons_plainButton, unpinText]

/-! ## The dialog -/

/-- The buttons of the dialog; none while it is closed. -/
theorem buttons_pinDialog (act : PinDialog.Action → α) (recording : Option Listen) (d : PinDialog) :
    Node.allButtons (pinDialog act recording d) =
      if d.isOpen then
        [acting "" (act .close), acting "Cancel" (act .close), acting "Pin" (act .submit)]
      else [] := by
  unfold pinDialog
  by_cases hopen : d.isOpen = true
  · rw [if_pos hopen, if_pos hopen]
    simp [modal, modalWindow, modalFooter, pinDialogBody, blurbField, blurbCounter, pinNotice,
      buttons_closeButton, buttons_plainButton]
  · rw [if_neg hopen, if_neg hopen]
    rfl

end View

/-! ## Profiles -/

/-- The listens that a profile shows. -/
def Profile.shownListens (p : Profile) : List Listen :=
  match p.listens with
  | some (.ok ls) => ls
  | _ => []

/-- The pin that a profile shows. -/
def Profile.shownPin (p : Profile) : Option PinnedRecording :=
  match p.pin with
  | some (.ok pin) => pin
  | _ => none

namespace View

variable {α : Type}

theorem buttons_pinSection (act : Profile.Action → α) (now : Int64) (isOwn : Bool) (p : Profile) :
    (pinSection act now isOwn p).buttons =
      if isOwn then p.shownPin.toList.map fun _ => acting unpinText (act .unpin) else [] := by
  unfold pinSection Profile.shownPin
  rcases p.pin with _ | ⟨e | _ | pin⟩
  · simp [loadingLine]
  · simp [failedLine]
  · cases isOwn with
    | false => simp [noPinLine]
    | true => simp [noPinLine]
  · simp [buttons_pinnedCard]

theorem buttons_listensSection (act : Profile.Action → α) (isOwn : Bool) (p : Profile) :
    (listensSection act isOwn p).buttons =
      if isOwn then p.shownListens.map fun l => acting pinText (act (.choose l)) else [] := by
  unfold listensSection Profile.shownListens
  rcases p.listens with _ | ⟨e | ls⟩
  · simp [loadingLine]
  · simp [failedLine]
  · exact buttons_listenList isOwn _ ls

/-- **The buttons of a profile**: those of the pin, those of the listens, those of the dialog. -/
theorem buttons_profile (act : Profile.Action → α) (now : Int64) (isOwn : Bool) (p : Profile) :
    (profile act now isOwn p).buttons =
      (if isOwn then p.shownPin.toList.map fun _ => acting unpinText (act .unpin) else []) ++
        (if isOwn then p.shownListens.map fun l => acting pinText (act (.choose l)) else []) ++
        (if p.dialog.isOpen then
          [acting "" (act (.dialog .close)), acting "Cancel" (act (.dialog .close)),
            acting "Pin" (act (.dialog .submit))]
        else []) := by
  unfold profile
  simp [buttons_pinSection, buttons_listensSection, buttons_pinDialog]

/-- **The HTML of a profile** opens a button for each of these and no other, whatever was given. -/
theorem count_button_profile (act : Profile.Action → α) (now : Int64) (isOwn : Bool)
    (p : Profile) :
    (openedTags (html [profile act now isOwn p]).toList).count "button" =
      (profile act now isOwn p).buttons.length := by
  rw [openedTags_html_singleton (isTidy_profile act now isOwn p), Node.count_tags]

/-- Of the buttons with one text those with another are none. -/
theorem filter_acting {β : Type} {text other : String} (h : other ≠ text) (action : β → α)
    (items : List β) :
    ((items.map fun item => acting other (action item)).filter fun b => decide (b.text = text)) =
      [] := by
  rw [List.filter_eq_nil_iff]
  intro b hb
  obtain ⟨item, -, rfl⟩ := List.mem_map.mp hb
  exact fun heq => h (of_decide_eq_true heq)

/-- And those with the text itself are all. -/
theorem filter_acting_self {β : Type} (text : String) (action : β → α) (items : List β) :
    ((items.map fun item => acting text (action item)).filter fun b => decide (b.text = text)) =
      items.map fun item => acting text (action item) := by
  rw [List.filter_eq_self]
  intro b hb
  obtain ⟨item, -, rfl⟩ := List.mem_map.mp hb
  simp [acting]

/-- The buttons of the dialog have texts of their own. -/
theorem filter_dialog {text : String} (h : text ∈ [pinText, unpinText]) (isOpen : Bool)
    (close submit : α) :
    ((if isOpen then [acting "" close, acting "Cancel" close, acting "Pin" submit]
      else []).filter fun b => decide (b.text = text)) = [] := by
  have htexts : ∀ text ∈ [pinText, unpinText], "" ≠ text ∧ "Cancel" ≠ text ∧ "Pin" ≠ text := by
    decide
  obtain ⟨hclose, hcancel, hpin⟩ := htexts text h
  cases isOpen with
  | false => rfl
  | true => simp [acting, hclose, hcancel, hpin]

section Profile

variable (act : Profile.Action → α) (now : Int64) (isOwn : Bool) (p : Profile)

/-- **The buttons that pin a listen**: one for each listen on one's own profile, in the order of the
listens, and none on any other. -/
theorem pinButtons_profile :
    ((profile act now isOwn p).buttons.filter fun b => decide (b.text = pinText)) =
      if isOwn then p.shownListens.map fun l => acting pinText (act (.choose l)) else [] := by
  rw [buttons_profile, List.filter_append, List.filter_append, filter_dialog (by decide),
    List.append_nil]
  cases isOwn with
  | false => rfl
  | true =>
    simp only [if_true]
    rw [filter_acting (by decide), filter_acting_self, List.nil_append]

/-- **The buttons that take the pin off**: one for the pin on one's own profile, and none on any
other. -/
theorem unpinButtons_profile :
    ((profile act now isOwn p).buttons.filter fun b => decide (b.text = unpinText)) =
      if isOwn then p.shownPin.toList.map fun _ => acting unpinText (act .unpin) else [] := by
  rw [buttons_profile, List.filter_append, List.filter_append, filter_dialog (by decide),
    List.append_nil]
  cases isOwn with
  | false => rfl
  | true =>
    simp only [if_true]
    rw [filter_acting_self, filter_acting (by decide), List.append_nil]

end Profile

end View

end PinBoard
