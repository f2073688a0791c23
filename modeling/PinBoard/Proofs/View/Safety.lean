import Mathlib.Logic.Function.Basic
import PinBoard.Proofs.View.Template
import PinBoard.View.AlertStack
import PinBoard.View.Profile

/-!
# No text breaks out of its place

Titles, messages, names and blurbs come from anybody. Each view that shows them has one template for
all that is of one shape, that is, alike in flags, in kinds of alerts, in numbers of items and in
what is there at all; the texts fill its places in their written form. So whatever they are, they
neither open nor end anything.
-/

namespace PinBoard

/-! ## Safe views -/

/-- A view in which texts stay in their places: all that is of one shape is written by one template
with the texts in it, and is the same once they are blanked. -/
structure IsSafe {α P S : Type} (view : P → List (Node α)) (shape : P → S)
    (texts : P → List String) : Prop where
  blanked : ∀ p p', shape p = shape p' →
    html (Node.allBlank (view p)) = html (Node.allBlank (view p'))
  written : ∃ template : S → Template, ∀ p,
    (template (shape p)).Writes (html (view p)).toList (html (Node.allBlank (view p))).toList
      (texts p)

/-- A view is safe if shapes determine its templates. -/
theorem IsSafe.of_template {α P S : Type} {view : P → List (Node α)} {shape : P → S}
    {texts : P → List String} (htexts : ∀ p, Node.allTexts (view p) = texts p)
    (htemplate : ∀ p p', shape p = shape p' →
      Node.allTemplate (view p) = Node.allTemplate (view p')) :
    IsSafe view shape texts := by
  have hwrites : ∀ p, (Node.allTemplate (view p)).Writes (html (view p)).toList
      (html (Node.allBlank (view p))).toList (texts p) := by
    intro p
    rw [← htexts p]
    exact writes_html (view p)
  refine ⟨?_, ?_⟩
  · intro p p' hshape
    apply String.toList_inj.mp
    rw [← (hwrites p).blanked, ← (hwrites p').blanked, htemplate p p' hshape]
  · have hfactors : (fun p => Node.allTemplate (view p)).FactorsThrough shape := htemplate
    obtain ⟨template, htemplate⟩ := (Function.factorsThrough_iff _).mp hfactors
    refine ⟨template, ?_⟩
    intro p
    have heq : Node.allTemplate (view p) = template (shape p) := congrFun htemplate p
    rw [← heq]
    exact hwrites p

/-- So is a view of one piece. -/
theorem IsSafe.of_node {α P S : Type} {view : P → Node α} {shape : P → S}
    {texts : P → List String} (htexts : ∀ p, (view p).texts = texts p)
    (htemplate : ∀ p p', shape p = shape p' → (view p).template = (view p').template) :
    IsSafe (fun p => [view p]) shape texts := by
  apply IsSafe.of_template
  · intro p
    rw [Node.allTexts, Node.allTexts, List.append_nil, htexts]
  · intro p p' hshape
    show (view p).template ++ [] = (view p').template ++ []
    rw [htemplate p p' hshape]

/-! ## Templates and texts of pieces -/

section Markup

variable {α β : Type}

theorem Node.template_given (text : String) :
    (Node.given text : Node α).template = [none] := rfl

@[simp] theorem Node.texts_own (text : String) : (Node.own text : Node α).texts = [] := rfl

@[simp] theorem Node.texts_given (text : String) :
    (Node.given text : Node α).texts = [text] := rfl

@[simp] theorem Node.texts_element (tag : String) (attributes : List Attribute)
    (listeners : List (Listener α)) (children : List (Node α)) :
    (Node.element tag attributes listeners children).texts =
      attributes.flatMap Attribute.texts ++ if isVoid tag then [] else Node.allTexts children :=
  rfl

@[simp] theorem Node.texts_styled (tag style : String) (children : List (Node α)) :
    (Node.styled tag style children).texts =
      if isVoid tag then [] else Node.allTexts children := rfl

@[simp] theorem Node.allTexts_nil : Node.allTexts ([] : List (Node α)) = [] := rfl

@[simp] theorem Node.allTexts_cons (n : Node α) (rest : List (Node α)) :
    Node.allTexts (n :: rest) = n.texts ++ Node.allTexts rest := rfl

theorem Node.allTexts_eq (ns : List (Node α)) : Node.allTexts ns = ns.flatMap Node.texts :=
  eq_flatMap rfl (fun _ _ => rfl) ns

@[simp] theorem Node.allTexts_append (xs ys : List (Node α)) :
    Node.allTexts (xs ++ ys) = Node.allTexts xs ++ Node.allTexts ys := by
  simp only [Node.allTexts_eq, List.flatMap_append]

theorem Node.allTemplate_eq (ns : List (Node α)) :
    Node.allTemplate ns = ns.flatMap Node.template :=
  eq_flatMap rfl (fun _ _ => rfl) ns

theorem Node.allTemplate_append (xs ys : List (Node α)) :
    Node.allTemplate (xs ++ ys) = Node.allTemplate xs ++ Node.allTemplate ys := by
  simp only [Node.allTemplate_eq, List.flatMap_append]

/-- What may be missing has one template where it is there. -/
theorem Node.allTemplate_optional {view : Option β → List (Node α)} {o o' : Option β}
    (h : o.isSome = o'.isSome)
    (hview : ∀ b b', Node.allTemplate (view (some b)) = Node.allTemplate (view (some b'))) :
    Node.allTemplate (view o) = Node.allTemplate (view o') := by
  cases o with
  | none =>
    cases o' with
    | none => rfl
    | some b' => cases h
  | some b =>
    cases o' with
    | none => cases h
    | some b' => exact hview b b'

/-- Rows of items have one template if the items have, one by one. -/
theorem Node.allTemplate_map {S : Type} {view : β → Node α} {shape : β → S}
    (hview : ∀ b b', shape b = shape b' → (view b).template = (view b').template)
    {items items' : List β} (h : items.map shape = items'.map shape) :
    Node.allTemplate (items.map view) = Node.allTemplate (items'.map view) := by
  induction items generalizing items' with
  | nil =>
    obtain rfl := List.map_eq_nil_iff.mp h.symm
    rfl
  | cons item rest ih =>
    rcases items' with _ | ⟨item', rest'⟩
    · cases h
    · obtain ⟨hitem, hrest⟩ := List.cons.inj h
      rw [List.map_cons, List.map_cons, Node.allTemplate, Node.allTemplate, ih hrest,
        hview item item' hitem]

end Markup

/-! ## Alerts -/

/-- The shape of alerts: their kinds. -/
def AlertLog.shape (log : AlertLog) : List AlertKind := log.alerts.map Alert.kind

/-- What the alerts say. -/
def AlertLog.texts (log : AlertLog) : List String :=
  log.alerts.flatMap fun a => [a.title, a.message]

namespace View

variable {α : Type} (dismiss : UInt64 → α)

theorem template_alert {a a' : Alert} (h : a.kind = a'.kind) :
    (alert dismiss a).template = (alert dismiss a').template := by
  unfold alert
  rw [h]
  rfl

theorem texts_alert (a : Alert) : (alert dismiss a).texts = [a.title, a.message] := by
  simp [alert, dismissButton, isVoid, Attribute.texts]

theorem template_alertStack {log log' : AlertLog} (h : log.shape = log'.shape) :
    (alertStack dismiss log).template = (alertStack dismiss log').template := by
  have hrow := Node.allTemplate_map (fun a a' => template_alert dismiss) h
  simp only [alertStack, Node.styled, Node.template, hrow]

theorem texts_alertStack (log : AlertLog) : (alertStack dismiss log).texts = log.texts := by
  simp [alertStack, isVoid, Node.allTexts_eq, List.flatMap_map, texts_alert, AlertLog.texts]

end View

/-! ## Listens -/

/-- The shape of a listen: whether it names a release, and whether it has a time to be shown. -/
def Listen.shape (l : Listen) : Bool × Bool :=
  (l.trackMetadata.releaseName.isSome, l.shownTime.isSome)

/-- What is shown of a listen. -/
def Listen.texts (l : Listen) : List String :=
  [l.trackName.getD View.unknownTrack, l.artistName.getD View.unknownArtist] ++
    (l.trackMetadata.releaseName.map fun name => "from \"" ++ name ++ "\"").toList ++
    l.shownTime.toList

namespace View

variable {α : Type} (canPin : Bool) (pin : Listen → α)

theorem template_listenItem {l l' : Listen} (h : l.shape = l'.shape) :
    (listenItem canPin pin l).template = (listenItem canPin pin l').template := by
  obtain ⟨hname, htime⟩ := Prod.mk.inj h
  have hrelease : Node.allTemplate (release l.trackMetadata.releaseName : List (Node α)) =
      Node.allTemplate (release l'.trackMetadata.releaseName) :=
    Node.allTemplate_optional hname fun _ _ => rfl
  have hshown : Node.allTemplate (listenTime l.shownTime : List (Node α)) =
      Node.allTemplate (listenTime l'.shownTime) :=
    Node.allTemplate_optional htime fun _ _ => rfl
  have hpin : Node.allTemplate (if canPin then [pinButton (pin l)] else []) =
      Node.allTemplate (if canPin then [pinButton (pin l')] else []) := by
    cases canPin with
    | false => rfl
    | true => rfl
  unfold listenItem Node.styled
  simp only [Node.template, Node.allTemplate, Node.allTemplate_append, hrelease, hshown, hpin]

theorem texts_listenItem (l : Listen) : (listenItem canPin pin l).texts = l.texts := by
  have hrelease : Node.allTexts (release l.trackMetadata.releaseName : List (Node α)) =
      (l.trackMetadata.releaseName.map fun name => "from \"" ++ name ++ "\"").toList := by
    rcases l.trackMetadata.releaseName with _ | name
    · rfl
    · rfl
  have htime : Node.allTexts (listenTime l.shownTime : List (Node α)) = l.shownTime.toList := by
    rcases l.shownTime with _ | time
    · rfl
    · rfl
  have hpin : Node.allTexts (if canPin then [pinButton (pin l)] else []) = [] := by
    cases canPin with
    | false => rfl
    | true => rfl
  simp [listenItem, Listen.texts, isVoid, hrelease, htime, hpin]

theorem template_listenList {ls ls' : List Listen}
    (h : ls.map Listen.shape = ls'.map Listen.shape) :
    (listenList canPin pin ls).template = (listenList canPin pin ls').template := by
  have hempty : ls.isEmpty = ls'.isEmpty := by
    rw [← List.isEmpty_map (f := Listen.shape), h, List.isEmpty_map]
  have hrow := Node.allTemplate_map (fun l l' => template_listenItem canPin pin) h
  unfold listenList
  rw [hempty]
  split
  · rfl
  · simp only [Node.styled, Node.template, hrow]

theorem texts_listenList (ls : List Listen) :
    (listenList canPin pin ls).texts = ls.flatMap Listen.texts := by
  unfold listenList
  rcases ls with _ | ⟨l, rest⟩
  · rfl
  · rw [List.isEmpty_cons, if_neg Bool.false_ne_true, Node.texts_styled, if_neg (by decide),
      Node.allTexts_eq, List.flatMap_map]
    simp only [texts_listenItem]

end View

/-! ## Pinned recordings -/

/-- The shape of a pinned recording at a given second: whether there is a blurb, and whether one day
is left. -/
def PinnedRecording.shape (now : Int64) (p : PinnedRecording) : Bool × Bool :=
  (p.blurbContent.isSome, decide (p.daysRemaining now = 1))

/-- What is shown of it. -/
def PinnedRecording.texts (now : Int64) (canUnpin : Bool) (p : PinnedRecording) : List String :=
  let track := p.trackMetadata.getD .unknown
  [track.trackName.getD View.unknownTrack, track.artistName.getD View.unknownArtist] ++
    p.blurbContent.toList ++
    (if p.daysRemaining now = 1 then []
      else [toString (p.daysRemaining now).toInt ++ " days left"]) ++
    if canUnpin then [View.buttonStyle .danger false ""] else []

namespace View

variable {α : Type}

theorem template_daysLeft {days days' : Int64} (h : decide (days = 1) = decide (days' = 1)) :
    (daysLeft days : Node α).template = (daysLeft days' : Node α).template := by
  have hiff : days = 1 ↔ days' = 1 := decide_eq_decide.mp h
  unfold daysLeft
  by_cases hone : days = 1
  · rw [if_pos hone, if_pos (hiff.mp hone)]
  · rw [if_neg hone, if_neg (mt hiff.mpr hone), Node.template_given, Node.template_given]

theorem texts_daysLeft (days : Int64) : (daysLeft days : Node α).texts =
    if days = 1 then [] else [toString days.toInt ++ " days left"] := by
  unfold daysLeft
  by_cases hone : days = 1
  · rw [if_pos hone, if_pos hone, Node.texts_own]
  · rw [if_neg hone, if_neg hone, Node.texts_given]

theorem texts_plainButton (rank : Rank) (action : α) (caption : String) :
    (plainButton rank action caption).texts = [buttonStyle rank false ""] := by
  simp [plainButton, button, disabledFlag, isVoid, Attribute.texts]

section Card

variable (canUnpin : Bool) (unpin : α)

theorem template_pinnedCard {now now' : Int64} {p p' : PinnedRecording}
    (h : p.shape now = p'.shape now') :
    (pinnedCard now canUnpin unpin p).template = (pinnedCard now' canUnpin unpin p').template := by
  obtain ⟨htext, hdays⟩ := Prod.mk.inj h
  have hblurb : Node.allTemplate (blurb p.blurbContent : List (Node α)) =
      Node.allTemplate (blurb p'.blurbContent) :=
    Node.allTemplate_optional htext fun _ _ => rfl
  have hleft : (daysLeft (p.daysRemaining now) : Node α).template =
      (daysLeft (p'.daysRemaining now') : Node α).template :=
    template_daysLeft hdays
  unfold pinnedCard Node.styled
  simp only [Node.template, Node.allTemplate, Node.allTemplate_append, hblurb, hleft]

theorem texts_pinnedCard (now : Int64) (p : PinnedRecording) :
    (pinnedCard now canUnpin unpin p).texts = p.texts now canUnpin := by
  have hblurb : Node.allTexts (blurb p.blurbContent : List (Node α)) = p.blurbContent.toList := by
    rcases p.blurbContent with _ | text
    · rfl
    · rfl
  have hbutton : Node.allTexts (unpinButton canUnpin unpin) =
      if canUnpin then [buttonStyle .danger false ""] else [] := by
    cases canUnpin with
    | false => rfl
    | true => simp [unpinButton, texts_plainButton]
  simp [pinnedCard, PinnedRecording.texts, isVoid, hblurb, hbutton, texts_daysLeft]

end Card

end View

/-! ## The pin dialog -/

/-- What the dialog shows while it is open. -/
def PinDialog.texts (recording : Option Listen) (d : PinDialog) : List String :=
  if d.isOpen then
    let track := (recording.bind Listen.trackName).getD ""
    let artist := (recording.bind Listen.artistName).getD ""
    [track ++ " - " ++ artist, d.blurb.text,
      toString d.blurb.length ++ " / " ++ toString maxBlurbLength, track ++ " by " ++ artist,
      View.buttonStyle .secondary false "", View.buttonStyle .primary false ""]
  else []

namespace View

variable {α : Type} (act : PinDialog.Action → α)

theorem template_pinDialog (recording recording' : Option Listen) {d d' : PinDialog}
    (h : d.isOpen = d'.isOpen) :
    Node.allTemplate (pinDialog act recording d) =
      Node.allTemplate (pinDialog act recording' d') := by
  unfold pinDialog
  rw [h]
  split
  · rfl
  · rfl

theorem texts_pinDialog (recording : Option Listen) (d : PinDialog) :
    Node.allTexts (pinDialog act recording d) = d.texts recording := by
  unfold pinDialog PinDialog.texts
  split
  · simp [modal, modalWindow, modalFooter, closeButton, closeIcon, pinDialogBody, blurbField,
      blurbCounter, pinNotice, texts_plainButton, isVoid, Attribute.texts]
  · rfl

end View

/-! ## Profiles -/

/-- What was asked for, as far as its shape goes: an error has one shape whatever it says. -/
def Loaded.shape {β S : Type} (shape : β → S) : Loaded β → Option (Option S)
  | none => none
  | some (.error _) => some none
  | some (.ok b) => some (some (shape b))

/-- Of one shape are nothing and nothing, error and error, and what is of one shape itself. -/
theorem Loaded.cases_of_shape {β S : Type} {shape shape' : β → S} {x y : Loaded β}
    (h : x.shape shape = y.shape shape') :
    (x = none ∧ y = none) ∨ (∃ e e', x = some (.error e) ∧ y = some (.error e')) ∨
      ∃ b b', x = some (.ok b) ∧ y = some (.ok b') ∧ shape b = shape' b' := by
  rcases x with _ | ⟨e | b⟩
  · rcases y with _ | ⟨e' | b'⟩
    · exact .inl ⟨rfl, rfl⟩
    · cases h
    · cases h
  · rcases y with _ | ⟨e' | b'⟩
    · cases h
    · exact .inr (.inl ⟨e, e', rfl, rfl⟩)
    · cases h
  · rcases y with _ | ⟨e' | b'⟩
    · cases h
    · cases h
    · exact .inr (.inr ⟨b, b', rfl, rfl, Option.some.inj (Option.some.inj h)⟩)

/-- The shape of a profile. -/
structure Profile.Shape where
  pin : Option (Option (Option (Bool × Bool)))
  listens : Option (Option (List (Bool × Bool)))
  isOpen : Bool

/-- The shape of a profile at a given second. -/
def Profile.shape (now : Int64) (p : Profile) : Profile.Shape where
  pin := Loaded.shape (Option.map (PinnedRecording.shape now)) p.pin
  listens := Loaded.shape (List.map Listen.shape) p.listens
  isOpen := p.dialog.isOpen

/-- What stands in the place of the pin. -/
def Profile.pinTexts (now : Int64) (isOwn : Bool) (p : Profile) : List String :=
  match p.pin with
  | none => []
  | some (.ok (some pin)) => pin.texts now isOwn
  | some (.ok none) => if isOwn then [] else [p.userName ++ " has not pinned anything."]
  | some (.error e) => ["Could not load pin: " ++ e.shown]

/-- What stands in the place of the listens. -/
def Profile.listenTexts (p : Profile) : List String :=
  match p.listens with
  | none => []
  | some (.ok ls) => ls.flatMap Listen.texts
  | some (.error e) => ["Could not load listens: " ++ e.shown]

/-- What is shown on a profile. -/
def Profile.texts (now : Int64) (isOwn : Bool) (p : Profile) : List String :=
  p.userName :: (p.pinTexts now isOwn ++ p.listenTexts ++ p.dialog.texts p.chosen)

namespace View

variable {α : Type} (act : Profile.Action → α) (isOwn : Bool)

theorem template_failedLine (what : String) (e e' : ServerError) :
    (failedLine what e : Node α).template = (failedLine what e' : Node α).template := by
  simp only [failedLine, Node.styled, Node.template, Node.allTemplate]

theorem template_noPinLine (userName userName' : String) :
    (noPinLine isOwn userName : Node α).template =
      (noPinLine isOwn userName' : Node α).template := by
  cases isOwn with
  | false => rfl
  | true => rfl

theorem template_pinSection {now now' : Int64} {p p' : Profile}
    (h : (p.shape now).pin = (p'.shape now').pin) :
    (pinSection act now isOwn p).template = (pinSection act now' isOwn p').template := by
  unfold pinSection
  obtain ⟨hp, hp'⟩ | ⟨e, e', hp, hp'⟩ | ⟨pin, pin', hp, hp', hpin⟩ := Loaded.cases_of_shape h
  · rw [hp, hp']
  · rw [hp, hp']
    exact template_failedLine "pin" e e'
  · rw [hp, hp']
    rcases pin with _ | pin
    · obtain rfl := Option.map_eq_none_iff.mp hpin.symm
      exact template_noPinLine isOwn p.userName p'.userName
    · rcases pin' with _ | pin'
      · simp at hpin
      · exact template_pinnedCard isOwn (act .unpin) (Option.some.inj hpin)

theorem texts_pinSection (now : Int64) (p : Profile) :
    (pinSection act now isOwn p).texts = p.pinTexts now isOwn := by
  unfold pinSection Profile.pinTexts
  rcases p.pin with _ | ⟨e | _ | pin⟩
  · rfl
  · simp [failedLine, isVoid]
  · cases isOwn with
    | false => rfl
    | true => rfl
  · exact texts_pinnedCard isOwn (act .unpin) now pin

theorem template_listensSection {now now' : Int64} {p p' : Profile}
    (h : (p.shape now).listens = (p'.shape now').listens) :
    (listensSection act isOwn p).template = (listensSection act isOwn p').template := by
  unfold listensSection
  obtain ⟨hp, hp'⟩ | ⟨e, e', hp, hp'⟩ | ⟨ls, ls', hp, hp', hls⟩ := Loaded.cases_of_shape h
  · rw [hp, hp']
  · rw [hp, hp']
    exact template_failedLine "listens" e e'
  · rw [hp, hp']
    exact template_listenList isOwn _ hls

theorem texts_listensSection (p : Profile) :
    (listensSection act isOwn p).texts = p.listenTexts := by
  unfold listensSection Profile.listenTexts
  rcases p.listens with _ | ⟨e | ls⟩
  · rfl
  · simp [failedLine, isVoid]
  · exact texts_listenList isOwn _ ls

theorem template_profile {now now' : Int64} {p p' : Profile} (h : p.shape now = p'.shape now') :
    (profile act now isOwn p).template = (profile act now' isOwn p').template := by
  have hpin := template_pinSection act isOwn (congrArg Profile.Shape.pin h)
  have hlistens := template_listensSection act isOwn (congrArg Profile.Shape.listens h)
  have hdialog := template_pinDialog (fun a => act (.dialog a)) p.chosen p'.chosen
    (congrArg Profile.Shape.isOpen h)
  unfold profile Node.styled
  simp only [Node.template, Node.allTemplate, Node.allTemplate_append, hpin, hlistens, hdialog]

theorem texts_profile (now : Int64) (p : Profile) :
    (profile act now isOwn p).texts = p.texts now isOwn := by
  simp [profile, Profile.texts, isVoid, texts_pinSection, texts_listensSection, texts_pinDialog]

/-! ## All of them -/

/-- What keeps texts in their places: none of the characters that end a text or a value is left of
one, it is read again as it was, and the views that show texts of others are safe. -/
structure TextsInPlace (α : Type) : Prop where
  closed : ∀ text, ∀ c ∈ endingChars, c ∉ escape text
  read : ∀ text, unescape (escape text) = text.toList
  joined : ∀ text more, escape (text ++ more) = escape text ++ escape more
  alertStack : ∀ dismiss : UInt64 → α,
    IsSafe (fun log => [alertStack dismiss log]) AlertLog.shape AlertLog.texts
  listenItem : ∀ (canPin : Bool) (pin : Listen → α),
    IsSafe (fun l => [listenItem canPin pin l]) Listen.shape Listen.texts
  listenList : ∀ (canPin : Bool) (pin : Listen → α),
    IsSafe (fun ls => [listenList canPin pin ls]) (List.map Listen.shape)
      (List.flatMap Listen.texts)
  /-- The recording is looked at with the second at which it is shown. -/
  pinnedCard : ∀ (canUnpin : Bool) (unpin : α),
    IsSafe (fun (now, p) => [pinnedCard now canUnpin unpin p]) (fun (now, p) => p.shape now)
      (fun (now, p) => p.texts now canUnpin)
  /-- The dialog is looked at with the recording that it is about. -/
  pinDialog : ∀ act : PinDialog.Action → α,
    IsSafe (fun (recording, d) => pinDialog act recording d) (fun (_, d) => d.isOpen)
      (fun (recording, d) => d.texts recording)
  profile : ∀ (act : Profile.Action → α) (isOwn : Bool),
    IsSafe (fun (now, p) => [profile act now isOwn p]) (fun (now, p) => p.shape now)
      (fun (now, p) => p.texts now isOwn)

/-- **No text breaks out of its place.**  Alerts, listens, the pinned recording, the dialog and
whole profiles are written by templates that depend on their shapes alone, and in the places of
these stand the texts, escaped once; an escaped text holds no angle bracket and no quote and is read
again as it was. -/
theorem texts_stay_in_place (α : Type) : TextsInPlace α where
  closed := by
    intro text c hc
    exact not_mem_escape hc text
  read := unescape_escape
  joined := escape_append
  alertStack := by
    intro dismiss
    apply IsSafe.of_node (texts_alertStack dismiss)
    intro log log' h
    exact template_alertStack dismiss h
  listenItem := by
    intro canPin pin
    apply IsSafe.of_node (texts_listenItem canPin pin)
    intro l l' h
    exact template_listenItem canPin pin h
  listenList := by
    intro canPin pin
    apply IsSafe.of_node (texts_listenList canPin pin)
    intro ls ls' h
    exact template_listenList canPin pin h
  pinnedCard := by
    intro canUnpin unpin
    apply IsSafe.of_node
    · rintro ⟨now, p⟩
      exact texts_pinnedCard canUnpin unpin now p
    · rintro ⟨now, p⟩ ⟨now', p'⟩ h
      exact template_pinnedCard canUnpin unpin h
  pinDialog := by
    intro act
    apply IsSafe.of_template
    · rintro ⟨recording, d⟩
      exact texts_pinDialog act recording d
    · rintro ⟨recording, d⟩ ⟨recording', d'⟩ h
      exact template_pinDialog act recording recording' h
  profile := by
    intro act isOwn
    apply IsSafe.of_node
    · rintro ⟨now, p⟩
      exact texts_profile act isOwn now p
    · rintro ⟨now, p⟩ ⟨now', p'⟩ h
      exact template_profile act isOwn h

end View

end PinBoard
