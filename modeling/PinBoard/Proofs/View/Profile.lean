import PinBoard.Proofs.Server.Session
import PinBoard.Proofs.View.Buttons

/-!
# What a profile shows to whom

Pin and listens are public: the functions of the server that give them mind no cookies. So all that
a profile takes from the session is whether it is the viewer's own, and that is still all behind
anything that happens on it short of a submission, an answer that ends the session included. One
event is proved not to tell two sessions apart, and from that, by induction, no run of them does.
-/

namespace PinBoard

/-! ## Calls that mind no cookies -/

/-- A function of the server that answers and sends the same whatever cookies there are. -/
def IsPublic {α : Type} (f : Server → Visit → Answer α) : Prop :=
  ∀ server now jar jar' responder,
    (f server ⟨now, jar, responder⟩).result = (f server ⟨now, jar', responder⟩).result ∧
    (f server ⟨now, jar, responder⟩).sent = (f server ⟨now, jar', responder⟩).sent

/-- The pin on a profile is public. -/
theorem isPublic_currentPin (userName : String) :
    IsPublic fun server visit => server.currentPin visit userName := by
  intro server now jar jar' responder
  dsimp only
  unfold Server.currentPin
  rcases server.services.pins.find? none with _ | pins
  · exact ⟨rfl, rfl⟩
  · exact ⟨rfl, rfl⟩

/-- So are the listens. -/
theorem isPublic_recentListens (userName : String) :
    IsPublic fun server visit => server.recentListens visit userName := by
  intro server now jar jar' responder
  dsimp only
  unfold Server.recentListens
  rcases server.services.listens.find? none with _ | source
  · exact ⟨rfl, rfl⟩
  · exact ⟨rfl, rfl⟩

/-! ## Two sessions -/

/-- An error that ends one session ends any other. -/
theorem Auth.owns_observe {α : Type} {a a' : Auth} {profile : String}
    (h : a.owns profile = a'.owns profile) (result : Except ServerError α) :
    (a.observe result).owns profile = (a'.observe result).owns profile := by
  rcases result with e | value
  · show (a.heed e).owns profile = (a'.heed e).owns profile
    unfold Auth.heed
    by_cases hended : e.isUnauthorized = true
    · rw [if_pos hended, if_pos hended]
    · rw [if_neg hended, if_neg hended]
      exact h
  · exact h

/-- Two visits of one page, each with the browser it began with, that only the check for the owner
might tell apart: so far it has come out the same, and the same was asked. -/
structure Alike (b b' : Browser) (x y : Profile × Browser) : Prop where
  page : x.1 = y.1
  own : x.1.isOwn x.2 = y.1.isOwn y.2
  sent : ∃ requests, x.2.sent = b.sent ++ requests ∧ y.2.sent = b'.sent ++ requests

/-- A public question about the user of the page leaves two visits alike, and so does noting its
answer on the page. -/
theorem Alike.ask {α : Type} {b b' : Browser} {x y : Profile × Browser} (h : Alike b b' x y)
    (s : Surroundings) {f : String → Server → Visit → Answer α}
    (hf : ∀ userName, IsPublic (f userName)) (note : Profile → Except ServerError α → Profile)
    (hname : ∀ p r, (note p r).userName = p.userName) :
    Alike b b' (note x.1 (x.2.heedfulCall s (f x.1.userName)).1,
        (x.2.heedfulCall s (f x.1.userName)).2)
      (note y.1 (y.2.heedfulCall s (f y.1.userName)).1,
        (y.2.heedfulCall s (f y.1.userName)).2) := by
  obtain ⟨hpage, hown, requests, hx, hy⟩ := h
  obtain ⟨p, c⟩ := x
  obtain ⟨q, c'⟩ := y
  obtain rfl : p = q := hpage
  obtain ⟨hresult, hsent⟩ := hf p.userName s.server s.now c.jar c'.jar s.responder
  refine ⟨congrArg (note p) hresult, ?_,
    requests ++ (f p.userName s.server ⟨s.now, c.jar, s.responder⟩).sent, ?_, ?_⟩
  · show (c.auth.observe _).owns (note p _).userName = (c'.auth.observe _).owns (note p _).userName
    rw [hname, hname, ← hresult]
    exact Auth.owns_observe hown _
  · show c.sent ++ _ = _
    rw [hx, List.append_assoc]
  · show c'.sent ++ _ = _
    rw [hy, ← hsent, List.append_assoc]

/-! ## What happens on a profile -/

namespace Profile

/-- What happens on a profile without a call in somebody's name: pin and listens are asked for, both
at first or one of them again, and the dialog is opened for a listen, closed and written in. -/
inductive Event where
  | load
  | askPin
  | askListens
  | choose (l : Listen)
  | close
  | edit (raw : String)

/-- What comes of it, amid the surroundings of that moment. -/
def happen (x : Profile × Browser) (s : Surroundings) : Event → Profile × Browser
  | .load => x.1.load x.2 s
  | .askPin => x.1.askPin x.2 s
  | .askListens => x.1.askListens x.2 s
  | .choose l => x.1.act x.2 s (.choose l)
  | .close => x.1.act x.2 s (.dialog .close)
  | .edit raw => x.1.act x.2 s (.dialog (.edit raw))

/-- What comes of a run of events. -/
def visit (p : Profile) (b : Browser) (events : List (Surroundings × Event)) : Profile × Browser :=
  events.foldl (fun x e => happen x e.1 e.2) (p, b)

/-- What the viewer sees of a profile at a given second. -/
def shown {α : Type} (act : Action → α) (now : Int64) (x : Profile × Browser) : Node α :=
  View.profile act now (x.1.isOwn x.2) x.1

end Profile

/-! ## One event -/

section Events

variable {b b' : Browser} {x y : Profile × Browser}

/-- Asking for the pin leaves two visits alike. -/
theorem Alike.askPin (h : Alike b b' x y) (s : Surroundings) :
    Alike b b' (x.1.askPin x.2 s) (y.1.askPin y.2 s) :=
  h.ask s isPublic_currentPin (fun p r => { p with pin := some r }) fun _ _ => rfl

/-- So does asking for the listens. -/
theorem Alike.askListens (h : Alike b b' x y) (s : Surroundings) :
    Alike b b' (x.1.askListens x.2 s) (y.1.askListens y.2 s) :=
  h.ask s isPublic_recentListens (fun p r => { p with listens := some r }) fun _ _ => rfl

/-- And a change of the page alone that keeps its user. -/
theorem Alike.onPage (h : Alike b b' x y) (f : Profile → Profile)
    (hname : ∀ p, (f p).userName = p.userName) : Alike b b' (f x.1, x.2) (f y.1, y.2) := by
  refine ⟨congrArg f h.page, ?_, h.sent⟩
  show x.2.auth.owns (f x.1).userName = y.2.auth.owns (f y.1).userName
  rw [hname, hname]
  exact h.own

/-- Both are asked for at first, the pin before the listens. -/
theorem Alike.load (h : Alike b b' x y) (s : Surroundings) :
    Alike b b' (x.1.load x.2 s) (y.1.load y.2 s) := by
  have hdue : x.1.isDue = y.1.isDue := by rw [h.page]
  unfold Profile.load
  by_cases hx : x.1.isDue = true
  · rw [if_pos hx, if_pos (hdue ▸ hx)]
    exact ((h.askPin s).askListens s).onPage (fun p => { p with isDue := false }) fun _ => rfl
  · rw [if_neg hx, if_neg (hdue ▸ hx)]
    exact h

/-- **No event tells two sessions apart.** -/
theorem Alike.happen (h : Alike b b' x y) (s : Surroundings) (e : Profile.Event) :
    Alike b b' (Profile.happen x s e) (Profile.happen y s e) := by
  cases e with
  | load => exact h.load s
  | askPin => exact h.askPin s
  | askListens => exact h.askListens s
  | choose l =>
    exact h.onPage (fun p => { p with chosen := some l, dialog := p.dialog.reveal }) fun _ => rfl
  | close => exact h.onPage (fun p => { p with dialog := p.dialog.close }) fun _ => rfl
  | edit raw => exact h.onPage (fun p => { p with dialog := p.dialog.edit raw }) fun _ => rfl

end Events

/-! ## Whole visits -/

/-- No run of events does. -/
theorem alike_visit {b b' : Browser} {p : Profile} (h : p.isOwn b = p.isOwn b')
    (events : List (Surroundings × Profile.Event)) :
    Alike b b' (p.visit b events) (p.visit b' events) := by
  -- over all pairs of visits, since each event changes both of them
  have hrun : ∀ x y, Alike b b' x y →
      Alike b b' (events.foldl (fun x e => Profile.happen x e.1 e.2) x)
        (events.foldl (fun x e => Profile.happen x e.1 e.2) y) := by
    induction events with
    | nil => exact fun x y hxy => hxy
    | cons e rest ih => exact fun x y hxy => ih _ _ (hxy.happen e.1 e.2)
  exact hrun _ _ ⟨rfl, h, [], (List.append_nil _).symm, (List.append_nil _).symm⟩

/-- The buttons of a profile, for its owner or for somebody else. -/
structure Profile.Offers {α : Type} (p : Profile) (act : Profile.Action → α) (isOwn : Bool)
    (view : Node α) : Prop where
  /-- For the owner each listen has one button that pins it; for others none has. -/
  pins : (view.buttons.filter fun button => decide (button.text = View.pinText)) =
    if isOwn then p.shownListens.map fun l => View.acting View.pinText (act (.choose l)) else []
  /-- For the owner a pin has one button that takes it off; for others it has none. -/
  unpins : (view.buttons.filter fun button => decide (button.text = View.unpinText)) =
    if isOwn then p.shownPin.toList.map fun _ => View.acting View.unpinText (act .unpin) else []
  /-- For others there is no button but those of the dialog. -/
  foreign : isOwn = false → view.buttons =
    if p.dialog.isOpen then
      [View.acting "" (act (.dialog .close)), View.acting "Cancel" (act (.dialog .close)),
        View.acting "Pin" (act (.dialog .submit))]
    else []
  /-- The HTML opens these buttons and no more, whatever was given. -/
  written : (openedTags (html [view]).toList).count "button" = view.buttons.length

/-- A profile has these buttons by who looks at it. -/
theorem Profile.offers {α : Type} (p : Profile) (act : Profile.Action → α) (now : Int64)
    (isOwn : Bool) : p.Offers act isOwn (View.profile act now isOwn p) where
  pins := View.pinButtons_profile act now isOwn p
  unpins := View.unpinButtons_profile act now isOwn p
  foreign := by
    rintro rfl
    rw [View.buttons_profile]
    rfl
  written := View.count_button_profile act now isOwn p

/-- **A profile shows a session no more than whether it is the owner's.**  Two sessions that own a
profile alike see the same of it and have the same asked behind every run of events, whatever the
service answers, an end of the session included; so a token makes no difference. Where the profile
is not the viewer's own by then, nothing on it pins a listen or takes the pin off; where it is, each
listen has one button that pins it, and a pin has one that takes it off. -/
theorem profile_alike {α : Type} (act : Profile.Action → α) (now : Int64) (p : Profile)
    (b b' : Browser) (h : p.isOwn b = p.isOwn b') (events : List (Surroundings × Profile.Event)) :
    Profile.shown act now (p.visit b events) = Profile.shown act now (p.visit b' events) ∧
    html [Profile.shown act now (p.visit b events)] =
      html [Profile.shown act now (p.visit b' events)] ∧
    (∃ requests, (p.visit b events).2.sent = b.sent ++ requests ∧
      (p.visit b' events).2.sent = b'.sent ++ requests) ∧
    (∀ account token, b.auth = some account →
      html [Profile.shown act now
          (p.visit { b with auth := some { account with token := token } } events)] =
        html [Profile.shown act now (p.visit b events)]) ∧
    (p.visit b events).1.Offers act ((p.visit b events).1.isOwn (p.visit b events).2)
      (Profile.shown act now (p.visit b events)) := by
  have hshown : ∀ {c c' : Browser}, p.isOwn c = p.isOwn c' →
      Profile.shown act now (p.visit c events) = Profile.shown act now (p.visit c' events) := by
    intro c c' hc
    have halike := alike_visit hc events
    unfold Profile.shown
    rw [halike.own, halike.page]
  refine ⟨hshown h, ?_, (alike_visit h events).sent, fun account token haccount => ?_, ?_⟩
  · rw [hshown h]
  · have howns : p.isOwn { b with auth := some { account with token := token } } = p.isOwn b := by
      unfold Profile.isOwn
      rw [haccount]
      rfl
    rw [hshown howns]
  · exact Profile.offers _ act now _

/-- Nobody and bob see the same of the profile of alice, whose service refuses to answer them. -/
theorem profile_alike_refused :
    (Profile.fresh "alice").isOwn (.fresh none) =
        (Profile.fresh "alice").isOwn { Browser.fresh none with auth := some ⟨"bob", "t", 0⟩ } ∧
      html [Profile.shown id 0 ((Profile.fresh "alice").visit (.fresh none)
          [(⟨⟨plainConfig, Service.plainClient.services⟩, 0, fun _ => .response 401 (.complete [])⟩,
            .load)])] =
        html [Profile.shown id 0 ((Profile.fresh "alice").visit
          { Browser.fresh none with auth := some ⟨"bob", "t", 0⟩ }
          [(⟨⟨plainConfig, Service.plainClient.services⟩, 0, fun _ => .response 401 (.complete [])⟩,
            .load)])] := by
  have howns : (Profile.fresh "alice").isOwn (.fresh none) =
      (Profile.fresh "alice").isOwn { Browser.fresh none with auth := some ⟨"bob", "t", 0⟩ } := by
    decide +kernel
  exact ⟨howns, (profile_alike id 0 (.fresh "alice") _ _ howns _).2.1⟩

end PinBoard
