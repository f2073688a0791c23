import PinBoard.Browser
import Mathlib.Data.List.Forall2
import Mathlib.Data.List.Induction

/-!
# Sessions in the browser

Who is logged in is told by what happened and by nothing else: the last login stands unless
something behind it ended the session. A single event either logs in, or ends the session, or leaves
it; from that, by induction on the last event, follows what a run of them leaves behind. What the
pages ask of a session is said at the end, and for names that differ in the case of letters only.
-/

namespace PinBoard

namespace Auth

/-! ## What happens to a session -/

/-- What happens to a session. -/
inductive Event : Type 1 where
  | login (account : Account)
  /-- A logout, with what the server said to it. -/
  | logout (said : Except ServerError Unit)
  /-- An error that is taken notice of. -/
  | error (e : ServerError)
  /-- A call of the server, for a value of any type, with what it came to. -/
  | call {α : Type} (result : Except ServerError α)

/-- What an event gives back. -/
inductive Reply : Type 1 where
  | nothing
  | handled (ended : Bool)
  | settled {α : Type} (result : Except ServerError α)

/-- One event: the session behind it, and what it gives back. -/
def step (a : Auth) : Event → Auth × Reply
  | .login account => (a.login account, .nothing)
  | .logout _ => (a.logout, .nothing)
  | .error e => (a.heed e, .handled e.isUnauthorized)
  | .call result => (a.observe result, .settled result)

/-- A run of events: the session behind the last one, and what each of them gave back. -/
def run (a : Auth) : List Event → Auth × List Reply
  | [] => (a, [])
  | e :: rest => (((a.step e).1.run rest).1, (a.step e).2 :: ((a.step e).1.run rest).2)

/-- A run with one event more goes on from the session that it had left. -/
theorem run_concat (a : Auth) (events : List Event) (e : Event) :
    (a.run (events ++ [e])).1 = ((a.run events).1.step e).1 := by
  induction events generalizing a with
  | nil => rfl
  | cons first rest ih => exact ih (a.step first).1

/-! ## The ends of sessions -/

/-- The server says that nobody is logged in: an answer of its own with the status 401. -/
def SaysLoggedOut (e : ServerError) : Prop := ∃ message, e = .answered message 401

/-- This is what is looked for in an error. -/
theorem isUnauthorized_iff (e : ServerError) : e.isUnauthorized = true ↔ SaysLoggedOut e := by
  cases e with
  | answered message code =>
    rw [ServerError.isUnauthorized, decide_eq_true_iff]
    constructor
    · rintro rfl
      exact ⟨message, rfl⟩
    · rintro ⟨_, h⟩
      exact (ServerError.answered.inj h).2
  | passage place message =>
    rw [ServerError.isUnauthorized]
    constructor
    · intro h
      exact absurd h Bool.false_ne_true
    · rintro ⟨_, h⟩
      exact nomatch h

/-- Somebody logs in. -/
inductive Event.IsLogin : Event → Prop
  | login (account : Account) : Event.IsLogin (.login account)

/-- A session ends with a logout, whatever the server said to it, and with an error, be it of a
call, in which the server says that nobody is logged in. -/
inductive Event.Ends : Event → Prop
  | logout (said : Except ServerError Unit) : Event.Ends (.logout said)
  | error {e : ServerError} (h : SaysLoggedOut e) : Event.Ends (.error e)
  | call {α : Type} {e : ServerError} (h : SaysLoggedOut e) :
    Event.Ends (.call (.error e : Except ServerError α))

/-- An error leaves the session unless the server says in it that nobody is logged in. -/
theorem heed_eq_some_iff (a : Auth) (e : ServerError) (account : Account) :
    a.heed e = some account ↔ a = some account ∧ ¬ SaysLoggedOut e := by
  unfold heed
  rw [← isUnauthorized_iff]
  by_cases h : e.isUnauthorized = true
  · rw [if_pos h]
    simp [h]
  · rw [if_neg h]
    exact (and_iff_left h).symm

/-- **One event.**  The session behind it is the one that was logged in to just now, or the one
before it if the event neither logs in nor ends a session. -/
theorem step_eq_some_iff (a : Auth) (e : Event) (account : Account) :
    (a.step e).1 = some account ↔
      e = .login account ∨ (a = some account ∧ ¬ e.IsLogin ∧ ¬ e.Ends) := by
  cases e with
  | login other =>
    show some other = some account ↔ _
    constructor
    · intro h
      rw [Option.some.inj h]
      exact Or.inl rfl
    · rintro (h | ⟨-, h, -⟩)
      · rw [Event.login.inj h]
      · exact absurd (.login other) h
  | logout said =>
    constructor
    · intro h
      exact nomatch h
    · rintro (h | ⟨-, -, h⟩)
      · exact nomatch h
      · exact absurd (.logout said) h
  | error e =>
    have hlogin : ¬ (Event.error e).IsLogin := nofun
    have hends : (Event.error e).Ends ↔ SaysLoggedOut e := by
      constructor
      · rintro (_ | h | _)
        exact h
      · exact .error
    rw [hends, and_iff_right hlogin, or_iff_right nofun]
    exact heed_eq_some_iff a e account
  | @call α result =>
    have hlogin : ¬ (Event.call result).IsLogin := nofun
    rw [and_iff_right hlogin, or_iff_right nofun]
    cases result with
    | ok value =>
      have hends : ¬ (Event.call (.ok value : Except ServerError α)).Ends := nofun
      rw [and_iff_left hends]
      rfl
    | error e =>
      have hends : (Event.call (.error e : Except ServerError α)).Ends ↔ SaysLoggedOut e := by
        constructor
        · rintro (_ | _ | h)
          exact h
        · exact .call
      rw [hends]
      exact heed_eq_some_iff a e account

/-! ## What a run leaves behind -/

/-- What happened leaves the account of the last login, or of the session at the start if there was
no login, if nothing that happened since has ended the session. -/
def Stands (start : Auth) (events : List Event) (account : Account) : Prop :=
  (∃ before since, events = before ++ .login account :: since ∧
    ∀ e ∈ since, ¬ e.IsLogin ∧ ¬ e.Ends) ∨
  (start = some account ∧ ∀ e ∈ events, ¬ e.IsLogin ∧ ¬ e.Ends)

/-- With one event more an account stands if it was just logged in to, or if it stood before and the
event neither logs in nor ends the session. -/
theorem stands_concat (start : Auth) (events : List Event) (e : Event) (account : Account) :
    Stands start (events ++ [e]) account ↔
      e = .login account ∨ (Stands start events account ∧ ¬ e.IsLogin ∧ ¬ e.Ends) := by
  constructor
  · rintro (⟨before, since, hsplit, hsince⟩ | ⟨hstart, hall⟩)
    · -- the login is the last event, or the last event is one of those since the login
      rcases List.eq_nil_or_concat since with rfl | ⟨since, last, rfl⟩
      · obtain ⟨-, hlast⟩ := List.append_inj' hsplit rfl
        exact Or.inl (List.singleton_inj.mp hlast)
      · rw [List.concat_eq_append] at hsplit hsince
        rw [← List.cons_append, ← List.append_assoc] at hsplit
        obtain ⟨hevents, hlast⟩ := List.append_inj' hsplit rfl
        rw [List.singleton_inj.mp hlast]
        refine Or.inr ⟨Or.inl ⟨before, since, hevents, fun f hf => ?_⟩, ?_⟩
        · exact hsince f (List.mem_append_left _ hf)
        · exact hsince last (List.mem_append_right _ List.mem_cons_self)
    · refine Or.inr ⟨Or.inr ⟨hstart, fun f hf => hall f (List.mem_append_left _ hf)⟩, ?_⟩
      exact hall e (List.mem_append_right _ List.mem_cons_self)
  · have hmore : ∀ {l : List Event}, (∀ f ∈ l, ¬ f.IsLogin ∧ ¬ f.Ends) →
        ¬ e.IsLogin ∧ ¬ e.Ends → ∀ f ∈ l ++ [e], ¬ f.IsLogin ∧ ¬ f.Ends := by
      intro l hl he f hf
      rcases List.mem_append.mp hf with hf | hf
      · exact hl f hf
      · rw [List.mem_singleton.mp hf]
        exact he
    rintro (rfl | ⟨⟨before, since, rfl, hsince⟩ | ⟨hstart, hall⟩, he⟩)
    · exact Or.inl ⟨events, [], rfl, fun f hf => absurd hf List.not_mem_nil⟩
    · refine Or.inl ⟨before, since ++ [e], ?_, hmore hsince he⟩
      rw [List.append_assoc, List.cons_append]
    · exact Or.inr ⟨hstart, hmore hall he⟩

/-- The session behind a run is the one that stands. -/
theorem run_eq_some_iff (start : Auth) (events : List Event) (account : Account) :
    (start.run events).1 = some account ↔ Stands start events account := by
  induction events using List.reverseRecOn with
  | nil =>
    constructor
    · intro h
      exact Or.inr ⟨h, fun e he => absurd he List.not_mem_nil⟩
    · rintro (⟨before, since, h, -⟩ | ⟨h, -⟩)
      · exact absurd h (by simp)
      · exact h
  | append_singleton events e ih => rw [run_concat, step_eq_some_iff, stands_concat, ih]

/-! ## What events give back -/

/-- What is given back by an event: of an error whether it ended the session, of a call the very
result that it came to. -/
inductive GivesBack : Event → Reply → Prop
  | login (account : Account) : GivesBack (.login account) .nothing
  | logout (said : Except ServerError Unit) : GivesBack (.logout said) .nothing
  | ended {e : ServerError} (h : SaysLoggedOut e) : GivesBack (.error e) (.handled true)
  | left {e : ServerError} (h : ¬ SaysLoggedOut e) : GivesBack (.error e) (.handled false)
  | call {α : Type} (result : Except ServerError α) :
    GivesBack (.call result) (.settled result)

theorem givesBack_step (a : Auth) (e : Event) : GivesBack e (a.step e).2 := by
  cases e with
  | login account => exact .login account
  | logout said => exact .logout said
  | call result => exact .call result
  | error e =>
    show GivesBack (.error e) (.handled e.isUnauthorized)
    cases h : e.isUnauthorized with
    | true => exact .ended ((isUnauthorized_iff e).mp h)
    | false =>
      apply GivesBack.left
      rw [← isUnauthorized_iff, h]
      exact Bool.false_ne_true

/-- Each event of a run gives back what it should. -/
theorem givesBack_run (start : Auth) (events : List Event) :
    List.Forall₂ GivesBack events (start.run events).2 := by
  induction events generalizing start with
  | nil => exact .nil
  | cons e rest ih => exact .cons (givesBack_step start e) (ih (start.step e).1)

/-! ## Names up to the case of letters -/

/-- A capital letter of ASCII. -/
def IsCapital (c : Char) : Prop := 'A' ≤ c ∧ c ≤ 'Z'

/-- The same character, or a capital letter of ASCII and its small one, which comes 32 places
later. -/
def SameLetter (c d : Char) : Prop :=
  c = d ∨ (IsCapital c ∧ d.toNat = c.toNat + 32) ∨ (IsCapital d ∧ c.toNat = d.toNat + 32)

/-- Two names that differ in the case of letters of ASCII at most. -/
def SameName (s t : String) : Prop := List.Forall₂ SameLetter s.toList t.toList

/-- Where a character stands once it is in lower case. -/
theorem toNat_toLower (c : Char) :
    c.toLower.toNat = if 65 ≤ c.toNat ∧ c.toNat ≤ 90 then c.toNat + 32 else c.toNat := by
  unfold Char.toLower
  by_cases h : c.val ≥ 'A'.val ∧ c.val ≤ 'Z'.val
  · have hcapital : 65 ≤ c.toNat ∧ c.toNat ≤ 90 :=
      ⟨UInt32.le_iff_toNat_le.mp h.1, UInt32.le_iff_toNat_le.mp h.2⟩
    rw [dif_pos h, if_pos hcapital]
    show (c.val + 32).toNat = c.val.toNat + 32
    have hsmall : c.val.toNat ≤ 90 := hcapital.2
    rw [UInt32.toNat_add]
    exact Nat.mod_eq_of_lt (by simp; omega)
  · have hother : ¬ (65 ≤ c.toNat ∧ c.toNat ≤ 90) := by
      rintro ⟨hlow, hhigh⟩
      exact h ⟨UInt32.le_iff_toNat_le.mpr hlow, UInt32.le_iff_toNat_le.mpr hhigh⟩
    rw [dif_neg h, if_neg hother]

/-- In lower case only such characters are the same. -/
theorem toLower_eq_iff (c d : Char) : c.toLower = d.toLower ↔ SameLetter c d := by
  have hcapital : ∀ c : Char, IsCapital c ↔ 65 ≤ c.toNat ∧ c.toNat ≤ 90 := fun c =>
    and_congr UInt32.le_iff_toNat_le UInt32.le_iff_toNat_le
  have heq : ∀ c d : Char, c = d ↔ c.toNat = d.toNat := fun c d =>
    ⟨congrArg Char.toNat, Char.toNat_inj.mp⟩
  rw [SameLetter, heq, heq, toNat_toLower, toNat_toLower, hcapital, hcapital]
  split <;> split <;> omega

/-- Names are the same in lower case if they differ in the case of letters at most. -/
theorem lowerAscii_eq_iff (s t : String) : lowerAscii s = lowerAscii t ↔ SameName s t := by
  rw [lowerAscii, lowerAscii, SameName, ← List.forall₂_eq_eq_eq, List.forall₂_map_left_iff,
    List.forall₂_map_right_iff]
  simp only [toLower_eq_iff]

/-! ## What is asked of a session -/

/-- All that is asked of a session agrees with it. -/
structure Tells (a : Auth) : Prop where
  isLoggedIn : a.isLoggedIn = true ↔ ∃ account, a = some account
  userName : ∀ name, a.userName = some name ↔ ∃ account, a = some account ∧ account.userName = name
  token : ∀ token, a.token = some token ↔ ∃ account, a = some account ∧ account.token = token
  viewer : ∀ ownsProfile, (a.viewer ownsProfile).ownsProfile = ownsProfile ∧
    ∀ token, (a.viewer ownsProfile).token = some token ↔
      ∃ account, a = some account ∧ account.token = token
  owns : ∀ profile, a.owns profile = true ↔
    ∃ account, a = some account ∧ SameName account.userName profile
  variants : ∀ profile profile', SameName profile profile' → a.owns profile = a.owns profile'

theorem owns_iff (a : Auth) (profile : String) :
    a.owns profile = true ↔ ∃ account, a = some account ∧ SameName account.userName profile := by
  cases a with
  | none => simp [owns]
  | some account => simp [owns, lowerAscii_eq_iff]

/-- The same profile in other letters is owned by the same users. -/
theorem owns_congr (a : Auth) {profile profile' : String} (h : SameName profile profile') :
    a.owns profile = a.owns profile' := by
  rw [← lowerAscii_eq_iff] at h
  simp only [owns, h]

theorem tells (a : Auth) : a.Tells where
  isLoggedIn := Option.isSome_iff_exists
  userName _ := Option.map_eq_some_iff
  token _ := Option.map_eq_some_iff
  viewer _ := ⟨rfl, fun _ => Option.map_eq_some_iff⟩
  owns := a.owns_iff
  variants _ _ h := a.owns_congr h

end Auth

/-! ## The browser -/

/-- What the browser does with its session is made of such events: a login that the server grants, a
logout, and a call whose error is taken notice of and whose result is handed on as it is. -/
structure Browser.Follows (b : Browser) (s : Surroundings) : Prop where
  logIn : ∀ token account, (b.call s (·.login · token)).1 = .ok account →
    (b.logIn s token).2.auth = (b.auth.step (.login account)).1
  refused : ∀ token e, (b.call s (·.login · token)).1 = .error e →
    (b.logIn s token).2.auth = b.auth
  logOut : (b.logOut s).auth = (b.auth.step (.logout (b.call s (·.logout ·)).1)).1
  call : ∀ {α : Type} (f : Server → Visit → Answer α),
    (b.heedfulCall s f).1 = (b.call s f).1 ∧
      (b.heedfulCall s f).2.auth = (b.auth.step (.call (b.call s f).1)).1

theorem Browser.follows (b : Browser) (s : Surroundings) : b.Follows s where
  logIn token account h := by
    have hcall : b.call s (·.login · token) = (.ok account, (b.call s (·.login · token)).2) :=
      Prod.ext h rfl
    unfold Browser.logIn
    rw [hcall]
    rfl
  refused token e h := by
    have hcall : b.call s (·.login · token) = (.error e, (b.call s (·.login · token)).2) :=
      Prod.ext h rfl
    unfold Browser.logIn
    rw [hcall]
    rfl
  logOut := rfl
  call _ := ⟨rfl, rfl⟩

/-- **Who is logged in.**  Behind any run of logins, logouts, errors and calls, whatever session it
started with, the session is that of an account if this is the account of the last login, or the one
at the start without a login, and nothing since was a logout or an error that says that nobody is
logged in.  A call gives back what it came to, and an error whether it ended the session.  What is
asked of the session agrees with it, profiles being owned up to the case of letters, and the browser
keeps its session by these events. -/
theorem session_of_run (start : Auth) (events : List Auth.Event) :
    (∀ account, (start.run events).1 = some account ↔ Auth.Stands start events account) ∧
      List.Forall₂ Auth.GivesBack events (start.run events).2 ∧
      (start.run events).1.Tells ∧ ∀ b s, Browser.Follows b s :=
  ⟨start.run_eq_some_iff events, start.givesBack_run events, Auth.tells _, Browser.follows⟩

end PinBoard
