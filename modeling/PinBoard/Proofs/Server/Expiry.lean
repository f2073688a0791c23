import PinBoard.Proofs.Server.Login
import PinBoard.Proofs.Token.Issue
import Mathlib.Algebra.Group.Int.Defs
import Mathlib.Algebra.Group.Nat.Defs

/-!
# The expiry that the browser is told

A token says as a count of 64 bits when its session is over, and the browser is told so as an
integer of 64 bits with a sign. The two are the same number in the lower half of the counts. In the
upper half the integer is negative: a session that has the longest to live is reported as over since
before the epoch. No session that is issued here reaches that far, but whoever knows the secret can
sign one that does.
-/

namespace PinBoard

/-! ## Counts that are read with a sign -/

/-- A count of the lower half keeps its value, one of the upper half loses `2 ^ 64`. -/
theorem toInt_toInt64 (n : UInt64) :
    n.toInt64.toInt = if n.toNat < 2 ^ 63 then (n.toNat : Int) else n.toNat - 2 ^ 64 := by
  have hcond : n.toInt64.toInt =
      if 2 * n.toNat < 2 ^ 64 then (n.toNat : Int) else n.toNat - 2 ^ 64 :=
    BitVec.toInt_eq_toNat_cond n.toBitVec
  rw [hcond]
  exact if_congr (by omega) rfl rfl

section Account

variable (c : Claims)

/-- What the browser is told, in exact integers. -/
theorem Claims.toInt_account_expiresAt :
    c.account.expiresAt.toInt =
      if c.expiresAt.toNat < 2 ^ 63 then (c.expiresAt.toNat : Int)
      else c.expiresAt.toNat - 2 ^ 64 :=
  toInt_toInt64 c.expiresAt

/-- The browser is told the expiry itself exactly if it lies in the lower half. -/
theorem Claims.account_expiresAt_eq_iff :
    c.account.expiresAt.toInt = c.expiresAt.toNat ↔ c.expiresAt.toNat < 2 ^ 63 := by
  rw [c.toInt_account_expiresAt]
  split <;> omega

/-- While claims are accepted, the browser takes them to be over for more than the leeway exactly if
their expiry lies in the upper half, unless the clock stands so near to the epoch that an integer
just below zero is not over for so long. -/
theorem Claims.account_over_iff {now : Nat} (h : now ≤ c.expiresAt.toNat + Token.leeway) :
    c.account.expiresAt.toInt + Token.leeway < now ↔
      2 ^ 63 ≤ c.expiresAt.toNat ∧ c.expiresAt.toNat + Token.leeway < now + 2 ^ 64 := by
  rw [c.toInt_account_expiresAt]
  split <;> omega

end Account

/-- The expiry of a session that is issued is told as it is. -/
theorem Token.toInt_expiresAt_of_issue {secret userName token text : String} {now : Nat}
    {account : Account} (h : issue secret now userName token = some (text, account)) :
    account.expiresAt.toInt = now + sessionSeconds := by
  by_cases hdate : ((now + sessionSeconds : Nat) : Int) ≤ lastSecond
  · rw [issue_eq_some hdate] at h
    obtain ⟨-, rfl⟩ := Prod.mk.inj (Option.some.inj h)
    have hexpires : (Claims.issue userName token now).expiresAt.toNat = now + sessionSeconds :=
      Claims.expiresAt_issue hdate
    have hlast := lastSecond_eq
    have hlower : (Claims.issue userName token now).expiresAt.toNat < 2 ^ 63 := by omega
    rw [(Claims.account_expiresAt_eq_iff _).mpr hlower, hexpires]
    exact Int.natCast_add now sessionSeconds
  · rw [issue, if_neg hdate] at h
    exact absurd h (by simp)

/-! ## Sessions that are reported -/

/-- A session that is admitted is not over for more than the leeway. -/
theorem Config.Admits.now_le {config : Config} {now : Nat} {jar : Option Jar} {claims : Claims}
    (h : config.Admits now jar claims) : now ≤ claims.expiresAt.toNat + Token.leeway := by
  obtain ⟨_, _, -, -, hverify⟩ := h
  exact (Token.verify_iff_le_expiry hverify now).mp hverify

/-- **The expiry that is reported.**  The account of an accepted token has the user and the token of
its claims. The expiry in the claims is the one that was checked: the token is accepted up to a
minute after it and no longer. The expiry in the account is the same number exactly if it is less
than `2 ^ 63`, and falls `2 ^ 64` short of it otherwise. Every session that is admitted is reported
with this account, which is over for more than a minute exactly if the expiry is `2 ^ 63` or more,
the first minute after the epoch apart. What is issued here is reported exactly. -/
theorem Server.reported_expiry (config : Config) (services : Service.Services) :
    (∀ (now : Nat) (token : String) (claims : Claims),
      Token.verify config.secretKey now token = .ok claims →
        claims.account.userName = claims.subject ∧ claims.account.token = claims.token ∧
        (∀ second, Token.verify config.secretKey second token = .ok claims ↔
          second ≤ claims.expiresAt.toNat + 60) ∧
        (claims.account.expiresAt.toInt = claims.expiresAt.toNat ↔
          claims.expiresAt.toNat < 2 ^ 63) ∧
        (2 ^ 63 ≤ claims.expiresAt.toNat →
          claims.account.expiresAt.toInt = claims.expiresAt.toNat - 2 ^ 64)) ∧
    (∀ (v : Visit) (claims : Claims), Server.session ⟨config, services⟩ v = .ok claims →
      (Server.currentUser ⟨config, services⟩ v).result = .ok (some claims.account) ∧
      (claims.account.expiresAt.toInt + 60 < v.now ↔
        2 ^ 63 ≤ claims.expiresAt.toNat ∧ claims.expiresAt.toNat + 60 < v.now + 2 ^ 64)) ∧
    ∀ (now : Nat) (userName token text : String) (account : Account),
      Token.issue config.secretKey now userName token = some (text, account) →
        account.expiresAt.toInt = now + 30 * 86400 := by
  refine ⟨?_, ?_, ?_⟩
  · intro now token claims h
    refine ⟨rfl, rfl, Token.verify_iff_le_expiry h, claims.account_expiresAt_eq_iff, ?_⟩
    intro hupper
    rw [claims.toInt_account_expiresAt, if_neg (by omega)]
  · intro v claims h
    have hadmits : config.Admits v.now v.jar claims := Server.session_eq_ok_iff.mp h
    exact ⟨Server.currentUser_of_admitted hadmits, claims.account_over_iff hadmits.now_le⟩
  · intro now userName token text account h
    exact Token.toInt_expiresAt_of_issue h

/-! ## On both sides of the border -/

/-- A session that expires at a given second. -/
def sessionUntil (second : UInt64) : Claims := ⟨"alice", "tok", 1700000000, second⟩

/-- A visit with the token that is signed for this session. -/
def visitUntil (second : UInt64) (now : Nat) : Visit :=
  ⟨now, some (Jar.ofHeaders
    [sessionCookie ++ "=" ++ Token.sign plainConfig.secretKey (sessionUntil second)]),
    fun _ => .unreachable⟩

/-- The visit has this session as long as it is not over. -/
theorem session_visitUntil {second : UInt64} {now : Nat}
    (h : now ≤ second.toNat + Token.leeway) :
    Server.session ⟨plainConfig, Service.plainClient.services⟩ (visitUntil second now) =
      .ok (sessionUntil second) :=
  Server.session_eq_ok_iff.mpr
    ⟨_, _, rfl, Token.get?_ofHeaders_sign _ _, Token.verify_sign h⟩

/-- The last second that is reported exactly, in the last second in which its session is admitted,
and a session that is issued here. -/
theorem Server.reported_expiry_lastExact :
    let services := Service.plainClient.services
    let last : Claims := sessionUntil 9223372036854775807
    let v := visitUntil 9223372036854775807 9223372036854775867
    Token.verify "secret" 9223372036854775867 (Token.sign "secret" last) = .ok last ∧
      last.account.expiresAt.toInt = 9223372036854775807 ∧
      ¬(last.account.expiresAt.toInt + 60 < v.now) ∧
      Server.session ⟨plainConfig, services⟩ v = .ok last ∧
      (Server.currentUser ⟨plainConfig, services⟩ v).result = .ok (some last.account) ∧
      ∃ text account, Token.issue "secret" 1700000000 "alice" "tok" = some (text, account) ∧
        account.expiresAt.toInt = 1702592000 := by
  intro services last v
  obtain ⟨haccepted, hadmitted, hissued⟩ := Server.reported_expiry plainConfig services
  have hexpiry : last.expiresAt.toNat = 9223372036854775807 := by decide
  have hdate : ((1700000000 + sessionSeconds : Nat) : Int) ≤ lastSecond := by decide
  have hverify : Token.verify "secret" 9223372036854775867 (Token.sign "secret" last) =
      .ok last := Token.verify_sign (by decide)
  have hsession : Server.session ⟨plainConfig, services⟩ v = .ok last :=
    session_visitUntil (by decide)
  have hissue : Token.issue "secret" 1700000000 "alice" "tok" = some (_, _) :=
    Token.issue_eq_some hdate
  obtain ⟨-, -, -, hexact, -⟩ := haccepted _ _ _ hverify
  obtain ⟨hcurrent, hover⟩ := hadmitted _ _ hsession
  refine ⟨hverify, ?_, ?_, hsession, hcurrent, _, _, hissue, ?_⟩
  · rw [hexact.mpr (by omega), hexpiry]
    rfl
  · intro hlate
    have hupper := (hover.mp hlate).1
    omega
  · rw [hissued _ _ _ _ _ hissue]
    rfl

/-- **A token that is accepted and reported as over.**  A second later the expiry is told as the
first second that 64 bits hold with a sign. -/
theorem Server.misreported_expiry :
    let claims : Claims := sessionUntil 9223372036854775808
    Token.verify "secret" 1760000000 (Token.sign "secret" claims) = .ok claims ∧
      claims.expiresAt.toNat = 9223372036854775808 ∧
      claims.account.expiresAt.toInt = -9223372036854775808 ∧
      claims.account.expiresAt.toInt ≠ claims.expiresAt.toNat ∧
      claims.account.expiresAt.toInt + 60 < 1760000000 := by
  intro claims
  exact ⟨Token.verify_sign (by decide), by decide, by decide, by decide, by decide⟩

end PinBoard
