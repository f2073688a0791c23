import PinBoard.Proofs.Token.Verify

/-!
# Sessions that are issued

A token is issued as long as there is a date for its expiry. It is accepted until then, and says
what it was issued for.
-/

namespace PinBoard

/-- The last second that a date is shown for. -/
theorem lastSecond_eq : lastSecond = 8210266876799 := by decide

/-- Every second that a date is shown for is a 64-bit count. -/
theorem lt_of_le_lastSecond {n : Nat} (h : (n : Int) ≤ lastSecond) : n < UInt64.size := by
  have hlast := lastSecond_eq
  have hsize : UInt64.size = 18446744073709551616 := rfl
  omega

section Claims

variable {userName token : String} {now : Nat}

/-- A session is issued at the second it is issued at. -/
theorem Claims.issuedAt_issue (h : ((now + sessionSeconds : Nat) : Int) ≤ lastSecond) :
    (Claims.issue userName token now).issuedAt.toNat = now := by
  have hrange := lt_of_le_lastSecond h
  have hnow : now < UInt64.size := by omega
  exact UInt64.toNat_ofNat_of_lt' hnow

/-- A session expires a fixed time after it was issued. -/
theorem Claims.expiresAt_issue (h : ((now + sessionSeconds : Nat) : Int) ≤ lastSecond) :
    (Claims.issue userName token now).expiresAt.toNat = now + sessionSeconds :=
  UInt64.toNat_ofNat_of_lt' (lt_of_le_lastSecond h)

end Claims

namespace Token

variable {secret userName token : String} {now later : Nat}

/-- What is issued while there is a date for the expiry. -/
theorem issue_eq_some (h : ((now + sessionSeconds : Nat) : Int) ≤ lastSecond) :
    issue secret now userName token =
      some (sign secret (Claims.issue userName token now),
        (Claims.issue userName token now).account) :=
  if_pos h

/-- What was issued is accepted until it expires. -/
theorem verify_sign_issue (hdate : ((now + sessionSeconds : Nat) : Int) ≤ lastSecond)
    (hlater : later ≤ now + sessionSeconds) :
    verify secret later (sign secret (Claims.issue userName token now)) =
      .ok (Claims.issue userName token now) := by
  apply verify_sign
  rw [Claims.expiresAt_issue hdate]
  omega

/-- **Round trip of a session.**  For any name and token, what is issued at a second that leaves a
date for the expiry is accepted until thirty days later; the claims name the user and the token and
expire thirty days after they were issued, and their account is the one that was handed out. -/
theorem verify_issue (secret userName token : String) (now later : Nat)
    (hdate : ((now + 30 * 86400 : Nat) : Int) ≤ lastSecond)
    (hend : later ≤ now + 30 * 86400) :
    ∃ text account claims, issue secret now userName token = some (text, account) ∧
      verify secret later text = .ok claims ∧
      claims.subject = userName ∧ claims.token = token ∧
      claims.issuedAt.toNat = now ∧
      claims.expiresAt.toNat = claims.issuedAt.toNat + 30 * 86400 ∧
      claims.account = account := by
  have hsession : sessionSeconds = 30 * 86400 := rfl
  rw [← hsession] at hdate hend
  have hissued : (Claims.issue userName token now).issuedAt.toNat = now :=
    Claims.issuedAt_issue hdate
  have hexpires : (Claims.issue userName token now).expiresAt.toNat = now + sessionSeconds :=
    Claims.expiresAt_issue hdate
  refine ⟨_, _, _, issue_eq_some hdate, verify_sign_issue hdate hend, rfl, rfl, hissued, ?_, rfl⟩
  rw [hexpires, hissued, hsession]

/-- A session of a user whose name has to be escaped, on its last day. -/
theorem verify_issue_escaped :
    ((1700000000 + 30 * 86400 : Nat) : Int) ≤ lastSecond ∧
    ∃ text account claims,
      issue "secret" 1700000000 "al\"ice\n\\" "l\u0000b 😀" = some (text, account) ∧
      verify "secret" (1700000000 + 30 * 86400) text = .ok claims ∧
      claims.subject = "al\"ice\n\\" ∧ claims.token = "l\u0000b 😀" ∧
      claims.issuedAt.toNat = 1700000000 ∧
      claims.expiresAt.toNat = claims.issuedAt.toNat + 30 * 86400 ∧
      claims.account = account := by
  have hdate : ((1700000000 + 30 * 86400 : Nat) : Int) ≤ lastSecond := by decide
  exact ⟨hdate, verify_issue "secret" _ _ 1700000000 _ hdate (by decide)⟩

end Token

end PinBoard
