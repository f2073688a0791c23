import PinBoard.Proofs.Token.Parts
import PinBoard.Proofs.Wire.Session

/-!
# Which tokens are accepted

A token is accepted if its header names the algorithm, its last part is the code of the other two,
and its claims can be read and are not over. The signature is compared as bytes, but bytes have
one written form only, so nothing can be put in its place.
-/

namespace PinBoard.Token

open Json

variable {secret : String} {now : Nat}

/-! ## The registered claims -/

/-- The registered claims pass if there is an expiry that is not over, and no audience. -/
theorem checkRegistered_eq_ok_iff {r : Registered.schema.Record} :
    checkRegistered now r = .ok () ↔
      (∃ exp, r .exp = .value exp ∧ now ≤ exp + leeway) ∧ ∀ a, r .aud ≠ .value a := by
  unfold checkRegistered
  constructor
  · intro h
    split at h
    · rename_i exp hexp
      split at h
      · exact absurd h (by simp)
      · rename_i hover
        split at h
        · exact absurd h (by simp)
        · rename_i haud
          exact ⟨⟨exp, hexp, by omega⟩, haud⟩
    · exact absurd h (by simp)
  · rintro ⟨⟨exp, hexp, hover⟩, haud⟩
    rw [hexp]
    show (if exp + leeway < now then _ else _) = _
    rw [if_neg (by omega)]
    split
    · rename_i a ha
      exact absurd ha (haud a)
    · rfl

/-! ## Acceptance -/

/-- What is required of the parts of a token that carries the given claims. -/
structure Accepted (secret : String) (now : Nat) (p : Parts) (claims : Claims) : Prop where
  header : ∃ bytes, p.header = Base64Url.encode bytes ∧ ofBytes algorithm bytes = .ok "HS256"
  signature : p.signature = Token.signature secret p.message
  claims : ∃ bytes, p.claims = Base64Url.encode bytes ∧
    ofBytes Claims.decode bytes = .ok claims ∧
    ∃ r, ofBytes Registered.schema.read bytes = .ok r ∧ checkRegistered now r = .ok ()

/-- **Acceptance.**  Verifying a token gives claims if and only if its parts are as required. -/
theorem verify_eq_ok_iff {token : String} {claims : Claims} :
    verify secret now token = .ok claims ↔
      ∃ p, Parts.ofChars? token.toList = some p ∧ Accepted secret now p claims := by
  unfold verify
  constructor
  · intro h
    split at h
    · exact absurd h (by simp)
    · rename_i p hparts
      -- one check after another, in the order in which they are made
      obtain ⟨headerBytes, hheader, h⟩ := bind_eq_ok_iff.mp h
      obtain ⟨named, hnamed, h⟩ := bind_eq_ok_iff.mp h
      obtain ⟨halgorithm, h⟩ := refuse_eq_ok_iff.mp h
      obtain ⟨signed, hsigned, h⟩ := bind_eq_ok_iff.mp h
      obtain ⟨hcode, h⟩ := refuse_eq_ok_iff.mp h
      obtain ⟨bytes, hbytes, h⟩ := bind_eq_ok_iff.mp h
      obtain ⟨found, hfound, h⟩ := bind_eq_ok_iff.mp h
      obtain ⟨r, hr, h⟩ := bind_eq_ok_iff.mp h
      obtain ⟨⟨⟩, hcheck, h⟩ := bind_eq_ok_iff.mp h
      rw [not_not] at halgorithm hcode
      rw [bytesOfPart_eq_ok_iff] at hheader hsigned hbytes
      rw [readPart_eq_ok_iff] at hnamed hfound hr
      rw [halgorithm] at hnamed
      rw [hcode] at hsigned
      rw [Except.ok.inj h] at hfound
      exact ⟨p, hparts, ⟨headerBytes, hheader, hnamed⟩, hsigned,
        ⟨bytes, hbytes, hfound, r, hr, hcheck⟩⟩
  · rintro ⟨p, hparts, haccepted⟩
    obtain ⟨headerBytes, hheader, hnamed⟩ := haccepted.header
    obtain ⟨bytes, hbytes, hfound, r, hr, hcheck⟩ := haccepted.claims
    have hsigned := haccepted.signature
    rw [Token.signature] at hsigned
    rw [← bytesOfPart_eq_ok_iff] at hheader hsigned hbytes
    rw [← readPart_eq_ok_iff] at hnamed hfound hr
    rw [hparts]
    refine bind_eq_ok_iff.mpr ⟨_, hheader, bind_eq_ok_iff.mpr ⟨_, hnamed, ?_⟩⟩
    refine refuse_eq_ok_iff.mpr ⟨fun h => h rfl, bind_eq_ok_iff.mpr ⟨_, hsigned, ?_⟩⟩
    refine refuse_eq_ok_iff.mpr ⟨fun h => h rfl, bind_eq_ok_iff.mpr ⟨_, hbytes, ?_⟩⟩
    refine bind_eq_ok_iff.mpr ⟨_, hfound, bind_eq_ok_iff.mpr ⟨_, hr, ?_⟩⟩
    exact bind_eq_ok_iff.mpr ⟨_, hcheck, rfl⟩

/-- The expiry that is checked beside claims of the same text is the expiry of the claims. -/
theorem checkRegistered_iff_of_decode {bytes : List UInt8} {claims : Claims}
    {r : Registered.schema.Record} (hfound : ofBytes Claims.decode bytes = .ok claims)
    (hr : ofBytes Registered.schema.read bytes = .ok r) :
    checkRegistered now r = .ok () ↔ now ≤ claims.expiresAt.toNat + leeway ∧
      (∃ exp, r .exp = .value exp) ∧ ∀ a, r .aud ≠ .value a := by
  have hsame : ∀ exp, r .exp = .value exp → exp = claims.expiresAt.toNat := fun exp hexp =>
    Registered.exp_of_decode (read_of_ofBytes hfound) (read_of_ofBytes hr) hexp
  rw [checkRegistered_eq_ok_iff]
  constructor
  · rintro ⟨⟨exp, hexp, hover⟩, haud⟩
    rw [hsame exp hexp] at hover
    exact ⟨hover, ⟨exp, hexp⟩, haud⟩
  · rintro ⟨hover, ⟨exp, hexp⟩, haud⟩
    rw [← hsame exp hexp] at hover
    exact ⟨⟨exp, hexp, hover⟩, haud⟩

/-- A token of which the claims are accepted is not over yet. -/
theorem Accepted.now_le {p : Parts} {claims : Claims} (h : Accepted secret now p claims) :
    now ≤ claims.expiresAt.toNat + leeway := by
  obtain ⟨bytes, _, hfound, r, hr, hcheck⟩ := h.claims
  exact ((checkRegistered_iff_of_decode hfound hr).mp hcheck).1

/-- What is accepted at some second is accepted at every other one that is not too late for it. -/
theorem Accepted.of_le {p : Parts} {claims : Claims} (h : Accepted secret now p claims)
    {second : Nat} (hsecond : second ≤ claims.expiresAt.toNat + leeway) :
    Accepted secret second p claims := by
  obtain ⟨bytes, hbytes, hfound, r, hr, hcheck⟩ := h.claims
  obtain ⟨-, hread⟩ := (checkRegistered_iff_of_decode hfound hr).mp hcheck
  have hstill : checkRegistered second r = .ok () :=
    (checkRegistered_iff_of_decode hfound hr).mpr ⟨hsecond, hread⟩
  exact ⟨h.header, h.signature, bytes, hbytes, hfound, r, hr, hstill⟩

/-- **The expiry that is checked.**  A token that is accepted at all is accepted at exactly the
seconds up to the expiry in its claims and the leeway behind it. -/
theorem verify_iff_le_expiry {token : String} {claims : Claims}
    (h : verify secret now token = .ok claims) (second : Nat) :
    verify secret second token = .ok claims ↔ second ≤ claims.expiresAt.toNat + leeway := by
  obtain ⟨p, hparts, haccepted⟩ := verify_eq_ok_iff.mp h
  constructor
  · intro hsecond
    obtain ⟨_, _, hlater⟩ := verify_eq_ok_iff.mp hsecond
    exact hlater.now_le
  · intro hsecond
    exact verify_eq_ok_iff.mpr ⟨p, hparts, haccepted.of_le hsecond⟩

/-- The header of an accepted token has no dot in it, since it can be read. -/
theorem Accepted.dot_not_mem_header {p : Parts} {claims : Claims} (h : Accepted secret now p claims) :
    '.' ∉ p.header := by
  obtain ⟨bytes, hheader, _⟩ := h.header
  rw [hheader]
  exact dot_not_mem_encode bytes

/-! ## Tokens that were signed -/

/-- The header that is written here is one that is accepted. -/
theorem algorithm_headerText :
    ofBytes algorithm (Text.Utf8.encodeChars headerText.toList) = .ok "HS256" := by
  decide +kernel

/-- The parts of a token that was signed. -/
def signedParts (secret : String) (claims : Claims) : Parts :=
  let header := part headerText.toList
  let payload := part claims.toJson.write
  ⟨header, payload, Token.signature secret (header ++ '.' :: payload)⟩

theorem sign_eq (secret : String) (claims : Claims) :
    sign secret claims = String.ofList
      ((signedParts secret claims).message ++ '.' :: (signedParts secret claims).signature) := rfl

/-- What was signed comes apart into the parts it was put together from. -/
theorem ofChars?_sign (secret : String) (claims : Claims) :
    Parts.ofChars? (sign secret claims).toList = some (signedParts secret claims) := by
  rw [sign_eq, String.toList_ofList]
  exact Parts.ofChars?_eq_some_iff.mpr ⟨rfl, dot_not_mem_encode _, dot_not_mem_encode _⟩

/-- The parts of a token that was signed are accepted as long as it is not over. -/
theorem accepted_signedParts {claims : Claims} (h : now ≤ claims.expiresAt.toNat + leeway) :
    Accepted secret now (signedParts secret claims) claims where
  header := ⟨_, rfl, algorithm_headerText⟩
  signature := rfl
  claims := by
    have hclaims := ofBytes_write Claims.decode (Claims.restores.isWritable claims)
    have hregistered := ofBytes_write Registered.schema.read (Claims.restores.isWritable claims)
    rw [Claims.restores.read claims] at hclaims
    rw [Registered.read_toJson] at hregistered
    refine ⟨_, rfl, hclaims, _, hregistered, checkRegistered_eq_ok_iff.mpr ⟨⟨_, rfl, h⟩, ?_⟩⟩
    intro a ha
    exact nomatch ha

/-- **What was signed is accepted.**  As long as the claims are not over they are read back from the
token that was signed for them. -/
theorem verify_sign {claims : Claims} (h : now ≤ claims.expiresAt.toNat + leeway) :
    verify secret now (sign secret claims) = .ok claims :=
  verify_eq_ok_iff.mpr ⟨_, ofChars?_sign secret claims, accepted_signedParts h⟩

/-! ## One signature -/

/-- The token of three texts. -/
def join (header payload code : List Char) : String :=
  String.ofList (header ++ '.' :: payload ++ '.' :: code)

/-- A token put together from three texts comes apart into them if it is accepted at all: the parts
of an accepted token have no dots in them, so neither have the three texts. -/
theorem accepted_of_verify_join {header payload code : List Char} {claims : Claims}
    (h : verify secret now (join header payload code) = .ok claims) :
    Accepted secret now ⟨header, payload, code⟩ claims := by
  obtain ⟨p, hparts, haccepted⟩ := verify_eq_ok_iff.mp h
  rw [join, String.toList_ofList] at hparts
  obtain ⟨hjoin, hclaims, hsignature⟩ := Parts.ofChars?_eq_some_iff.mp hparts
  have hheader := haccepted.dot_not_mem_header
  -- the two dots of the splitting are all there are, and the two of the joining are as many
  have hdots := congrArg (List.count '.') hjoin
  simp only [Parts.message, List.count_append, List.count_cons_self] at hdots
  rw [← List.count_eq_zero] at hheader hclaims hsignature
  have hpayload : '.' ∉ payload := by
    rw [← List.count_eq_zero]
    omega
  have hcode : '.' ∉ code := by
    rw [← List.count_eq_zero]
    omega
  have hthree := Parts.ofChars?_eq_some_iff (p := ⟨header, payload, code⟩).mpr
    ⟨rfl, hpayload, hcode⟩
  have hsame := Option.some.inj (hthree.symm.trans hparts)
  rw [hsame]
  exact haccepted

/-- Every text but the signature is refused in its place, at any time. -/
theorem verify_join_of_ne {header payload code : List Char}
    (h : code ≠ signature secret (header ++ '.' :: payload)) :
    ∃ e, verify secret now (join header payload code) = .error e := by
  rcases hverify : verify secret now (join header payload code) with e | claims
  · exact ⟨e, rfl⟩
  · exact absurd (accepted_of_verify_join hverify).signature h

/-- **Soundness of verification.**  An accepted token splits at its last two dots into a header that
names the algorithm, claims that are the ones returned and no more than a minute over, and the
code of the two; every other text behind the last dot is refused. For no header and claims are
there two texts behind the last dot that are both accepted. -/
theorem verify_sound (secret : String) :
    (∀ (now : Nat) (token : String) (claims : Claims), verify secret now token = .ok claims →
      ∃ header payload code : List Char,
        token = join header payload code ∧ '.' ∉ payload ∧ '.' ∉ code ∧
        (∃ bytes, Base64Url.decode (Text.Utf8.encodeChars header) = .ok bytes ∧
          ofBytes algorithm bytes = .ok "HS256") ∧
        code = Base64Url.encode (Digest.hmac (Text.Utf8.encode secret)
          (Text.Utf8.encodeChars (header ++ '.' :: payload))) ∧
        (∃ bytes, Base64Url.decode (Text.Utf8.encodeChars payload) = .ok bytes ∧
          ofBytes Claims.decode bytes = .ok claims) ∧
        now ≤ claims.expiresAt.toNat + 60 ∧
        ∀ (later : Nat) (other : List Char), other ≠ code →
          ∃ e, verify secret later (join header payload other) = .error e) ∧
    ∀ (header payload code code' : List Char) (now now' : Nat) (claims claims' : Claims),
      verify secret now (join header payload code) = .ok claims →
      verify secret now' (join header payload code') = .ok claims' → code = code' := by
  constructor
  · intro now token claims h
    obtain ⟨p, hparts, haccepted⟩ := verify_eq_ok_iff.mp h
    obtain ⟨hjoin, hclaims, hsignature⟩ := Parts.ofChars?_eq_some_iff.mp hparts
    obtain ⟨headerBytes, hheader, hnamed⟩ := haccepted.header
    obtain ⟨bytes, hbytes, hfound, -⟩ := haccepted.claims
    refine ⟨p.header, p.claims, p.signature, ?_, hclaims, hsignature, ⟨headerBytes, ?_, hnamed⟩,
      haccepted.signature, ⟨bytes, ?_, hfound⟩, haccepted.now_le, ?_⟩
    · rw [← String.ofList_toList (s := token), hjoin]
      rfl
    · rw [hheader, Base64Url.decode_eq_ok_iff]
    · rw [hbytes, Base64Url.decode_eq_ok_iff]
    · intro later other hother
      rw [haccepted.signature] at hother
      exact verify_join_of_ne hother
  · intro header payload code code' now now' claims claims' h h'
    have hcode := (accepted_of_verify_join h).signature
    have hcode' := (accepted_of_verify_join h').signature
    exact hcode.trans hcode'.symm

/-- A token in the last second in which it is accepted, and what could stand in for its
signature. -/
theorem verify_sound_signed :
    verify "secret" 2592060 (sign "secret" (Claims.issue "alice" "lb-token" 0)) =
      .ok (Claims.issue "alice" "lb-token" 0) ∧
    ∃ header payload code : List Char,
      sign "secret" (Claims.issue "alice" "lb-token" 0) = join header payload code ∧
      (∀ (later : Nat) (other : List Char), other ≠ code →
        ∃ e, verify "secret" later (join header payload other) = .error e) ∧
      ∀ (later : Nat) (other : List Char) (claims : Claims),
        verify "secret" later (join header payload other) = .ok claims → other = code := by
  have hverify : verify "secret" 2592060 (sign "secret" (Claims.issue "alice" "lb-token" 0)) =
      .ok (Claims.issue "alice" "lb-token" 0) := verify_sign (by decide)
  obtain ⟨header, payload, code, hjoin, -, -, -, -, -, -, hothers⟩ :=
    (verify_sound "secret").1 _ _ _ hverify
  refine ⟨hverify, header, payload, code, hjoin, hothers, ?_⟩
  intro later other claims hother
  rw [hjoin] at hverify
  exact (verify_sound "secret").2 header payload other code later _ claims _ hother hverify

end PinBoard.Token
