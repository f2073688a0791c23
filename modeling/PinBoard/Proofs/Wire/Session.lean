import PinBoard.Proofs.Wire.Listen
import PinBoard.Token
import PinBoard.Wire.Session

/-!
# Sessions, written and read

An account and the claims of a session are read back from what is written of them. The text of
claims is read a second time for its registered claims: wherever that reading finds an expiry, it
is the expiry of the claims.
-/

namespace PinBoard

open Json

/-! ## Accounts -/

/-- An account as a record. -/
def Account.layout : Layout Account where
  schema := Account.schema
  fields :=
    { toFun a := fun
        | .userName => a.userName
        | .token => a.token
        | .expiresAt => a.expiresAt
      invFun := Account.ofRecord
      left_inv _ := rfl
      right_inv r := by
        funext f
        cases f <;> rfl }
  keysDiffer f := by cases f <;> rfl
  nodup := by decide
  pass_eq := rfl

/-- How an account is written, field by field. -/
def Account.written : (f : Account.Field) → f.Value → Option Tree
  | .userName => fun s => some (.ofString s)
  | .token => fun s => some (.ofString s)
  | .expiresAt => fun n => some (.ofInt64 n)

/-- **Round trip of accounts.** -/
theorem Account.restores : Restores Account.decode Account.toJson := by
  refine Account.layout.restores (w := Account.written) fun f => ?_
  cases f with
  | userName | token => exact restores_text.always _
  | expiresAt => exact restores_signed.always _

/-! ## Claims -/

/-- A count is read back. -/
theorem restores_count : Restores count .ofUInt64 := by
  refine restores_ofInt fun n => ?_
  rw [count, size_ofInt (toNat_le_maxUnsigned n), Except.map, UInt64.ofNat_toNat]

/-- Claims as a record. -/
def Claims.layout : Layout Claims where
  schema := Claims.schema
  fields :=
    { toFun c := fun
        | .subject => c.subject
        | .token => c.token
        | .issuedAt => c.issuedAt
        | .expiresAt => c.expiresAt
      invFun := Claims.ofRecord
      left_inv _ := rfl
      right_inv r := by
        funext f
        cases f <;> rfl }
  keysDiffer f := by cases f <;> rfl
  nodup := by decide
  pass_eq := rfl

/-- How claims are written, field by field. -/
def Claims.written : (f : Claims.Field) → f.Value → Option Tree
  | .subject => fun s => some (.ofString s)
  | .token => fun s => some (.ofString s)
  | .issuedAt => fun n => some (.ofUInt64 n)
  | .expiresAt => fun n => some (.ofUInt64 n)

/-- **Round trip of claims.** -/
theorem Claims.restores : Restores Claims.decode Claims.toJson := by
  refine Claims.layout.restores (w := Claims.written) fun f => ?_
  cases f with
  | subject | token => exact restores_text.always _
  | issuedAt | expiresAt => exact restores_count.always _

/-! ## Registered claims -/

theorem Token.Registered.keysDiffer : Token.Registered.schema.KeysDiffer := by
  intro f
  cases f <;> rfl

/-- Whatever is read as a count is a date. -/
theorem Token.date_of_count {t : Tree} {n : UInt64} (h : count t = .ok n) :
    Token.date t = .ok (.value n.toNat) := by
  obtain ⟨m, hm, rfl⟩ := map_eq_ok_iff.mp h
  obtain ⟨spelling, rfl, hvalue, hfits⟩ := size_eq_ok hm
  have hround : (UInt64.ofNat m).toNat = m := by
    unfold maxUnsigned at hfits
    exact UInt64.toNat_ofNat_of_lt (by show m < 2 ^ 64; omega)
  rw [Token.date]
  simp only [hvalue, hround]
  rw [if_pos (Int.natCast_nonneg m), Int.toNat_natCast]

/-- What is read as a text is no date. -/
theorem Token.date_of_text {t : Tree} {s : String} (h : text t = .ok s) :
    Token.date t = .ok .unreadable := by
  cases t with
  | string t => rfl
  | null | bool _ | number _ | array _ | object _ | broken _ => exact absurd h (by simp [text])

/-- The members of claims that are written. -/
def Claims.members (c : Claims) : List (String × Tree) :=
  [("sub", .ofString c.subject), ("lb_token", .ofString c.token),
    ("iat", .ofUInt64 c.issuedAt), ("exp", .ofUInt64 c.expiresAt)]

theorem Claims.nodup_members (c : Claims) : (c.members.map (·.1)).Nodup := by
  show ["sub", "lb_token", "iat", "exp"].Nodup
  decide

/-- None of the members minds being passed over. -/
theorem Claims.skip_members (c : Claims) : ∀ m ∈ c.members, skip m.2 = .ok () := by
  intro m hm
  rw [members] at hm
  simp only [List.mem_cons, List.not_mem_nil, or_false] at hm
  rcases hm with rfl | rfl | rfl | rfl <;> rfl

/-- The registered claims among claims that are written: the expiry and the subject. -/
theorem Token.Registered.read_toJson (c : Claims) :
    Token.Registered.schema.read c.toJson = .ok fun
      | .exp => .value c.expiresAt.toNat
      | .sub => .value ()
      | .nbf => .absent
      | .iss => .absent
      | .aud => .absent := by
  refine Schema.read_ofMembers Token.Registered.keysDiffer
    (Schema.knownOnce_of_nodup c.nodup_members) (fun m hm _ => c.skip_members m hm) ?_
  intro f
  cases f with
  | exp => exact Or.inl ⟨_, rfl, date_of_count (restores_count.read _)⟩
  | sub => exact Or.inl ⟨_, rfl, rfl⟩
  | nbf => exact Or.inr ⟨rfl, rfl⟩
  | iss => exact Or.inr ⟨rfl, rfl⟩
  | aud => exact Or.inr ⟨rfl, rfl⟩

/-! ## Two readings of one text -/

/-- An array that claims are read from has items. -/
theorem Claims.exists_item {is : Items} {draft : Claims.schema.Draft}
    (h : Claims.schema.items Claims.schema.blank Claims.schema.fields is = .ok draft) :
    ∃ item rest, is = .cons item rest := by
  cases is with
  | cons item rest => exact ⟨item, rest, rfl⟩
  | closed | ended | foreign | comma => exact absurd h (by simp [Schema.items, Claims.schema])

/-- **One expiry.**  Where claims and registered claims are both read from one tree, an expiry among
the registered claims is the expiry of the claims. -/
theorem Token.Registered.exp_of_decode {tree : Tree} {c : Claims} {r : Registered.schema.Record}
    (hclaims : Claims.decode tree = .ok c) (hr : Registered.schema.read tree = .ok r) {exp : Nat}
    (hexp : r .exp = .value exp) : exp = c.expiresAt.toNat := by
  obtain ⟨record, hrecord, rfl⟩ := map_eq_ok_iff.mp hclaims
  cases tree with
  | object ms =>
    have hmine := Schema.of_ofMembers_eq_ok (S := Claims.schema) Claims.layout.keysDiffer hrecord
      .expiresAt
    have htheirs := Schema.of_ofMembers_eq_ok Token.Registered.keysDiffer hr .exp
    rcases hfound : ms.find? "exp" with _ | t
    · exact absurd (hmine.2 hfound) (by simp [Claims.schema])
    · have hdate := Token.date_of_count (hmine.1 t hfound)
      have hread : Token.date t = .ok (r .exp) := htheirs.1 t hfound
      rw [hdate, hexp] at hread
      injection hread with hread
      injection hread with hread
      exact hread.symm
  | array is =>
    -- the first item is the subject of the claims, and so no date
    obtain ⟨mine, hmine, _⟩ := bind_eq_ok_iff.mp hrecord
    obtain ⟨theirs, htheirs, hcomplete⟩ := bind_eq_ok_iff.mp hr
    obtain ⟨item, rest, rfl⟩ := Claims.exists_item hmine
    have hsubject_once : Claims.Field.subject ∉ [Claims.Field.token, .issuedAt, .expiresAt] := by
      decide
    have hexp_once : Registered.exp ∉ [Registered.nbf, .sub, .iss, .aud] := by decide
    obtain ⟨subject, hsubject, -⟩ := Schema.of_items_cons_eq_ok hsubject_once hmine
    obtain ⟨found, hfound, htaken⟩ := Schema.of_items_cons_eq_ok hexp_once htheirs
    have hdate : Token.date item = .ok .unreadable := Token.date_of_text hsubject
    have hfilled := Schema.filled_of_complete hcomplete .exp
    unfold Schema.filled at hfilled
    rw [htaken, Option.some_or, Option.some.injEq, hexp] at hfilled
    rw [hfilled] at hfound
    have hclash := hdate.symm.trans hfound
    exact absurd (Except.ok.inj hclash) (by simp)
  | null | bool _ | number _ | string _ | broken _ => exact absurd hr (by simp [Schema.read])

end PinBoard
