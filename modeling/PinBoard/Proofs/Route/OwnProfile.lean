import PinBoard.Proofs.Route.Path
import PinBoard.View.App

/-!
# The way to one's own profile

The home page and the link in the bar lead a user who is logged in to the path of the user's own
profile. Whether the profile is found there depends on the name: a slash in it, or a percent sign
with two hexadecimal digits behind it, leads to no profile or to somebody else's.
-/

namespace PinBoard

/-! ## Names that lead back -/

/-- A name whose path leads back to it. It is not empty and has no slash, and it has no escape
either, unless its bytes would spell no text and nothing in it is encoded. -/
def LeadsBack (userName : String) : Prop :=
  userName ≠ "" ∧ '/' ∉ userName.toList ∧
    (Text.hasEscape userName.toList = true →
      Text.percentDecode? userName = none ∧ writtenName userName.toList = userName.toList)

instance : DecidablePred LeadsBack := fun _ => inferInstanceAs (Decidable (_ ∧ _ ∧ (_ → _)))

/-- A written name is read as the name would be, and stays if that spells no text. -/
theorem segmentOfChars_writtenName (cs : List Char) :
    segmentOfChars (writtenName cs) =
      (Text.percentDecode? (String.ofList cs)).getD (String.ofList (writtenName cs)) := by
  have hdigit : ∀ c, Text.isHex c = true → Url.isEncodedInPath c = false := by
    intro c hc
    rw [← Bool.not_eq_true]
    intro hencoded
    simp only [Url.isEncodedInPath, Url.isEncodedInFragment, Bool.or_eq_true,
      decide_eq_true_eq] at hencoded
    rcases hencoded with (((((((rfl | rfl) | rfl) | rfl) | rfl) | rfl) | rfl) | rfl) | rfl <;>
      exact absurd hc (by decide)
  have hread : Text.percentDecode? (String.ofList (writtenName cs)) =
      Text.percentDecode? (String.ofList cs) :=
    Text.percentDecode?_percentEncode_of_bare (by decide) hdigit cs
  exact congrArg (fun read => Option.getD read (String.ofList (writtenName cs))) hread

/-- The path of such a name leads to it. -/
theorem ofPath_path_of_leadsBack {userName : String} (h : LeadsBack userName) :
    Route.ofPath (Route.path (.profile userName)) = .ok (.profile userName) := by
  obtain ⟨hname, hslash, hescape⟩ := h
  have hwhole : dropSlash userName.toList = userName.toList := dropSlash_of_not_mem hslash
  refine ofPath_path_eq_ok_iff.mpr ⟨hname, by rwa [hwhole], ?_⟩
  rw [hwhole, segmentOfChars_writtenName, String.ofList_toList]
  by_cases hany : Text.hasEscape userName.toList = true
  · obtain ⟨hnone, hsame⟩ := hescape hany
    rw [hnone, hsame, Option.getD_none, String.ofList_toList]
  · rw [Bool.not_eq_true] at hany
    rw [Text.percentDecode?_of_no_escape hany, Option.getD_some]

/-! ## Names that are the same but for the case of letters -/

/-- A letter of ASCII stays within ASCII and becomes no slash; no other character changes. -/
theorem toLower_cases (c : Char) :
    c.toLower = c ∨ c.toNat < 0x80 ∧ c.toLower.toNat < 0x80 ∧ c.toLower ≠ '/' := by
  by_cases hascii : c.toNat < 0x80
  · have hall : ∀ n < 0x80, (Char.ofNat n).toLower = Char.ofNat n ∨
        (Char.ofNat n).toLower.toNat < 0x80 ∧ (Char.ofNat n).toLower ≠ '/' := by
      decide
    have hcase := hall c.toNat hascii
    rw [Char.ofNat_toNat] at hcase
    exact hcase.imp_right fun h => ⟨hascii, h⟩
  · left
    refine dif_neg ?_
    rintro ⟨-, hz⟩
    exact hascii (Nat.lt_of_le_of_lt (UInt32.le_iff_toNat_le.mp hz) (by decide))

section SameLetters

variable {s t : String} (h : Auth.lowerAscii s = Auth.lowerAscii t)
include h

/-- Such names have as many characters. -/
theorem length_of_sameLetters : s.toList.length = t.toList.length := by
  have hlength := congrArg List.length h
  rwa [Auth.lowerAscii, Auth.lowerAscii, List.length_map, List.length_map] at hlength

/-- They have as many bytes. -/
theorem length_encode_of_sameLetters :
    (Text.Utf8.encode s).length = (Text.Utf8.encode t).length := by
  have hlower : ∀ cs : List Char, (Text.Utf8.encodeChars (cs.map Char.toLower)).length =
      (Text.Utf8.encodeChars cs).length := by
    intro cs
    induction cs with
    | nil => rfl
    | cons c cs ih =>
      have hchar : (Text.Utf8.encodeChar c.toLower).length = (Text.Utf8.encodeChar c).length := by
        rcases toLower_cases c with hc | ⟨hc, hlower, -⟩
        · rw [hc]
        · rw [Text.Utf8.encodeChar_ascii hc, Text.Utf8.encodeChar_ascii hlower]
          rfl
      show (Text.Utf8.encodeChar c.toLower ++ _).length = (Text.Utf8.encodeChar c ++ _).length
      rw [List.length_append, List.length_append, hchar]
      exact congrArg _ ih
  rw [Text.Utf8.encode, Text.Utf8.encode, ← hlower s.toList, ← hlower t.toList]
  exact congrArg (fun cs => (Text.Utf8.encodeChars cs).length) h

/-- Neither has a slash if the other has none. -/
theorem slash_not_mem_of_sameLetters (ht : '/' ∉ t.toList) : '/' ∉ s.toList := by
  intro hs
  have hmem : '/' ∈ Auth.lowerAscii s := List.mem_map.mpr ⟨'/', hs, by decide⟩
  rw [h] at hmem
  obtain ⟨c, hc, hlower⟩ := List.mem_map.mp hmem
  rcases toLower_cases c with hsame | ⟨-, -, hne⟩
  · rw [← hlower, hsame] at ht
    exact ht hc
  · exact hne hlower

end SameLetters

/-- A name that is read as a text of as many bytes has lost no slash and has no escape. -/
theorem whole_of_read {userName text : String}
    (hread : Text.percentDecode? (String.ofList (dropSlash userName.toList)) = some text)
    (hbytes : (Text.Utf8.encode userName).length = (Text.Utf8.encode text).length) :
    dropSlash userName.toList = userName.toList ∧ Text.hasEscape userName.toList = false := by
  obtain ⟨hle, hlt⟩ := Text.length_encode_le hread
  have hwhole : dropSlash userName.toList = userName.toList := by
    refine (dropSlash_eq_or userName.toList).resolve_right fun hdropped => ?_
    have hshorter : (Text.Utf8.encode (String.ofList (dropSlash userName.toList))).length <
        (Text.Utf8.encode userName).length := by
      rw [Text.Utf8.encode, Text.Utf8.encode, String.toList_ofList]
      conv_rhs => rw [hdropped, Text.encodeChars_append, List.length_append]
      exact Nat.lt_add_of_pos_right (by decide)
    omega
  rw [hwhole, String.ofList_toList] at hlt
  refine ⟨hwhole, ?_⟩
  rw [← Bool.not_eq_true]
  intro hescape
  have hshorter := hlt hescape
  omega

/-- A name that is left as it was written, with as many characters, was written as it is. -/
theorem whole_of_unread {userName other : String} (hfree : '/' ∉ dropSlash userName.toList)
    (hkept : String.ofList (writtenName (dropSlash userName.toList)) = other)
    (hsame : Auth.lowerAscii userName = Auth.lowerAscii other) :
    dropSlash userName.toList = userName.toList ∧ '/' ∉ userName.toList ∧
      writtenName userName.toList = userName.toList := by
  have hother : '/' ∉ other.toList := by
    rw [← hkept, String.toList_ofList]
    exact mt slash_mem_writtenName_iff.mp hfree
  have hslash := slash_not_mem_of_sameLetters hsame hother
  have hwhole : dropSlash userName.toList = userName.toList := dropSlash_of_not_mem hslash
  refine ⟨hwhole, hslash, (writtenName_length userName.toList).2 ?_⟩
  rw [length_of_sameLetters hsame, ← hkept, String.toList_ofList, hwhole]

/-- A path that leads to a profile of the same name, up to the case of letters, leads to that very
name, which is one that leads back. -/
theorem leadsBack_of_ofPath {userName other : String}
    (hpath : Route.ofPath (Route.path (.profile userName)) = .ok (.profile other))
    (hsame : Auth.lowerAscii userName = Auth.lowerAscii other) :
    LeadsBack userName ∧ other = userName := by
  obtain ⟨hname, hfree, hsegment⟩ := ofPath_path_eq_ok_iff.mp hpath
  rw [segmentOfChars_writtenName] at hsegment
  rcases hread : Text.percentDecode? (String.ofList (dropSlash userName.toList)) with _ | text
  · rw [hread, Option.getD_none] at hsegment
    obtain ⟨hwhole, hslash, hwritten⟩ := whole_of_unread hfree hsegment hsame
    rw [hwhole, String.ofList_toList] at hread
    refine ⟨⟨hname, hslash, fun _ => ⟨hread, hwritten⟩⟩, ?_⟩
    rw [← hsegment, hwhole, hwritten, String.ofList_toList]
  · rw [hread, Option.getD_some] at hsegment
    subst hsegment
    obtain ⟨hwhole, hnone⟩ := whole_of_read hread (length_encode_of_sameLetters hsame)
    rw [hwhole] at hfree
    rw [hwhole, String.ofList_toList, Text.percentDecode?_of_no_escape hnone] at hread
    refine ⟨⟨hname, hfree, fun hescape => ?_⟩, (Option.some.inj hread).symm⟩
    rw [hnone] at hescape
    exact absurd hescape Bool.false_ne_true

/-! ## Links and redirects -/

/-- The page that is up is a profile, and it is the user's own. -/
def App.ShowsOwnProfile (a : App) : Prop :=
  ∃ p, a.content = .profile p ∧ p.isOwn a.browser = true

/-- Going to a path turns the page to the place that it leads to. -/
theorem Content.exists_turnTo_iff {c : Content} {r : Route} {shows : String → Prop} :
    (∃ p, c.turnTo r = .profile p ∧ shows p.userName) ↔
      ∃ userName, r = .profile userName ∧ shows userName := by
  constructor
  · rintro ⟨p, hp, hshows⟩
    cases r with
    | login => cases c <;> cases hp
    | home => cases c <;> cases hp
    | profile userName =>
      refine ⟨userName, rfl, ?_⟩
      cases c <;> cases hp <;> exact hshows
  · rintro ⟨userName, rfl, hshows⟩
    cases c with
    | login => exact ⟨_, rfl, hshows⟩
    | home => exact ⟨_, rfl, hshows⟩
    | profile p => exact ⟨_, rfl, hshows⟩

/-- A path leads to a profile only if it is read as one. -/
theorem placeOf_eq_profile_iff {path userName : String} :
    placeOf path = .profile userName ↔ Route.ofPath path = .ok (.profile userName) := by
  rw [placeOf]
  rcases Route.ofPath path with e | r
  · simp
  · simp

/-- Who goes to a path finds the own profile there if the path leads to a profile of that name. -/
theorem App.showsOwnProfile_goTo_iff {a : App} {path : String} :
    (a.goTo path).ShowsOwnProfile ↔
      ∃ userName, Route.ofPath path = .ok (.profile userName) ∧
        a.browser.auth.owns userName = true := by
  simp only [← placeOf_eq_profile_iff]
  exact @Content.exists_turnTo_iff a.content (placeOf path) fun userName =>
    a.browser.auth.owns userName = true

/-- Who follows the path of the own profile finds it if the name is one that leads back. -/
theorem App.finds_own_profile_iff {a : App} {account : Account}
    (hauth : a.browser.auth = some account) :
    (a.goTo (Route.path (.profile account.userName))).ShowsOwnProfile ↔
      LeadsBack account.userName := by
  rw [showsOwnProfile_goTo_iff, hauth]
  simp only [Auth.owns, Option.any_some, decide_eq_true_eq]
  constructor
  · rintro ⟨other, hpath, hsame⟩
    exact (leadsBack_of_ofPath hpath hsame).1
  · intro hleads
    exact ⟨_, ofPath_path_of_leadsBack hleads, rfl⟩

/-- The home page leads a user who is logged in to the path of the own profile. -/
theorem App.redirect_of_home {a : App} {account : Account}
    (hauth : a.browser.auth = some account) (hpath : a.path = Route.path .home) :
    a.redirect = a.goTo (Route.path (.profile account.userName)) := by
  have hne : Route.path (.profile account.userName) ≠ Route.path .home := by
    intro heq
    have hlength := congrArg (fun path => path.toList.length) heq
    simp [Route.path] at hlength
  have hhome : placeOf (Route.path .home) = .home := by decide +kernel
  have hdest : destination (some account) (Route.path .home) =
      Route.path (.profile account.userName) := by
    unfold destination
    rw [hhome]
  rw [redirect, hauth, hpath, hdest]
  exact if_neg hne

/-- The link in the bar follows the path of the profile and is named after the user, however it is
drawn. -/
theorem View.exists_profileLink_eq (path userName : String) :
    ∃ attributes, profileLink path userName =
      .element "a" attributes [.follow (.goTo (Route.path (.profile userName)))]
        [.given userName] := by
  by_cases hpath : Route.path (.profile userName) = path
  · exact ⟨_, if_pos hpath⟩
  · exact ⟨_, if_neg hpath⟩

/-- **The way to one's own profile.**  The path of a profile leads to it exactly for the names that
lead back. The link in the bar carries a user who is logged in to the path of the own profile, and
so does the home page; the page that comes up is the user's own, by the name on it, under the same
condition. -/
theorem own_profile_iff (userName : String) :
    let path := Route.path (.profile userName)
    (Route.ofPath path = .ok (.profile userName) ↔ LeadsBack userName) ∧
      ∀ (a : App) (account : Account), a.browser.auth = some account →
        account.userName = userName →
        (∃ attributes, (View.barLinks a.path a.browser.auth).head? =
          some (.element "a" attributes [.follow (.goTo path)] [.given userName])) ∧
        (∀ s, (a.act s (.goTo path)).ShowsOwnProfile ↔ LeadsBack userName) ∧
        (a.path = Route.path .home → (a.redirect.ShowsOwnProfile ↔ LeadsBack userName)) := by
  refine ⟨⟨fun h => (leadsBack_of_ofPath h rfl).1, ofPath_path_of_leadsBack⟩, ?_⟩
  rintro a account hauth rfl
  refine ⟨?_, fun s => App.finds_own_profile_iff hauth, fun hpath => ?_⟩
  · obtain ⟨attributes, hlink⟩ := View.exists_profileLink_eq a.path account.userName
    rw [hauth]
    exact ⟨attributes, congrArg some hlink⟩
  · rw [App.redirect_of_home hauth hpath]
    exact App.finds_own_profile_iff hauth

/-- A name with a blank, a letter beyond ASCII and a percent sign that begins no escape. -/
theorem own_profile_iff_blank :
    let account : Account := ⟨"50% Zoë", "t", 0⟩
    let a : App := ⟨⟨some account, .empty, none, []⟩, Route.path .home, .home⟩
    a.browser.auth = some account ∧ a.path = Route.path .home ∧ LeadsBack account.userName ∧
      Route.ofPath (Route.path (.profile account.userName)) = .ok (.profile account.userName) ∧
      a.redirect.ShowsOwnProfile := by
  intro account a
  have hleads : LeadsBack account.userName := by decide +kernel
  obtain ⟨hpath, happ⟩ := own_profile_iff account.userName
  obtain ⟨-, -, hhome⟩ := happ a account rfl rfl
  refine ⟨rfl, rfl, hleads, ?_, ?_⟩
  · exact hpath.mpr hleads
  · exact (hhome rfl).mpr hleads

/-- **Profiles that are not found.**  The path of a name with a slash does not lead to the profile,
and that of a name with an escape leads to the profile of somebody else. -/
theorem lost_profile :
    "a/b" ≠ "" ∧ Route.ofPath (Route.path (.profile "a/b")) ≠ .ok (.profile "a/b") ∧
      "a%62" ≠ "" ∧ Route.ofPath (Route.path (.profile "a%62")) = .ok (.profile "ab") := by
  refine ⟨by decide, fun h => ?_, by decide, ?_⟩
  · exact absurd (ofPath_path_eq_ok_iff.mp h).2.1 (by decide +kernel)
  · exact ofPath_path_eq_ok_iff.mpr ⟨by decide, by decide +kernel, by decide +kernel⟩

end PinBoard
