import PinBoard.Proofs.Service.Reading
import PinBoard.Proofs.Url.Segment

/-!
# Where requests about a user go

The name of a user is added to the path below the address of the service. It makes one segment of
that path or none, so the request goes where it is meant to; but a name that becomes two dots by
the loss of tabs and line breaks takes away the segment before it.
-/

namespace PinBoard.Service

open Url

/-! ## Clients and their base -/

/-- A client asks below the address that it was built with, without the slashes at its end. -/
theorem Client.parse_of_build {text : String} {agent : Option String} {c : Client}
    (h : Client.build (some text) agent = .ok c) :
    Url.parse (trimSlashes text) = .ok (some c.base) := by
  simp only [Client.build] at h
  split at h
  · exact absurd h (by simp)
  · exact absurd h (by simp)
  · rename_i base hbase
    split at h
    · rw [hbase, ← Except.ok.inj h]
    · exact absurd h (by simp)

/-- Requests can be sent by both schemes, and both are special. -/
theorem special_of_http {scheme : String} (h : scheme = "http" ∨ scheme = "https") :
    isSendable scheme = true ∧ isSpecialScheme scheme = true := by
  rcases h with rfl | rfl <;> exact ⟨by decide, by decide⟩

/-- A request without a token goes to its address. -/
theorem Client.prepare_of_http (c : Client) (url : Url)
    (h : url.scheme = "http" ∨ url.scheme = "https") :
    ∃ request, c.prepare .get url none none = .ok request ∧ request.url = url :=
  ⟨_, Client.prepare_of_fit rfl (special_of_http h).1, rfl⟩

/-! ## Paths -/

/-- The segments above those of a call. -/
def callRoot (base : Url) : List String := openPath (dropEmptyEnd base.path) ++ ["1"]

/-- The root of calls lies below the path of the base, unless that is two empty segments. -/
theorem callRoot_of_ne {base : Url} (h : base.path ≠ ["", ""]) :
    callRoot base = dropEmptyEnd base.path ++ ["1"] := by
  rw [callRoot, openPath_of_ne (mt dropEmptyEnd_eq_root_iff.mp h)]

theorem callRoot_append_ne (base : Url) (more : List String) : callRoot base ++ more ≠ [""] := by
  intro h
  have hmem : "1" ∈ callRoot base ++ more := by simp [callRoot]
  rw [h] at hmem
  exact absurd hmem (by decide)

theorem path_endpoint {c : Client} (hspecial : isSpecialScheme c.base.scheme = true)
    (segments : List String) :
    (c.endpoint segments).path = segments.foldl (addSegment true) (callRoot c.base) := by
  have hone : addSegment true (dropEmptyEnd c.base.path) "1" = callRoot c.base :=
    addSegment_of_written rfl (by decide)
  rw [Client.endpoint, Url.extend, hspecial, List.foldl_cons, hone]

/-- Words of the program come to the end of a path as they are. -/
theorem addWords {path : List String} {words : List String} (hne : words ≠ [])
    (hwords : ∀ s ∈ words, s ∈ ["pins", "current", "user", "listens"]) :
    words.foldl (addSegment true) path = openPath path ++ words := by
  have hall : ∀ s ∈ ["pins", "current", "user", "listens"],
      segmentText true s = s ∧ ¬ (s = "." ∨ s = "..") ∧ s ≠ "" := by decide +kernel
  induction words generalizing path with
  | nil => exact absurd rfl hne
  | cons s rest ih =>
    obtain ⟨hwritten, hdots, hempty⟩ := hall s (hwords s List.mem_cons_self)
    rw [List.foldl_cons, addSegment_of_written hwritten hdots]
    cases rest with
    | nil => rfl
    | cons next rest =>
      -- a path with a word in it is not the root's, so it is not opened again
      have hopen : openPath path ++ [s] ≠ [""] := by
        intro h
        have hmem : s ∈ openPath path ++ [s] := by simp
        rw [h, List.mem_singleton] at hmem
        exact hempty hmem
      rw [ih (List.cons_ne_nil next rest) fun s hs => hwords s (List.mem_cons_of_mem _ hs),
        openPath_of_ne hopen, List.append_assoc]
      rfl

section Paths

variable {c : Client} (hspecial : isSpecialScheme c.base.scheme = true) (userName : String)
include hspecial

theorem path_currentPin :
    (c.endpoint [userName, "pins", "current"]).path =
      openPath (addSegment true (callRoot c.base) userName) ++ ["pins", "current"] := by
  rw [path_endpoint hspecial, List.foldl_cons]
  exact addWords (by decide) (by decide)

theorem path_recentListens :
    (c.endpoint ["user", userName, "listens"]).path =
      openPath (addSegment true (callRoot c.base ++ ["user"]) userName) ++ ["listens"] := by
  have huser : addSegment true (callRoot c.base) "user" = callRoot c.base ++ ["user"] := by
    have hroot := callRoot_append_ne c.base []
    rw [List.append_nil] at hroot
    rw [addSegment_of_written rfl (by decide), openPath_of_ne hroot]
  rw [path_endpoint hspecial, List.foldl_cons, huser, List.foldl_cons]
  exact addWords (by decide) (by decide)

end Paths

/-! ## Names that stay and names that climb -/

/-- A path of a user that is in its place: below the base stands the version, and the name makes one
plain segment or none between the words of the program. -/
def InPlace (base : Url) (before behind path : List String) : Prop :=
  ∃ name : Option String, (∀ s ∈ name, IsPlainSegment s) ∧
    path = dropEmptyEnd base.path ++ ("1" :: before) ++ name.toList ++ behind

/-- The name of a user and the base are such that requests stay in their place. -/
def Stays (base : Url) (userName : String) : Prop :=
  ¬ Climbs userName ∧ base.path ≠ ["", ""]

section InPlace

variable {base : Url} {userName : String} {before behind : List String}

/-- A name that does not climb stays in its place. -/
theorem inPlace_of_stays (h : Stays base userName) :
    InPlace base before behind
      (openPath (addSegment true (callRoot base ++ before) userName) ++ behind) := by
  obtain ⟨name, hplain, hadded⟩ := exists_addSegment h.1
  refine ⟨name, hplain, ?_⟩
  rw [hadded _ (callRoot_append_ne base before), List.append_assoc (callRoot base),
    openPath_of_ne (callRoot_append_ne base _), callRoot_of_ne h.2]
  simp

variable (hbefore : before = [] ∨ before = ["user"])
  (hbehind : behind = ["pins", "current"] ∨ behind = ["listens"])
include hbefore hbehind

/-- Below a base of two empty segments both of them are lost. -/
theorem not_inPlace_of_root (hbase : base.path = ["", ""]) :
    ¬ InPlace base before behind
      (openPath (addSegment true (callRoot base ++ before) userName) ++ behind) := by
  rintro ⟨name, -, hpath⟩
  have hroot : callRoot base = ["1"] := by
    rw [callRoot, hbase]
    rfl
  have hne : ∀ more, ["1"] ++ more ≠ [""] := fun more h => absurd (List.cons.inj h).1 (by decide)
  rw [hroot, hbase] at hpath
  -- the path begins with a word, and not with the empty segment that is left of the base
  have hhead := congrArg List.head? hpath
  by_cases hclimbs : Climbs userName
  · rw [addSegment_of_climbs hclimbs (hne before)] at hhead
    rcases hbefore with rfl | rfl <;> rcases hbehind with rfl | rfl <;>
      simp [openPath, dropEmptyEnd] at hhead
  · obtain ⟨added, -, hadded⟩ := exists_addSegment hclimbs
    rw [hadded _ (hne before), List.append_assoc, openPath_of_ne (hne _)] at hhead
    simp [dropEmptyEnd] at hhead

/-- A name that climbs leaves an empty segment in the place of the word before it. -/
theorem not_inPlace_of_climbs (hbase : base.path ≠ ["", ""]) (hclimbs : Climbs userName) :
    ¬ InPlace base before behind
      (openPath (addSegment true (callRoot base ++ before) userName) ++ behind) := by
  rintro ⟨name, -, hpath⟩
  rw [addSegment_of_climbs hclimbs (callRoot_append_ne base before), callRoot_of_ne hbase] at hpath
  rcases hbefore with rfl | rfl
  -- the version is gone: what is left of the path is too short, or has the empty segment there
  · rw [List.append_nil, List.dropLast_concat] at hpath
    by_cases hempty : dropEmptyEnd base.path = []
    · rw [hempty] at hpath
      rcases hbehind with rfl | rfl <;> simp [openPath] at hpath
    · rw [openPath_of_ne (by simpa using hempty)] at hpath
      simp at hpath
  · rw [List.dropLast_concat, ← callRoot_of_ne hbase, openPath_of_ne (callRoot_append_ne base _),
      callRoot_of_ne hbase] at hpath
    simp at hpath

/-- A path is in its place exactly if the name does not climb and the base is not two empty
segments. -/
theorem inPlace_iff :
    InPlace base before behind
        (openPath (addSegment true (callRoot base ++ before) userName) ++ behind) ↔
      Stays base userName := by
  refine ⟨fun h => ?_, inPlace_of_stays⟩
  have hbase : base.path ≠ ["", ""] := fun hroot => not_inPlace_of_root hbefore hbehind hroot h
  exact ⟨fun hclimbs => not_inPlace_of_climbs hbefore hbehind hbase hclimbs h, hbase⟩

end InPlace

/-! ## The requests about a user -/

/-- Addresses that differ in their paths and queries at most. -/
structure SameSite (u v : Url) : Prop where
  scheme : v.scheme = u.scheme
  username : v.username = u.username
  password : v.password = u.password
  host : v.host = u.host
  port : v.port = u.port
  fragment : v.fragment = u.fragment

/-- Segments that are added to a path change nothing else. -/
theorem sameSite_extend (u : Url) (segments : List String) : SameSite u (u.extend segments) :=
  ⟨rfl, rfl, rfl, rfl, rfl, rfl⟩

/-- Nor does a pair that is added to the query. -/
theorem SameSite.addPair {u v : Url} (h : SameSite u v) (name value : String) :
    SameSite u (v.addPair name value) :=
  ⟨h.scheme, h.username, h.password, h.host, h.port, h.fragment⟩

/-- A query with one pair more at its end. -/
inductive HasMore (pair : String) : Option String → Option String → Prop
  | none : HasMore pair none (some pair)
  | empty : HasMore pair (some "") (some pair)
  | some {query : String} (h : query ≠ "") :
    HasMore pair (some query) (some (query ++ "&" ++ pair))

/-- A pair that is added comes to the end of the query. -/
theorem hasMore_addPair (u : Url) (name value : String) :
    HasMore (name ++ "=" ++ value) u.query (u.addPair name value).query := by
  rw [addPair]
  rcases u.query with _ | query
  · exact .none
  · by_cases h : query = ""
    · subst h
      exact .empty
    · simp only
      exact .some h

/-- However many listens are wanted, between one and a thousand are asked for. -/
theorem askedListens_mem (count : Nat) : 1 ≤ askedListens count ∧ askedListens count ≤ 1000 := by
  unfold askedListens maxListens
  omega

/-- **Where requests about a user go.**  Whatever the name, both requests go to the site that the
client was built with and keep its query, to which the listens add how many are wanted. The name
stays in its place in their paths if it does not become two dots by the loss of tabs and line
breaks and the base is not two empty segments; otherwise it does not. -/
theorem place_of_user {text : String} {agent : Option String} {c : Client}
    (hbuild : Client.build (some text) agent = .ok c)
    (hscheme : c.base.scheme = "http" ∨ c.base.scheme = "https") (userName : String)
    (count : Nat) :
    Url.parse (trimSlashes text) = .ok (some c.base) ∧
    ∃ pin listens : Http.Request,
      (c.currentPin userName).request = .ok pin ∧
      (c.recentListens userName count).request = .ok listens ∧
      SameSite c.base pin.url ∧ SameSite c.base listens.url ∧
      pin.url.query = c.base.query ∧
      (∃ n, 1 ≤ n ∧ n ≤ 1000 ∧
        HasMore ("count=" ++ toString n) c.base.query listens.url.query) ∧
      (InPlace c.base [] ["pins", "current"] pin.url.path ↔ Stays c.base userName) ∧
      (InPlace c.base ["user"] ["listens"] listens.url.path ↔ Stays c.base userName) := by
  have hspecial := (special_of_http hscheme).2
  obtain ⟨pin, hpin, hpinUrl⟩ :=
    c.prepare_of_http (c.endpoint [userName, "pins", "current"]) hscheme
  obtain ⟨listens, hlistens, hlistensUrl⟩ :=
    c.prepare_of_http
      ((c.endpoint ["user", userName, "listens"]).addPair "count" (toString (askedListens count)))
      hscheme
  refine ⟨c.parse_of_build hbuild, pin, listens, hpin, hlistens, ?_⟩
  rw [hpinUrl, hlistensUrl]
  refine ⟨sameSite_extend _ _, (sameSite_extend _ _).addPair _ _, rfl,
    ⟨askedListens count, (askedListens_mem count).1, (askedListens_mem count).2, ?_⟩, ?_, ?_⟩
  · exact hasMore_addPair _ "count" _
  · have hplace : InPlace c.base [] ["pins", "current"]
        (openPath (addSegment true (callRoot c.base ++ []) userName) ++ ["pins", "current"]) ↔
          Stays c.base userName := inPlace_iff (Or.inl rfl) (Or.inl rfl)
    rw [List.append_nil, ← path_currentPin hspecial] at hplace
    exact hplace
  · have hplace : InPlace c.base ["user"] ["listens"]
        (openPath (addSegment true (callRoot c.base ++ ["user"]) userName) ++ ["listens"]) ↔
          Stays c.base userName := inPlace_iff (Or.inr rfl) (Or.inr rfl)
    rw [← path_recentListens hspecial] at hplace
    exact hplace

/-! ## One name of each kind -/

/-- Requests about alice stay in their place. -/
theorem place_of_alice :
    Client.build (some "http://lb.test") none = .ok plainClient ∧
      (plainClient.base.scheme = "http" ∨ plainClient.base.scheme = "https") ∧
      ∃ pin listens : Http.Request,
        (plainClient.currentPin "alice").request = .ok pin ∧
        (plainClient.recentListens "alice" 25).request = .ok listens ∧
        InPlace plainClient.base [] ["pins", "current"] pin.url.path ∧
        InPlace plainClient.base ["user"] ["listens"] listens.url.path := by
  have hbuild : Client.build (some "http://lb.test") none = .ok plainClient := by decide +kernel
  have hstays : Stays plainClient.base "alice" := ⟨by decide +kernel, by decide⟩
  obtain ⟨-, pin, listens, hpin, hlistens, -, -, -, -, hpinPlace, hlistensPlace⟩ :=
    place_of_user hbuild (Or.inl rfl) "alice" 25
  exact ⟨hbuild, Or.inl rfl, pin, listens, hpin, hlistens, hpinPlace.mpr hstays,
    hlistensPlace.mpr hstays⟩

/-- Two dots with a tab between them. -/
def climbingName : String := ".\t."

/-- **Requests can leave their place.**  The name takes away the version below which the pins are
asked for, and the word below which the listens are. -/
theorem climbing_user :
    Client.build (some "http://lb.test") none = .ok plainClient ∧
      (∃ pin, (plainClient.currentPin climbingName).request = .ok pin ∧
        pin.url.toText = "http://lb.test/pins/current" ∧
        ¬ InPlace plainClient.base [] ["pins", "current"] pin.url.path) ∧
      ∃ listens, (plainClient.recentListens climbingName 25).request = .ok listens ∧
        listens.url.toText = "http://lb.test/1//listens?count=25" ∧
        ¬ InPlace plainClient.base ["user"] ["listens"] listens.url.path := by
  have hbuild : Client.build (some "http://lb.test") none = .ok plainClient := by decide +kernel
  have hpinPath : (plainClient.endpoint [climbingName, "pins", "current"]).path =
      ["pins", "current"] := by decide +kernel
  have hpinText : (plainClient.endpoint [climbingName, "pins", "current"]).toText =
      "http://lb.test/pins/current" := by decide +kernel
  have hlistensPath : ((plainClient.endpoint ["user", climbingName, "listens"]).addPair "count"
      "25").path = ["1", "", "listens"] := by decide +kernel
  have hlistensText : ((plainClient.endpoint ["user", climbingName, "listens"]).addPair "count"
      "25").toText = "http://lb.test/1//listens?count=25" := by decide +kernel
  obtain ⟨pin, hpin, hpinUrl⟩ := plainClient.prepare_of_http
    (plainClient.endpoint [climbingName, "pins", "current"]) (Or.inl rfl)
  obtain ⟨listens, hlistens, hlistensUrl⟩ := plainClient.prepare_of_http
    ((plainClient.endpoint ["user", climbingName, "listens"]).addPair "count" "25") (Or.inl rfl)
  refine ⟨hbuild, ⟨pin, hpin, ?_, ?_⟩, ⟨listens, hlistens, ?_, ?_⟩⟩
  · rw [hpinUrl, hpinText]
  · rintro ⟨name, -, hpath⟩
    rw [hpinUrl, hpinPath] at hpath
    simp [plainClient, dropEmptyEnd] at hpath
  · rw [hlistensUrl, hlistensText]
  · rintro ⟨name, -, hpath⟩
    rw [hlistensUrl, hlistensPath] at hpath
    simp [plainClient, dropEmptyEnd] at hpath

end PinBoard.Service
