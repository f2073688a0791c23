import PinBoard.Proofs.Service.Endpoint
import PinBoard.Proofs.Url.Name

/-!
# Requests that users share

Requests about two users go to one address exactly if a path keeps the same of their names. Names
without tabs and line breaks that are no dots are kept as they are, so they share nothing; but tabs
and line breaks are lost, and both dot segments add nothing, so other names do share requests.
-/

namespace PinBoard.Url

/-! ## Addresses that differ in their paths -/

/-- The address with another path. -/
def withPath (u : Url) (path : List String) : Url := { u with path := path }

/-- Their written forms differ where the paths do. -/
theorem toText_withPath_eq_iff (u : Url) (p q : List String) :
    (u.withPath p).toText = (u.withPath q).toText ↔
      (u.withPath p).pathText = (u.withPath q).pathText := by
  have hauthority : (u.withPath p).authorityText = (u.withPath q).authorityText := rfl
  unfold toText
  rw [hauthority]
  simp only [withPath, String.append_left_inj, String.append_right_inj]

/-- The path is marked if it might be taken for a host. -/
def isMarked (u : Url) (path : List String) : Bool :=
  u.host.isNone && path.head? = some "" && 1 < path.length

/-- Paths that are marked alike are told apart by their segments. -/
theorem pathText_withPath_eq_iff {u : Url} {p q : List String}
    (hmark : u.isMarked p = u.isMarked q) :
    (u.withPath p).pathText = (u.withPath q).pathText ↔ rowChars p = rowChars q := by
  have hrow : ∀ path : List String,
      (String.join (path.map ("/" ++ ·))).toList = rowChars path := by
    intro path
    rw [String.toList_join, List.flatMap_map]
    unfold rowChars
    congr 1
    funext s
    rw [String.toList_append]
    rfl
  have hpathText : ∀ path, (u.withPath path).pathText =
      if u.isMarked path then "/." ++ String.join (path.map ("/" ++ ·))
      else String.join (path.map ("/" ++ ·)) := fun path => rfl
  rw [hpathText, hpathText, hmark, ← hrow, ← hrow, String.toList_inj]
  split_ifs
  · rw [String.append_right_inj]
  · rfl

/-- Whatever is kept of a name, the paths are marked alike. -/
theorem isMarked_nameTail (u : Url) {front behind : List String} {word first : String}
    (hword : word ≠ "") (hfirst : first ≠ "") (name : Option String) :
    u.isMarked (front ++ nameTail front word (first :: behind) name) =
      (u.host.isNone && decide (front.head? = some "")) := by
  unfold isMarked
  have hlong : ∃ s rest, nameTail front word (first :: behind) name = s :: rest ∧
      (front = [] → s ≠ "") := by
    rcases name with _ | name
    · exact ⟨_, _, rfl, fun _ => hword⟩
    · by_cases hclimbs : name = ".."
      · rw [hclimbs, nameTail_climbs]
        by_cases hfront : front = []
        · exact ⟨first, behind, if_pos hfront, fun _ => hfirst⟩
        · exact ⟨"", first :: behind, if_neg hfront, fun h => absurd h hfront⟩
      · exact ⟨_, _, nameTail_of_ne hclimbs, fun _ => hword⟩
  obtain ⟨s, rest, htail, hs⟩ := hlong
  rw [htail]
  cases front with
  | nil => simp [hs rfl]
  | cons t front =>
    have hlength : 1 < (t :: front ++ s :: rest).length := by
      rw [List.length_append, List.length_cons, List.length_cons]
      omega
    rw [decide_eq_true hlength, Bool.and_true]
    rfl

/-- **Names are told apart** by the written address exactly if something else is kept of them. -/
theorem toText_nameTail_eq_iff (u : Url) {front behind : List String} {word first : String}
    (hword : word ≠ "" ∧ HasNoSlash word) (hfirst : first ≠ "")
    (hbehind : ∀ s ∈ first :: behind, HasNoSlash s) (a b : String) :
    (u.withPath (front ++ nameTail front word (first :: behind) (keptName a))).toText =
        (u.withPath (front ++ nameTail front word (first :: behind) (keptName b))).toText ↔
      keptName a = keptName b := by
  have hmark : ∀ name, u.isMarked (front ++ nameTail front word (first :: behind) name) =
      (u.host.isNone && decide (front.head? = some "")) :=
    isMarked_nameTail u hword.1 hfirst
  rw [toText_withPath_eq_iff, pathText_withPath_eq_iff ((hmark _).trans (hmark _).symm)]
  constructor
  · intro h
    unfold rowChars at h
    rw [List.flatMap_append, List.flatMap_append] at h
    have htails := rowChars_injective (hasNoSlash_of_mem_nameTail hword.2 hbehind _)
      (hasNoSlash_of_mem_nameTail hword.2 hbehind _) (List.append_cancel_left h)
    exact nameTail_injective hword.1 htails
  · intro h
    rw [h]

end PinBoard.Url

namespace PinBoard.Service

open Url

/-! ## The requests about two users -/

section Requests

variable {c : Client} (hspecial : isSpecialScheme c.base.scheme = true)
include hspecial

/-- The address of the pin of a user. -/
theorem endpoint_currentPin (userName : String) :
    c.endpoint [userName, "pins", "current"] =
      c.base.withPath (openPath (dropEmptyEnd c.base.path) ++
        nameTail (openPath (dropEmptyEnd c.base.path)) "1" ["pins", "current"]
          (keptName userName)) := by
  rw [← openPath_addSegment (by decide) userName, ← callRoot, ← path_currentPin hspecial]
  rfl

/-- The address of the listens of a user. -/
theorem endpoint_recentListens (userName : String) :
    c.endpoint ["user", userName, "listens"] =
      c.base.withPath (callRoot c.base ++
        nameTail (callRoot c.base) "user" ["listens"] (keptName userName)) := by
  rw [← openPath_addSegment (by decide) userName, ← path_recentListens hspecial]
  rfl

variable {a b : String} (h : keptName a = keptName b)
include h

/-- Users of whose names the same is kept share the request for the pin. -/
theorem currentPin_congr : (c.currentPin a).request = (c.currentPin b).request := by
  unfold Client.currentPin
  rw [endpoint_currentPin hspecial a, endpoint_currentPin hspecial b, h]

/-- And the one for the listens. -/
theorem recentListens_congr (count : Nat) :
    (c.recentListens a count).request = (c.recentListens b count).request := by
  unfold Client.recentListens
  rw [endpoint_recentListens hspecial a, endpoint_recentListens hspecial b, h]

end Requests

/-- **Which users share a request.**  By a client of an `http` or `https` address requests about two
users go to one address exactly if a path keeps the same of their names, and then the requests are
the same. Names without tabs and line breaks that are no dots share no request with any other such
name. -/
theorem shared_request_iff (c : Client) (hscheme : c.base.scheme = "http" ∨ c.base.scheme = "https")
    (a b : String) (count : Nat) :
    ∃ pinA pinB listensA listensB : Http.Request,
      ((c.currentPin a).request = .ok pinA ∧ (c.currentPin b).request = .ok pinB ∧
        (c.recentListens a count).request = .ok listensA ∧
        (c.recentListens b count).request = .ok listensB) ∧
      (pinA.url.toText = pinB.url.toText ↔ keptName a = keptName b) ∧
      (listensA.url.toText = listensB.url.toText ↔ keptName a = keptName b) ∧
      (keptName a = keptName b → pinA = pinB ∧ listensA = listensB) ∧
      ((∀ x ∈ a.toList ++ b.toList, isIgnored x = false) → ¬ (a = "." ∨ a = "..") →
        (keptName a = keptName b ↔ a = b)) := by
  have hspecial := (special_of_http hscheme).2
  have hwords : ∀ s ∈ ["1", "user", "pins", "current", "listens"], s ≠ "" ∧ HasNoSlash s := by
    unfold HasNoSlash
    decide
  have hpin : ∀ userName, ∃ request : Http.Request,
      (c.currentPin userName).request = .ok request ∧
        request.url = c.endpoint [userName, "pins", "current"] := fun userName =>
    c.prepare_of_http _ hscheme
  have hlistens : ∀ userName, ∃ request : Http.Request,
      (c.recentListens userName count).request = .ok request ∧
        request.url = (c.endpoint ["user", userName, "listens"]).addPair "count"
          (toString (askedListens count)) := fun userName =>
    c.prepare_of_http _ hscheme
  obtain ⟨pinA, hpinA, hpinUrlA⟩ := hpin a
  obtain ⟨pinB, hpinB, hpinUrlB⟩ := hpin b
  obtain ⟨listensA, hlistensA, hlistensUrlA⟩ := hlistens a
  obtain ⟨listensB, hlistensB, hlistensUrlB⟩ := hlistens b
  refine ⟨pinA, pinB, listensA, listensB, ⟨hpinA, hpinB, hlistensA, hlistensB⟩, ?_, ?_,
    fun hkept => ⟨?_, ?_⟩, fun hclean hdots => keptName_eq_iff_of_clean hclean hdots⟩
  · rw [hpinUrlA, hpinUrlB, endpoint_currentPin hspecial, endpoint_currentPin hspecial]
    exact toText_nameTail_eq_iff c.base (hwords "1" (by decide)) (by decide)
      (fun s hs => (hwords s (by revert s; decide)).2) a b
  · rw [hlistensUrlA, hlistensUrlB, endpoint_recentListens hspecial,
      endpoint_recentListens hspecial]
    -- the pair comes to the query, so it makes no difference which path the address has
    exact toText_nameTail_eq_iff (c.base.addPair "count" (toString (askedListens count)))
      (hwords "user" (by decide)) (by decide) (fun s hs => (hwords s (by revert s; decide)).2) a b
  · exact Except.ok.inj ((hpinA.symm.trans (currentPin_congr hspecial hkept)).trans hpinB)
  · exact Except.ok.inj
      ((hlistensA.symm.trans (recentListens_congr hspecial hkept count)).trans hlistensB)

/-- A name that spells a dot in the way of addresses shares no request with the one that has it. -/
theorem shared_request_iff_alice :
    (plainClient.base.scheme = "http" ∨ plainClient.base.scheme = "https") ∧
      ∃ pinA pinB : Http.Request, (plainClient.currentPin "a%2E").request = .ok pinA ∧
        (plainClient.currentPin "a.").request = .ok pinB ∧ pinA.url.toText ≠ pinB.url.toText := by
  obtain ⟨pinA, pinB, -, -, ⟨hpinA, hpinB, -, -⟩, hpins, -, -, hkept⟩ :=
    shared_request_iff plainClient (Or.inl rfl) "a%2E" "a." 25
  have hclean : ("a%2E".toList ++ "a.".toList).all (fun x => !isIgnored x) = true := by decide
  have hdiffer : keptName "a%2E" ≠ keptName "a." := by
    rw [Ne, hkept (by simpa using hclean) (by decide)]
    decide
  exact ⟨Or.inl rfl, pinA, pinB, hpinA, hpinB, fun h => hdiffer (hpins.mp h)⟩

/-- **Users can share their requests.**  A tab is lost from a name, and both dot segments add
nothing, so what is asked about one user is shown for the other. -/
theorem shared_request_of_tab :
    Client.build (some "http://lb.test") none = .ok plainClient ∧
      ("a\tb" ≠ "ab" ∧ (plainClient.currentPin "a\tb").request =
          (plainClient.currentPin "ab").request ∧
        (plainClient.recentListens "a\tb" 25).request =
          (plainClient.recentListens "ab" 25).request) ∧
      ("." ≠ ".." ∧ (plainClient.currentPin ".").request = (plainClient.currentPin "..").request ∧
        (plainClient.recentListens "." 25).request =
          (plainClient.recentListens ".." 25).request) := by
  have hbuild : Client.build (some "http://lb.test") none = .ok plainClient := by decide +kernel
  have htab : keptName "a\tb" = keptName "ab" := by decide
  have hdot : keptName "." = keptName ".." := by decide
  exact ⟨hbuild,
    ⟨by decide, currentPin_congr rfl htab, recentListens_congr rfl htab 25⟩,
    ⟨by decide, currentPin_congr rfl hdot, recentListens_congr rfl hdot 25⟩⟩

end PinBoard.Service
