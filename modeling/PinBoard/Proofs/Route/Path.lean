import PinBoard.Auth
import PinBoard.Proofs.Result
import PinBoard.Proofs.Text.Escape
import PinBoard.Route
import Mathlib.Data.List.TakeWhile

/-!
# Paths of profiles

The name of a user is written into the path of the profile with its slashes and its percent signs
as they are. A path that is read is cut at slashes and its segments are decoded, so a name comes
back if it has no slash and nothing in it is taken for a written byte; all names that do not come
back are told apart here.
-/

namespace PinBoard

/-! ## Which page matches -/

/-- Only the page of profiles finds a user in segments. -/
theorem firstMatch_eq_profile_iff {segments : List String} {userName : String} :
    firstMatch segments Page.all = .ok (.profile userName) ↔ segments = ["user", userName] := by
  match segments with
  | [] => simp [firstMatch, Page.all, Page.matcher, Matcher.word, Matcher.stop, Except.mapError]
  | s :: rest =>
    by_cases hlogin : s = "login" <;> by_cases huser : s = "user" <;>
      rcases rest with _ | ⟨t, _ | ⟨u, rest⟩⟩ <;>
      simp [firstMatch, Page.all, Page.matcher, Matcher.word, Matcher.stop, Matcher.field,
        Except.mapError, hlogin, huser]

/-! ## The written name -/

/-- A name as it is written in a path. -/
def writtenName (name : List Char) : List Char :=
  Text.percentEncode Url.isEncodedInPath name

/-- A slash stays. -/
theorem percentChar_slash : Text.percentChar Url.isEncodedInPath '/' = ['/'] := by decide

/-- A digit of a written byte is no mark of a path. -/
theorem ne_mark_of_isHexDigit {c : Char} (h : Text.IsHexDigit c) : c ≠ '/' ∧ c ≠ '?' ∧ c ≠ '#' := by
  have hall : ∀ n < 16, Text.hexDigit n ≠ '/' ∧ Text.hexDigit n ≠ '?' ∧ Text.hexDigit n ≠ '#' := by
    decide
  obtain ⟨n, hn, rfl⟩ := h
  exact hall n hn

/-- What is written of a name has the slashes of the name only. -/
theorem slash_mem_writtenName_iff {cs : List Char} : '/' ∈ writtenName cs ↔ '/' ∈ cs := by
  constructor
  · intro h
    rcases Text.mem_percentEncode h with (hpercent | hdigit) | ⟨hmem, -⟩
    · exact absurd hpercent (by decide)
    · exact absurd rfl (ne_mark_of_isHexDigit hdigit).1
    · exact hmem
  · intro h
    refine List.mem_flatMap.mpr ⟨'/', h, ?_⟩
    rw [percentChar_slash]
    exact List.mem_singleton_self '/'

/-- It has no mark that ends a path. -/
theorem ne_mark_of_mem_writtenName {cs : List Char} {c : Char} (h : c ∈ writtenName cs) :
    c ≠ '?' ∧ c ≠ '#' := by
  rcases Text.mem_percentEncode h with (rfl | hdigit) | ⟨-, -, hspecial⟩
  · decide
  · exact (ne_mark_of_isHexDigit hdigit).2
  · constructor
    · rintro rfl
      exact absurd hspecial (by decide)
    · rintro rfl
      exact absurd hspecial (by decide)

/-- Every character is written as one at least, and as itself if it is one. -/
theorem percentChar_length (c : Char) :
    1 ≤ (Text.percentChar Url.isEncodedInPath c).length ∧
      ((Text.percentChar Url.isEncodedInPath c).length = 1 →
        Text.percentChar Url.isEncodedInPath c = [c]) := by
  rw [Text.percentChar]
  split
  · obtain ⟨b, bs, hbytes⟩ := List.exists_cons_of_ne_nil (Text.Utf8.encodeChar_ne_nil c)
    rw [hbytes, List.flatMap_cons, List.length_append]
    have hthree : (Text.percentByte b).length = 3 := rfl
    constructor <;> omega
  · exact ⟨Nat.le_refl 1, fun _ => rfl⟩

/-- A name is no longer than what is written of it, and written as it is if it is no shorter. -/
theorem writtenName_length (cs : List Char) :
    cs.length ≤ (writtenName cs).length ∧
      ((writtenName cs).length = cs.length → writtenName cs = cs) := by
  induction cs with
  | nil => exact ⟨Nat.le_refl 0, fun _ => rfl⟩
  | cons c cs ih =>
    obtain ⟨hone, hsame⟩ := percentChar_length c
    have hcons : writtenName (c :: cs) =
        Text.percentChar Url.isEncodedInPath c ++ writtenName cs := rfl
    rw [hcons, List.length_append, List.length_cons]
    refine ⟨by omega, fun hlength => ?_⟩
    rw [hsame (by omega), ih.2 (by omega), List.singleton_append]

/-- Nothing is written of the empty name only. -/
theorem writtenName_eq_nil_iff {cs : List Char} : writtenName cs = [] ↔ cs = [] := by
  constructor
  · intro h
    have hlength := (writtenName_length cs).1
    rw [h] at hlength
    exact List.eq_nil_of_length_eq_zero (Nat.le_zero.mp hlength)
  · rintro rfl
    rfl

/-- Every character is written. -/
theorem percentChar_ne_nil (c : Char) : Text.percentChar Url.isEncodedInPath c ≠ [] :=
  List.ne_nil_of_length_pos (percentChar_length c).1

/-! ## The slash at the end -/

/-- Only what ends in a slash loses one. -/
theorem dropSlash_of_not_mem {cs : List Char} (h : '/' ∉ cs) : dropSlash cs = cs := by
  rw [dropSlash, if_neg]
  intro hlast
  exact h (List.mem_of_getLast? hlast)

/-- The end of a text is that of its last part. -/
theorem dropSlash_append (front : List Char) {cs : List Char} (hcs : cs ≠ []) :
    dropSlash (front ++ cs) = front ++ dropSlash cs := by
  have hlast : (front ++ cs).getLast? = cs.getLast? := by
    rw [List.getLast?_append, List.getLast?_eq_some_getLast hcs, Option.some_or]
  rw [dropSlash, dropSlash, hlast, List.dropLast_append_of_ne_nil hcs]
  split <;> rfl

/-- A slash at the end may be dropped before the name is written. -/
theorem dropSlash_writtenName (cs : List Char) :
    dropSlash (writtenName cs) = writtenName (dropSlash cs) := by
  rcases List.eq_nil_or_concat' cs with rfl | ⟨front, c, rfl⟩
  · rfl
  · have hconcat : ∀ ds, writtenName (front ++ ds) = writtenName front ++ writtenName ds :=
      fun ds => List.flatMap_append
    have hsingle : writtenName [c] = Text.percentChar Url.isEncodedInPath c :=
      List.flatMap_singleton _ c
    have hne : writtenName [c] ≠ [] := by
      rw [hsingle]
      exact percentChar_ne_nil c
    rw [hconcat, dropSlash_append _ hne, dropSlash_append _ (List.cons_ne_nil c []), hconcat]
    by_cases hc : c = '/'
    · have hslash : dropSlash (writtenName ['/']) = writtenName (dropSlash ['/']) := by
        decide +kernel
      rw [hc, hslash]
    · have hplain : '/' ∉ [c] := fun h => hc (List.mem_singleton.mp h).symm
      rw [dropSlash_of_not_mem hplain, dropSlash_of_not_mem (mt slash_mem_writtenName_iff.mp hplain)]

/-- A text that loses its slash gets shorter. -/
theorem dropSlash_eq_or (cs : List Char) :
    dropSlash cs = cs ∨ cs = dropSlash cs ++ ['/'] := by
  rw [dropSlash]
  split
  · rename_i hlast
    right
    exact (List.dropLast_append_getLast? '/' hlast).symm
  · exact Or.inl rfl

/-! ## Where the path of a profile leads -/

/-- The segments of the path of a profile are those of the name, behind one of their own. -/
theorem segments?_path {userName : String} (hname : userName ≠ "") :
    segments? (Route.path (.profile userName)) =
      some ("user" :: ((writtenName (dropSlash userName.toList)).splitOn '/').map segmentOfChars) := by
  have hpath : (Route.path (.profile userName)).toList =
      "/user/".toList ++ writtenName userName.toList := by
    simp only [Route.path, writtenName, String.toList_append, String.toList_ofList]
  have hwhole : pathOnly (Route.path (.profile userName)).toList =
      '/' :: ("user/".toList ++ writtenName userName.toList) := by
    rw [hpath, pathOnly, List.takeWhile_eq_self_iff.mpr]
    · rfl
    · intro c hc
      rcases List.mem_append.mp hc with hc | hc
      · have hall : "/user/".toList.all (fun d => d ≠ '?' && d ≠ '#') = true := by decide +kernel
        exact List.all_eq_true.mp hall c hc
      · simpa using ne_mark_of_mem_writtenName hc
  have hwritten : writtenName userName.toList ≠ [] := by
    rw [Ne, writtenName_eq_nil_iff]
    simpa using hname
  have hdrop : dropSlash ('/' :: ("user/".toList ++ writtenName userName.toList)) =
      "/user".toList ++ '/' :: writtenName (dropSlash userName.toList) := by
    rw [← dropSlash_writtenName]
    exact dropSlash_append "/user/".toList hwritten
  have hfront : "/user".toList.splitOn '/' = [[], "user".toList] := by decide +kernel
  have huser : segmentOfChars "user".toList = "user" := by decide +kernel
  rw [segments?, hwhole]
  simp only
  rw [hdrop, List.splitOn_append_cons_self, hfront]
  simp only [List.cons_append, List.nil_append, List.tail_cons, List.map_cons, huser]

/-- A text that is cut nowhere has no slash. -/
theorem splitOn_eq_singleton_iff {cs : List Char} {p : List Char} :
    cs.splitOn '/' = [p] ↔ '/' ∉ cs ∧ p = cs := by
  constructor
  · intro h
    have hfree : '/' ∉ cs := by
      intro hmem
      obtain ⟨front, behind, rfl⟩ := List.append_of_mem hmem
      rw [List.splitOn_append_cons_self] at h
      have hlength := congrArg List.length h
      have hone := List.length_pos_of_ne_nil (List.splitOn_ne_nil '/' front)
      have htwo := List.length_pos_of_ne_nil (List.splitOn_ne_nil '/' behind)
      rw [List.length_append, List.length_singleton] at hlength
      omega
    rw [List.splitOn_eq_singleton hfree] at h
    exact ⟨hfree, (List.cons.inj h).1.symm⟩
  · rintro ⟨hfree, rfl⟩
    exact List.splitOn_eq_singleton hfree

/-- **The path of a profile leads to the profile that its one segment names**, if it has one. -/
theorem ofPath_path_eq_ok_iff {userName other : String} :
    Route.ofPath (Route.path (.profile userName)) = .ok (.profile other) ↔
      userName ≠ "" ∧ '/' ∉ dropSlash userName.toList ∧
        segmentOfChars (writtenName (dropSlash userName.toList)) = other := by
  have hfound : ∀ segments, segments? (Route.path (.profile userName)) = some segments →
      (Route.ofPath (Route.path (.profile userName)) = .ok (.profile other) ↔
        segments = ["user", other]) := by
    intro segments hsegments
    rw [Route.ofPath, hsegments]
    exact mapError_eq_ok_iff.trans firstMatch_eq_profile_iff
  by_cases hname : userName = ""
  · subst hname
    have hempty : segments? (Route.path (.profile "")) = some ["user"] := by decide +kernel
    rw [hfound _ hempty]
    simp
  · rw [hfound _ (segments?_path hname), List.cons.injEq, List.map_eq_singleton_iff]
    constructor
    · rintro ⟨-, segment, hsplit, hsegment⟩
      obtain ⟨hfree, rfl⟩ := splitOn_eq_singleton_iff.mp hsplit
      exact ⟨hname, mt slash_mem_writtenName_iff.mpr hfree, hsegment⟩
    · rintro ⟨-, hfree, hsegment⟩
      have hplain := mt slash_mem_writtenName_iff.mp hfree
      exact ⟨rfl, _, List.splitOn_eq_singleton hplain, hsegment⟩

end PinBoard
