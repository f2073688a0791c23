import PinBoard.Proofs.Url.Segment

/-!
# What a path keeps of a name

A name that is added to a path is told apart from another one by what is kept of it, and by nothing
else: dots add nothing, tabs and line breaks are lost, and a dot that is left of a name leaves the
place empty. What is kept can be read off the written path again.
-/

namespace PinBoard.Url

/-! ## What is kept -/

/-- What a path keeps of a name, if the name adds anything to it. -/
def keptName (s : String) : Option String :=
  if s = "." ∨ s = ".." then none
  else if withoutIgnored s = "." then some ""
  else some (withoutIgnored s)

/-- A text without anything that is lost stays as it is. -/
theorem withoutIgnored_of_clean {s : String} (h : ∀ c ∈ s.toList, isIgnored c = false) :
    withoutIgnored s = s := by
  unfold withoutIgnored
  rw [List.filter_eq_self.mpr, String.ofList_toList]
  intro c hc
  rw [h c hc, Bool.not_false]

/-- Nothing is lost a second time. -/
theorem withoutIgnored_withoutIgnored (s : String) :
    withoutIgnored (withoutIgnored s) = withoutIgnored s := by
  apply withoutIgnored_of_clean
  intro c hc
  rw [withoutIgnored, String.toList_ofList, List.mem_filter] at hc
  simpa using hc.2

/-- A name without tabs and line breaks that is no dot is kept. -/
theorem keptName_of_clean {s : String} (hclean : ∀ c ∈ s.toList, isIgnored c = false)
    (hdots : ¬ (s = "." ∨ s = "..")) : keptName s = some s := by
  rw [keptName, if_neg hdots, withoutIgnored_of_clean hclean, if_neg fun h => hdots (Or.inl h)]

/-- So it is told apart from any other such name, and from dots. -/
theorem keptName_eq_iff_of_clean {s t : String}
    (hclean : ∀ c ∈ s.toList ++ t.toList, isIgnored c = false) (hdots : ¬ (s = "." ∨ s = "..")) :
    keptName s = keptName t ↔ s = t := by
  have hs : keptName s = some s :=
    keptName_of_clean (fun c hc => hclean c (List.mem_append_left _ hc)) hdots
  constructor
  · intro hkept
    rw [hs] at hkept
    by_cases ht : t = "." ∨ t = ".."
    · rw [keptName, if_pos ht] at hkept
      exact absurd hkept (Option.some_ne_none s)
    · rw [keptName_of_clean (fun c hc => hclean c (List.mem_append_right _ hc)) ht] at hkept
      exact Option.some.inj hkept
  · intro hst
    rw [hst]

/-- What is kept has nothing to lose, and is not one dot. -/
theorem withoutIgnored_of_keptName {s t : String} (h : keptName s = some t) :
    withoutIgnored t = t ∧ t ≠ "." := by
  unfold keptName at h
  by_cases hdots : s = "." ∨ s = ".."
  · rw [if_pos hdots] at h
    exact absurd h (Option.some_ne_none t).symm
  · rw [if_neg hdots] at h
    by_cases hdot : withoutIgnored s = "."
    · rw [if_pos hdot] at h
      rw [← Option.some.inj h]
      exact ⟨rfl, by decide⟩
    · rw [if_neg hdot] at h
      rw [← Option.some.inj h]
      exact ⟨withoutIgnored_withoutIgnored s, hdot⟩

/-- A kept name is read off its segment. -/
theorem segmentText_injective {special : Bool} {s t : String} (hs : withoutIgnored s = s)
    (ht : withoutIgnored t = t) (h : segmentText special s = segmentText special t) : s = t := by
  have hread := percentDecode?_segmentText special s
  rw [h, percentDecode?_segmentText, hs, ht] at hread
  exact (Option.some.inj hread).symm

/-! ## Names in a path -/

/-- What stands in a path from the word on that a name is added behind. -/
def nameTail (front : List String) (word : String) (behind : List String) :
    Option String → List String
  | none => word :: behind
  | some name =>
    if name = ".." then (if front = [] then behind else "" :: behind)
    else word :: segmentText true name :: behind

section Tail

variable {front : List String} {word : String} {behind : List String}

theorem nameTail_climbs :
    nameTail front word behind (some "..") = if front = [] then behind else "" :: behind := by
  rw [nameTail, if_pos rfl]

theorem nameTail_of_ne {name : String} (h : name ≠ "..") :
    nameTail front word behind (some name) = word :: segmentText true name :: behind :=
  if_neg h

variable (hword : word ≠ "")
include hword

theorem concat_ne_root : front ++ [word] ≠ [""] := by
  intro h
  have hmem : word ∈ front ++ [word] := by simp
  rw [h, List.mem_singleton] at hmem
  exact hword hmem

/-- A name that is added leaves what is kept of it. -/
theorem openPath_addSegment (s : String) :
    openPath (addSegment true (front ++ [word]) s) ++ behind =
      front ++ nameTail front word behind (keptName s) := by
  have hroot : front ++ [word] ≠ [""] := concat_ne_root hword
  unfold keptName
  by_cases hdots : s = "." ∨ s = ".."
  · rw [addSegment_of_dots hdots, openPath_of_ne hroot, if_pos hdots, List.append_assoc]
    rfl
  · rw [if_neg hdots, addSegment_of_not_dots hdots]
    by_cases hclimbs : withoutIgnored s = ".."
    · rw [segmentText_eq_doubleDot_iff.mpr hclimbs, hclimbs, if_neg (by decide), addWritten,
        if_pos rfl, openPath_of_ne hroot, List.dropLast_concat, nameTail, if_pos rfl]
      by_cases hfront : front = []
      · rw [if_pos hfront, hfront]
        rfl
      · rw [if_neg hfront, openPath_of_ne (by simpa using hfront), List.append_assoc]
        rfl
    · rw [addWritten, if_neg (mt segmentText_eq_doubleDot_iff.mp hclimbs), openPath_of_ne hroot]
      -- the path with its new segment has two at least, so it is not the root's
      have hopen : ∀ segment, openPath (front ++ [word] ++ [segment]) ++ behind =
          front ++ word :: segment :: behind := by
        intro segment
        rw [openPath_of_ne, List.append_assoc, List.append_assoc]
        · rfl
        · intro h
          have hlength := congrArg List.length h
          simp at hlength
      by_cases hdot : withoutIgnored s = "."
      · rw [if_pos hdot, if_pos (segmentText_eq_singleDot_iff.mpr hdot), hopen, nameTail,
          if_neg (by decide)]
        rfl
      · rw [if_neg hdot, if_neg (mt segmentText_eq_singleDot_iff.mp hdot), hopen, nameTail,
          if_neg hclimbs, segmentText_withoutIgnored]

/-- A path to which a name adds something differs from one to which it adds nothing. -/
theorem nameTail_some_ne_none (name : String) :
    nameTail front word behind (some name) ≠ nameTail front word behind none := by
  intro h
  by_cases hclimbs : name = ".."
  · subst hclimbs
    rw [nameTail_climbs] at h
    by_cases hfront : front = []
    · rw [if_pos hfront] at h
      exact absurd (congrArg List.length h) (by simp [nameTail])
    · rw [if_neg hfront] at h
      exact hword (List.cons.inj h).1.symm
  · rw [nameTail_of_ne hclimbs] at h
    exact absurd (congrArg List.length h) (by simp [nameTail])

omit hword in
/-- A path that grows by a name differs from one that loses its last word to one. -/
theorem nameTail_of_ne_ne_climbs {name : String} (hname : name ≠ "..") :
    nameTail front word behind (some name) ≠ nameTail front word behind (some "..") := by
  intro h
  rw [nameTail_climbs, nameTail_of_ne hname] at h
  have hlength := congrArg List.length h
  by_cases hfront : front = []
  · rw [if_pos hfront, List.length_cons, List.length_cons] at hlength
    omega
  · rw [if_neg hfront] at hlength
    simp at hlength

/-- **What is kept of a name** makes the difference in a path, whatever stands around. -/
theorem nameTail_injective {s t : String}
    (h : nameTail front word behind (keptName s) = nameTail front word behind (keptName t)) :
    keptName s = keptName t := by
  rcases hs : keptName s with _ | a
  · rcases ht : keptName t with _ | b
    · rfl
    · rw [hs, ht] at h
      exact absurd h.symm (nameTail_some_ne_none hword b)
  · rcases ht : keptName t with _ | b
    · rw [hs, ht] at h
      exact absurd h (nameTail_some_ne_none hword a)
    · rw [hs, ht] at h
      by_cases ha : a = ".."
      · by_cases hb : b = ".."
        · rw [ha, hb]
        · rw [ha] at h
          exact absurd h.symm (nameTail_of_ne_ne_climbs hb)
      · by_cases hb : b = ".."
        · rw [hb] at h
          exact absurd h (nameTail_of_ne_ne_climbs ha)
        · rw [nameTail_of_ne ha, nameTail_of_ne hb] at h
          have hsegment := (List.cons.inj (List.cons.inj h).2).1
          rw [segmentText_injective (withoutIgnored_of_keptName hs).1
            (withoutIgnored_of_keptName ht).1 hsegment]

end Tail

/-! ## Written paths -/

/-- The written form of segments. -/
def rowChars (path : List String) : List Char := path.flatMap fun s => '/' :: s.toList

/-- A segment without a slash. -/
def HasNoSlash (s : String) : Prop := '/' ∉ s.toList

/-- Segments without slashes are found again between the slashes. -/
theorem splitOn_rowChars {path : List String} (hpath : ∀ s ∈ path, HasNoSlash s) {cs : List Char}
    (hcs : '/' ∉ cs) :
    (cs ++ rowChars path).splitOn '/' = cs :: path.map String.toList := by
  induction path generalizing cs with
  | nil =>
    rw [rowChars, List.flatMap_nil, List.append_nil, List.splitOn_eq_singleton hcs]
    rfl
  | cons s rest ih =>
    have hrest := ih (fun t ht => hpath t (List.mem_cons_of_mem _ ht)) (hpath s List.mem_cons_self)
    show (cs ++ '/' :: (s.toList ++ rowChars rest)).splitOn '/' = _
    rw [List.splitOn_append_cons_self, hrest, List.splitOn_eq_singleton hcs]
    rfl

/-- So they are told apart by what is written. -/
theorem rowChars_injective {xs ys : List String} (hxs : ∀ s ∈ xs, HasNoSlash s)
    (hys : ∀ s ∈ ys, HasNoSlash s) (h : rowChars xs = rowChars ys) : xs = ys := by
  have hnone : '/' ∉ ([] : List Char) := List.not_mem_nil
  have hx := splitOn_rowChars hxs hnone
  have hy := splitOn_rowChars hys hnone
  rw [h, hy] at hx
  exact (List.map_injective_iff.mpr (fun _ _ => String.toList_inj.mp) (List.cons.inj hx).2).symm

/-- A written segment of a special address has no slash. -/
theorem hasNoSlash_segmentText (s : String) : HasNoSlash (segmentText true s) := by
  intro h
  exact (plain_of_mem_segmentText h).2.1 rfl

/-- What is written of a name and around it has no slash where the words have none. -/
theorem hasNoSlash_of_mem_nameTail {front behind : List String} {word : String}
    (hword : HasNoSlash word) (hbehind : ∀ s ∈ behind, HasNoSlash s) (name : Option String) :
    ∀ s ∈ nameTail front word behind name, HasNoSlash s := by
  have hempty : HasNoSlash "" := by
    unfold HasNoSlash
    decide
  intro s hs
  unfold nameTail at hs
  rcases name with _ | name
  · rcases List.mem_cons.mp hs with rfl | hs
    · exact hword
    · exact hbehind s hs
  · by_cases hclimbs : name = ".."
    · simp only [if_pos hclimbs] at hs
      split_ifs at hs
      · exact hbehind s hs
      · rcases List.mem_cons.mp hs with rfl | hs
        · exact hempty
        · exact hbehind s hs
    · simp only [if_neg hclimbs] at hs
      rcases List.mem_cons.mp hs with rfl | hs
      · exact hword
      · rcases List.mem_cons.mp hs with rfl | hs
        · exact hasNoSlash_segmentText name
        · exact hbehind s hs

end PinBoard.Url
