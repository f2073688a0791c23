import PinBoard.Proofs.Text.Collapse
import Mathlib.Data.List.SplitBy

/-!
# Collapsing, run by run

A text falls into maximal runs of blanks and of other characters in one way only. Collapsing makes
one space of every run of two or more blanks and keeps the other runs; it is what replacing the
longest stretches of two or more blanks, from left to right, comes to.
-/

namespace PinBoard.Text

/-! ## The script class -/

/-- The space separators of Unicode, `Zs`. -/
def spaceSeparators : List Char :=
  [' ', '\u00A0', '\u1680', '\u2000', '\u2001', '\u2002', '\u2003', '\u2004', '\u2005', '\u2006',
    '\u2007', '\u2008', '\u2009', '\u200A', '\u202F', '\u205F', '\u3000']

/-- What ECMAScript calls white space. -/
def scriptSpaces : List Char :=
  ['\t', '\u000B', '\u000C', '\uFEFF'] ++ spaceSeparators

/-- What ends a line in ECMAScript. -/
def lineEnds : List Char :=
  ['\n', '\r', '\u2028', '\u2029']

/-- The script class is `\s` of ECMAScript: white space and what ends a line. -/
theorem isScriptBlank_iff {c : Char} :
    isScriptBlank c = true ↔ c ∈ scriptSpaces ∨ c ∈ lineEnds := by
  have hcode : ∀ d : Char, c = d ↔ c.toNat = d.toNat := fun d => Char.toNat_inj.symm
  simp only [isScriptBlank, isCommonBlank, scriptSpaces, spaceSeparators, lineEnds, List.mem_append,
    List.mem_cons, List.not_mem_nil, or_false, hcode, Char.reduceToNat, Bool.or_eq_true,
    Bool.and_eq_true, decide_eq_true_eq, beq_iff_eq]
  omega

/-! ## Replacing long stretches of blanks -/

/-- What a text becomes when, from left to right, every longest stretch of two or more blanks is
replaced by one space. -/
inductive IsReplacement : List Char → List Char → Prop where
  | nil : IsReplacement [] []
  /-- No stretch begins with a character that is no blank, nor with a blank that stands alone. -/
  | keep {c : Char} {rest out : List Char}
      (alone : isScriptBlank c = true → ∀ d ∈ rest.head?, isScriptBlank d = false)
      (next : IsReplacement rest out) : IsReplacement (c :: rest) (c :: out)
  | replace {run rest out : List Char} (long : 2 ≤ run.length)
      (blank : ∀ c ∈ run, isScriptBlank c = true)
      (longest : ∀ d ∈ rest.head?, isScriptBlank d = false)
      (next : IsReplacement rest out) : IsReplacement (run ++ rest) (' ' :: out)

/-- Characters that are no blanks are kept. -/
theorem IsReplacement.keep_plain {run rest out : List Char}
    (hrun : ∀ c ∈ run, isScriptBlank c = false) (h : IsReplacement rest out) :
    IsReplacement (run ++ rest) (run ++ out) := by
  induction run with
  | nil => exact h
  | cons c run ih =>
    have hc : isScriptBlank c = false := hrun c List.mem_cons_self
    have hnext := ih fun d hd => hrun d (List.mem_cons_of_mem c hd)
    refine IsReplacement.keep (fun hblank => ?_) hnext
    rw [hc] at hblank
    exact absurd hblank Bool.false_ne_true

/-- A text without blank pairs has nothing to replace. -/
theorem isReplacement_self {cs : List Char} (h : HasNoBlankPair cs) : IsReplacement cs cs := by
  induction cs with
  | nil => exact IsReplacement.nil
  | cons c rest ih =>
    rw [HasNoBlankPair, List.isChain_cons] at h
    obtain ⟨hhead, hrest⟩ := h
    refine IsReplacement.keep (fun hc d hd => ?_) (ih hrest)
    have hpair := hhead d hd
    rw [hc] at hpair
    simpa using hpair

/-- The characters that are no blanks stay as they are. -/
theorem IsReplacement.filter_plain {cs out : List Char} (h : IsReplacement cs out) :
    out.filter (fun c => !isScriptBlank c) = cs.filter fun c => !isScriptBlank c := by
  induction h with
  | nil => rfl
  | keep alone next ih => rw [List.filter_cons, List.filter_cons, ih]
  | @replace run rest out long blank longest next ih =>
    have hspace : isScriptBlank ' ' = true := by decide
    have hrun : run.filter (fun c => !isScriptBlank c) = [] := by
      rw [List.filter_eq_nil_iff]
      intro c hc
      simp [blank c hc]
    rw [List.filter_append, hrun, List.nil_append, List.filter_cons_of_neg (by simp [hspace]), ih]

/-! ## The one pass replaces them -/

/-- Once a run is known to be long, its further blanks make no difference. -/
theorem collapseFrom_long (first : Char) {run : List Char}
    (hrun : ∀ c ∈ run, isScriptBlank c = true) (rest : List Char) :
    collapseFrom (some (first, true)) (run ++ rest) = collapseFrom (some (first, true)) rest := by
  induction run with
  | nil => rfl
  | cons c run ih =>
    rw [List.cons_append, collapseFrom_cons_of_blank _ _ (hrun c List.mem_cons_self)]
    exact ih fun d hd => hrun d (List.mem_cons_of_mem c hd)

/-- A run that nothing prolongs is written before what follows it. -/
theorem collapseFrom_of_ended (pending : Option (Char × Bool)) {rest : List Char}
    (hrest : ∀ d ∈ rest.head?, isScriptBlank d = false) :
    collapseFrom pending rest = Pending.flush pending ++ collapseFrom none rest := by
  cases rest with
  | nil => rw [collapseFrom, collapseFrom, Pending.flush, List.append_nil]
  | cons d rest =>
    have hd : isScriptBlank d = false := hrest d rfl
    rw [collapseFrom_cons_of_not_blank _ _ hd, collapseFrom_cons_of_not_blank _ _ hd]
    rfl

/-- Nothing else can come of a replacement than what the pass makes. -/
theorem IsReplacement.eq_collapseChars {cs out : List Char} (h : IsReplacement cs out) :
    out = collapseChars cs := by
  unfold collapseChars
  induction h with
  | nil => rfl
  | @keep c rest out alone next ih =>
    by_cases hc : isScriptBlank c = true
    · rw [collapseFrom_cons_of_blank _ _ hc, collapseFrom_of_ended _ (alone hc), ← ih]
      rfl
    · rw [Bool.not_eq_true] at hc
      rw [collapseFrom_cons_of_not_blank _ _ hc, ← ih]
      rfl
  | @replace run rest out long blank longest next ih =>
    match run, long with
    | c :: d :: run, _ =>
      have hc : isScriptBlank c = true := blank c List.mem_cons_self
      have hd : isScriptBlank d = true := blank d (List.mem_cons_of_mem c List.mem_cons_self)
      have hrun : ∀ e ∈ run, isScriptBlank e = true := fun e he =>
        blank e (List.mem_cons_of_mem c (List.mem_cons_of_mem d he))
      rw [List.cons_append, List.cons_append, collapseFrom_cons_of_blank _ _ hc,
        collapseFrom_cons_of_blank _ _ hd]
      simp only [Pending.hold]
      rw [collapseFrom_long c hrun, collapseFrom_of_ended _ longest, ← ih]
      rfl

/-! ## Maximal runs -/

/-- A decomposition of a text into maximal runs: joined they are the text, each has a character,
its characters are all blanks or all none, and neighbours are of different kinds. -/
structure AreMaximalRuns (rs : List (List Char)) (cs : List Char) : Prop where
  joined : rs.flatten = cs
  filled : [] ∉ rs
  uniform : ∀ run ∈ rs, ∀ c ∈ run, ∀ d ∈ run, isScriptBlank c = isScriptBlank d
  maximal : rs.IsChain fun run next =>
    ∀ c ∈ run, ∀ d ∈ next, isScriptBlank c ≠ isScriptBlank d

/-- The runs behind the first one are maximal as well. -/
theorem AreMaximalRuns.tail {run : List Char} {rs : List (List Char)} {cs : List Char}
    (h : AreMaximalRuns (run :: rs) cs) : AreMaximalRuns rs rs.flatten where
  joined := rfl
  filled hmem := h.filled (List.mem_cons_of_mem run hmem)
  uniform next hnext := h.uniform next (List.mem_cons_of_mem run hnext)
  maximal := h.maximal.tail

/-- What follows the first run begins with a character of the other kind. -/
theorem AreMaximalRuns.head_ne {run : List Char} {rs : List (List Char)} {cs : List Char}
    (h : AreMaximalRuns (run :: rs) cs) {c d : Char} (hc : c ∈ run)
    (hd : d ∈ rs.flatten.head?) : isScriptBlank c ≠ isScriptBlank d := by
  cases rs with
  | nil => exact absurd hd (Option.not_mem_none d)
  | cons next rs =>
    cases next with
    | nil => exact absurd (List.mem_cons_of_mem run List.mem_cons_self) h.filled
    | cons e next =>
      obtain rfl : e = d := Option.some.inj hd
      exact (List.isChain_cons_cons.mp h.maximal).1 c hc e List.mem_cons_self

/-- **Long blank runs are replaced**, and all other runs are kept. -/
theorem AreMaximalRuns.isReplacement {rs : List (List Char)} {cs : List Char}
    (h : AreMaximalRuns rs cs) : IsReplacement cs (rs.flatMap collapseRun) := by
  induction rs generalizing cs with
  | nil =>
    rw [← h.joined]
    exact IsReplacement.nil
  | cons run rs ih =>
    have hnext := ih h.tail
    have hends : ∀ c ∈ run, isScriptBlank c = true →
        ∀ d ∈ rs.flatten.head?, isScriptBlank d = false := by
      intro c hc hblank d hd
      have hne := h.head_ne hc hd
      rw [hblank] at hne
      simpa using hne.symm
    rw [← h.joined, List.flatten_cons, List.flatMap_cons]
    match run, h, hends with
    | [], h, _ => exact absurd List.mem_cons_self h.filled
    | [c], _, hends => exact IsReplacement.keep (hends c List.mem_cons_self) hnext
    | c :: d :: run, h, hends =>
      have huniform : ∀ e ∈ c :: d :: run, isScriptBlank e = isScriptBlank c := fun e he =>
        h.uniform _ List.mem_cons_self e he c List.mem_cons_self
      by_cases hc : isScriptBlank c = true
      · rw [collapseRun, if_pos (show IsLongBlankRun (c :: d :: run) from hc)]
        refine IsReplacement.replace (by simp) (fun e he => ?_) (hends c List.mem_cons_self hc)
          hnext
        rw [huniform e he, hc]
      · rw [collapseRun, if_neg (show ¬ IsLongBlankRun (c :: d :: run) from hc)]
        refine IsReplacement.keep_plain (fun e he => ?_) hnext
        rw [huniform e he, Bool.eq_false_iff]
        exact hc

/-- A character that joins no run is one by itself. -/
theorem areMaximalRuns_single (c : Char) {rs : List (List Char)} {cs : List Char}
    (h : AreMaximalRuns rs cs)
    (hc : ∀ run ∈ rs.head?, ∀ d ∈ run, isScriptBlank c ≠ isScriptBlank d) :
    AreMaximalRuns ([c] :: rs) (c :: cs) where
  joined := by rw [List.flatten_cons, h.joined, List.singleton_append]
  filled hmem := by
    rcases List.mem_cons.mp hmem with hnil | hmem
    · exact absurd hnil (List.cons_ne_nil c []).symm
    · exact h.filled hmem
  uniform := by
    intro run hrun
    rcases List.mem_cons.mp hrun with rfl | hrun
    · intro d hd e he
      rw [List.mem_singleton.mp hd, List.mem_singleton.mp he]
    · exact h.uniform run hrun
  maximal := by
    refine List.isChain_cons.mpr ⟨fun run hrun d hd => ?_, h.maximal⟩
    rw [List.mem_singleton.mp hd]
    exact hc run hrun

/-- A character that joins the first run leaves the runs maximal. -/
theorem AreMaximalRuns.join {c d : Char} {run : List Char} {rs : List (List Char)}
    {cs : List Char} (h : AreMaximalRuns ((d :: run) :: rs) cs)
    (hcd : isScriptBlank c = isScriptBlank d) :
    AreMaximalRuns ((c :: d :: run) :: rs) (c :: cs) := by
  have hkind : ∀ e ∈ c :: d :: run, isScriptBlank e = isScriptBlank d := by
    intro e he
    rcases List.mem_cons.mp he with rfl | he
    · exact hcd
    · exact h.uniform _ List.mem_cons_self e he d List.mem_cons_self
  refine ⟨?_, fun hmem => ?_, ?_, ?_⟩
  · rw [← h.joined]
    rfl
  · rcases List.mem_cons.mp hmem with hnil | hmem
    · exact absurd hnil (List.cons_ne_nil c _).symm
    · exact h.filled (List.mem_cons_of_mem _ hmem)
  · intro other hother
    rcases List.mem_cons.mp hother with rfl | hother
    · intro e he f hf
      rw [hkind e he, hkind f hf]
    · exact h.uniform other (List.mem_cons_of_mem _ hother)
  · obtain ⟨hnext, htail⟩ := List.isChain_cons.mp h.maximal
    refine List.isChain_cons.mpr ⟨fun next hmem e he f hf => ?_, htail⟩
    rw [hkind e he]
    exact hnext next hmem d List.mem_cons_self f hf

/-- The runs that are read off a text are its maximal runs. -/
theorem areMaximalRuns_runs (cs : List Char) : AreMaximalRuns (runs cs) cs := by
  induction cs with
  | nil => exact ⟨rfl, List.not_mem_nil, by simp [runs], List.isChain_nil⟩
  | cons c cs ih =>
    have hcons : runs (c :: cs) = consRun c (runs cs) := rfl
    rw [hcons]
    generalize runs cs = rs at ih
    match rs, ih with
    | [], ih => exact areMaximalRuns_single c ih (by simp)
    | [] :: _, ih => exact absurd List.mem_cons_self ih.filled
    | (d :: run) :: rs, ih =>
      rw [consRun]
      by_cases hcd : isScriptBlank c = isScriptBlank d
      · rw [if_pos hcd]
        exact ih.join hcd
      · rw [if_neg hcd]
        refine areMaximalRuns_single c ih fun first hfirst e he => ?_
        obtain rfl : d :: run = first := Option.some.inj hfirst
        rw [ih.uniform _ List.mem_cons_self e he d List.mem_cons_self]
        exact hcd

/-- A text has no other maximal runs. -/
theorem AreMaximalRuns.eq_splitBy {rs : List (List Char)} {cs : List Char}
    (h : AreMaximalRuns rs cs) :
    rs = cs.splitBy fun c d => isScriptBlank c == isScriptBlank d := by
  symm
  rw [List.splitBy_eq_iff]
  refine ⟨h.joined.symm, h.filled, fun run hrun => ?_, ?_⟩
  · have hall : run.Pairwise fun c d => (isScriptBlank c == isScriptBlank d) = true := by
      refine List.pairwise_of_forall_mem_list fun c hc d hd => ?_
      simpa using h.uniform run hrun c hc d hd
    exact hall.isChain
  · -- a chain of neighbours, each of which has a last and a first character
    refine h.maximal.imp_of_mem_imp fun run next hrun hnext hne => ?_
    have hrun : run ≠ [] := fun hnil => h.filled (hnil ▸ hrun)
    have hnext : next ≠ [] := fun hnil => h.filled (hnil ▸ hnext)
    refine ⟨hrun, hnext, ?_⟩
    simpa using hne _ (List.getLast_mem hrun) _ (List.head_mem hnext)

theorem areMaximalRuns_iff {rs : List (List Char)} {cs : List Char} :
    AreMaximalRuns rs cs ↔ rs = runs cs := by
  constructor
  · intro h
    rw [h.eq_splitBy, (areMaximalRuns_runs cs).eq_splitBy]
  · rintro rfl
    exact areMaximalRuns_runs cs

/-! ## What collapsing does -/

/-- Replacing gives one text, and that is the collapsed one. -/
theorem isReplacement_iff {cs out : List Char} :
    IsReplacement cs out ↔ out = collapseChars cs := by
  constructor
  · exact IsReplacement.eq_collapseChars
  · intro h
    have hruns := (areMaximalRuns_runs cs).isReplacement
    rwa [hruns.eq_collapseChars, ← h] at hruns

/-- A text is its own collapsed form where no two blanks stand side by side. -/
theorem collapse_eq_self_iff {s : String} : collapse s = s ↔ HasNoBlankPair s.toList := by
  constructor
  · intro h
    rw [← h]
    exact hasNoBlankPair_collapse s
  · intro h
    rw [collapse, ← (isReplacement_self h).eq_collapseChars, String.ofList_toList]

/-- **Collapsing is the replacement of long blank runs.**  The blanks are those that `\s` matches in
ECMAScript. A text falls into maximal runs in one way, and of these the blank ones of two or more
characters become one space. So the characters that are no blanks stay, no two blanks are left side
by side, a text changes only if it has two, and once collapsed it stays. -/
theorem collapse_replaces_runs :
    (∀ c, isScriptBlank c = true ↔ c ∈ scriptSpaces ∨ c ∈ lineEnds) ∧
      ∀ s : String,
        (∀ rs, AreMaximalRuns rs s.toList ↔ rs = runs s.toList) ∧
          (collapse s).toList = (runs s.toList).flatMap collapseRun ∧
          (∀ out, IsReplacement s.toList out ↔ out = (collapse s).toList) ∧
          (collapse s).toList.filter (fun c => !isScriptBlank c) =
            s.toList.filter (fun c => !isScriptBlank c) ∧
          HasNoBlankPair (collapse s).toList ∧
          (collapse s = s ↔ HasNoBlankPair s.toList) ∧
          collapse (collapse s) = collapse s := by
  refine ⟨fun c => isScriptBlank_iff, fun s => ?_⟩
  have hchars : (collapse s).toList = collapseChars s.toList := String.toList_ofList
  have hreplaced : IsReplacement s.toList (collapse s).toList := isReplacement_iff.mpr hchars
  have hruns := (areMaximalRuns_runs s.toList).isReplacement
  refine ⟨fun rs => areMaximalRuns_iff, ?_, fun out => ?_, hreplaced.filter_plain,
    hasNoBlankPair_collapse s, collapse_eq_self_iff, ?_⟩
  · rw [hchars, ← hruns.eq_collapseChars]
  · rw [hchars]
    exact isReplacement_iff
  · exact collapse_eq_self_iff.mpr (hasNoBlankPair_collapse s)

end PinBoard.Text
