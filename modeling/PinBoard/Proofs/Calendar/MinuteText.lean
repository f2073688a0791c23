import PinBoard.Listen
import PinBoard.Proofs.Calendar.Gregorian
import PinBoard.Proofs.Text.Decimal

/-!
# Minutes and their text

The time of a listen is shown as the minute in which it lies, by the calendar and the clock of the
day. How a minute is written is said piece by piece, and a reader of such texts gives the minute
back, so that the text tells the minute and nothing else. As long as years have four digits, texts
are in the order of their minutes.
-/

namespace PinBoard

/-! ## Padded numbers -/

/-- The digits of a number, with zeros before them only as far as a width asks for them. -/
structure IsPadded (width n : Nat) (ds : List Char) : Prop where
  digits : ∀ c ∈ ds, Text.isDigitChar c = true
  value : Text.digitsValue ds = n
  width_le : width ≤ ds.length
  short : ds.length = width ∨ ds.head? ≠ some '0'

/-- Padded digits are read as their number. -/
theorem IsPadded.read {width n : Nat} {ds : List Char} (h : IsPadded width n ds)
    (hwidth : 1 ≤ width) : Text.digits? ds = some n := by
  have hlength := h.width_le
  have hne : ds ≠ [] := List.ne_nil_of_length_pos (by omega)
  exact Text.digits?_eq_some_iff.mpr ⟨hne, h.digits, h.value.symm⟩

/-- The digits of a number do not begin with a zero, unless that is all. -/
theorem head?_toDigits_ne {n : Nat} (h : 1 < (Nat.toDigits 10 n).length) :
    (Nat.toDigits 10 n).head? ≠ some '0' := by
  intro hhead
  have hvalue : Text.digitsValue (Nat.toDigits 10 n) = n :=
    Nat.ofDigitChars_toDigits (by decide) (by decide)
  have hdigits : ∀ c ∈ Nat.toDigits 10 n, Text.isDigitChar c = true := by
    intro c hc
    exact Text.isDigitChar_of_mem_toDigits hc
  cases hds : Nat.toDigits 10 n with
  | nil =>
    rw [hds] at h
    exact absurd h (by decide)
  | cons c rest =>
    rw [hds] at hhead hvalue hdigits h
    obtain rfl := Option.some.inj hhead
    rw [Text.digitsValue_cons] at hvalue
    -- then fewer digits would do
    have hlt := Text.digitsValue_lt fun c hc => hdigits c (List.mem_cons_of_mem _ hc)
    have hshorter : (Nat.toDigits 10 n).length ≤ rest.length := by
      rw [Nat.length_toDigits_le_iff (by decide) (by simpa using h)]
      simpa [← hvalue] using hlt
    rw [hds, List.length_cons] at hshorter
    omega

theorem toList_padded (width n : Nat) :
    (padded width n).toList =
      List.replicate (width - (Nat.toDigits 10 n).length) '0' ++ Nat.toDigits 10 n :=
  String.toList_ofList

theorem isPadded_padded {width : Nat} (h : 1 ≤ width) (n : Nat) :
    IsPadded width n (padded width n).toList := by
  rw [toList_padded]
  refine ⟨?_, ?_, ?_, ?_⟩
  · intro c hc
    rcases List.mem_append.mp hc with hc | hc
    · rw [List.eq_of_mem_replicate hc]
      decide
    · exact Text.isDigitChar_of_mem_toDigits hc
  · rw [Text.digitsValue, Nat.ofDigitChars_append, Nat.ofDigitChars_replicate_zero, Nat.mul_zero]
    exact Nat.ofDigitChars_toDigits (by decide) (by decide)
  · rw [List.length_append, List.length_replicate]
    omega
  · by_cases hlong : (Nat.toDigits 10 n).length ≤ width
    · left
      rw [List.length_append, List.length_replicate]
      omega
    · right
      have hnone : width - (Nat.toDigits 10 n).length = 0 := by omega
      rw [hnone, List.replicate_zero, List.nil_append]
      exact head?_toDigits_ne (by omega)

theorem length_padded {width n : Nat} (h : 1 ≤ width) (hn : n < 10 ^ width) :
    (padded width n).toList.length = width := by
  have hlength : (Nat.toDigits 10 n).length ≤ width :=
    (Nat.length_toDigits_le_iff (by decide) h).mpr hn
  rw [toList_padded, List.length_append, List.length_replicate]
  omega

/-- Where two texts begin with as many characters, these are compared first. -/
theorem append_lt_append_iff {a b : List Char} (h : a.length = b.length) (r s : List Char) :
    a ++ r < b ++ s ↔ a < b ∨ a = b ∧ r < s := by
  induction a generalizing b with
  | nil =>
    obtain rfl := List.eq_nil_of_length_eq_zero h.symm
    simp
  | cons c a ih =>
    obtain ⟨d, b, rfl⟩ := List.exists_cons_of_length_eq_add_one h.symm
    rw [List.cons_append, List.cons_append, List.cons_lt_cons_iff, List.cons_lt_cons_iff,
      ih (Nat.succ.inj h), List.cons.injEq]
    tauto

theorem cons_lt_cons_self (c : Char) (r s : List Char) : c :: r < c :: s ↔ r < s := by
  rw [List.cons_lt_cons_iff, or_iff_right (Char.lt_irrefl c), and_iff_right rfl]

/-- Texts that begin with numbers of one width are in the order of these numbers. -/
theorem padded_append_lt_iff {width n m : Nat} (h : 1 ≤ width) (hn : n < 10 ^ width)
    (hm : m < 10 ^ width) (r s : List Char) :
    (padded width n).toList ++ r < (padded width m).toList ++ s ↔ n < m ∨ n = m ∧ r < s := by
  have hpadded := isPadded_padded h n
  have hpadded' := isPadded_padded h m
  have hlength : (padded width n).toList.length = (padded width m).toList.length := by
    rw [length_padded h hn, length_padded h hm]
  have hsame : (padded width n).toList = (padded width m).toList ↔ n = m := by
    constructor
    · intro hlist
      rw [← hpadded.value, ← hpadded'.value, hlist]
    · rintro rfl
      rfl
  rw [append_lt_append_iff hlength,
    Text.digits_lt_iff hlength hpadded.digits hpadded'.digits, hpadded.value, hpadded'.value, hsame]

/-! ## Minutes in writing -/

/-- The sign before the digits of a year: years before the year zero have one, and those of more
than four digits. -/
def yearSign (year : Int) : List Char :=
  if year < 0 then ['-'] else if 9999 < year then ['+'] else []

namespace Minute

/-- A minute is written as its year, month and day, hour and minute, in as many digits as usual. -/
def IsWritten (m : Minute) (s : String) : Prop :=
  ∃ year month day hour minute,
    IsPadded 4 m.date.year.natAbs year ∧ IsPadded 2 m.date.month month ∧
    IsPadded 2 m.date.day day ∧ IsPadded 2 m.hour hour ∧ IsPadded 2 m.minute minute ∧
    s.toList = yearSign m.date.year ++ (year ++ '-' :: (month ++ '-' :: (day ++ ' ' ::
      (hour ++ ':' :: minute))))

theorem toList_toText (m : Minute) :
    m.toText.toList = yearSign m.date.year ++ ((padded 4 m.date.year.natAbs).toList ++ '-' ::
      ((padded 2 m.date.month).toList ++ '-' :: ((padded 2 m.date.day).toList ++ ' ' ::
        ((padded 2 m.hour).toList ++ ':' :: (padded 2 m.minute).toList)))) := by
  have hyear : (yearText m.date.year).toList =
      yearSign m.date.year ++ (padded 4 m.date.year.natAbs).toList := by
    unfold yearText yearSign
    split_ifs <;> simp
  simp [toText, String.toList_append, hyear]

theorem isWritten_toText (m : Minute) : m.IsWritten m.toText :=
  ⟨_, _, _, _, _, isPadded_padded (by decide) _, isPadded_padded (by decide) _,
    isPadded_padded (by decide) _, isPadded_padded (by decide) _, isPadded_padded (by decide) _,
    m.toList_toText⟩

/-! ## Minutes that are read -/

/-- What stands before a mark, and what stands behind it. -/
def cutAt (mark : Char) (cs : List Char) : List Char × List Char :=
  (cs.takeWhile (· ≠ mark), (cs.dropWhile (· ≠ mark)).tail)

/-- Reads a minute whose year has its sign taken away. -/
def unsigned? (cs : List Char) : Option Minute :=
  let (year, behind) := cutAt '-' cs
  let (month, behind) := cutAt '-' behind
  let (day, behind) := cutAt ' ' behind
  let (hour, minute) := cutAt ':' behind
  do
    let year ← Text.digits? year
    let month ← Text.digits? month
    let day ← Text.digits? day
    let hour ← Text.digits? hour
    let minute ← Text.digits? minute
    some ⟨⟨year, month, day⟩, hour, minute⟩

/-- Reads a minute. -/
def ofText? (s : String) : Option Minute :=
  match s.toList with
  | '-' :: cs => (unsigned? cs).map fun m => { m with date.year := -m.date.year }
  | '+' :: cs => unsigned? cs
  | cs => unsigned? cs

theorem cutAt_digits {mark : Char} (hmark : Text.isDigitChar mark = false) {ds : List Char}
    (h : ∀ c ∈ ds, Text.isDigitChar c = true) (behind : List Char) :
    cutAt mark (ds ++ mark :: behind) = (ds, behind) := by
  have hne : ∀ c ∈ ds, decide (c ≠ mark) = true := by
    intro c hc
    apply decide_eq_true
    rintro rfl
    exact absurd ((h c hc).symm.trans hmark) (by decide)
  rw [cutAt, List.takeWhile_append_of_pos hne, List.dropWhile_append_of_pos hne,
    List.takeWhile_cons_of_neg (by simp), List.dropWhile_cons_of_neg (by simp), List.append_nil,
    List.tail_cons]

section Read

variable {y mo d h mi : Nat} {year month day hour minute : List Char}

/-- A minute without a sign is read back piece by piece. -/
theorem unsigned?_of_isPadded (hyear : IsPadded 4 y year) (hmonth : IsPadded 2 mo month)
    (hday : IsPadded 2 d day) (hhour : IsPadded 2 h hour) (hminute : IsPadded 2 mi minute) :
    unsigned? (year ++ '-' :: (month ++ '-' :: (day ++ ' ' :: (hour ++ ':' :: minute)))) =
      some ⟨⟨y, mo, d⟩, h, mi⟩ := by
  unfold unsigned?
  rw [cutAt_digits (by decide) hyear.digits]
  simp only
  rw [cutAt_digits (by decide) hmonth.digits]
  simp only
  rw [cutAt_digits (by decide) hday.digits]
  simp only
  rw [cutAt_digits (by decide) hhour.digits]
  simp only [hyear.read (by decide), hmonth.read (by decide), hday.read (by decide),
    hhour.read (by decide), hminute.read (by decide)]
  rfl

end Read

/-- **Reading back.**  A minute in writing is read as that minute. -/
theorem ofText?_of_isWritten {m : Minute} {s : String} (h : m.IsWritten s) :
    ofText? s = some m := by
  obtain ⟨year, month, day, hour, minute, hyear, hmonth, hday, hhour, hminute, hs⟩ := h
  have hread := unsigned?_of_isPadded hyear hmonth hday hhour hminute
  unfold yearSign at hs
  rw [ofText?, hs]
  by_cases hnegative : m.date.year < 0
  · have hvalue : -(m.date.year.natAbs : Int) = m.date.year := by omega
    rw [if_pos hnegative]
    simp only [List.singleton_append, hread, Option.map_some, hvalue]
  · have hvalue : (m.date.year.natAbs : Int) = m.date.year := by omega
    rw [hvalue] at hread
    rw [if_neg hnegative]
    by_cases hlong : 9999 < m.date.year
    · rw [if_pos hlong]
      simp only [List.singleton_append, hread]
    · rw [if_neg hlong, List.nil_append]
      -- the first digit is no sign
      obtain ⟨first, rest, rfl⟩ := List.exists_cons_of_length_pos
        (Nat.lt_of_lt_of_le (by decide) hyear.width_le)
      have hfirst := hyear.digits first List.mem_cons_self
      split
      · rename_i heq
        obtain rfl := (List.cons.inj heq).1
        exact absurd hfirst (by decide)
      · rename_i heq
        obtain rfl := (List.cons.inj heq).1
        exact absurd hfirst (by decide)
      · exact hread

/-! ## Minutes of time -/

/-- A second lies in a minute: the day is the one of the date by the calendar, and the clock of the
day shows the hour and the minute. -/
structure Holds (m : Minute) (t : Int) : Prop where
  hour_lt : m.hour < 24
  minute_lt : m.minute < 60
  second : ∃ day second : Int, Date.IsDay day m.date ∧ 0 ≤ second ∧ second < 60 ∧
    t = day * 86400 + m.hour * 3600 + m.minute * 60 + second

/-- A minute comes before another one by its date, then its hour, then its minute. -/
def Before (m m' : Minute) : Prop :=
  m.date.Before m'.date ∨ m.date = m'.date ∧
    (m.hour < m'.hour ∨ m.hour = m'.hour ∧ m.minute < m'.minute)

theorem holds_ofSeconds (t : Int) : (ofSeconds t).Holds t := by
  have hday : t.fdiv secondsPerDay = t / 86400 := Int.fdiv_eq_ediv_of_nonneg t (by decide)
  have hsecond : t.fmod secondsPerDay = t % 86400 := Int.fmod_eq_emod_of_nonneg t (by decide)
  unfold ofSeconds
  rw [hday, hsecond]
  refine ⟨?_, ?_, t / 86400, t % 60, Date.isDay_ofDays _, by omega, by omega, ?_⟩
  all_goals
    simp only
    omega

section Holds

variable {m m' : Minute} {t t' : Int} (h : m.Holds t) (h' : m'.Holds t')
include h

/-- A minute begins at the last full minute of its seconds. -/
theorem Holds.toSeconds_eq : m.toSeconds = t.fdiv 60 * 60 := by
  obtain ⟨hhour, hminute, day, second, hday, hlow, hhigh, rfl⟩ := h
  rw [Int.fdiv_eq_ediv_of_nonneg _ (by decide), toSeconds, hday.spec.2]
  unfold secondsPerDay
  omega

theorem Holds.isValid : m.date.IsValid := by
  obtain ⟨-, -, day, second, hday, -⟩ := h
  exact hday.spec.1

include h'

/-- No two minutes begin at one second. -/
theorem Holds.toSeconds_inj : m.toSeconds = m'.toSeconds ↔ m = m' := by
  refine ⟨fun hseconds => ?_, congrArg toSeconds⟩
  have hsame := Date.toDays_inj h.isValid h'.isValid
  obtain ⟨hhour, hminute, -⟩ := h
  obtain ⟨hhour', hminute', -⟩ := h'
  obtain ⟨date, hour, minute⟩ := m
  obtain ⟨date', hour', minute'⟩ := m'
  unfold toSeconds secondsPerDay at hseconds
  simp only at hhour hminute hhour' hminute' hsame hseconds
  obtain rfl := hsame.mp (by omega)
  congr 1 <;> omega

/-- Minutes are in the order of their dates, and those of one day in the order of the clock. -/
theorem Holds.toSeconds_lt_iff : m.toSeconds < m'.toSeconds ↔ m.Before m' := by
  have hbefore := Date.toDays_lt_iff h.isValid h'.isValid
  have hsame := Date.toDays_inj h.isValid h'.isValid
  obtain ⟨hhour, hminute, -⟩ := h
  obtain ⟨hhour', hminute', -⟩ := h'
  unfold Before toSeconds secondsPerDay
  rw [← hbefore, ← hsame]
  omega

/-- As long as years have four digits, texts are in the order of their minutes. -/
theorem Holds.toText_lt_iff (hyear : 0 ≤ m.date.year ∧ m.date.year ≤ 9999)
    (hyear' : 0 ≤ m'.date.year ∧ m'.date.year ≤ 9999) : m.toText < m'.toText ↔ m.Before m' := by
  obtain ⟨-, hmonth, -, hday⟩ := h.isValid
  obtain ⟨-, hmonth', -, hday'⟩ := h'.isValid
  have hlast := (daysOfMonth_mem m.date.year m.date.month).2
  have hlast' := (daysOfMonth_mem m'.date.year m'.date.month).2
  obtain ⟨hhour, hminute, -⟩ := h
  obtain ⟨hhour', hminute', -⟩ := h'
  have hsign : ∀ year : Int, 0 ≤ year ∧ year ≤ 9999 → yearSign year = [] := by
    intro year hmem
    rw [yearSign, if_neg (by omega), if_neg (by omega)]
  have hend : (padded 2 m.minute).toList < (padded 2 m'.minute).toList ↔ m.minute < m'.minute := by
    have hlist : (padded 2 m.minute).toList ++ [] < (padded 2 m'.minute).toList ++ [] ↔
        m.minute < m'.minute ∨ m.minute = m'.minute ∧ ([] : List Char) < [] :=
      padded_append_lt_iff (by decide) (by omega) (by omega) [] []
    simpa using hlist
  rw [String.lt_iff, toList_toText, toList_toText, hsign _ hyear, hsign _ hyear', List.nil_append,
    List.nil_append,
    padded_append_lt_iff (by decide) (by omega) (by omega), cons_lt_cons_self,
    padded_append_lt_iff (by decide) (by omega) (by omega), cons_lt_cons_self,
    padded_append_lt_iff (by decide) (by omega) (by omega), cons_lt_cons_self,
    padded_append_lt_iff (by decide) (by omega) (by omega), cons_lt_cons_self, hend]
  unfold Before Date.Before
  obtain ⟨⟨year, month, day⟩, hour, minute⟩ := m
  obtain ⟨⟨year', month', day'⟩, hour', minute'⟩ := m'
  simp only [Date.mk.injEq] at *
  omega

end Holds

/-- Each second lies in the minute that is computed for it and in no other one. -/
theorem holds_iff {m : Minute} {t : Int} : m.Holds t ↔ m = ofSeconds t := by
  have hcomputed := holds_ofSeconds t
  constructor
  · intro h
    rw [← h.toSeconds_inj hcomputed, h.toSeconds_eq, hcomputed.toSeconds_eq]
  · rintro rfl
    exact hcomputed

end Minute

/-! ## The times of listens -/

theorem minuteText?_eq_some_iff {t : Int} {text : String} :
    minuteText? t = some text ↔
      (-262143 ≤ (Minute.ofSeconds t).date.year ∧ (Minute.ofSeconds t).date.year ≤ 262142) ∧
        text = (Minute.ofSeconds t).toText := by
  unfold minuteText? shownYears
  simp only [Option.ite_none_right_eq_some, Bool.and_eq_true, decide_eq_true_iff, Option.some_inj]
  rw [eq_comm (a := text)]

/-- The listen at another time. -/
def Listen.playedAt (l : Listen) (t : Int64) : Listen := { l with listenedAt := some t }

/-- **The times of listens.**  For every second that 64 bits hold there is one minute of the
calendar in which it lies. The time of the listen is shown exactly if the year of that minute is one
that is shown, and then as that minute in writing; what is read from it is the last full minute. Two
listens show the same time exactly if they were played in one minute, and as long as their years
have four digits, what they show is in the order of their minutes. -/
theorem shownTime_of_second (l : Listen) (t : Int64) :
    ∃ m : Minute, (∀ other : Minute, other.Holds t.toInt ↔ other = m) ∧
      ((∃ text, (l.playedAt t).shownTime = some text) ↔
        -262143 ≤ m.date.year ∧ m.date.year ≤ 262142) ∧
      ∀ text, (l.playedAt t).shownTime = some text →
        m.IsWritten text ∧
        (Minute.ofText? text).map Minute.toSeconds = some (t.toInt.fdiv 60 * 60) ∧
        ∀ (l' : Listen) (t' : Int64) (text' : String), (l'.playedAt t').shownTime = some text' →
          (text = text' ↔ t.toInt.fdiv 60 = t'.toInt.fdiv 60) ∧
          ∀ m' : Minute, m'.Holds t'.toInt → (0 ≤ m.date.year ∧ m.date.year ≤ 9999) →
            (0 ≤ m'.date.year ∧ m'.date.year ≤ 9999) →
              (text < text' ↔ t.toInt.fdiv 60 < t'.toInt.fdiv 60) := by
  have hshown : ∀ (l : Listen) (t : Int64), (l.playedAt t).shownTime = minuteText? t.toInt :=
    fun _ _ => rfl
  have h := Minute.holds_ofSeconds t.toInt
  refine ⟨Minute.ofSeconds t.toInt, fun _ => Minute.holds_iff, ?_, ?_⟩
  · simp only [hshown, minuteText?_eq_some_iff, exists_and_left, exists_eq, and_true]
  · intro text htext
    rw [hshown, minuteText?_eq_some_iff] at htext
    obtain ⟨-, rfl⟩ := htext
    have hread := Minute.ofText?_of_isWritten (Minute.isWritten_toText (Minute.ofSeconds t.toInt))
    refine ⟨Minute.isWritten_toText _, ?_, ?_⟩
    · rw [hread, Option.map_some, h.toSeconds_eq]
    · intro l' t' text' htext'
      rw [hshown, minuteText?_eq_some_iff] at htext'
      obtain ⟨-, rfl⟩ := htext'
      have h' := Minute.holds_ofSeconds t'.toInt
      have hsame := h.toSeconds_inj h'
      rw [h.toSeconds_eq, h'.toSeconds_eq] at hsame
      constructor
      · have htexts : (Minute.ofSeconds t.toInt).toText = (Minute.ofSeconds t'.toInt).toText ↔
            Minute.ofSeconds t.toInt = Minute.ofSeconds t'.toInt := by
          refine ⟨fun heq => ?_, congrArg Minute.toText⟩
          have hread' := Minute.ofText?_of_isWritten
            (Minute.isWritten_toText (Minute.ofSeconds t'.toInt))
          rw [← heq, hread] at hread'
          exact Option.some.inj hread'
        rw [htexts, ← hsame]
        omega
      · intro m' hm' hyear hyear'
        obtain rfl := Minute.holds_iff.mp hm'
        rw [h.toText_lt_iff h' hyear hyear', ← h.toSeconds_lt_iff h', h.toSeconds_eq,
          h'.toSeconds_eq]
        omega

/-- The first second that is shown is that of the first year; the second before it is not. -/
example : minuteText? (-8334601228800) = some "-262143-01-01 00:00" ∧
    minuteText? (-8334601228801) = none := by
  decide +kernel

/-! ## Two listens -/

/-- One listen was played a second before the epoch and one on the day of a leap year. -/
theorem shownTime_of_two_seconds :
    (Listen.unknown.playedAt (-1)).shownTime = some "1969-12-31 23:59" ∧
      (Listen.unknown.playedAt 951782459).shownTime = some "2000-02-29 00:00" ∧
      (Minute.ofText? "1969-12-31 23:59").map Minute.toSeconds = some (-60) ∧
      "1969-12-31 23:59" < "2000-02-29 00:00" := by
  have hfirst : (Listen.unknown.playedAt (-1)).shownTime = some "1969-12-31 23:59" := by
    decide +kernel
  have hsecond : (Listen.unknown.playedAt 951782459).shownTime = some "2000-02-29 00:00" := by
    decide +kernel
  obtain ⟨m, hminute, -, htext⟩ := shownTime_of_second Listen.unknown (-1)
  obtain ⟨-, hread, hother⟩ := htext _ hfirst
  obtain ⟨-, horder⟩ := hother Listen.unknown 951782459 _ hsecond
  obtain rfl := (hminute _).mp (Minute.holds_ofSeconds _)
  refine ⟨hfirst, hsecond, hread, ?_⟩
  exact (horder _ (Minute.holds_ofSeconds _) (by decide) (by decide)).mpr (by decide)

end PinBoard
