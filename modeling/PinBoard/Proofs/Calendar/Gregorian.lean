import PinBoard.Calendar
import Mathlib.Tactic.IntervalCases

/-!
# The Gregorian calendar

The calendar is told here by its rules alone: which years are leap years, how long a month is, which
day comes behind another one, and that day zero is 1 January 1970. The dates that are computed for
numbers of days, and the numbers that are computed for dates, are shown to follow them over all
years, those before the epoch and before the year zero included.

An era is cut into centuries, groups of four years, years and days; since the years of it begin in
March, the day that makes a year, a group or a century longer is always the last one.
-/

namespace PinBoard

/-! ## The rules -/

/-- Every fourth year is a leap year, but of the hundredth ones only every fourth. -/
def IsLeapYear (year : Int) : Prop :=
  4 ∣ year ∧ (100 ∣ year → 400 ∣ year)

instance : DecidablePred IsLeapYear := fun year =>
  inferInstanceAs (Decidable (4 ∣ year ∧ (100 ∣ year → 400 ∣ year)))

/-- The days of a month. -/
def daysOfMonth (year : Int) : Nat → Nat
  | 2 => if IsLeapYear year then 29 else 28
  | 4 | 6 | 9 | 11 => 30
  | _ => 31

theorem daysOfMonth_mem (year : Int) (month : Nat) :
    1 ≤ daysOfMonth year month ∧ daysOfMonth year month ≤ 31 := by
  unfold daysOfMonth
  split
  · split <;> decide
  all_goals decide

namespace Date

/-- A date that there is. -/
structure IsValid (d : Date) : Prop where
  one_le_month : 1 ≤ d.month
  month_le : d.month ≤ 12
  one_le_day : 1 ≤ d.day
  day_le : d.day ≤ daysOfMonth d.year d.month

/-- The day behind a date. -/
def next (d : Date) : Date :=
  if d.day < daysOfMonth d.year d.month then ⟨d.year, d.month, d.day + 1⟩
  else if d.month < 12 then ⟨d.year, d.month + 1, 1⟩
  else ⟨d.year + 1, 1, 1⟩

/-- A date is the one of a day: day zero is 1 January 1970, the day behind it has the next date, and
so has the day before it the date before. -/
inductive IsDay : Int → Date → Prop
  | epoch : IsDay 0 ⟨1970, 1, 1⟩
  | next {n : Int} {d : Date} (h : IsDay n d) : IsDay (n + 1) d.next
  | before {n : Int} {d : Date} (hd : d.IsValid) (h : IsDay (n + 1) d.next) : IsDay n d

theorem isValid_next {d : Date} (h : d.IsValid) : d.next.IsValid := by
  unfold next
  split_ifs with hday hyear
  · exact ⟨h.one_le_month, h.month_le, Nat.le_add_left 1 _, hday⟩
  · exact ⟨Nat.le_add_left 1 _, hyear, Nat.le_refl 1, (daysOfMonth_mem _ _).1⟩
  · exact ⟨Nat.le_refl 1, Nat.le_add_left 1 11, Nat.le_refl 1, (daysOfMonth_mem _ _).1⟩

/-! ## From dates to days -/

/-- The days from 1 March of the year zero to 1 March of a year. -/
def daysToMarch (year : Int) : Int :=
  365 * year + year / 4 - year / 100 + year / 400

/-- A leap year, and no other, has a day more from March to March. -/
theorem daysToMarch_sub (year : Int) :
    daysToMarch year - daysToMarch (year - 1) = if IsLeapYear year then 366 else 365 := by
  unfold daysToMarch IsLeapYear
  split_ifs <;> omega

/-- The number of days to a date, from the March before it. -/
theorem toDays_eq (d : Date) :
    d.toDays = (if d.month ≤ 2 then daysToMarch (d.year - 1) + daysBeforeMonth (d.month + 9)
      else daysToMarch d.year + daysBeforeMonth (d.month - 3)) + (d.day - 1 : Nat) - 719468 := by
  have hmarch : ∀ year : Int, year.fdiv 400 * daysPerEra + daysBeforeYear (year.fmod 400).toNat =
      daysToMarch year := by
    intro year
    rw [Int.fdiv_eq_ediv_of_nonneg year (by decide), Int.fmod_eq_emod_of_nonneg year (by decide)]
    unfold daysPerEra daysBeforeYear daysToMarch
    omega
  unfold toDays daysToEpoch
  split_ifs with h
  · have hyear := hmarch (d.year - 1)
    simp only
    push_cast
    omega
  · have hyear := hmarch d.year
    simp only [sub_zero]
    push_cast
    omega

/-- The days of a month follow its first one. -/
theorem toDays_eq_first (d : Date) :
    d.toDays = (⟨d.year, d.month, 1⟩ : Date).toDays + (d.day - 1 : Nat) := by
  rw [toDays_eq, toDays_eq]
  simp only
  omega

/-- From March on the months of all years are alike. -/
theorem daysBeforeMonth_succ (year : Int) {month : Nat} (hlow : 3 ≤ month) (hhigh : month ≤ 11) :
    daysBeforeMonth (month + 1 - 3) = daysBeforeMonth (month - 3) + daysOfMonth year month := by
  interval_cases month <;> rfl

/-- A month begins where the one before it ends. -/
theorem toDays_month {year : Int} {month : Nat} (hlow : 1 ≤ month) (hhigh : month ≤ 11) :
    (⟨year, month + 1, 1⟩ : Date).toDays =
      (⟨year, month, 1⟩ : Date).toDays + daysOfMonth year month := by
  rw [toDays_eq, toDays_eq]
  by_cases hmarch : 3 ≤ month
  · have hdays := daysBeforeMonth_succ year hmarch hhigh
    simp only
    rw [if_neg (by omega), if_neg (by omega), hdays]
    omega
  · obtain rfl | rfl : month = 1 ∨ month = 2 := by omega
    · simp only [daysBeforeMonth, daysOfMonth]
      omega
    · -- March begins behind the day of a leap year
      have hyear := daysToMarch_sub year
      simp only [daysBeforeMonth, daysOfMonth]
      split_ifs at hyear ⊢ <;> omega

/-- So does a year. -/
theorem toDays_year (year : Int) :
    (⟨year + 1, 1, 1⟩ : Date).toDays = (⟨year, 12, 1⟩ : Date).toDays + 31 := by
  rw [toDays_eq, toDays_eq]
  simp only [daysBeforeMonth, add_sub_cancel_right]
  omega

/-- The day behind a date has the next number. -/
theorem toDays_next {d : Date} (h : d.IsValid) : d.next.toDays = d.toDays + 1 := by
  obtain ⟨hone, hmonth, hday, hlast⟩ := h
  rw [d.toDays_eq_first]
  unfold next
  split_ifs with hmore hyear
  · rw [toDays_eq_first]
    simp only
    omega
  · rw [toDays_month hone (by omega)]
    omega
  · have hdecember : d.month = 12 := by omega
    have hdays : daysOfMonth d.year d.month = 31 := by
      rw [hdecember]
      rfl
    rw [toDays_year, hdecember]
    omega

/-! ## The order of dates -/

/-- A date comes before another one by its year, then its month, then its day. -/
def Before (d d' : Date) : Prop :=
  d.year < d'.year ∨ d.year = d'.year ∧
    (d.month < d'.month ∨ d.month = d'.month ∧ d.day < d'.day)

theorem before_or_eq_or_before (d d' : Date) : d.Before d' ∨ d = d' ∨ d'.Before d := by
  obtain ⟨year, month, day⟩ := d
  obtain ⟨year', month', day'⟩ := d'
  simp only [Before, Date.mk.injEq]
  omega

/-- The number of the first day of a month, where months are counted through all years. -/
def monthStart (months : Int) : Int :=
  (⟨months / 12, (months % 12).toNat + 1, 1⟩ : Date).toDays

theorem monthStart_add_one (months : Int) :
    monthStart (months + 1) =
      monthStart months + daysOfMonth (months / 12) ((months % 12).toNat + 1) := by
  unfold monthStart
  by_cases hdecember : months % 12 = 11
  · have hyear : (months + 1) / 12 = months / 12 + 1 := by omega
    have hjanuary : (months + 1) % 12 = 0 := by omega
    rw [hyear, hjanuary, hdecember]
    exact toDays_year (months / 12)
  · have hyear : (months + 1) / 12 = months / 12 := by omega
    have hmonth : ((months + 1) % 12).toNat = (months % 12).toNat + 1 := by omega
    rw [hyear, hmonth]
    exact toDays_month (by omega) (by omega)

theorem monthStart_le {months later : Int} (h : months ≤ later) :
    monthStart months ≤ monthStart later := by
  obtain ⟨count, rfl⟩ := Int.le.dest h
  induction count with
  | zero => exact Int.le_of_eq (congrArg monthStart (Int.add_zero months).symm)
  | succ count ih =>
    have hnext : months + (count + 1 : Nat) = months + count + 1 := by omega
    have hbegun := ih (by omega)
    rw [hnext, monthStart_add_one]
    omega

/-- A date lies in its month. -/
theorem IsValid.toDays_mem {d : Date} (h : d.IsValid) :
    d.toDays = monthStart (12 * d.year + d.month - 1) + (d.day - 1 : Nat) ∧
      d.toDays < monthStart (12 * d.year + d.month - 1 + 1) := by
  obtain ⟨hone, hmonth, hday, hlast⟩ := h
  have hyear : (12 * d.year + d.month - 1) / 12 = d.year := by omega
  have hmonths : ((12 * d.year + d.month - 1) % 12).toNat + 1 = d.month := by omega
  have hstart : monthStart (12 * d.year + d.month - 1) = (⟨d.year, d.month, 1⟩ : Date).toDays := by
    rw [monthStart, hyear, hmonths]
  rw [monthStart_add_one, hyear, hmonths, hstart, d.toDays_eq_first]
  omega

section Order

variable {d d' : Date} (h : d.IsValid) (h' : d'.IsValid)
include h h'

/-- Days are counted in the order of their dates. -/
theorem toDays_lt_of_before (hbefore : d.Before d') : d.toDays < d'.toDays := by
  obtain ⟨hday, hend⟩ := h.toDays_mem
  obtain ⟨hday', -⟩ := h'.toDays_mem
  have hmonth := h.month_le
  have hmonth' := h'.one_le_month
  have hfirst := h.one_le_day
  by_cases hsame : 12 * d.year + d.month - 1 = 12 * d'.year + d'.month - 1
  · rw [hday, hday', hsame]
    unfold Before at hbefore
    have hmore := h'.month_le
    have hless := h.one_le_month
    omega
  · have hlater : 12 * d.year + d.month - 1 + 1 ≤ 12 * d'.year + d'.month - 1 := by
      unfold Before at hbefore
      omega
    have hstart := monthStart_le hlater
    omega

theorem toDays_lt_iff : d.toDays < d'.toDays ↔ d.Before d' := by
  refine ⟨fun hlt => ?_, toDays_lt_of_before h h'⟩
  rcases d.before_or_eq_or_before d' with hbefore | rfl | hbehind
  · exact hbefore
  · exact absurd hlt (Int.lt_irrefl _)
  · exact absurd (toDays_lt_of_before h' h hbehind) (by omega)

/-- No two dates are the same day. -/
theorem toDays_inj : d.toDays = d'.toDays ↔ d = d' := by
  refine ⟨fun hsame => ?_, congrArg toDays⟩
  rcases d.before_or_eq_or_before d' with hbefore | heq | hbehind
  · exact absurd (toDays_lt_of_before h h' hbefore) (by omega)
  · exact heq
  · exact absurd (toDays_lt_of_before h' h hbehind) (by omega)

end Order

/-! ## From days to dates -/

/-- A day of an era by centuries, groups of four years, years and days. -/
theorem exists_parts {day : Nat} (h : day < daysPerEra) :
    ∃ century group year rest, day = 36524 * century + 1461 * group + 365 * year + rest ∧
      century ≤ 3 ∧ group ≤ 24 ∧ year ≤ 3 ∧ rest ≤ 365 ∧
      (rest = 365 → year = 3 ∧ (group = 24 → century = 3)) := by
  unfold daysPerEra at h
  -- the last day of an era does not begin a fifth century, nor a leap day a fifth year
  generalize hcentury : min (day / 36524) 3 = century
  generalize hgroup : (day - 36524 * century) / 1461 = group
  generalize hyear : min ((day - 36524 * century - 1461 * group) / 365) 3 = year
  exact ⟨century, group, year, day - 36524 * century - 1461 * group - 365 * year, by omega,
    by omega, by omega, by omega, by omega, by omega⟩

/-- The year of such a day: what is taken away at the division are the days of leap years. -/
theorem yearOfEra_of_parts {day century group year rest : Nat}
    (hday : day = 36524 * century + 1461 * group + 365 * year + rest) (hcentury : century ≤ 3)
    (hgroup : group ≤ 24) (hyear : year ≤ 3) (hrest : rest ≤ 365)
    (hleap : rest = 365 → year = 3 ∧ (group = 24 → century = 3)) :
    yearOfEra day = 100 * century + 4 * group + year := by
  unfold yearOfEra
  by_cases hlast : day = 146096
  · subst hlast
    omega
  · have hera : day / 146096 = 0 := by omega
    have hcenturies : day / 36524 = century := by omega
    have hgroups : 1460 * (day / 1460) ≤ day ∧ day < 1460 * (day / 1460) + 1460 := by omega
    rw [hera, hcenturies]
    -- late in a century a group of 1460 days more has begun than leap days have passed
    generalize day / 1460 = groups at hgroups ⊢
    have hleapDays : groups = 25 * century + group ∨ groups = 25 * century + group + 1 := by omega
    have hlow : 365 * (100 * century + 4 * group + year) ≤ day - groups + century - 0 := by omega
    have hhigh : day - groups + century - 0 < 365 * (100 * century + 4 * group + year) + 365 := by
      omega
    omega

/-- The year of an era in which a day of it lies: it has begun, and the day is among its 365, or is
the last one of a year that ends in a leap year. -/
theorem yearOfEra_mem {day : Nat} (h : day < daysPerEra) :
    yearOfEra day < 400 ∧ daysBeforeYear (yearOfEra day) ≤ day ∧
      day - daysBeforeYear (yearOfEra day) ≤ 365 ∧
      (day - daysBeforeYear (yearOfEra day) = 365 →
        4 ∣ yearOfEra day + 1 ∧ (100 ∣ yearOfEra day + 1 → 400 ∣ yearOfEra day + 1)) := by
  obtain ⟨century, group, year, rest, hday, hcentury, hgroup, hyear, hrest, hleap⟩ :=
    exists_parts h
  rw [yearOfEra_of_parts hday hcentury hgroup hyear hrest hleap]
  have hbefore : daysBeforeYear (100 * century + 4 * group + year) =
      36524 * century + 1461 * group + 365 * year := by
    unfold daysBeforeYear
    omega
  rw [hbefore]
  omega

/-- The month in which a day of the year lies, the first of them March. -/
theorem monthOfYear_mem {day : Nat} (h : day ≤ 365) :
    monthOfYear day ≤ 11 ∧ daysBeforeMonth (monthOfYear day) ≤ day ∧
      day < daysBeforeMonth (monthOfYear day + 1) := by
  unfold monthOfYear daysBeforeMonth
  omega

/-- The date of a day of a month of a year, where the first month is March. -/
def ofMarch (year : Int) (month day : Nat) : Date where
  year := year + (if month < 10 then 0 else 1)
  month := if month < 10 then month + 3 else month - 9
  day := day + 1

/-- The days of a month that begins in March: the last month is February. -/
theorem daysOfMonth_ofMarch (year : Int) {month : Nat} (h : month ≤ 11) (day : Nat) :
    daysOfMonth (ofMarch year month day).year (ofMarch year month day).month =
      if month = 11 then (if IsLeapYear (year + 1) then 29 else 28)
      else daysBeforeMonth (month + 1) - daysBeforeMonth month := by
  interval_cases month <;> rfl

theorem toDays_ofMarch (year : Int) {month : Nat} (h : month ≤ 11) (day : Nat) :
    (ofMarch year month day).toDays =
      daysToMarch year + daysBeforeMonth month + day - 719468 := by
  rw [toDays_eq]
  unfold ofMarch
  by_cases hmonth : month < 10
  · simp only [if_pos hmonth, add_zero, Nat.add_sub_cancel]
    rw [if_neg (by omega)]
  · have hback : month - 9 + 9 = month := by omega
    simp only [if_neg hmonth, add_sub_cancel_right, Nat.add_sub_cancel]
    rw [if_pos (by omega), hback]

/-- A day of a year gives a date that there is if the day at the end of February is one of a leap
year. -/
theorem isValid_ofMarch {year : Int} {day : Nat} (h : day ≤ 365)
    (hleap : day = 365 → IsLeapYear (year + 1)) :
    (ofMarch year (monthOfYear day) (day - daysBeforeMonth (monthOfYear day))).IsValid := by
  obtain ⟨hmonth, hbegun, hend⟩ := monthOfYear_mem h
  generalize monthOfYear day = month at hmonth hbegun hend ⊢
  refine ⟨?_, ?_, Nat.le_add_left 1 _, ?_⟩
  · show 1 ≤ if month < 10 then month + 3 else month - 9
    split_ifs <;> omega
  · show (if month < 10 then month + 3 else month - 9) ≤ 12
    split_ifs <;> omega
  · rw [daysOfMonth_ofMarch year hmonth]
    show day - daysBeforeMonth month + 1 ≤ _
    by_cases hfebruary : month = 11
    · subst hfebruary
      have hbefore : daysBeforeMonth 11 = 337 := rfl
      rw [if_pos rfl, hbefore]
      by_cases hlast : day = 365
      · rw [if_pos (hleap hlast)]
        omega
      · split_ifs <;> omega
    · rw [if_neg hfebruary]
      omega

/-- **From days to dates and back.**  Each number of days is that of a date that there is. -/
theorem ofDays_spec (n : Int) : (ofDays n).IsValid ∧ (ofDays n).toDays = n := by
  have hlow := Int.emod_nonneg (n + 719468) (b := 146097) (by decide)
  have hhigh := Int.emod_lt_of_pos (n + 719468) (b := 146097) (by decide)
  generalize hera : (n + 719468) / 146097 = era
  generalize hday : ((n + 719468) % 146097).toNat = day
  have hmem : day < daysPerEra := by
    unfold daysPerEra
    omega
  obtain ⟨hyear, hbegun, hlength, hleap⟩ := yearOfEra_mem hmem
  generalize hyearDay : day - daysBeforeYear (yearOfEra day) = yearDay at hlength hleap
  -- the date is computed by a division that rounds downwards, so `n` may be negative
  have hdate : ofDays n = ofMarch (yearOfEra day + era * 400) (monthOfYear yearDay)
      (yearDay - daysBeforeMonth (monthOfYear yearDay)) := by
    have hfloor : (n + daysToEpoch).fdiv daysPerEra = (n + 719468) / 146097 :=
      Int.fdiv_eq_ediv_of_nonneg _ (by decide)
    have hrest : (n + daysToEpoch).fmod daysPerEra = (n + 719468) % 146097 :=
      Int.fmod_eq_emod_of_nonneg _ (by decide)
    simp only [ofDays, hfloor, hrest, hera, hday, hyearDay]
    rfl
  have hmarch : daysToMarch (yearOfEra day + era * 400) =
      era * 146097 + daysBeforeYear (yearOfEra day) := by
    unfold daysToMarch daysBeforeYear
    omega
  obtain ⟨hmonth, hmonthBegun, -⟩ := monthOfYear_mem hlength
  rw [hdate]
  constructor
  · apply isValid_ofMarch hlength
    intro hlast
    have hleapYear := hleap hlast
    unfold IsLeapYear
    omega
  · rw [toDays_ofMarch _ hmonth, hmarch]
    omega

/-- A date that there is comes back from its number. -/
theorem ofDays_toDays {d : Date} (h : d.IsValid) : ofDays d.toDays = d :=
  (toDays_inj (ofDays_spec d.toDays).1 h).mp (ofDays_spec d.toDays).2

/-- Behind each day comes the one with the next date. -/
theorem ofDays_add_one (n : Int) : ofDays (n + 1) = (ofDays n).next := by
  obtain ⟨hvalid, hdays⟩ := ofDays_spec n
  rw [← ofDays_toDays (isValid_next hvalid), toDays_next hvalid, hdays]

/-- The date that is computed for a day is the one of that day. -/
theorem isDay_ofDays (n : Int) : IsDay n (ofDays n) := by
  have hepoch : ofDays 0 = ⟨1970, 1, 1⟩ := by decide
  induction n using Int.induction_on with
  | zero =>
    rw [hepoch]
    exact .epoch
  | succ k ih =>
    rw [ofDays_add_one]
    exact ih.next
  | pred k ih =>
    refine .before (ofDays_spec _).1 ?_
    rw [← ofDays_add_one]
    simpa using ih

/-- The date of a day is one that there is, and the number that is computed for it is that of the
day. -/
theorem IsDay.spec {n : Int} {d : Date} (h : IsDay n d) : d.IsValid ∧ d.toDays = n := by
  induction h with
  | epoch => exact ⟨⟨by decide, by decide, by decide, by decide⟩, by decide⟩
  | next _ ih => exact ⟨isValid_next ih.1, by rw [toDays_next ih.1, ih.2]⟩
  | before hd _ ih =>
    have hnext := toDays_next hd
    exact ⟨hd, by omega⟩

/-- **The calendar.**  A date is the one of a day, by the rules, exactly if it is the one that is
computed for it. -/
theorem isDay_iff {n : Int} {d : Date} : IsDay n d ↔ d = ofDays n := by
  constructor
  · intro h
    obtain ⟨hvalid, rfl⟩ := h.spec
    exact (ofDays_toDays hvalid).symm
  · rintro rfl
    exact isDay_ofDays n

end Date

end PinBoard
