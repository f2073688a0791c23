/-!
# The calendar

Days are counted from 1 January 1970 in the proleptic Gregorian calendar. A year is taken to begin
in March, so that the leap day is its last day; four hundred such years are one era.
-/

namespace PinBoard

/-! ## Dates -/

/-- A day of the proleptic Gregorian calendar. -/
structure Date where
  year : Int
  month : Nat
  day : Nat
  deriving DecidableEq, Repr

/-- The days of an era. -/
def daysPerEra : Nat := 146097

/-- The days from 1 March of the year zero to 1 January 1970. -/
def daysToEpoch : Int := 719468

/-- The year of an era, from 0 to 399, in which the given day of the era lies. -/
def yearOfEra (day : Nat) : Nat :=
  (day - day / 1460 + day / 36524 - day / 146096) / 365

/-- The days of an era before the given year of it. -/
def daysBeforeYear (year : Nat) : Nat :=
  365 * year + year / 4 - year / 100

/-- The month, counted from March, in which the given day of the year lies. -/
def monthOfYear (day : Nat) : Nat :=
  (5 * day + 2) / 153

/-- The days of a year, counted from March, before the given month. -/
def daysBeforeMonth (month : Nat) : Nat :=
  (153 * month + 2) / 5

/-- The date of a number of days since 1 January 1970. -/
def Date.ofDays (days : Int) : Date :=
  let shifted := days + daysToEpoch
  let era := shifted.fdiv daysPerEra
  let dayOfEra := (shifted.fmod daysPerEra).toNat
  let year := yearOfEra dayOfEra
  let dayOfYear := dayOfEra - daysBeforeYear year
  let month := monthOfYear dayOfYear
  { year := year + era * 400 + (if month < 10 then 0 else 1)
    month := if month < 10 then month + 3 else month - 9
    day := dayOfYear - daysBeforeMonth month + 1 }

/-- The number of days from 1 January 1970 to a date. -/
def Date.toDays (d : Date) : Int :=
  let year := d.year - (if d.month ≤ 2 then 1 else 0)
  let era := year.fdiv 400
  let yearOfEra := (year.fmod 400).toNat
  let month := if d.month ≤ 2 then d.month + 9 else d.month - 3
  era * daysPerEra + (daysBeforeYear yearOfEra + daysBeforeMonth month + (d.day - 1) : Nat) -
    daysToEpoch

/-- The first and the last year that dates are shown for. -/
def shownYears : Int × Int := (-262143, 262142)

/-! ## Moments -/

/-- The seconds of a day. -/
def secondsPerDay : Nat := 86400

/-- A minute of a day. -/
structure Minute where
  date : Date
  hour : Nat
  minute : Nat
  deriving DecidableEq, Repr

/-- The minute in which a number of seconds since the epoch lies. -/
def Minute.ofSeconds (seconds : Int) : Minute :=
  let second := (seconds.fmod secondsPerDay).toNat
  { date := Date.ofDays (seconds.fdiv secondsPerDay)
    hour := second / 3600
    minute := second / 60 % 60 }

/-- The seconds from the epoch to the beginning of a minute. -/
def Minute.toSeconds (m : Minute) : Int :=
  m.date.toDays * secondsPerDay + (m.hour * 3600 + m.minute * 60 : Nat)

/-- The last second of the last year that dates are shown for. -/
def lastSecond : Int :=
  (⟨⟨shownYears.2, 12, 31⟩, 23, 59⟩ : Minute).toSeconds + 59

/-! ## Text -/

/-- Writes a number with at least `width` digits. -/
def padded (width n : Nat) : String :=
  let digits := Nat.toDigits 10 n
  String.ofList (List.replicate (width - digits.length) '0' ++ digits)

/-- Writes a year with at least four digits, with a sign when it has more or is negative. -/
def yearText (year : Int) : String :=
  if year < 0 then "-" ++ padded 4 year.natAbs
  else if 9999 < year then "+" ++ padded 4 year.natAbs
  else padded 4 year.natAbs

/-- Writes a minute as year, month and day, hour and minute. -/
def Minute.toText (m : Minute) : String :=
  yearText m.date.year ++ "-" ++ padded 2 m.date.month ++ "-" ++ padded 2 m.date.day ++ " " ++
    padded 2 m.hour ++ ":" ++ padded 2 m.minute

/-- The text of the minute of a timestamp, unless its year is not shown. -/
def minuteText? (seconds : Int) : Option String :=
  let m := Minute.ofSeconds seconds
  if shownYears.1 ≤ m.date.year && m.date.year ≤ shownYears.2 then some m.toText else none

end PinBoard
