/-!
Instants of Universal Time as calendar dates with a time of day. Dates are those of the Gregorian
calendar, carried on before its introduction, and lie within a fixed range of years; a minute may
have a sixty-first second.
-/

namespace Conveyor

/-- Whether a year has a twenty-ninth of February. -/
def isLeapYear (year : Int) : Bool := year % 4 == 0 && (year % 100 != 0 || year % 400 == 0)

def daysInMonth (year : Int) (month : Nat) : Nat :=
  if month = 2 then if isLeapYear year then 29 else 28
  else if month ∈ [4, 6, 9, 11] then 30
  else 31

def firstYear : Int := -262143

def lastYear : Int := 262142

/-- Whether the three numbers name a day within the range of years. -/
def IsDay (year : Int) (month day : Nat) : Prop :=
  (firstYear ≤ year ∧ year ≤ lastYear) ∧ (1 ≤ month ∧ month ≤ 12) ∧
    1 ≤ day ∧ day ≤ daysInMonth year month

instance (year : Int) (month day : Nat) : Decidable (IsDay year month day) := by
  unfold IsDay; infer_instance

structure Date where
  year : Int
  month : Nat
  day : Nat
  isDay : IsDay year month day
  deriving DecidableEq

namespace Date

def ofYMD? (year : Int) (month day : Nat) : Option Date :=
  if h : IsDay year month day then some ⟨year, month, day, h⟩ else none

/-- The day after; nothing after the last day of the range. -/
def next? (d : Date) : Option Date :=
  if d.day < daysInMonth d.year d.month then ofYMD? d.year d.month (d.day + 1)
  else if d.month < 12 then ofYMD? d.year (d.month + 1) 1
  else ofYMD? (d.year + 1) 1 1

/-- The day before; nothing before the first day of the range. -/
def previous? (d : Date) : Option Date :=
  if 1 < d.day then ofYMD? d.year d.month (d.day - 1)
  else if 1 < d.month then ofYMD? d.year (d.month - 1) (daysInMonth d.year (d.month - 1))
  else ofYMD? (d.year - 1) 12 31

/-- Days since the first day of 1970. Years are taken to begin in March, so that leap days end them.
-/
def sinceEpoch (d : Date) : Int :=
  let year := if d.month ≤ 2 then d.year - 1 else d.year
  let month := (d.month + 9) % 12
  let dayOfYear := (153 * month + 2) / 5 + d.day - 1
  year * 365 + year / 4 - year / 100 + year / 400 + dayOfYear - 719468

end Date

def minutesPerDay : Nat := 24 * 60

def nanosecondsPerSecond : Nat := 1000000000

/-- An instant. Second 60 is a leap second. -/
structure Timestamp where
  date : Date
  minuteOfDay : Nat
  second : Nat
  nanosecond : Nat
  minuteOfDay_lt : minuteOfDay < minutesPerDay
  second_le : second ≤ 60
  nanosecond_lt : nanosecond < nanosecondsPerSecond
  deriving DecidableEq

namespace Timestamp

def ofParts? (date : Date) (minuteOfDay second nanosecond : Nat) : Option Timestamp :=
  if h : minuteOfDay < minutesPerDay ∧ second ≤ 60 ∧ nanosecond < nanosecondsPerSecond then
    some ⟨date, minuteOfDay, second, nanosecond, h.1, h.2.1, h.2.2⟩
  else none

/-- The instant that clocks `offset` minutes ahead of Universal Time show as this date and minute;
nothing when it falls outside the range of years. The offset is less than a day. -/
def ofLocal? (date : Date) (minuteOfDay second nanosecond : Nat) (offset : Int) :
    Option Timestamp :=
  let minute := (minuteOfDay : Int) - offset
  if minute < 0 then do
    ofParts? (← date.previous?) (minute + minutesPerDay).toNat second nanosecond
  else if minute < minutesPerDay then ofParts? date minute.toNat second nanosecond
  else do
    ofParts? (← date.next?) (minute - minutesPerDay).toNat second nanosecond

def hour (t : Timestamp) : Nat := t.minuteOfDay / 60

def minute (t : Timestamp) : Nat := t.minuteOfDay % 60

/-- Nanoseconds since the first instant of 1970. -/
def nanosecondsSinceEpoch (t : Timestamp) : Int :=
  ((t.date.sinceEpoch * minutesPerDay + t.minuteOfDay) * 60 + t.second) * nanosecondsPerSecond +
    t.nanosecond

/-- The first instant of the year 1970. -/
def epoch : Timestamp := ⟨⟨1970, 1, 1, by decide⟩, 0, 0, 0, by decide, by decide, by decide⟩

instance : Inhabited Timestamp := ⟨epoch⟩

end Timestamp

end Conveyor
