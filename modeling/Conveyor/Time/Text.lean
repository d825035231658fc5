import Conveyor.Text.Blank
import Conveyor.Time.Basic

/-!
Instants as text. Writing gives `2024-01-02T03:04:05Z`, with a fraction of three, six or nine digits
where there is one; years that do not fit into four digits have a sign. Reading also takes offsets
from Universal Time, blanks before numbers and separators, and a blank or a small `t` between date
and time.
-/

namespace Conveyor

/-- Why a text is no instant. -/
inductive TimeFault where
  | endOfText
  | invalidCharacter
  | outOfRange
  | trailingText
  | noSuchInstant
  deriving DecidableEq, Repr

def TimeFault.message : TimeFault → String
  | endOfText => "premature end of input"
  | invalidCharacter => "input contains invalid characters"
  | outOfRange => "input is out of range"
  | trailingText => "trailing input"
  | noSuchInstant => "no possible date and time matching input"

namespace Timestamp

open Text (dropBlank isBlank)

/-! ### Writing -/

/-- Decimal digits with zeros in front up to a width. -/
def padded (width n : Nat) : List Char :=
  let ds := Nat.toDigits 10 n
  List.replicate (width - ds.length) '0' ++ ds

def yearText (year : Int) : List Char :=
  if 0 ≤ year ∧ year ≤ 9999 then padded 4 year.toNat
  else (if year < 0 then '-' else '+') :: padded 4 year.natAbs

def secondsText (t : Timestamp) : List Char :=
  yearText t.date.year ++ '-' :: padded 2 t.date.month ++ '-' :: padded 2 t.date.day ++
    'T' :: padded 2 t.hour ++ ':' :: padded 2 t.minute ++ ':' :: padded 2 t.second

/-- The fraction of the second in as few groups of three digits as it needs. -/
def fractionText (nanosecond : Nat) : List Char :=
  if nanosecond = 0 then []
  else if nanosecond % 1000000 = 0 then '.' :: padded 3 (nanosecond / 1000000)
  else if nanosecond % 1000 = 0 then '.' :: padded 6 (nanosecond / 1000)
  else '.' :: padded 9 nanosecond

def toText (t : Timestamp) : String :=
  String.ofList (t.secondsText ++ fractionText t.nanosecond ++ ['Z'])

/-- The text without the fraction of the second. -/
def toTextWholeSeconds (t : Timestamp) : String := String.ofList (t.secondsText ++ ['Z'])

/-- The text with microseconds. -/
def toTextMicroseconds (t : Timestamp) : String :=
  String.ofList (t.secondsText ++ '.' :: padded 6 (t.nanosecond / 1000) ++ ['Z'])

/-! ### Reading

A reading step gives a value and the rest of the text. -/

def isDigit (c : Char) : Bool := '0' ≤ c && c ≤ '9'

def digitsValue (ds : List Char) : Nat := ds.foldl (fun n c => 10 * n + (c.toNat - '0'.toNat)) 0

/-- A number of at least one and at most `width` digits. -/
def number (width : Nat) (cs : List Char) : Except TimeFault (Nat × List Char) :=
  let ds := (cs.take width).takeWhile isDigit
  if cs.isEmpty then .error .endOfText
  else if ds.isEmpty then .error .invalidCharacter
  else if digitsValue ds < 0x8000000000000000 then .ok (digitsValue ds, cs.drop ds.length)
  else .error .outOfRange

/-- A number of at most two digits between two bounds, after blanks. -/
def boundedNumber (least greatest : Nat) (cs : List Char) : Except TimeFault (Nat × List Char) := do
  let (n, rest) ← number 2 (dropBlank cs)
  if least ≤ n ∧ n ≤ greatest then .ok (n, rest) else .error .outOfRange

/-- A year: up to four digits, or a sign and any number of digits. -/
def year (cs : List Char) : Except TimeFault (Int × List Char) := do
  let (n, rest) ←
    match dropBlank cs with
    | '-' :: ds => (number ds.length ds).map fun (n, rest) => (-(n : Int), rest)
    | '+' :: ds => (number ds.length ds).map fun (n, rest) => ((n : Int), rest)
    | ds => (number 4 ds).map fun (n, rest) => ((n : Int), rest)
  if -0x80000000 ≤ n ∧ n < 0x80000000 then .ok (n, rest) else .error .outOfRange

/-- The text after a separator, which may have blanks before it. -/
def separator (c : Char) (cs : List Char) : Except TimeFault (List Char) :=
  match dropBlank cs with
  | [] => .error .endOfText
  | d :: rest => if d = c then .ok rest else .error .invalidCharacter

/-- What stands between date and time. -/
def dateEnd : List Char → Except TimeFault (List Char)
  | [] => .error .endOfText
  | c :: rest => if c = 'T' || c = 't' || c = ' ' then .ok rest else .error .invalidCharacter

/-- Nanoseconds, from a point and digits of which the first nine count; zero without a point. -/
def fraction (cs : List Char) : Except TimeFault (Nat × List Char) :=
  match cs with
  | '.' :: ds => do
    let (n, rest) ← number 9 ds
    .ok (n * Nat.pow 10 (9 - (ds.length - rest.length)), rest.dropWhile isDigit)
  | cs => .ok (0, cs)

/-- Two digits whose first is at most `greatest`. -/
def digitPair (greatest : Char) : List Char → Except TimeFault (Nat × List Char)
  | [] => .error .endOfText
  | [c] => if c.toNat < 128 then .error .endOfText else .error .invalidCharacter
  | c :: d :: rest =>
    if isDigit c && isDigit d then
      if c ≤ greatest then .ok (digitsValue [c, d], rest) else .error .outOfRange
    else .error .invalidCharacter

/-- Hours and minutes ahead of Universal Time, as minutes; colons and blanks between the two are
optional. -/
def hoursAndMinutes (cs : List Char) : Except TimeFault (Nat × List Char) := do
  let (h, rest) ← digitPair '9' cs
  let (m, rest) ← digitPair '5' (rest.dropWhile fun c => c = ':' || isBlank c)
  .ok (60 * h + m, rest)

/-- The offset from Universal Time in minutes. -/
def offset (cs : List Char) : Except TimeFault (Int × List Char) :=
  match dropBlank cs with
  | [] => .error .endOfText
  | c :: rest =>
    if (c :: rest.take 2).map Char.toLower = ['u', 't', 'c'] then .ok (0, rest.drop 2)
    else if c = 'Z' || c = 'z' then .ok (0, rest)
    else if c = '+' then (hoursAndMinutes rest).map fun (n, rest) => ((n : Int), rest)
    else if c = '-' || c = '−' then (hoursAndMinutes rest).map fun (n, rest) => (-(n : Int), rest)
    else .error .invalidCharacter

/-- The instant that date, time and offset name. -/
def assemble (year : Int) (month day hour minute second nanosecond : Nat) (offset : Int) :
    Except TimeFault Timestamp :=
  match Date.ofYMD? year month day with
  | none => .error .outOfRange
  | some date =>
    if offset.natAbs < minutesPerDay then
      match ofLocal? date (60 * hour + minute) second nanosecond offset with
      | none => .error .noSuchInstant
      | some t => .ok t
    else .error .outOfRange

def ofChars (cs : List Char) : Except TimeFault Timestamp := do
  let (y, cs) ← year cs
  let (mo, cs) ← boundedNumber 1 12 (← separator '-' cs)
  let (d, cs) ← boundedNumber 1 31 (← separator '-' cs)
  let (h, cs) ← boundedNumber 0 23 (← dateEnd cs)
  let (mi, cs) ← boundedNumber 0 59 (← separator ':' cs)
  let (s, cs) ← boundedNumber 0 60 (← separator ':' cs)
  let (n, cs) ← fraction cs
  let (o, cs) ← offset cs
  if (dropBlank cs).isEmpty then assemble y mo d h mi s n o else .error .trailingText

/-- The instant that a text names. -/
def ofText (s : String) : Except TimeFault Timestamp := ofChars s.toList

end Timestamp

end Conveyor
