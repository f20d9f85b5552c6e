import Fleet.Decimal.Numeral
import Fleet.Duration.Basic
import Fleet.Json.Basic
import Fleet.Total

/-!
Dates and times of day in a settings file, alone or together, by the calendar in which a leap year
has one day more than 365.
-/
namespace Fleet.Toml

structure Date where
  year : Nat
  month : Nat
  day : Nat
  deriving DecidableEq

namespace Date

def isLeap (year : Nat) : Bool := year % 4 == 0 && (year % 100 != 0 || year % 400 == 0)

/-- The days of a month; there are none beyond the twelfth. -/
def daysIn (year : Nat) : Nat → Nat
  | 2 => if isLeap year then 29 else 28
  | 4 | 6 | 9 | 11 => 30
  | 1 | 3 | 5 | 7 | 8 | 10 | 12 => 31
  | _ => 0

def isValid (d : Date) : Bool := 1 ≤ d.day && d.day ≤ daysIn d.year d.month

end Date

/-- A time of day. A minute may have a second more than sixty. -/
structure ClockTime where
  hour : Nat
  minute : Nat
  second : Nat
  nanos : Nat
  deriving DecidableEq

def ClockTime.isValid (t : ClockTime) : Bool := t.hour ≤ 23 && t.minute ≤ 59 && t.second ≤ 60

/-- How far a clock is ahead of universal time. -/
inductive Offset where
  | zulu
  | ahead (minutes : Int)
  deriving DecidableEq

inductive Timestamp where
  | date (d : Date)
  | time (t : ClockTime)
  | dateTime (d : Date) (t : ClockTime) (offset : Option Offset)
  deriving DecidableEq

namespace Timestamp

/-! ### Reading -/

/-- A number of so many digits, and what follows it. -/
def number? (count : Nat) (s : List Char) : Option (Nat × List Char) :=
  let digits := s.take count
  if digits.length = count && digits.all Char.isDigit then
    some (Decimal.natOfDigits digits, s.drop count)
  else none

def date? (s : List Char) : Option (Date × List Char) := do
  let (year, '-' :: s) ← number? 4 s | none
  let (month, '-' :: s) ← number? 2 s | none
  let (day, s) ← number? 2 s
  let d : Date := ⟨year, month, day⟩
  if d.isValid then return (d, s) else none

/-- The nanoseconds that digits behind a point stand for; from the tenth on they do not count. -/
def nanosOfDigits (digits : List Char) : Nat :=
  let kept := digits.take 9
  Decimal.natOfDigits kept * Nat.pow 10 (9 - kept.length)

def fraction (s : List Char) : Nat × List Char :=
  match s with
  | '.' :: rest =>
    let digits := rest.takeWhile Char.isDigit
    if digits = [] then (0, s) else (nanosOfDigits digits, rest.dropWhile Char.isDigit)
  | _ => (0, s)

def time? (s : List Char) : Option (ClockTime × List Char) := do
  let (hour, ':' :: s) ← number? 2 s | none
  let (minute, ':' :: s) ← number? 2 s | none
  let (second, s) ← number? 2 s
  let (nanos, s) := fraction s
  let t : ClockTime := ⟨hour, minute, second, nanos⟩
  if t.isValid then return (t, s) else none

/-- The hours and minutes behind the sign of an offset. -/
def offsetMinutes? (s : List Char) : Option (Nat × List Char) := do
  let (hours, ':' :: s) ← number? 2 s | none
  let (minutes, s) ← number? 2 s
  if hours ≤ 23 && minutes ≤ 59 then return (60 * hours + minutes, s) else none

def offset? : List Char → Option (Offset × List Char)
  | 'Z' :: rest => some (.zulu, rest)
  | 'z' :: rest => some (.zulu, rest)
  | '+' :: rest => (offsetMinutes? rest).map fun (n, rest) => (.ahead n, rest)
  | '-' :: rest => (offsetMinutes? rest).map fun (n, rest) => (.ahead (-n), rest)
  | _ => none

/-- Reads the time of day that may follow a day. -/
def timeAfterDate? : List Char → Option (ClockTime × Option Offset × List Char)
  | c :: s => do
    if c == 'T' || c == 't' || c == ' ' then
      let (t, s) ← time? s
      match offset? s with
      | some (o, s) => return (t, some o, s)
      | none => return (t, none, s)
    else none
  | [] => none

/-- Reads a day with or without a time of day, or a time of day alone, and answers what follows. -/
def read? (s : List Char) : Option (Timestamp × List Char) :=
  match date? s with
  | some (d, s) =>
    match timeAfterDate? s with
    | some (t, offset, s) => some (.dateTime d t offset, s)
    | none => some (.date d, s)
  | none => (time? s).map fun (t, s) => (.time t, s)

/-! ### Text -/

/-- A number with zeros in front, up to so many digits. -/
def padded (count n : Nat) : List Char :=
  let digits := Nat.toDigits 10 n
  List.replicate (count - digits.length) '0' ++ digits

def dateText (d : Date) : List Char :=
  padded 4 d.year ++ '-' :: padded 2 d.month ++ '-' :: padded 2 d.day

def clockText (t : ClockTime) : List Char :=
  padded 2 t.hour ++ ':' :: padded 2 t.minute ++ ':' :: padded 2 t.second ++
    Duration.fractionText t.nanos 9

def offsetText : Offset → List Char
  | .zulu => ['Z']
  | .ahead n =>
    (if n < 0 then '-' else '+') :: padded 2 (n.natAbs / 60) ++ ':' :: padded 2 (n.natAbs % 60)

def text : Timestamp → String
  | date d => String.ofList (dateText d)
  | time t => String.ofList (clockText t)
  | dateTime d t offset =>
    String.ofList (dateText d ++ 'T' :: clockText t ++ (offset.map offsetText).getD [])

/-- As a free-form value it is an object with one field, which holds the text. -/
def toJson (t : Timestamp) : Json := .obj [("$__toml_private_datetime", .str t.text)]

/-! ### The length of a year -/

def daysOfYear (year : Nat) : Nat := total ((List.range 13).map (Date.daysIn year))

theorem daysOfYear_eq (year : Nat) :
    daysOfYear year = 365 + if Date.isLeap year then 1 else 0 := by
  cases h : Date.isLeap year <;> simp [daysOfYear, List.range_succ, Date.daysIn, h]

end Timestamp

end Fleet.Toml
