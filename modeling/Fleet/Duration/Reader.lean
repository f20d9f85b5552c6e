import Fleet.Decimal.Numeral
import Fleet.Decimal.Rounding
import Fleet.Duration.Basic
import Fleet.Fault
import Fleet.Text.Blank

/-!
The written form of a span of time: a numeral and a unit, with blanks around and between them. A
bare number is taken as seconds.
-/
namespace Fleet

/-- What a written number counts. -/
inductive TimeUnit where
  | millisecond
  | second
  | minute
  | hour
  deriving DecidableEq

namespace TimeUnit

def seconds : TimeUnit → Rat
  | millisecond => 1 / 1000
  | second => 1
  | minute => 60
  | hour => 3600

def ofSuffix? : List Char → Option TimeUnit
  | ['m', 's'] => some millisecond
  | [] => some second
  | ['s'] => some second
  | ['m'] => some minute
  | ['h'] => some hour
  | _ => none

end TimeUnit

namespace Duration

/-- The characters of which a numeral may consist. -/
def isNumeralChar (c : Char) : Bool := c.isDigit || c == '.'

/-- A number of seconds to the nearest nanosecond; there is none from `2 ^ 64` seconds on. -/
def ofRat? (seconds : Rat) : Option Duration :=
  if seconds < Word.limit then some ⟨(Decimal.roundHalfEven (seconds * 1000000000)).toNat⟩ else none

/-- The number and the number of seconds it makes are both rounded to 53 binary digits. -/
def ofNumeral? (value : Rat) (unit : TimeUnit) : Option Duration :=
  ofRat? (Decimal.roundSignificand (Decimal.roundSignificand value * unit.seconds))

def ofChars? (s : List Char) : Option Duration := do
  let body := Text.trim s
  let value ← Decimal.numeral? (body.takeWhile isNumeralChar)
  let unit ← TimeUnit.ofSuffix? (Text.trim (body.dropWhile isNumeralChar))
  ofNumeral? value unit

def ofText? (s : String) : Option Duration := ofChars? s.toList

end Duration

end Fleet
