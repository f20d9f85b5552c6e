/-!
Spans of time, in whole nanoseconds, and their short text. A span is its seconds and the nanoseconds
left over.
-/
namespace Fleet

structure Duration where
  nanos : Nat
  deriving DecidableEq, Inhabited

namespace Duration

def nanosPerSecond : Nat := 1000000000
def nanosPerMilli : Nat := 1000000

def ofSeconds (n : Nat) : Duration := ⟨n * nanosPerSecond⟩
def ofMillis (n : Nat) : Duration := ⟨n * nanosPerMilli⟩

def seconds (d : Duration) : Nat := d.nanos / nanosPerSecond

/-- The nanoseconds past the last whole second. -/
def subsecond (d : Duration) : Nat := d.nanos % nanosPerSecond

def millis (d : Duration) : Nat := d.nanos / nanosPerMilli

/-- The first whole millisecond that is not before the end of the span. -/
def millisUp (d : Duration) : Nat := (d.nanos + (nanosPerMilli - 1)) / nanosPerMilli

def isZero (d : Duration) : Bool := d.nanos == 0

theorem nanos_eq (d : Duration) : d.nanos = d.seconds * nanosPerSecond + d.subsecond := by
  simp only [seconds, subsecond]
  have := Nat.div_add_mod d.nanos nanosPerSecond
  rw [Nat.mul_comm] at this
  omega

theorem subsecond_lt (d : Duration) : d.subsecond < nanosPerSecond :=
  Nat.mod_lt _ (by decide)

/-- The digits of `rest / 10 ^ places` behind the point, without trailing zeros; a whole number has
no point. -/
def fractionText (rest places : Nat) : List Char :=
  if rest = 0 then []
  else
    let digits := Nat.toDigits 10 rest
    let padded := List.replicate (places - digits.length) '0' ++ digits
    '.' :: (padded.reverse.dropWhile (· == '0')).reverse

/-- The span in the largest of s, ms, µs and ns of which it has at least one. -/
def text (d : Duration) : String :=
  let inUnit (size places : Nat) (unit : String) : String :=
    toString (d.nanos / size) ++ String.ofList (fractionText (d.nanos % size) places) ++ unit
  if nanosPerSecond ≤ d.nanos then inUnit nanosPerSecond 9 "s"
  else if nanosPerMilli ≤ d.nanos then inUnit nanosPerMilli 6 "ms"
  else if 1000 ≤ d.nanos then inUnit 1000 3 "µs"
  else inUnit 1 0 "ns"

end Duration

end Fleet
