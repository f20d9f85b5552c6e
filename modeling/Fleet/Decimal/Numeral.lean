import Fleet.Decimal.Rounding

/-!
Decimal numerals: the number that digits with at most one point stand for, and the double nearest to
a numeral with an exponent.
-/
namespace Fleet.Decimal

def natOfDigits (ds : List Char) : Nat :=
  ds.foldl (fun n d => 10 * n + (d.toNat - '0'.toNat)) 0

def ofParts (whole fraction : List Char) : Rat :=
  natOfDigits (whole ++ fraction) / Nat.pow 10 fraction.length

/-- Reads digits with at most one point among, before or after them. -/
def numeral? (s : List Char) : Option Rat :=
  let whole := s.takeWhile Char.isDigit
  match s.dropWhile Char.isDigit with
  | [] => if whole = [] then none else some (ofParts whole [])
  | '.' :: fraction =>
    if fraction.all Char.isDigit && !(whole ++ fraction).isEmpty then
      some (ofParts whole fraction)
    else none
  | _ => none

/-- The double nearest to `mantissa * 10 ^ exponent`. From `10 ^ 310` on it is infinite, and below
`10 ^ (-400)` it is zero. -/
def toFloat (mantissa : Nat) (exponent : Int) : Float :=
  let magnitude : Int := (Nat.toDigits 10 mantissa).length + exponent
  if mantissa = 0 || magnitude < -400 then 0
  else if 310 < magnitude then 1 / 0
  else nearestFloat (mantissa * (10 : Rat) ^ exponent)

end Fleet.Decimal
