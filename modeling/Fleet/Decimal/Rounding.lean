/-!
Rounding of exact quotients: to the nearest integer, to the nearest number with a binary
significand of 53 digits, and to the nearest double. Ties go to the even neighbour.
-/
namespace Fleet.Decimal

/-- The nearest integer; a tie goes to the even one. -/
def roundHalfEven (x : Rat) : Int :=
  let below := x.floor
  let rest := x - below
  if rest < 1 / 2 then below
  else if 1 / 2 < rest then below + 1
  else if below % 2 = 0 then below
  else below + 1

/-- The leading bit of a double's significand, two to the 52nd. Doubles do not store it. -/
def hiddenBit : Nat := 4503599627370496

/-- The exponent `e` for which `2 ^ 52 ≤ x / 2 ^ e < 2 ^ 53`, for a positive `x`. -/
def binade (x : Rat) : Int :=
  let estimate := (x.num.natAbs.log2 : Int) - x.den.log2 - 52
  if x < hiddenBit * (2 : Rat) ^ estimate then estimate - 1 else estimate

/-- The nearest number whose binary significand has at most 53 digits, whatever its exponent. -/
def roundSignificand (x : Rat) : Rat :=
  if x ≤ 0 then 0
  else
    let scale := (2 : Rat) ^ binade x
    roundHalfEven (x / scale) * scale

@[simp] theorem roundSignificand_zero : roundSignificand 0 = 0 := rfl

/-- The bits of the double nearest to a number that is not negative. Doubles that follow one another
have bits that follow one another, so a significand that is rounded up to `2 ^ 53` is the first one
of the next binade; numbers below `2 ^ (-1022)` share the binade of that one. -/
def nearestBits (x : Rat) : Nat :=
  if x ≤ 0 then 0
  else
    let exponent := max (binade x) (-1074)
    let significand := (roundHalfEven (x / (2 : Rat) ^ exponent)).toNat
    if exponent = -1074 then significand
    else
      let infinity := 2047 * hiddenBit
      if 971 < exponent then infinity
      else min infinity ((exponent + 1074).toNat * hiddenBit + significand)

def nearestFloat (x : Rat) : Float := Float.ofBits (UInt64.ofNat (nearestBits x))

end Fleet.Decimal
