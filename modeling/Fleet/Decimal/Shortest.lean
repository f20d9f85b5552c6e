import Fleet.Decimal.Rounding

/-!
The shortest decimal that reads back as a given double. The main definition takes the interval of
reals that round to the double and searches ever finer decimal grids for a point inside it.
-/
namespace Fleet.Decimal

/-- The sign bit of a double, two to the 63rd. -/
def signBit : Nat := 9223372036854775808

/-- The number `mantissa * 2 ^ exponent`. The doubles around it are one unit of the mantissa away;
`narrow` says that the one below is only half a unit away. -/
structure Binary where
  mantissa : Nat
  exponent : Int
  narrow : Bool
  deriving DecidableEq

def Binary.ofBits (bits : UInt64) : Binary :=
  let n := bits.toNat
  let field : Nat := n / hiddenBit % 2048
  let fraction : Nat := n % hiddenBit
  if field = 0 then ⟨fraction, -1074, false⟩
  else ⟨hiddenBit + fraction, (field : Int) - 1075, fraction == 0 && field != 1⟩

/-- A decimal `digits * 10 ^ exponent`. -/
structure Scaled where
  digits : Nat
  exponent : Int
  deriving DecidableEq

/-- The reals that round to a number, in quarters of its last place: the number, the ends of the
interval and their common denominator. Both ends belong to it iff the mantissa is even. -/
structure Interval where
  centre : Nat
  low : Nat
  high : Nat
  denominator : Nat
  closed : Bool

def Binary.interval (b : Binary) : Interval :=
  let quarter := b.exponent - 2
  let factor := Nat.pow 2 quarter.toNat
  { centre := 4 * b.mantissa * factor
    low := (4 * b.mantissa - if b.narrow then 1 else 2) * factor
    high := (4 * b.mantissa + 2) * factor
    denominator := Nat.pow 2 (-quarter).toNat
    closed := b.mantissa % 2 == 0 }

/-- An exponent `k` with `centre < 10 ^ k`, at most two above the least. -/
def Interval.magnitude (i : Interval) : Int :=
  if i.denominator ≤ i.centre then (Nat.toDigits 10 (i.centre / i.denominator)).length
  else 2 - (Nat.toDigits 10 (i.denominator / i.centre)).length

/-- Which of two decimals at the same distance is taken. -/
inductive Tie where
  | even
  | upper
  deriving DecidableEq

/-- The choice between a number and the one after it. -/
def Tie.choose (tie : Tie) (below : Nat) : Nat :=
  match tie with
  | even => if below % 2 = 0 then below else below + 1
  | upper => below + 1

/-- The multiple of `10 ^ exponent` in the interval that is nearest to its centre, looked for among
the two neighbours of the centre. -/
def Interval.nearest? (tie : Tie) (i : Interval) (exponent : Int) : Option Nat :=
  let up := Nat.pow 10 (-exponent).toNat
  let step := i.denominator * Nat.pow 10 exponent.toNat
  let centre := i.centre * up
  let inside (v : Nat) : Bool :=
    if i.closed then i.low * up ≤ v && v ≤ i.high * up else i.low * up < v && v < i.high * up
  let below := centre / step
  let above := below + 1
  match inside (below * step), inside (above * step) with
  | false, false => none
  | true, false => some below
  | false, true => some above
  | true, true =>
    let left := centre - below * step
    let right := above * step - centre
    if left < right then some below
    else if right < left then some above
    else some (tie.choose below)

def stripZeros : Nat → Nat → Int → Scaled
  | 0, digits, exponent => ⟨digits, exponent⟩
  | fuel + 1, digits, exponent =>
    if digits ≠ 0 && digits % 10 = 0 then stripZeros fuel (digits / 10) (exponent + 1)
    else ⟨digits, exponent⟩

/-- The decimal with the fewest digits that rounds to `b`, and of those the nearest one. -/
def shortest (tie : Tie) (b : Binary) : Scaled :=
  if b.mantissa = 0 then ⟨0, 0⟩
  else
    let i := b.interval
    let found := (List.range 20).findSome? fun places =>
      let exponent := i.magnitude - (places + 1 : Nat)
      (i.nearest? tie exponent).map fun digits => stripZeros 20 digits exponent
    found.getD ⟨0, 0⟩

structure FloatFormat where
  /-- From and up to which power of ten it goes without an exponent. Without bounds it is always
  written in full. -/
  bounds : Option (Int × Int)
  tie : Tie

/-- The digits of a positive decimal, laid out. -/
def layOut (format : FloatFormat) (s : Scaled) : List Char :=
  let digits := Nat.toDigits 10 s.digits
  let point : Int := digits.length + s.exponent
  let full := match format.bounds with
    | none => true
    | some (least, most) => least < point && point ≤ most
  if full then
    if 0 ≤ s.exponent then digits ++ List.replicate s.exponent.toNat '0' ++ ['.', '0']
    else if 0 < point then digits.take point.toNat ++ '.' :: digits.drop point.toNat
    else '0' :: '.' :: List.replicate (-point).toNat '0' ++ digits
  else
    let tail := if digits.length = 1 then [] else '.' :: digits.drop 1
    digits.take 1 ++ tail ++ 'e' :: (toString (point - 1)).toList

def floatText (format : FloatFormat) (x : Float) : String :=
  let sign := if x.toBits.toNat < signBit then [] else ['-']
  let b := Binary.ofBits x.toBits
  let magnitude := if b.mantissa = 0 then ['0', '.', '0'] else layOut format (shortest format.tie b)
  String.ofList (sign ++ magnitude)

end Fleet.Decimal
