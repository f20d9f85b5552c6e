import Fleet.Decimal.Numeral
import Fleet.Fault
import Fleet.Json.Basic
import Fleet.Toml.Text

/-!
Unquoted values of a settings file: numbers and truth values. A number may have single underscores
between its digits.
-/
namespace Fleet.Toml.Scalar

/-- The digits of a run of digits and underscores in which every underscore stands between two
digits. -/
def digits? (isDigit : Char → Bool) : List Char → Option (List Char)
  | [] => none
  | [c] => if isDigit c then some [c] else none
  | c :: '_' :: rest => if isDigit c then (digits? isDigit rest).map (c :: ·) else none
  | c :: rest => if isDigit c then (digits? isDigit rest).map (c :: ·) else none

/-- Whole numbers are 64-bit words with a sign. -/
def int? (n : Int) : Option Json :=
  if Word.isSigned n then some (.int n) else none

/-- The number with the given digits in a base of up to sixteen. -/
def inBase? (base : Nat) (s : List Char) : Option Json := do
  let isDigit (c : Char) : Bool := match Text.hexDigit? c with
    | some n => n < base
    | none => false
  let digits ← digits? isDigit s
  int? (digits.foldl (fun n c => base * n + (Text.hexDigit? c).getD 0) 0 : Nat)

def isExponentMark (c : Char) : Bool := c == 'e' || c == 'E'

def sign : List Char → Bool × List Char
  | '-' :: rest => (true, rest)
  | '+' :: rest => (false, rest)
  | rest => (false, rest)

/-- The number behind the mark of an exponent. -/
def exponent? (s : List Char) : Option Int := do
  let (negative, s) := sign s
  let n : Int := Decimal.natOfDigits (← digits? Char.isDigit s)
  return if negative then -n else n

/-- A fraction; what is too large has no value, unless it is negative. -/
def float? (negative : Bool) (whole fraction : List Char) (exponent : Int) : Option Json :=
  let x := Decimal.toFloat (Decimal.natOfDigits (whole ++ fraction)) (exponent - fraction.length)
  if negative then some (.float (-x))
  else if x.isFinite then some (.float x)
  else none

/-- A number in base ten, with a point and an exponent or without. -/
def decimal? (negative : Bool) (s : List Char) : Option Json := do
  let isWhole (c : Char) : Bool := c.isDigit || c == '_'
  let whole ← digits? Char.isDigit (s.takeWhile isWhole)
  if 1 < whole.length && whole.head? = some '0' then none
  match s.dropWhile isWhole with
  | [] =>
    let n : Int := Decimal.natOfDigits whole
    int? (if negative then -n else n)
  | '.' :: rest =>
    let fraction ← digits? Char.isDigit (rest.takeWhile isWhole)
    match rest.dropWhile isWhole with
    | [] => float? negative whole fraction 0
    | e :: rest =>
      if isExponentMark e then float? negative whole fraction (← exponent? rest) else none
  | e :: rest => if isExponentMark e then float? negative whole [] (← exponent? rest) else none

def infinity : Float := 1 / 0

def ofWord? (s : List Char) : Option Json :=
  match s with
  | ['t', 'r', 'u', 'e'] => some (.bool true)
  | ['f', 'a', 'l', 's', 'e'] => some (.bool false)
  | '0' :: 'x' :: rest => inBase? 16 rest
  | '0' :: 'o' :: rest => inBase? 8 rest
  | '0' :: 'b' :: rest => inBase? 2 rest
  | s =>
    match sign s with
    | (negative, ['i', 'n', 'f']) => some (.float (if negative then -infinity else infinity))
    | (_, ['n', 'a', 'n']) => some (.float (infinity - infinity))
    | (negative, rest) => decimal? negative rest

end Fleet.Toml.Scalar
