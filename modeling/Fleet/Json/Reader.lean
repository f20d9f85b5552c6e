import Fleet.Decimal.Numeral
import Fleet.Fault
import Fleet.Json.Basic
import Fleet.Text.Hex

/-!
The reader of free-form values. A whole number that fits no machine word, and a negative zero, is
read as a fraction, and fractions are read the fast way, which is not always exact.
-/
namespace Fleet.Json.Reader

def skipBlanks (s : List Char) : List Char :=
  s.dropWhile fun c => c == ' ' || c == '\n' || c == '\r' || c == '\t'

def escaped? : Char → Option Char
  | '"' => some '"'
  | '\\' => some '\\'
  | '/' => some '/'
  | 'b' => some '\x08'
  | 'f' => some '\x0c'
  | 'n' => some '\n'
  | 'r' => some '\r'
  | 't' => some '\t'
  | _ => none

/-- Reads up to the closing quote. `high` is the first half of a character written as two units of
sixteen bits, of which the second has to follow. -/
def stringBody (high : Option Nat) (read : List Char) :
    List Char → Option (String × List Char)
  | '"' :: rest =>
    match high with
    | none => some (String.ofList read.reverse, rest)
    | some _ => none
  | '\\' :: 'u' :: a :: b :: c :: d :: rest => do
    let unit ← Text.hexNumber? [a, b, c, d]
    match high with
    | some first =>
      if 0xdc00 ≤ unit && unit < 0xe000 then
        let code := 0x10000 + (first - 0xd800) * 0x400 + (unit - 0xdc00)
        stringBody none (Char.ofNat code :: read) rest
      else none
    | none =>
      if 0xd800 ≤ unit && unit < 0xdc00 then stringBody (some unit) read rest
      else if 0xdc00 ≤ unit && unit < 0xe000 then none
      else stringBody none (Char.ofNat unit :: read) rest
  | '\\' :: c :: rest => do
    let meant ← escaped? c
    if high.isSome then none else stringBody none (meant :: read) rest
  | c :: rest =>
    if c.toNat < 0x20 || high.isSome then none else stringBody none (c :: read) rest
  | [] => none

/-- The leading digits of a number, as many as fit a machine word, and the power of ten that they
are to be multiplied by. -/
structure Significand where
  digits : Nat
  exponent : Int

namespace Significand

/-- Reads the digits before the point. From the first one on that does not fit, digits only raise
the exponent. -/
def addWhole (s : Significand) : List Char → Significand
  | [] => s
  | d :: ds =>
    let longer := 10 * s.digits + Decimal.natOfDigits [d]
    if longer < Word.limit then addWhole { s with digits := longer } ds
    else { s with exponent := s.exponent + (d :: ds).length }

/-- Reads the digits behind the point, up to the first one that does not fit. -/
def addFraction (s : Significand) : List Char → Significand
  | [] => s
  | d :: ds =>
    let longer := 10 * s.digits + Decimal.natOfDigits [d]
    if longer < Word.limit then addFraction ⟨longer, s.exponent - 1⟩ ds else s

/-- The double for a number: its digits as a double, multiplied or divided by powers of ten that are
doubles. With rounding in each step it is not always the nearest one. Nothing if it is too large. -/
def toFloat? (s : Significand) : Option Float :=
  let x := (UInt64.ofNat s.digits).toFloat
  let power (n : Int) : Float := Decimal.toFloat 1 n
  if s.digits = 0 || s.exponent < -616 then some 0
  else if s.exponent < -308 then some (x / power 308 / power (-s.exponent - 308))
  else if s.exponent < 0 then some (x / power (-s.exponent))
  else if s.exponent ≤ 308 then
    let product := x * power s.exponent
    if product.isFinite then some product else none
  else none

end Significand

/-- The number that sign, whole part, fraction and exponent make. -/
def number (negative : Bool) (whole fraction : List Char) (exponent : Option Int) :
    Option Json :=
  let start := Significand.addWhole ⟨0, 0⟩ whole
  let asFloat := do
    let s := start.addFraction fraction
    let magnitude ← Significand.toFloat? { s with exponent := s.exponent + exponent.getD 0 }
    return float (if negative then -magnitude else magnitude)
  if fraction = [] && exponent = none && start.exponent = 0 then
    if negative then
      if start.digits = 0 || !Word.isSigned (-start.digits) then asFloat
      else some (int (-start.digits))
    else some (int start.digits)
  else asFloat

/-- An exponent behind a number, with its letter and sign. -/
def exponentPart : List Char → Option (Option Int × List Char)
  | c :: rest =>
    if c == 'e' || c == 'E' then
      let (negative, rest) := match rest with
        | '-' :: r => (true, r)
        | '+' :: r => (false, r)
        | r => (false, r)
      let digits := rest.takeWhile Char.isDigit
      if digits = [] then none
      else
        let n : Int := Decimal.natOfDigits digits
        some (some (if negative then -n else n), rest.dropWhile Char.isDigit)
    else some (none, c :: rest)
  | [] => some (none, [])

def numberText (s : List Char) : Option (Json × List Char) := do
  let (negative, s) := match s with
    | '-' :: rest => (true, rest)
    | rest => (false, rest)
  let whole := s.takeWhile Char.isDigit
  let s := s.dropWhile Char.isDigit
  if whole = [] || (1 < whole.length && whole.head? = some '0') then none
  let (fraction, s) ← match s with
    | '.' :: rest =>
      let digits := rest.takeWhile Char.isDigit
      if digits = [] then none else some (digits, rest.dropWhile Char.isDigit)
    | rest => some ([], rest)
  let (exponent, s) ← exponentPart s
  (number negative whole fraction exponent).map fun n => (n, s)

def keyword (word : List Char) (value : Json) (s : List Char) : Option (Json × List Char) :=
  if word.isPrefixOf s then some (value, s.drop word.length) else none

mutual

def value : Nat → List Char → Option (Json × List Char)
  | 0, _ => none
  | fuel + 1, s =>
    match skipBlanks s with
    | '{' :: rest =>
      match skipBlanks rest with
      | '}' :: rest => some (obj [], rest)
      | rest => (members fuel rest).map fun (fields, rest) => (ofFields fields, rest)
    | '[' :: rest =>
      match skipBlanks rest with
      | ']' :: rest => some (arr [], rest)
      | rest => (items fuel rest).map fun (values, rest) => (arr values, rest)
    | '"' :: rest => (stringBody none [] rest).map fun (text, rest) => (str text, rest)
    | 't' :: rest => keyword ['r', 'u', 'e'] (bool true) rest
    | 'f' :: rest => keyword ['a', 'l', 's', 'e'] (bool false) rest
    | 'n' :: rest => keyword ['u', 'l', 'l'] null rest
    | rest => numberText rest

def items : Nat → List Char → Option (List Json × List Char)
  | 0, _ => none
  | fuel + 1, s => do
    let (first, s) ← value fuel s
    match skipBlanks s with
    | ',' :: rest => (items fuel rest).map fun (others, rest) => (first :: others, rest)
    | ']' :: rest => some ([first], rest)
    | _ => none

def members : Nat → List Char → Option (List (String × Json) × List Char)
  | 0, _ => none
  | fuel + 1, s =>
    match skipBlanks s with
    | '"' :: rest => do
      let (name, s) ← stringBody none [] rest
      match skipBlanks s with
      | ':' :: rest => do
        let (first, s) ← value fuel rest
        match skipBlanks s with
        | ',' :: rest =>
          (members fuel rest).map fun (others, rest) => ((name, first) :: others, rest)
        | '}' :: rest => some ([(name, first)], rest)
        | _ => none
      | _ => none
    | _ => none

end

end Reader

/-- Reads a text that holds one value and nothing else but blanks. -/
def ofText? (s : String) : Option Json := do
  let chars := s.toList
  let (v, rest) ← Reader.value (2 * chars.length + 2) chars
  if (Reader.skipBlanks rest).isEmpty then some v else none

end Fleet.Json
