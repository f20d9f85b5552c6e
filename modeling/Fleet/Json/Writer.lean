import Fleet.Decimal.Shortest
import Fleet.Json.Basic

/-!
The compact text of free-form values. A fraction is written with the fewest digits that read back,
always with a point or an exponent; one that is not finite is written as null.
-/
namespace Fleet.Json

/-- Fractions are written in full from `0.00001` up to below `10 ^ 16`. -/
def floatFormat : Decimal.FloatFormat := ⟨some (-5, 16), .even⟩

namespace Writer

def escape (c : Char) : List Char :=
  match c with
  | '"' => ['\\', '"']
  | '\\' => ['\\', '\\']
  | '\n' => ['\\', 'n']
  | '\r' => ['\\', 'r']
  | '\t' => ['\\', 't']
  | '\x08' => ['\\', 'b']
  | '\x0c' => ['\\', 'f']
  | c =>
    if c.toNat < 0x20 then
      ['\\', 'u', '0', '0', Nat.digitChar (c.toNat / 16), Nat.digitChar (c.toNat % 16)]
    else [c]

def string (s : String) : String := String.ofList ('"' :: s.toList.flatMap escape ++ ['"'])

mutual

/-- Writes a value behind the text `out`. -/
def value (out : String) : Json → String
  | null => out ++ "null"
  | bool true => out ++ "true"
  | bool false => out ++ "false"
  | int n => out ++ toString n
  | float x => out ++ if x.isFinite then Decimal.floatText floatFormat x else "null"
  | str s => out ++ string s
  | arr [] => out ++ "[]"
  | arr (first :: rest) => (items (value (out ++ "[") first) rest) ++ "]"
  | obj [] => out ++ "\x7b\x7d"
  | obj ((name, first) :: rest) =>
    (fields (value (out ++ "\x7b" ++ string name ++ ":") first) rest) ++ "\x7d"

def items (out : String) : List Json → String
  | [] => out
  | first :: rest => items (value (out ++ ",") first) rest

def fields (out : String) : List (String × Json) → String
  | [] => out
  | (name, first) :: rest => fields (value (out ++ "," ++ string name ++ ":") first) rest

end

end Writer

def text (v : Json) : String := Writer.value "" v

end Fleet.Json
