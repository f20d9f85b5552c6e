import Fleet.Decimal.Shortest
import Fleet.Fault
import Fleet.Json.Basic

/-!
The text of settings files. Values of a table come first and its inner tables after them, each under
a header with its whole path; lists of tables become tables under double brackets, and other lists
of two or more take a line for each item. No run of quotes in a written text is longer than a byte
counts.
-/
namespace Fleet.Toml

/-- What decides on the quotes of a text. -/
structure Marks where
  /-- It holds control characters other than tabs and line breaks. -/
  controls : Bool
  backslash : Bool
  lineBreak : Bool
  /-- The longest runs of double and of single quotes. -/
  doubles : Nat
  singles : Nat

namespace Writer

/-- The length of the longest run of `c`, where `run` of them stand before the text. -/
def longestRun (c : Char) (run : Nat) : List Char → Nat
  | [] => run
  | d :: rest => if d = c then longestRun c (run + 1) rest else max run (longestRun c 0 rest)

def isControl (c : Char) : Bool := c.toNat < 0x20 || c.toNat == 0x7f

def marks (s : List Char) : Marks where
  controls := s.any fun c => isControl c && c != '\t' && c != '\n'
  backslash := s.contains '\\'
  lineBreak := s.contains '\n'
  doubles := longestRun '"' 0 s
  singles := longestRun '\'' 0 s

def hex4 (n : Nat) : List Char :=
  [n / 4096 % 16, n / 256 % 16, n / 16 % 16, n % 16].map fun d => (Nat.digitChar d).toUpper

/-- The characters between double quotes. Over several lines, line breaks stand for themselves, and
so do up to two double quotes in a row; `run` of them have gone before. -/
def escaped (long : Bool) (run : Nat) : List Char → List Char
  | [] => []
  | c :: rest =>
    if c = '"' then
      if long && run < 2 then '"' :: escaped long (run + 1) rest
      else '\\' :: '"' :: escaped long 0 rest
    else
      let written := match c with
        | '\\' => ['\\', '\\']
        | '\x08' => ['\\', 'b']
        | '\t' => ['\\', 't']
        | '\n' => if long then ['\n'] else ['\\', 'n']
        | '\x0c' => ['\\', 'f']
        | '\r' => ['\\', 'r']
        | c => if isControl c then '\\' :: 'u' :: hex4 c.toNat else [c]
      written ++ escaped long 0 rest

def basic (s : List Char) : List Char := '"' :: escaped false 0 s ++ ['"']

def literal (s : List Char) : List Char := '\'' :: s ++ ['\'']

/-- Text over several lines begins on a line of its own. -/
def long (quotes : List Char) (m : Marks) (s : List Char) : List Char :=
  quotes ++ (if m.lineBreak then ['\n'] else []) ++ s ++ quotes

def longBasic (m : Marks) (s : List Char) : List Char := long ['"', '"', '"'] m (escaped true 0 s)

/-- A text in the quotes that need the fewest escapes: double ones if nothing has to be escaped,
then single ones, then three double ones, then three single ones, and else double ones. -/
def string (text : String) : String :=
  let s := text.toList
  let m := marks s
  String.ofList <|
    if !m.controls && !m.backslash && m.doubles = 0 && !m.lineBreak then basic s
    else if !m.controls && m.singles = 0 && !m.lineBreak then literal s
    else if !m.controls && !m.backslash && m.doubles ≤ 2 then longBasic m s
    else if !m.controls && m.singles ≤ 2 then long ['\'', '\'', '\''] m s
    else if m.lineBreak then longBasic m s
    else basic s

/-- A key goes without quotes if it consists of letters, digits, underscores and hyphens. -/
def key (text : String) : String :=
  let s := text.toList
  let m := marks s
  let controls := s.any fun c => isControl c && c != '\t'
  if s ≠ [] && s.all (fun c => c.isAlphanum || c == '_' || c == '-') then text
  else String.ofList <|
    if !controls && !m.backslash && m.doubles = 0 then basic s
    else if !controls && m.singles = 0 then literal s
    else basic s

def keyPath (path : List String) : String := ".".intercalate (path.map key)

/-- Fractions are written in full, and of two equally near ones the upper is taken. -/
def floatFormat : Decimal.FloatFormat := ⟨none, .upper⟩

def float (x : Float) : String :=
  if x.isFinite then Decimal.floatText floatFormat x
  else if x.isNaN then "nan"
  else if x < 0 then "-inf"
  else "inf"

def isObject : Json → Bool
  | .obj _ => true
  | _ => false

def isTableList (items : List Json) : Bool := !items.isEmpty && items.all isObject

mutual

/-- A value behind an equals sign. Null and numbers past a signed word have no text. -/
def value? : Json → Option String
  | .null => none
  | .bool true => some "true"
  | .bool false => some "false"
  | .int n => if Word.isSigned n then some (toString n) else none
  | .float x => some (float x)
  | .str s => some (string s)
  | .arr items => do
    match ← values? items with
    | [] => return "[]"
    | [only] => return "[" ++ only ++ "]"
    | texts => return "[" ++ String.join (texts.map fun t => "\n    " ++ t ++ ",") ++ "\n]"
  | .obj [] => some "\x7b\x7d"
  | .obj (field :: fields) => do
    let texts ← inline? (field :: fields)
    return "\x7b " ++ ", ".intercalate texts ++ " \x7d"

def values? : List Json → Option (List String)
  | [] => some []
  | v :: rest => do return (← value? v) :: (← values? rest)

def inline? : List (String × Json) → Option (List String)
  | [] => some []
  | (name, v) :: rest => do return (key name ++ " = " ++ (← value? v)) :: (← inline? rest)

end

/-- A table of the file: its header and the lines of its values. -/
structure Section where
  header : String
  lines : List String

def body? : List (String × Json) → Option (List String)
  | [] => some []
  | (_, .obj _) :: rest => body? rest
  | (name, v) :: rest => do
    let others ← body? rest
    match v with
    | .arr items =>
      if isTableList items then return others
      else return (key name ++ " = " ++ (← value? v)) :: others
    | v => return (key name ++ " = " ++ (← value? v)) :: others

/-- A table without values of its own needs no header, unless it has no tables either. -/
def ownSection (header : String) (fields : List (String × Json)) (lines : List String) :
    List Section :=
  if lines = [] && fields ≠ [] then [] else [⟨header, lines⟩]

mutual

def sections? (path : List String) : Json → Option (List Section)
  | .obj fields => do
    let lines ← body? fields
    return ownSection ("[" ++ keyPath path ++ "]") fields lines ++ (← inner? path fields)
  | .arr items => if isTableList items then items? path items else some []
  | _ => some []

def inner? (path : List String) : List (String × Json) → Option (List Section)
  | [] => some []
  | (name, v) :: rest => do return (← sections? (path ++ [name]) v) ++ (← inner? path rest)

def items? (path : List String) : List Json → Option (List Section)
  | [] => some []
  | v :: rest => do
    match v with
    | .obj fields =>
      let lines ← body? fields
      let own := ⟨"[[" ++ keyPath path ++ "]]", lines⟩
      return own :: (← inner? path fields) ++ (← items? path rest)
    | _ => items? path rest

end

/-- Runs of quotes are counted in a byte. -/
def isCountable (text : String) : Bool :=
  let m := marks text.toList
  m.doubles < 256 && m.singles < 256

mutual

/-- Whether the runs of quotes can be counted in all texts of a value. Keys are not counted. -/
def hasCountableTexts : Json → Bool
  | .str s => isCountable s
  | .arr items => haveCountableTexts items
  | .obj fields => fieldsHaveCountableTexts fields
  | _ => true

def haveCountableTexts : List Json → Bool
  | [] => true
  | v :: rest => hasCountableTexts v && haveCountableTexts rest

def fieldsHaveCountableTexts : List (String × Json) → Bool
  | [] => true
  | (_, v) :: rest => hasCountableTexts v && fieldsHaveCountableTexts rest

end

def sectionText (s : Section) : String :=
  s.header ++ "\n" ++ String.join (s.lines.map fun l => l ++ "\n")

end Writer

inductive WriteError where
  /-- Null or a number past a signed word. -/
  | noText
  | fault (f : Fault)
  deriving DecidableEq

/-- The lines and sections of an object, if all its values have a text. Blank lines divide the
sections. -/
def text? (fields : List (String × Json)) : Option String := do
  let lines ← Writer.body? fields
  let sections ← Writer.inner? [] fields
  let top := String.join (lines.map fun l => l ++ "\n")
  let rest := "\n".intercalate (sections.map Writer.sectionText)
  return if lines = [] || sections.isEmpty then top ++ rest else top ++ "\n" ++ rest

/-- The settings file of an object. All values are looked at before any text is written. -/
def write (fields : List (String × Json)) : Except WriteError String :=
  match text? fields with
  | none => .error .noText
  | some text =>
    if Writer.fieldsHaveCountableTexts fields then .ok text else .error (.fault .sumTooLarge)

theorem write_eq_ok_iff {fields : List (String × Json)} {text : String} :
    write fields = .ok text ↔
      text? fields = some text ∧ Writer.fieldsHaveCountableTexts fields = true := by
  unfold write
  split <;> rename_i found
  · simp [found]
  · split <;> rename_i countable <;> simp [found, countable]

end Fleet.Toml
