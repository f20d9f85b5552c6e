import Fleet.Toml.Scalar
import Fleet.Toml.Table
import Fleet.Toml.Timestamp

/-!
The reader of settings files: tables under headers, keys with values, comments. What is nested too
deeply is refused.
-/
namespace Fleet.Toml

namespace Reader

def isSpace (c : Char) : Bool := c == ' ' || c == '\t'

def skipSpaces (s : List Char) : List Char := s.dropWhile isSpace

def isBareKeyChar (c : Char) : Bool := c.isAlphanum || c == '_' || c == '-'

/-- The characters of unquoted values. -/
def isWordChar (c : Char) : Bool := c.isAlphanum || c == '_' || c == '-' || c == '+' || c == '.'

/-- Reads on to the end of a line behind blanks and a comment. -/
def endOfLine? (s : List Char) : Option (List Char) :=
  let rest := match skipSpaces s with
    | '#' :: comment => comment.dropWhile Text.isPrintable
    | rest => rest
  match rest with
  | [] => some []
  | '\n' :: rest => some rest
  | '\r' :: '\n' :: rest => some rest
  | _ => none

/-- Passes over blanks, line breaks and comments; `fuel` bounds the number of lines. -/
def skipLines? : Nat → List Char → Option (List Char)
  | 0, s => some s
  | fuel + 1, s =>
    match skipSpaces s with
    | '\n' :: rest => skipLines? fuel rest
    | '\r' :: '\n' :: rest => skipLines? fuel rest
    | '#' :: rest => do skipLines? fuel (← endOfLine? ('#' :: rest))
    | rest => some rest

def simpleKey? : List Char → Option (String × List Char)
  | '"' :: rest => Text.basic .plain [] rest
  | '\'' :: rest => Text.literal [] rest
  | s =>
    let word := s.takeWhile isBareKeyChar
    if word = [] then none else some (String.ofList word, s.dropWhile isBareKeyChar)

/-- So many parts a key may have, and so deep may lists and tables between braces be nested. -/
def maxDepth : Nat := 79

/-- Reads at most `room` parts of a key and the points between them. The answer is the parts before
the last, the last one and what follows. -/
def parts? (room : Nat) (s : List Char) : Option (List String × String × List Char) :=
  match room with
  | 0 => none
  | room + 1 => do
    let (first, s) ← simpleKey? (skipSpaces s)
    match skipSpaces s with
    | '.' :: rest =>
      let (path, last, rest) ← parts? room rest
      return (first :: path, last, rest)
    | rest => return ([], first, rest)

def key? (s : List Char) : Option (List String × String × List Char) := parts? maxDepth s

/-- Reads a key and the equals sign behind it. -/
def assigned? (s : List Char) : Option (List String × String × List Char) := do
  let (path, last, s) ← key? s
  match s with
  | '=' :: rest => return (path, last, skipSpaces rest)
  | _ => none

mutual

/-- Reads one value, in which lists and tables are nested at most `room` deep; `fuel` bounds the
number of steps. -/
def value? (fuel room : Nat) (s : List Char) : Option (Json × List Char) :=
  match fuel with
  | 0 => none
  | fuel + 1 =>
    match s with
    | '"' :: '"' :: '"' :: rest =>
      (Text.longBasic .plain [] (Text.skipFirstBreak rest)).map fun (t, rest) => (.str t, rest)
    | '"' :: rest => (Text.basic .plain [] rest).map fun (t, rest) => (.str t, rest)
    | '\'' :: '\'' :: '\'' :: rest =>
      (Text.longLiteral [] (Text.skipFirstBreak rest)).map fun (t, rest) => (.str t, rest)
    | '\'' :: rest => (Text.literal [] rest).map fun (t, rest) => (.str t, rest)
    | '[' :: rest =>
      if room = 0 then none
      else (items? fuel (room - 1) rest).map fun (items, rest) => (.arr items, rest)
    | '\x7b' :: rest =>
      if room = 0 then none
      else
        match skipSpaces rest with
        | '\x7d' :: rest => some (.obj [], rest)
        | rest => (members? fuel (room - 1) [] rest).map fun (fields, rest) =>
          (.ofFields (fieldsToJson fields), rest)
    | s =>
      match Timestamp.read? s with
      | some (t, rest) => some (t.toJson, rest)
      | none => do return (← Scalar.ofWord? (s.takeWhile isWordChar), s.dropWhile isWordChar)

/-- Reads values and commas up to the closing bracket. A comma may stand behind the last value. -/
def items? (fuel room : Nat) (s : List Char) : Option (List Json × List Char) :=
  match fuel with
  | 0 => none
  | fuel + 1 => do
    match ← skipLines? fuel s with
    | ']' :: rest => return ([], rest)
    | s =>
      let (first, s) ← value? fuel room s
      match ← skipLines? fuel s with
      | ',' :: rest =>
        let (others, rest) ← items? fuel room rest
        return (first :: others, rest)
      | ']' :: rest => return ([first], rest)
      | _ => none

/-- Reads keys with values and commas up to the closing brace. No comma may stand behind the last
value. -/
def members? (fuel room : Nat) (fields : Fields) (s : List Char) : Option (Fields × List Char) :=
  match fuel with
  | 0 => none
  | fuel + 1 => do
    let (path, last, s) ← assigned? s
    let (v, s) ← value? fuel room s
    let fields ← fields.assign path last v .explicit
    match skipSpaces s with
    | ',' :: rest => members? fuel room fields rest
    | '\x7d' :: rest => return (fields, rest)
    | _ => none

end

/-- What has been read so far: the path of the last header and all tables. -/
structure State where
  header : List String
  fields : Fields

/-- Reads the header of a table up to its closing bracket. -/
def header? (s : List Char) (state : State) : Option (State × List Char) := do
  let (path, last, s) ← key? s
  match s with
  | ']' :: rest => return (⟨path ++ [last], ← state.fields.openTable path last⟩, rest)
  | _ => none

/-- Reads the header of a list of tables up to its closing brackets. -/
def listHeader? (s : List Char) (state : State) : Option (State × List Char) := do
  let (path, last, s) ← key? s
  match s with
  | ']' :: ']' :: rest => return (⟨path ++ [last], ← state.fields.openItem path last⟩, rest)
  | _ => none

def entry? (s : List Char) (state : State) : Option (State × List Char) := do
  let (path, last, s) ← assigned? s
  let (v, s) ← value? (2 * s.length + 2) maxDepth s
  return ({ state with fields := ← state.fields.assignUnder state.header path last v }, s)

/-- Reads line by line; `fuel` bounds the number of lines. -/
def lines? : Nat → List Char → State → Option State
  | 0, _, _ => none
  | fuel + 1, s, state =>
    match skipSpaces s with
    | [] => some state
    | '\n' :: rest => lines? fuel rest state
    | '\r' :: '\n' :: rest => lines? fuel rest state
    | '#' :: rest => do lines? fuel (← endOfLine? ('#' :: rest)) state
    | '[' :: '[' :: rest => do
      let (state, rest) ← listHeader? rest state
      lines? fuel (← endOfLine? rest) state
    | '[' :: rest => do
      let (state, rest) ← header? rest state
      lines? fuel (← endOfLine? rest) state
    | rest => do
      let (state, rest) ← entry? rest state
      lines? fuel (← endOfLine? rest) state

end Reader

/-- The object that a settings file stands for. A byte order mark at its start is passed over. -/
def ofText? (text : String) : Option Json := do
  let s := match text.toList with
    | '\ufeff' :: rest => rest
    | s => s
  let state ← Reader.lines? (s.length + 1) s ⟨[], []⟩
  return .ofFields (fieldsToJson state.fields)

end Fleet.Toml
