import Fleet.Json.Writer

/-!
The indented text of free-form values: an entry on each line, two blanks deeper than what it is
in. What has no entries stays on one line.
-/
namespace Fleet.Json.Indented

/-- A new line with the indentation of a depth. -/
def newLine (depth : Nat) : String := String.ofList ('\n' :: List.replicate (2 * depth) ' ')

mutual

def value (depth : Nat) : Json → String
  | arr [] => "[]"
  | arr (first :: rest) =>
    "[" ++ newLine (depth + 1) ++ value (depth + 1) first ++ items (depth + 1) rest ++
      newLine depth ++ "]"
  | obj [] => "\x7b\x7d"
  | obj ((name, first) :: rest) =>
    "\x7b" ++ newLine (depth + 1) ++ Writer.string name ++ ": " ++ value (depth + 1) first ++
      fields (depth + 1) rest ++ newLine depth ++ "\x7d"
  | v => v.text

def items (depth : Nat) : List Json → String
  | [] => ""
  | first :: rest => "," ++ newLine depth ++ value depth first ++ items depth rest

def fields (depth : Nat) : List (String × Json) → String
  | [] => ""
  | (name, first) :: rest =>
    "," ++ newLine depth ++ Writer.string name ++ ": " ++ value depth first ++ fields depth rest

end

end Indented

def indented (v : Json) : String := Indented.value 0 v

end Fleet.Json
