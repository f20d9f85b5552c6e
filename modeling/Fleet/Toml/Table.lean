import Fleet.Json.Basic

/-!
The tables of a settings file while it is being read. A table remembers how it came about, since a
header may open only what no other header and no dotted key has made, and a key is never given a
second value.
-/
namespace Fleet.Toml

inductive Origin where
  /-- By a header of its own or as a value. -/
  | explicit
  | implicit
  | dotted
  deriving DecidableEq

/-- An entry of a table. The tables of a list stand with the latest first. -/
inductive Node where
  | leaf (v : Json)
  | table (origin : Origin) (fields : List (String × Node))
  | list (tables : List (List (String × Node)))

abbrev Fields : Type := List (String × Node)

namespace Fields

/-- Gives the key its value in place of an earlier one, or appends it. -/
def put (fields : Fields) (key : String) (n : Node) : Fields :=
  match fields with
  | [] => [(key, n)]
  | (k, old) :: rest => if k = key then (k, n) :: rest else (k, old) :: put rest key n

/-- Appends a key that has no value yet. -/
def add? (fields : Fields) (key : String) (n : Node) : Option Fields :=
  match Dict.lookup key fields with
  | some _ => none
  | none => some (fields ++ [(key, n)])

/-- Changes the table at the end of a path. Tables that are missing on the way are made with the
origin `made`. A list stands for its latest table, and a dotted key enters no table that has a
header of its own. -/
def alter (made : Origin) (f : Origin → Fields → Option Fields) :
    List String → Origin → Fields → Option Fields
  | [], origin, fields => f origin fields
  | key :: path, _, fields =>
    match Dict.lookup key fields with
    | none => do return fields ++ [(key, .table made (← alter made f path made []))]
    | some (.leaf _) => none
    | some (.list []) => none
    | some (.list (latest :: earlier)) => do
      return fields.put key (.list ((← alter made f path .explicit latest) :: earlier))
    | some (.table origin sub) =>
      if made = .dotted && origin = .explicit then none
      else do return fields.put key (.table origin (← alter made f path origin sub))

/-- Gives a dotted key a value. The tables on its way have to be those of dotted keys. -/
def assign (path : List String) (key : String) (v : Json) (origin : Origin) (fields : Fields) :
    Option Fields :=
  alter .dotted (fun reached sub =>
    if path ≠ [] && reached ≠ .dotted then none else sub.add? key (.leaf v)) path origin fields

/-- Opens the table of a header. -/
def openTable (path : List String) (key : String) (fields : Fields) : Option Fields :=
  alter .implicit (fun _ sub =>
    match Dict.lookup key sub with
    | none => some (sub ++ [(key, .table .explicit [])])
    | some (.table .implicit inner) => some (sub.put key (.table .explicit inner))
    | some _ => none) path .explicit fields

/-- Begins another table in the list of a header. -/
def openItem (path : List String) (key : String) (fields : Fields) : Option Fields :=
  alter .implicit (fun _ sub =>
    match Dict.lookup key sub with
    | none => some (sub ++ [(key, .list [[]])])
    | some (.list tables) => some (sub.put key (.list ([] :: tables)))
    | some _ => none) path .explicit fields

/-- Gives a dotted key a value in the table that a header has opened. -/
def assignUnder (header path : List String) (key : String) (v : Json) (fields : Fields) :
    Option Fields :=
  alter .implicit (assign path key v) header .explicit fields

theorem add?_eq_none_of_lookup {fields : Fields} {key : String} {n m : Node}
    (h : Dict.lookup key fields = some m) : fields.add? key n = none := by
  simp [add?, h]

end Fields

mutual

def Node.toJson : Node → Json
  | .leaf v => v
  | .table _ fields => .ofFields (fieldsToJson fields)
  | .list tables => .arr (tablesToJson tables).reverse

def fieldsToJson : List (String × Node) → List (String × Json)
  | [] => []
  | (key, n) :: rest => (key, n.toJson) :: fieldsToJson rest

def tablesToJson : List (List (String × Node)) → List Json
  | [] => []
  | fields :: rest => .ofFields (fieldsToJson fields) :: tablesToJson rest

end

end Fleet.Toml
