import Fleet.Dict

/-!
Free-form values: what crosses the wire between the parts of a fleet and what a settings file may
hold. Whole numbers and fractions are told apart.
-/
namespace Fleet

/-- A value of the wire format. The fields of an object ascend by name when it was read. -/
inductive Json where
  | null
  | bool (b : Bool)
  | int (n : Int)
  | float (x : Float)
  | str (s : String)
  | arr (items : List Json)
  | obj (fields : List (String × Json))
  deriving Inhabited

namespace Json

/-- The value of a field of an object; other values have no fields. -/
def field? : Json → String → Option Json
  | obj fields, name => Dict.lookup name fields
  | _, _ => none

/-- The object with the given fields, ordered by name; of two fields of one name the last counts. -/
def ofFields (fields : List (String × Json)) : Json := obj (Dict.ofList fields).entries

def ofDict (d : Dict Json) : Json := obj d.entries

def ofNat (n : Nat) : Json := int n

def ofStrings (l : List String) : Json := arr (l.map str)

def ofOption (encode : α → Json) : Option α → Json
  | none => null
  | some a => encode a

@[simp] theorem field?_obj (fields : List (String × Json)) (name : String) :
    (obj fields).field? name = Dict.lookup name fields := rfl

end Json

end Fleet
