import Fleet.Decimal.Rounding
import Fleet.Json.Basic

/-!
Steps of reading typed values from free-form ones. A field that is not asked for is passed over, and
a list that stands for a record gives a field the item at the same place.
-/
namespace Fleet.Json

/-- Where a free-form value comes from. What stands for a typed value differs a little. -/
inductive Form where
  | wire
  | file
  deriving DecidableEq

/-- A whole number below `bound`. -/
def nat? (bound : Nat) : Json → Option Nat
  | int n => if 0 ≤ n && n < bound then some n.toNat else none
  | _ => none

def str? : Json → Option String
  | str s => some s
  | _ => none

def bool? : Json → Option Bool
  | bool b => some b
  | _ => none

/-- A fraction; a whole number is taken for one. -/
def float? : Json → Option Float
  | float x => some x
  | int n =>
    let magnitude := Decimal.nearestFloat n.natAbs
    some (if n < 0 then -magnitude else magnitude)
  | _ => none

def list? {α : Type} (read : Json → Option α) : Json → Option (List α)
  | arr items => items.mapM read
  | _ => none

def strings? : Json → Option (List String) := list? str?

def dict? {α : Type} (read : Json → Option α) : Json → Option (Dict α)
  | obj fields =>
    (fields.mapM fun field : String × Json => (read field.2).map (field.1, ·)).map Dict.ofList
  | _ => none

/-- An object as it is, whatever it holds. -/
def free? : Json → Option (Dict Json) := dict? some

/-- Null stands for no value. -/
def nullable? {α : Type} (read : Json → Option α) : Json → Option (Option α)
  | null => some none
  | v => (read v).map some

/-- What stands behind the name of a case that has no data: null, or in a file, where there is no
null, an empty object or list. -/
def Form.isNoData : Form → Json → Bool
  | .wire, null => true
  | .file, obj [] => true
  | .file, arr [] => true
  | _, _ => false

/-- The name of a case without data: a text, or an object that maps the name to no data. -/
def case? (form : Form) : Json → Option String
  | str name => some name
  | obj [(name, v)] => if form.isNoData v then some name else none
  | _ => none

def required {α : Type} (v : Json) (name : String) (read : Json → Option α) : Option α :=
  (v.field? name).bind read

def optional {α : Type} (v : Json) (name : String) (otherwise : α) (read : Json → Option α) :
    Option α :=
  match v.field? name with
  | some w => read w
  | none => some otherwise

/-- A record with the given fields. It may also be a list of their values in that order, which may
end early. Items past the last field do not count in a file, and make a list on the wire no record.
-/
def record? (form : Form) (names : List String) : Json → Option Json
  | obj fields => some (obj fields)
  | arr items =>
    if form = .file || items.length ≤ names.length then some (obj (names.zip items)) else none
  | _ => none

@[simp] theorem record?_obj (form : Form) (names : List String) (fields : List (String × Json)) :
    record? form names (obj fields) = some (obj fields) := rfl

theorem lookup_zip {names : List String} (items : List Json) (distinct : names.Nodup) {i : Nat}
    (h : i < names.length) : Dict.lookup names[i] (names.zip items) = items[i]? := by
  induction names generalizing items i with
  | nil => simp at h
  | cons name rest ih =>
    have ⟨fresh, distinct⟩ := List.nodup_cons.1 distinct
    cases items with
    | nil => rfl
    | cons first items =>
      cases i with
      | zero => simp [Dict.lookup]
      | succ i =>
        have inside : i < rest.length := Nat.lt_of_succ_lt_succ h
        have : name ≠ rest[i] := fun e => fresh (e ▸ List.getElem_mem inside)
        simpa [Dict.lookup, this] using ih items distinct inside

theorem field?_of_list {form : Form} {names : List String} {items : List Json} {v : Json}
    (distinct : names.Nodup) (h : record? form names (arr items) = some v) {i : Nat}
    (inside : i < names.length) : v.field? names[i] = items[i]? := by
  obtain ⟨-, hv⟩ := Option.ite_none_right_eq_some.1 h
  rw [← Option.some.inj hv]
  exact lookup_zip items distinct inside

end Fleet.Json
