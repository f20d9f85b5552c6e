import Fleet.Remote.Call

/-!
Disturbances of remote calls, one for each method at most, and estimates that are played from a
list.
-/
namespace Fleet

/-- How the calls of one method are disturbed. -/
structure Outage (α : Type) where
  /-- For how many more calls; without a number, for all. -/
  remaining : Option Nat
  /-- A call with a time limit is never answered. -/
  hangs : Bool
  /-- Milliseconds until anything else happens. -/
  delay : Nat
  error : Option RemoteError
  /-- The call succeeds with this answer and without any effect. -/
  value : Option α

def Outage.next? {α : Type} (o : Outage α) : Option (Outage α) :=
  match o.remaining with
  | none => some o
  | some n => if n ≤ 1 then none else some { o with remaining := some (n - 1) }

def Outages : Type := (m : Method) → Option (Outage m.Result)

namespace Outages

def none : Outages := fun _ => Option.none

def set (outages : Outages) (m : Method) (o : Option (Outage m.Result)) : Outages := fun other =>
  if same : m = other then same ▸ o else outages other

@[simp] theorem set_same (outages : Outages) (m : Method) (o : Option (Outage m.Result)) :
    outages.set m o m = o := by simp [set]

theorem set_other (outages : Outages) {m other : Method} (o : Option (Outage m.Result))
    (h : m ≠ other) : outages.set m o other = outages other := by simp [set, h]

end Outages

/-- One estimate of a list, and the milliseconds it takes. -/
structure ScriptedEstimate where
  delay : Nat
  answer : Except RemoteError Nat

/-- The first estimate of a list, and the list for the next time; the last one stays. -/
def ScriptedEstimate.take? :
    List ScriptedEstimate → Option (ScriptedEstimate × List ScriptedEstimate)
  | [] => none
  | [last] => some (last, [last])
  | first :: rest => some (first, rest)

end Fleet
