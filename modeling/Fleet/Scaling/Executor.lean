import Fleet.Scaling.Advisor

/-!
Decisions carried out by remote calls.
-/
namespace Fleet.Executor

def scaleUp (n : Nat) : Exchange (Except TickError Unit) := do
  match ← Exchange.call (.scale n) with
  | .ok _ => return .ok ()
  | .error e => return .error (.scaleUp n e)

/-- Drains workers and then removes them by force, as draining may leave them behind. A failure of
either step is passed over. -/
def scaleDown (workers : IdSet) : Exchange Unit :=
  if workers.isEmpty then return ()
  else do
    let _ ← Exchange.call (.retire (.close workers.toList))
    let _ ← Exchange.call (.scaleDown workers.toList)
    return ()

end Fleet.Executor
