/-!
Tasks of the graph that the scheduler works through.
-/
namespace Fleet

inductive TaskState where
  | released
  | waiting
  | noWorker
  | queued
  | processing
  | memory
  | erred
  | forgotten
  deriving DecidableEq

/-- The task can run now or soon, and so counts as backlog. -/
def TaskState.isUnblocked : TaskState → Bool
  | noWorker | waiting | processing => true
  | _ => false

/-- One task, the keys of the tasks that need it and its expected length in milliseconds. -/
structure Task where
  key : String
  state : TaskState
  dependents : List String
  expectedMillis : Option Nat
  deriving DecidableEq

def Task.isUnblocked (t : Task) : Bool := t.state.isUnblocked

end Fleet
