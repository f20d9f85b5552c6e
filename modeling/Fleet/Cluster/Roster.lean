import Fleet.IdSet

/-!
What a cluster shows of itself at one moment: its status and its three sets of workers.
-/
namespace Fleet

inductive Status where
  | created
  | running
  | closing
  | closed
  deriving DecidableEq, Inhabited

def Status.isRunning : Status → Bool
  | created | running => true
  | closing | closed => false

/-- The workers a cluster wants, the workers it has asked for and the workers that are there. -/
structure Roster where
  plan : IdSet
  requested : IdSet
  observed : IdSet
  deriving DecidableEq

namespace Roster

def isReconciled (r : Roster) : Bool := r.plan.size == r.requested.size

def pending (r : Roster) : IdSet := r.requested.diff r.observed

@[simp] theorem mem_pending {r : Roster} {x : Id} :
    x ∈ r.pending ↔ x ∈ r.requested ∧ ¬ x ∈ r.observed := IdSet.mem_diff

end Roster

/-- What can be read of a cluster without a remote call. -/
structure View where
  status : Status
  roster : Roster
  deriving DecidableEq

end Fleet
