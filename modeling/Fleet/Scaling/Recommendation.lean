import Fleet.IdSet

/-!
What the scaling loop decides to do.
-/
namespace Fleet

inductive Recommendation where
  | same
  | up (n : Nat)
  | down (workers : IdSet)
  deriving DecidableEq, Inhabited

end Fleet
