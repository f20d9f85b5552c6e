import Fleet.Cluster.Basic

/-!
Scaling: a cluster is asked to plan for a number of workers. Growing invents names that the plan
does not hold; shrinking gives up workers that are not connected before connected ones.
-/
namespace Fleet.Cluster

def nextName (c : Cluster) : Id := c.name ++ "-worker-" ++ toString c.nextId

/-- Plans the next worker and enters it under a launch. A name that the plan holds already is used
up without the plan growing. -/
def planNext (c : Cluster) (batch : Nat) : Cluster :=
  { c with
    nextId := c.nextId + 1
    batches := c.batches.insert c.nextName batch
    plan := c.plan.insert c.nextName }

/-- Plans workers until there are `n`, looking at `tries` names at most. -/
def planUpTo (batch n : Nat) : Nat → Cluster → Cluster
  | 0, c => c
  | tries + 1, c =>
    if c.plan.size < n then planUpTo batch n tries (c.planNext batch) else c

/-- Grows the plan to `n` workers, all of one launch. Every name looked at either adds to the plan
or is one of it, so `n` names are enough. -/
def grow (c : Cluster) (n : Nat) : Cluster :=
  planUpTo c.nextBatch n n { c with nextBatch := c.nextBatch + 1 }

/-- The planned workers in the order in which they are given up: those that are not connected by
ascending name, then the connected ones by descending name. -/
def surplus (c : Cluster) : List Id :=
  c.plan.toList.filter (fun id => !c.workers.contains id) ++
    c.plan.toList.reverse.filter (fun id => c.workers.contains id)

/-- Gives up planned workers until `n` are left. -/
def shrink (c : Cluster) (n : Nat) : Cluster :=
  { c with plan := c.plan.eraseAll (c.surplus.take (c.plan.size - n)) }

def scale (c : Cluster) (n : Nat) : Except RemoteError Cluster :=
  if c.status.isRunning then
    .ok (if c.plan.size < n then c.grow n else c.shrink n)
  else .error .notRunning

/-! ### What scaling leaves alone -/

theorem planUpTo_requested (batch n tries : Nat) (c : Cluster) :
    (planUpTo batch n tries c).requested = c.requested := by
  induction tries generalizing c with
  | zero => rfl
  | succ tries ih => unfold planUpTo; split <;> simp [ih, planNext]

theorem planUpTo_workers (batch n tries : Nat) (c : Cluster) :
    (planUpTo batch n tries c).workers = c.workers := by
  induction tries generalizing c with
  | zero => rfl
  | succ tries ih => unfold planUpTo; split <;> simp [ih, planNext]

theorem plan_subset_planUpTo (batch n tries : Nat) (c : Cluster) {x : Id} (h : x ∈ c.plan) :
    x ∈ (planUpTo batch n tries c).plan := by
  induction tries generalizing c with
  | zero => exact h
  | succ tries ih =>
    unfold planUpTo
    split
    · exact ih _ (by simp [planNext, h])
    · exact h

end Fleet.Cluster
