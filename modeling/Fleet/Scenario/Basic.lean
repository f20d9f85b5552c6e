import Fleet.Fault
import Fleet.Scenario.Phase

/-!
Scenarios: a cluster to begin with and the phases it goes through. The phase at a tick is found
without laying the phases out tick by tick.
-/
namespace Fleet

/-- The cluster at the start and the load over time. -/
structure Scenario where
  name : String
  workers : Nat
  memoryLimit : Nat
  phases : List Phase

namespace Scenario

/-- One worker with four gibibytes, under no load. -/
def standard : Scenario := ⟨"local", 1, 4 * 1024 * 1024 * 1024, [.standard]⟩

/-- The worker with the given number among those of the start. -/
def seed (s : Scenario) (i : Nat) : Worker :=
  { Worker.idle (s.name ++ "-seed-" ++ toString i) 0 s.memoryLimit with host := "127.0.0.1" }

def cluster (s : Scenario) : Cluster :=
  (List.range s.workers).foldl (fun c i => c.addWorker (s.seed i))
    (Cluster.create s.name s.memoryLimit)

/-- The phases, each as often as it has ticks. -/
def schedule (s : Scenario) : List Phase := s.phases.flatMap fun p => List.replicate p.ticks p

/-- The first phase that is not over at `tick`, where the first of the list begins at `start`. Tick
numbers are 32-bit words. -/
def phaseFrom (tick start : Nat) : List Phase → Except Fault (Option Phase)
  | [] => .ok none
  | p :: rest =>
    if start + p.ticks < Word.shortLimit then
      if tick < start + p.ticks then .ok (some p) else phaseFrom tick (start + p.ticks) rest
    else .error .sumTooLarge

/-- The phase at a tick, counted from zero; the last phase never ends. -/
def phaseAt (s : Scenario) (tick : Nat) : Except Fault (Option Phase) := do
  return (← phaseFrom tick 0 s.phases).or s.phases.getLast?

def totalTicks (s : Scenario) : Except Fault Nat :=
  Word.sum Word.shortLimit (s.phases.map Phase.ticks)

end Scenario

end Fleet
