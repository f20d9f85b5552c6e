import Fleet.Remote.ClusterHost
import Fleet.Scaling.Scaler
import Fleet.Scenario.Basic

/-!
Simulations: a scaler is taken through a scenario tick by tick, and the workers it asks for arrive
between the ticks.
-/
namespace Fleet

structure Deployment where
  settings : Settings
  scenario : Scenario

def Deployment.standard : Deployment := ⟨.standard, .standard⟩

namespace Simulation

inductive Failure where
  | settings (e : SettingsError)
  | remote (e : RemoteError)
  | fault (f : Fault)
  deriving DecidableEq

structure Report where
  history : History
  roster : Roster
  retired : Nat
  deriving DecidableEq

/-- The scaler and its cluster between two ticks. -/
structure State where
  scaler : Scaler
  cluster : Cluster

/-- Puts the load of a tick on the cluster, if the scenario has any. -/
def load (s : Scenario) (tick : Nat) (c : Cluster) : Except Failure Cluster :=
  match s.phaseAt tick with
  | .error f => .error (.fault f)
  | .ok none => .ok c
  | .ok (some p) => (p.apply c s.memoryLimit).mapError .remote

/-- One tick under load, after which the requested workers arrive. A tick that is broken off counts
like any other. -/
def step (s : Scenario) (tick : Nat) (state : State) : Except Failure State := do
  let cluster ← load s tick state.cluster
  match state.scaler.tick.run Cluster.host cluster with
  | (_, .error f) => throw (.fault f)
  | (cluster, .ok (scaler, _)) => return ⟨scaler, cluster.reconcile.arriveAll⟩

def steps (s : Scenario) : Nat → Nat → State → Except Failure State
  | 0, _, state => .ok state
  | count + 1, tick, state =>
    match step s tick state with
    | .error e => .error e
    | .ok state => steps s count (tick + 1) state

/-- Runs a scenario for a number of ticks, or for all ticks of its phases. -/
def run (d : Deployment) (ticks : Option Nat) : Except Failure Report := do
  let scaler ← (Scaler.ofSettings d.settings).mapError .settings
  let ticks ← match ticks with
    | some n => pure n
    | none => d.scenario.totalTicks.mapError .fault
  let final ← steps d.scenario ticks 0 ⟨scaler, d.scenario.cluster⟩
  return ⟨final.scaler.history, final.cluster.roster, final.cluster.retired.length⟩

end Simulation

end Fleet
