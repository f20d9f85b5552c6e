import Fleet.Cluster.Request
import Fleet.Duration.Reader
import Fleet.Fault
import Fleet.Text.Quoted

/-!
How a fleet is to be scaled: the settings as they are written, and the policy that valid settings
make.
-/
namespace Fleet

/-- How the number of workers is estimated and where candidates for removal come from. -/
inductive Strategy where
  /-- The scheduler says how many workers work off the queue in time. -/
  | duration
  /-- The target follows from the backlog and the use of memory. -/
  | queue
  deriving DecidableEq, Inhabited

def Strategy.name : Strategy → String
  | duration => "duration"
  | queue => "queue"

/-- The settings as they are written. Durations are texts, and without a maximum the number of
workers has no upper bound. -/
structure Settings where
  interval : String
  minimum : Nat
  maximum : Option Nat
  waitCount : Nat
  targetDuration : String
  reconcileTimeout : String
  strategy : Strategy
  workerKey : Option GroupKey
  closeOptions : Dict Json

def Settings.standard : Settings where
  interval := "1s"
  minimum := 0
  maximum := none
  waitCount := 3
  targetDuration := "5s"
  reconcileTimeout := "30s"
  strategy := .duration
  workerKey := none
  closeOptions := ∅

inductive SettingsError where
  | invalidDuration (text : String)
  | bounds (minimum maximum : Nat)
  | waitCount
  | zeroInterval
  deriving DecidableEq

def SettingsError.message : SettingsError → String
  | invalidDuration text => "invalid duration: " ++ Text.quoted text
  | bounds minimum maximum =>
    "minimum (" ++ toString minimum ++ ") is greater than maximum (" ++ toString maximum ++ ")"
  | waitCount => "wait_count must be at least 1"
  | zeroInterval => "interval must be greater than zero"

/-- Valid settings, with their durations read and their bounds filled in. -/
structure Policy where
  interval : Duration
  minimum : Nat
  maximum : Nat
  waitCount : Nat
  targetDuration : Duration
  reconcileTimeout : Duration
  strategy : Strategy
  workerKey : Option GroupKey
  closeOptions : Dict Json

namespace Policy

def standard : Policy where
  interval := .ofSeconds 1
  minimum := 0
  maximum := Word.largest
  waitCount := 3
  targetDuration := .ofSeconds 5
  reconcileTimeout := .ofSeconds 30
  strategy := .duration
  workerKey := none
  closeOptions := ∅

def isStandard (p : Policy) : Bool :=
  p.interval == standard.interval && p.minimum == standard.minimum &&
  p.maximum == standard.maximum && p.waitCount == standard.waitCount &&
  p.targetDuration == standard.targetDuration && p.reconcileTimeout == standard.reconcileTimeout &&
  p.strategy == standard.strategy && p.workerKey == standard.workerKey && p.closeOptions.isEmpty

def clamp (p : Policy) (target : Nat) : Except Fault Nat := Word.clamp p.minimum p.maximum target

end Policy

namespace Settings

def readDuration (text : String) : Except SettingsError Duration :=
  match Duration.ofText? text with
  | some d => .ok d
  | none => .error (.invalidDuration text)

def upperBound (s : Settings) : Nat := s.maximum.getD Word.largest

/-- Checks the settings one after another and makes the policy of them. -/
def toPolicy (s : Settings) : Except SettingsError Policy := do
  let interval ← readDuration s.interval
  if interval.isZero then throw .zeroInterval
  if s.waitCount = 0 then throw .waitCount
  if s.upperBound < s.minimum then throw (.bounds s.minimum s.upperBound)
  let targetDuration ← readDuration s.targetDuration
  let reconcileTimeout ← readDuration s.reconcileTimeout
  return {
    interval := interval
    minimum := s.minimum
    maximum := s.upperBound
    waitCount := s.waitCount
    targetDuration := targetDuration
    reconcileTimeout := reconcileTimeout
    strategy := s.strategy
    workerKey := s.workerKey
    closeOptions := s.closeOptions }

end Settings

end Fleet
