import Fleet.Cluster.Operation
import Fleet.Rehearsal.Outage
import Fleet.Remote.ClusterHost

/-!
A cluster on a virtual clock, with outages of its remote operations and events that are still to
come. Calls that take time let the events of that time happen, and the later ones stay ahead.
-/
namespace Fleet

inductive Event where
  | operation (op : Operation)
  | outage (m : Method) (o : Option (Outage m.Result))
  | signal (stop : Bool)
  | dropSignal

inductive EventAnswer where
  | answered (a : Operation.Answer)
  /-- Whether anybody still listened to the shutdown flag. -/
  | delivered (listened : Bool)
  deriving DecidableEq

/-- The shutdown flag: its value, whether it has been set since it was last looked at, whether it
can still be set and whether anybody listens. -/
structure ShutdownFlag where
  value : Bool
  changed : Bool
  settable : Bool
  heard : Bool
  deriving DecidableEq

namespace ShutdownFlag

def initial (value : Bool) : ShutdownFlag := ⟨value, false, true, true⟩

/-- Whether setting the flag reaches a listener. -/
def delivers (f : ShutdownFlag) : Bool := f.settable && f.heard

def set (f : ShutdownFlag) (value : Bool) : ShutdownFlag :=
  if f.delivers then { f with value := value, changed := true } else f

end ShutdownFlag

/-- The whole scene. Times are in milliseconds. -/
structure Stage where
  cluster : Cluster
  outages : Outages
  script : List ScriptedEstimate
  now : Nat
  /-- The calls made so far with their times, the latest first. -/
  log : List (Nat × Call)
  /-- The events to come with their times, the earliest first. -/
  ahead : List (Nat × Event)
  /-- What past events left behind, the latest first. -/
  past : List (EventAnswer × Roster)
  flag : ShutdownFlag

namespace Stage

/-- The start: nothing has been disturbed, and nothing has happened. -/
def start (cluster : Cluster) (script : List ScriptedEstimate) (ahead : List (Nat × Event))
    (stop : Bool) : Stage where
  cluster := cluster
  outages := .none
  script := script
  now := 0
  log := []
  ahead := ahead
  past := []
  flag := .initial stop

def calls (s : Stage) : List (Nat × Call) := s.log.reverse

def answers (s : Stage) : List (EventAnswer × Roster) := s.past.reverse

def setOutage (s : Stage) (m : Method) (o : Option (Outage m.Result)) : Stage :=
  { s with outages := s.outages.set m o }

/-- Changes the cluster past the remote operations. -/
def operate (s : Stage) (op : Operation) : Stage × Operation.Answer :=
  let (cluster, answer) := op.apply s.cluster
  ({ s with cluster := cluster }, answer)

def happen (s : Stage) : Event → Stage × EventAnswer
  | .operation op =>
    let (s, answer) := s.operate op
    (s, .answered answer)
  | .outage m o => (s.setOutage m o, .answered .done)
  | .signal stop => ({ s with flag := s.flag.set stop }, .delivered s.flag.delivers)
  | .dropSignal => ({ s with flag := { s.flag with settable := false } }, .answered .done)

/-- Lets one event happen at `time` and notes what it leaves behind. -/
def occur (s : Stage) (time : Nat) (e : Event) : Stage :=
  let (s, answer) := s.happen e
  { s with now := max s.now time, past := (answer, s.cluster.roster) :: s.past }

/-- Lets the first of the given events happen up to `time`; the others stay ahead. -/
def occurUntil (time : Nat) : List (Nat × Event) → Stage → Stage
  | [], s => { s with ahead := [] }
  | (t, e) :: rest, s =>
    if t ≤ time then occurUntil time rest (s.occur t e)
    else { s with ahead := (t, e) :: rest }

def advanceTo (s : Stage) (time : Nat) : Stage :=
  let s := occurUntil time s.ahead s
  { s with now := max s.now time }

def finish (s : Stage) : Stage :=
  { s.ahead.foldl (fun s (t, e) => s.occur t e) s with ahead := [] }

def logCall (s : Stage) (c : Call) : Stage := { s with log := (s.now, c) :: s.log }

def serveUndisturbed (c : Call) (s : Stage) : Stage × Except Fault c.Reply :=
  let (cluster, reply) := s.cluster.serve c
  ({ s with cluster := cluster }, reply)

/-- Serves a call under an outage. The caller gives up when the delay is longer than it waits. -/
def serveDisturbed (c : Call) (o : Outage c.Result) (s : Stage) : Stage × Except Fault c.Reply :=
  let proceed (s : Stage) : Stage × Except Fault c.Reply :=
    let s := s.advanceTo (s.now + o.delay)
    match o.error, o.value with
    | some e, _ => (s, .ok (.error e))
    | none, some v => (s, .ok (.ok v))
    | none, none => s.serveUndisturbed c
  match c.limit? with
  | none => proceed s
  | some (limit, late) =>
    if o.hangs || limit.millisUp < o.delay then
      (s.advanceTo (s.now + limit.millisUp), .ok (.ok late))
    else proceed s

def playEstimate (s : Stage) : Stage × Except Fault (Except RemoteError Nat) :=
  match ScriptedEstimate.take? s.script with
  | none => (s, .ok (.error (.connection "no estimator")))
  | some (first, rest) =>
    ({ s with script := rest }.advanceTo (s.now + first.delay), .ok first.answer)

/-- Serves a call under the outage of its method, if there is one. -/
def serveAmid (c : Call) (s : Stage) : Stage × Except Fault c.Reply :=
  match s.outages c.method with
  | none => s.serveUndisturbed c
  | some o =>
    if o.remaining = some 0 then (s.setOutage c.method none).serveUndisturbed c
    else (s.setOutage c.method o.next?).serveDisturbed c o

def serve (c : Call) (s : Stage) : Stage × Except Fault c.Reply :=
  let s := s.logCall c
  match c with
  | .estimate => s.playEstimate
  | c => s.serveAmid c

def host : Host Stage := ⟨fun s => s.cluster.view, serve⟩

/-- The events that are ahead when the clock has been moved: those after the time. -/
theorem ahead_occurUntil (time : Nat) (events : List (Nat × Event)) (s : Stage) :
    (occurUntil time events s).ahead = events.dropWhile fun e => e.1 ≤ time := by
  induction events generalizing s with
  | nil => rfl
  | cons e rest ih =>
    obtain ⟨t, e⟩ := e
    unfold occurUntil
    split <;> simp_all

end Stage

end Fleet
