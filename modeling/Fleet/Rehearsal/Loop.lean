import Fleet.Rehearsal.Stage
import Fleet.Scaling.Scaler

/-!
The scaling loop on a virtual clock: a tick at every deadline until the shutdown flag is set. Ticks
never overlap, a tick under way is finished, and a late tick moves the ticks after it. The timer,
the reach of the clock and the order of a tick and an event in one millisecond are the runtime's.
-/
namespace Fleet.Loop

/-- A tick that starts later than this after its deadline, in nanoseconds, is late. -/
def tolerance : Nat := 5 * Duration.nanosPerMilli

/-- The deadline after that of a tick which started at a time: an interval after the deadline, or
after the start if the tick was late. All times are in nanoseconds. -/
def nextDeadline (interval deadline start : Nat) : Nat :=
  if deadline + tolerance < start then start + interval else deadline + interval

/-- The first millisecond of the clock at which a deadline has passed. -/
def firstMilli (deadline : Nat) : Nat := (⟨deadline⟩ : Duration).millisUp

/-- When the next tick is to start, in milliseconds. -/
def dueAt (deadline : Nat) (stage : Stage) : Nat := max stage.now (firstMilli deadline)

/-- What the loop leaves to the runtime under it. -/
structure Runtime where
  /-- The deadline that the timer sets when a tick has started. All times are in nanoseconds. -/
  next : (interval deadline start : Nat) → Nat
  /-- No time can be told that is so many nanoseconds or more after the start of the clock. -/
  horizon : Nat
  /-- Whether a tick that is due goes before the event of the same millisecond. -/
  tickFirst : Stage → Bool

namespace Runtime

/-- The timer keeps to the interval: the next deadline is an interval after the last one, or after
the start of a late tick. -/
def Delays (rt : Runtime) (interval : Nat) : Prop :=
  ∀ deadline start, rt.next interval deadline start = nextDeadline interval deadline start

/-- Whether an event at `time` happens before the next tick. -/
def eventFirst (rt : Runtime) (deadline time : Nat) (stage : Stage) : Bool :=
  time < dueAt deadline stage || time == dueAt deadline stage && !rt.tickFirst stage

/-- The runtime of the documentation. A time is told in whole seconds of 63 bits and the nanoseconds
beyond, and its clock has been running for a second when the loop starts. -/
def documented : Runtime where
  next := nextDeadline
  horizon := (Word.limit / 2 - 1) * Duration.nanosPerSecond
  tickFirst _ := false

end Runtime

/-- The longest time that has been measured between the deadlines of two ticks in nanoseconds:
thirty years of 365 days. The wait for the first tick may be longer. -/
def longestPeriod : Nat := 30 * 365 * 24 * 60 * 60 * Duration.nanosPerSecond

/-- The runtime as it has been measured. It departs from its documentation where the interval is
longer than thirty years. -/
def Runtime.measured : Runtime :=
  { documented with next := fun interval => nextDeadline (min interval longestPeriod) }

/-- A loop that has ended: its scaler, the time and the scene after all events. -/
structure Ending where
  scaler : Scaler
  stoppedAt : Nat
  stage : Stage

/-- Ends the loop. The events that are still to come find nobody listening. -/
def stop (s : Scaler) (stage : Stage) : Ending where
  scaler := s
  stoppedAt := stage.now
  stage := { stage with flag := { stage.flag with heard := false } }.finish

/-- The loop from a deadline on, with calls served by `h`. Without a further event it would never
end, and there is no ending; `fuel` bounds the number of ticks and events. -/
def runFrom (rt : Runtime) (h : Host Stage) (fuel : Nat) (s : Scaler) (deadline : Nat)
    (stage : Stage) : Option (Except Fault Ending) :=
  match fuel with
  | 0 => none
  | fuel + 1 =>
    if stage.flag.value then some (.ok (stop s stage))
    else if stage.flag.changed then
      runFrom rt h fuel s deadline { stage with flag := { stage.flag with changed := false } }
    else if !stage.flag.settable then some (.ok (stop s stage))
    else
      match stage.ahead with
      | [] => none
      | (time, event) :: rest =>
        if rt.eventFirst deadline time stage then
          runFrom rt h fuel s deadline ({ stage with ahead := rest }.occur time event)
        else
          let start := dueAt deadline stage
          match s.tick.run h { stage with now := start } with
          | (_, .error f) => some (.error f)
          | (stage, .ok (s, _)) =>
            let started := start * Duration.nanosPerMilli
            runFrom rt h fuel s (rt.next s.policy.interval.nanos deadline started) stage

/-- Enough steps for every tick up to the last event and for the events themselves, also if the
ticks are no further apart than the longest period. -/
def enoughSteps (interval : Nat) (ahead : List (Nat × Event)) : Nat :=
  let last := ahead.foldl (fun t e => max t e.1) 0
  last * Duration.nanosPerMilli / min interval longestPeriod + 2 * ahead.length + 3

/-- Runs the loop from the start of the clock. The first deadline is one interval away; it is a
fault if there is no such time. -/
def runOn (rt : Runtime) (h : Host Stage) (s : Scaler) (stage : Stage) :
    Option (Except Fault Ending) :=
  let interval := s.policy.interval.nanos
  if rt.horizon ≤ interval then some (.error .instantTooLate)
  else runFrom rt h (enoughSteps interval stage.ahead) s interval stage

/-- Runs the loop on the calls of the stage itself. -/
def run (s : Scaler) (stage : Stage) : Option (Except Fault Ending) :=
  runOn .measured Stage.host s stage

theorem nextDeadline_of_punctual {interval deadline start : Nat}
    (h : start ≤ deadline + tolerance) :
    nextDeadline interval deadline start = deadline + interval := by
  simp [nextDeadline, Nat.not_lt.2 h]

theorem nextDeadline_of_late {interval deadline start : Nat}
    (h : deadline + tolerance < start) :
    nextDeadline interval deadline start = start + interval := by
  simp [nextDeadline, h]

/-- A deadline is at least an interval after the one before it. -/
theorem add_interval_le_nextDeadline (interval deadline start : Nat) :
    deadline + interval ≤ nextDeadline interval deadline start := by
  unfold nextDeadline tolerance
  split <;> omega

theorem firstMilli_le_iff {deadline time : Nat} :
    firstMilli deadline ≤ time ↔ deadline ≤ time * Duration.nanosPerMilli := by
  unfold firstMilli Duration.millisUp Duration.nanosPerMilli
  dsimp only
  omega

theorem le_firstMilli {deadline time : Nat} (h : time * Duration.nanosPerMilli ≤ deadline) :
    time ≤ firstMilli deadline := by
  have hpassed : deadline ≤ firstMilli deadline * Duration.nanosPerMilli :=
    firstMilli_le_iff.1 (Nat.le_refl _)
  exact Nat.le_of_mul_le_mul_right (Nat.le_trans h hpassed) (by decide)

theorem firstMilli_millis (time : Nat) : firstMilli (time * Duration.nanosPerMilli) = time :=
  Nat.le_antisymm (firstMilli_le_iff.2 (Nat.le_refl _)) (le_firstMilli (Nat.le_refl _))

namespace Runtime

theorem delays_documented (interval : Nat) : documented.Delays interval := fun _ _ => rfl

theorem delays_measured {interval : Nat} (h : interval ≤ longestPeriod) :
    measured.Delays interval := by
  intro deadline start
  change nextDeadline (min interval longestPeriod) deadline start = _
  rw [Nat.min_eq_left h]

variable {rt : Runtime} {deadline time : Nat} {stage : Stage}

theorem eventFirst_of_lt (h : time < dueAt deadline stage) :
    rt.eventFirst deadline time stage = true := by
  simp [eventFirst, h]

theorem eventFirst_of_gt (h : dueAt deadline stage < time) :
    rt.eventFirst deadline time stage = false := by
  simp [eventFirst, Nat.not_lt.2 (Nat.le_of_lt h), Nat.ne_of_gt h]

theorem le_dueAt (h : rt.eventFirst deadline time stage = true) : time ≤ dueAt deadline stage := by
  simp only [eventFirst, Bool.or_eq_true, Bool.and_eq_true, decide_eq_true_eq, beq_iff_eq] at h
  omega

theorem dueAt_le (h : rt.eventFirst deadline time stage = false) :
    dueAt deadline stage ≤ time := by
  simp only [eventFirst, Bool.or_eq_false_iff, decide_eq_false_iff_not] at h
  exact Nat.not_lt.1 h.1

end Runtime

end Fleet.Loop
