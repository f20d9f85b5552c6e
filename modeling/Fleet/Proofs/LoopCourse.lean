import Fleet.Proofs.Tick
import Fleet.Rehearsal.Loop

/-! The course of the loop: what it does between its start and its end, with the ticks it makes. The
loop ends in a way exactly if there is a course that does, and there is only one course. -/
namespace Fleet

/-- The flag is down, has not been touched since it was looked at, and can still be set. -/
def ShutdownFlag.Quiet (f : ShutdownFlag) : Prop :=
  f.value = false ∧ f.changed = false ∧ f.settable = true

lemma ShutdownFlag.quiet_initial : (initial false).Quiet := ⟨rfl, rfl, rfl⟩

namespace Loop

/-- A tick of the loop: its deadline in nanoseconds, the scaler that makes it and the stage it
finds. -/
structure Turn (h : Host Stage) where
  deadline : Nat
  scaler : Scaler
  stage : Stage

namespace Turn

variable {h : Host Stage} {s : Scaler} {deadline : Nat} {stage : Stage}

/-- The whole tick, up to its end. -/
def outcome (t : Turn h) : Stage × Except Fault (Scaler × Except TickError Outcome) :=
  t.scaler.tick.run h t.stage

/-- When the tick starts, in milliseconds. -/
def start (t : Turn h) : Nat := t.stage.now

def finish (t : Turn h) : Nat := t.outcome.1.now

def times (t : Turn h) : Nat × Nat := (t.start, t.finish)

/-- The tick that starts as soon as its deadline has passed and the loop is free. -/
def due (h : Host Stage) (s : Scaler) (deadline : Nat) (stage : Stage) : Turn h :=
  ⟨deadline, s, { stage with now := dueAt deadline stage }⟩

@[simp] lemma start_due : (due h s deadline stage).start = dueAt deadline stage := rfl

end Turn

/-- The loop ends in `r` after `n` steps, in which it has made these ticks. The last tick may be the
end of the loop, if it meets an arithmetic step without a result. -/
inductive Course (rt : Runtime) (h : Host Stage) :
    (n : Nat) → Scaler → Nat → Stage → List (Turn h) → (r : Except Fault Ending) → Prop where
  | stop {s : Scaler} {deadline : Nat} {stage : Stage}
    (ended : stage.flag.value = true ∨
      stage.flag.changed = false ∧ stage.flag.settable = false) :
    Course rt h 1 s deadline stage [] (.ok (Loop.stop s stage))
  | look {n : Nat} {s : Scaler} {deadline : Nat} {stage : Stage} {turns : List (Turn h)}
    {r : Except Fault Ending} (down : stage.flag.value = false) (touched : stage.flag.changed = true)
    (next : Course rt h n s deadline { stage with flag := { stage.flag with changed := false } }
      turns r) :
    Course rt h (n + 1) s deadline stage turns r
  | happen {n : Nat} {s : Scaler} {deadline time : Nat} {stage : Stage} {event : Event}
    {rest : List (Nat × Event)} {turns : List (Turn h)} {r : Except Fault Ending}
    (quiet : stage.flag.Quiet) (hahead : stage.ahead = (time, event) :: rest)
    (first : rt.eventFirst deadline time stage = true)
    (next : Course rt h n s deadline ({ stage with ahead := rest }.occur time event) turns r) :
    Course rt h (n + 1) s deadline stage turns r
  | tick {n : Nat} {s s' : Scaler} {deadline time : Nat} {stage stage' : Stage} {event : Event}
    {rest : List (Nat × Event)} {turns : List (Turn h)} {result : Except TickError Outcome}
    {r : Except Fault Ending} (quiet : stage.flag.Quiet)
    (hahead : stage.ahead = (time, event) :: rest)
    (second : rt.eventFirst deadline time stage = false)
    (hrun : (Turn.due h s deadline stage).outcome = (stage', .ok (s', result)))
    (next : Course rt h n s' (rt.next s'.policy.interval.nanos deadline
      (dueAt deadline stage * Duration.nanosPerMilli)) stage' turns r) :
    Course rt h (n + 1) s deadline stage (.due h s deadline stage :: turns) r
  | broken {s : Scaler} {deadline time : Nat} {stage stage' : Stage} {event : Event}
    {rest : List (Nat × Event)} {f : Fault} (quiet : stage.flag.Quiet)
    (hahead : stage.ahead = (time, event) :: rest)
    (second : rt.eventFirst deadline time stage = false)
    (hrun : (Turn.due h s deadline stage).outcome = (stage', .error f)) :
    Course rt h 1 s deadline stage [.due h s deadline stage] (.error f)

variable {rt : Runtime} {h : Host Stage} {n n' fuel deadline time : Nat} {s s' : Scaler}
  {stage stage' : Stage} {event : Event} {rest : List (Nat × Event)} {turns turns' : List (Turn h)}
  {r r' : Except Fault Ending} {result : Except TickError Outcome} {f : Fault}

/-! ### One step of the loop -/

lemma runFrom_of_over (ended : stage.flag.value = true ∨
    stage.flag.changed = false ∧ stage.flag.settable = false) :
    runFrom rt h (fuel + 1) s deadline stage = some (.ok (stop s stage)) := by
  unfold runFrom
  obtain hup | ⟨hsame, hdropped⟩ := ended
  · rw [if_pos hup]
  · by_cases hup : stage.flag.value = true
    · rw [if_pos hup]
    · simp [hup, hsame, hdropped]

lemma runFrom_of_touched (down : stage.flag.value = false) (touched : stage.flag.changed = true) :
    runFrom rt h (fuel + 1) s deadline stage =
      runFrom rt h fuel s deadline
        { stage with flag := { stage.flag with changed := false } } := by
  rw [runFrom]
  simp [down, touched]

lemma runFrom_of_happen (quiet : stage.flag.Quiet) (hahead : stage.ahead = (time, event) :: rest)
    (first : rt.eventFirst deadline time stage = true) :
    runFrom rt h (fuel + 1) s deadline stage =
      runFrom rt h fuel s deadline ({ stage with ahead := rest }.occur time event) := by
  obtain ⟨hdown, hsame, hsettable⟩ := quiet
  rw [runFrom]
  simp [hdown, hsame, hsettable, hahead, first]

lemma runFrom_of_due (quiet : stage.flag.Quiet) (hahead : stage.ahead = (time, event) :: rest)
    (second : rt.eventFirst deadline time stage = false) :
    runFrom rt h (fuel + 1) s deadline stage =
      match (Turn.due h s deadline stage).outcome with
      | (_, .error f) => some (.error f)
      | (stage', .ok (s', _)) => runFrom rt h fuel s' (rt.next s'.policy.interval.nanos deadline
          (dueAt deadline stage * Duration.nanosPerMilli)) stage' := by
  obtain ⟨cluster, outages, script, now, log, ahead, past, value, changed, settable, heard⟩ := stage
  obtain ⟨rfl, rfl, rfl⟩ : value = false ∧ changed = false ∧ settable = true := quiet
  obtain rfl : ahead = (time, event) :: rest := hahead
  exact if_neg (ne_true_of_eq_false second)

lemma exists_ahead (hquiet : stage.flag.Quiet)
    (hr : runFrom rt h (fuel + 1) s deadline stage = some r) :
    ∃ time event rest, stage.ahead = (time, event) :: rest := by
  obtain ⟨hdown, hsame, hsettable⟩ := hquiet
  cases hahead : stage.ahead with
  | nil =>
    rw [runFrom] at hr
    simp [hdown, hsame, hsettable, hahead] at hr
  | cons first rest => exact ⟨first.1, first.2, rest, rfl⟩

/-- The flag ends the loop, makes it look again, or leaves it waiting. -/
lemma flag_cases (flag : ShutdownFlag) :
    (flag.value = true ∨ flag.changed = false ∧ flag.settable = false) ∨
    (flag.value = false ∧ flag.changed = true) ∨ flag.Quiet := by
  obtain ⟨value, changed, settable, heard⟩ := flag
  cases value <;> cases changed <;> cases settable <;> simp [ShutdownFlag.Quiet]

/-! ### The whole loop -/

lemma exists_course (hr : runFrom rt h fuel s deadline stage = some r) :
    ∃ n ≤ fuel, ∃ turns, Course rt h n s deadline stage turns r := by
  induction fuel generalizing s deadline stage with
  | zero => cases hr
  | succ fuel ih =>
    obtain ended | ⟨down, touched⟩ | quiet := flag_cases stage.flag
    · rw [runFrom_of_over ended] at hr
      cases hr
      exact ⟨1, by omega, [], .stop ended⟩
    · rw [runFrom_of_touched down touched] at hr
      obtain ⟨n, hn, turns, hcourse⟩ := ih hr
      exact ⟨n + 1, by omega, turns, .look down touched hcourse⟩
    · obtain ⟨time, event, rest, hahead⟩ := exists_ahead quiet hr
      cases horder : rt.eventFirst deadline time stage with
      | true =>
        rw [runFrom_of_happen quiet hahead horder] at hr
        obtain ⟨n, hn, turns, hcourse⟩ := ih hr
        exact ⟨n + 1, by omega, turns, .happen quiet hahead horder hcourse⟩
      | false =>
        rw [runFrom_of_due quiet hahead horder] at hr
        rcases hrun : (Turn.due h s deadline stage).outcome with ⟨stage', f | ⟨s', result⟩⟩
        · rw [hrun] at hr
          cases hr
          exact ⟨1, by omega, _, .broken quiet hahead horder hrun⟩
        · rw [hrun] at hr
          obtain ⟨n, hn, turns, hcourse⟩ := ih hr
          exact ⟨n + 1, by omega, _, .tick quiet hahead horder hrun hcourse⟩

lemma Course.runFrom_eq (hc : Course rt h n s deadline stage turns r) (hn : n ≤ fuel) :
    runFrom rt h fuel s deadline stage = some r := by
  induction hc generalizing fuel with
  | stop ended =>
    obtain ⟨fuel, rfl⟩ := Nat.exists_eq_add_of_le' hn
    exact runFrom_of_over ended
  | look down touched next ih =>
    obtain ⟨fuel, rfl⟩ := Nat.exists_eq_succ_of_ne_zero (n := fuel) (by omega)
    rw [runFrom_of_touched down touched]
    exact ih (by omega)
  | happen quiet hahead first next ih =>
    obtain ⟨fuel, rfl⟩ := Nat.exists_eq_succ_of_ne_zero (n := fuel) (by omega)
    rw [runFrom_of_happen quiet hahead first]
    exact ih (by omega)
  | tick quiet hahead second hrun next ih =>
    obtain ⟨fuel, rfl⟩ := Nat.exists_eq_succ_of_ne_zero (n := fuel) (by omega)
    rw [runFrom_of_due quiet hahead second, hrun]
    exact ih (by omega)
  | broken quiet hahead second hrun =>
    obtain ⟨fuel, rfl⟩ := Nat.exists_eq_add_of_le' hn
    rw [runFrom_of_due quiet hahead second, hrun]

/-- The loop ends exactly as its courses do, given enough steps. -/
theorem runFrom_eq_some_iff :
    runFrom rt h fuel s deadline stage = some r ↔
      ∃ n ≤ fuel, ∃ turns, Course rt h n s deadline stage turns r := by
  refine ⟨exists_course, ?_⟩
  rintro ⟨n, hn, turns, hcourse⟩
  exact hcourse.runFrom_eq hn

lemma not_quiet_of_touched (touched : stage.flag.changed = true) : ¬ stage.flag.Quiet := by
  rintro ⟨-, hsame, -⟩
  simp [hsame] at touched

lemma not_quiet_of_over (ended : stage.flag.value = true ∨
    stage.flag.changed = false ∧ stage.flag.settable = false) : ¬ stage.flag.Quiet := by
  rintro ⟨hdown, -, hsettable⟩
  simp [hdown, hsettable] at ended

/-- There is only one course. -/
theorem Course.unique (hc : Course rt h n s deadline stage turns r)
    (hc' : Course rt h n' s deadline stage turns' r') : n = n' ∧ turns = turns' ∧ r = r' := by
  induction hc generalizing n' turns' r' with
  | stop ended =>
    cases hc' with
    | stop => exact ⟨rfl, rfl, rfl⟩
    | look down touched => simp [down, touched] at ended
    | happen quiet | tick quiet | broken quiet => exact absurd quiet (not_quiet_of_over ended)
  | look down touched next ih =>
    cases hc' with
    | stop ended => simp [down, touched] at ended
    | look down' touched' next' =>
      obtain ⟨rfl, rfl, rfl⟩ := ih next'
      exact ⟨rfl, rfl, rfl⟩
    | happen quiet | tick quiet | broken quiet => exact absurd quiet (not_quiet_of_touched touched)
  | happen quiet hahead first next ih =>
    cases hc' with
    | stop ended => exact absurd quiet (not_quiet_of_over ended)
    | look down touched => exact absurd quiet (not_quiet_of_touched touched)
    | happen quiet' hahead' first' next' =>
      rw [hahead] at hahead'
      cases hahead'
      obtain ⟨rfl, rfl, rfl⟩ := ih next'
      exact ⟨rfl, rfl, rfl⟩
    | tick quiet' hahead' second | broken quiet' hahead' second =>
      rw [hahead] at hahead'
      cases hahead'
      rw [first] at second
      cases second
  | tick quiet hahead second hrun next ih =>
    cases hc' with
    | stop ended => exact absurd quiet (not_quiet_of_over ended)
    | look down touched => exact absurd quiet (not_quiet_of_touched touched)
    | happen quiet' hahead' first =>
      rw [hahead] at hahead'
      cases hahead'
      rw [first] at second
      cases second
    | tick quiet' hahead' second' hrun' next' =>
      rw [hrun] at hrun'
      cases hrun'
      obtain ⟨rfl, rfl, rfl⟩ := ih next'
      exact ⟨rfl, rfl, rfl⟩
    | broken quiet' hahead' second' hrun' =>
      rw [hrun] at hrun'
      cases hrun'
  | broken quiet hahead second hrun =>
    cases hc' with
    | stop ended => exact absurd quiet (not_quiet_of_over ended)
    | look down touched => exact absurd quiet (not_quiet_of_touched touched)
    | happen quiet' hahead' first =>
      rw [hahead] at hahead'
      cases hahead'
      rw [first] at second
      cases second
    | tick quiet' hahead' second' hrun' =>
      rw [hrun] at hrun'
      cases hrun'
    | broken quiet' hahead' second' hrun' =>
      rw [hrun] at hrun'
      cases hrun'
      exact ⟨rfl, rfl, rfl⟩

end Loop

end Fleet
