import Fleet.Proofs.ClockGrid
import Mathlib.Data.List.Chain

/-! The pace of the loop when calls take time. However long calls take and whatever they answer,
ticks never overlap and never bunch up, none starts after the stop, and one that is under way at the
stop is finished and is the last. -/
namespace Fleet

variable {stage stage' stage'' : Stage} {es es' before after : List (Nat × Event)}
  {h : Host Stage}

namespace Stage

/-! ### Time passes -/

/-- What is ahead is not overdue; it may be due now. -/
def OnTime (stage : Stage) : Prop := ∀ e ∈ stage.ahead.head?, stage.now ≤ e.1

lemma OnTime.of_abreast (h : stage.OnTime) (hab : stage.Abreast stage') : stage'.OnTime := by
  intro e he
  rw [hab.ahead_eq] at he
  rw [hab.now_eq]
  exact h e he

/-- Time has passed from one stage to another, and the events `es` have happened in it. -/
structure Passes (es : List (Nat × Event)) (stage stage' : Stage) : Prop where
  ahead_eq : stage.ahead = es ++ stage'.ahead
  now_le : stage.now ≤ stage'.now
  past : ∀ e ∈ es, e.1 ≤ stage'.now
  onTime : stage'.OnTime
  flag_eq : stage'.flag = (pass es stage).flag

/-- What happens to the flag depends on the flag alone. -/
lemma pass_flag_congr (hflag : stage.flag = stage'.flag) :
    (pass es stage).flag = (pass es stage').flag := by
  induction es generalizing stage stage' with
  | nil => exact hflag
  | cons e es ih =>
    refine ih ?_
    obtain ⟨time, event⟩ := e
    cases event with
    | operation op => exact hflag
    | outage m o => exact hflag
    | signal stop => exact congrArg (fun flag => flag.set stop) hflag
    | dropSignal => exact congrArg (fun flag => { flag with settable := false }) hflag

namespace Passes

lemma refl (hon : stage.OnTime) : stage.Passes [] stage :=
  ⟨rfl, Nat.le_refl _, by simp, hon, rfl⟩

lemma trans (hp : Passes es stage stage') (hp' : Passes es' stage' stage'') :
    Passes (es ++ es') stage stage'' := by
  refine ⟨by rw [hp.ahead_eq, hp'.ahead_eq, List.append_assoc], hp.now_le.trans hp'.now_le,
    fun e he => ?_, hp'.onTime, ?_⟩
  · obtain he | he := List.mem_append.1 he
    · exact (hp.past e he).trans hp'.now_le
    · exact hp'.past e he
  · rw [hp'.flag_eq, pass_flag_congr hp.flag_eq, pass, pass, pass, List.foldl_append]

lemma of_abreast (hab : stage.Abreast stage') (hp : Passes es stage' stage'') :
    Passes es stage stage'' :=
  ⟨hab.ahead_eq ▸ hp.ahead_eq, hab.now_eq ▸ hp.now_le, hp.past, hp.onTime,
    hp.flag_eq.trans (pass_flag_congr hab.flag_eq)⟩

lemma to_abreast (hp : Passes es stage stage') (hab : stage'.Abreast stage'') :
    Passes es stage stage'' :=
  ⟨by rw [hp.ahead_eq, hab.ahead_eq], hab.now_eq ▸ hp.now_le, fun e he => hab.now_eq ▸ hp.past e he,
    hp.onTime.of_abreast hab, hab.flag_eq.trans hp.flag_eq⟩

end Passes

/-- The events up to the new time happen when the clock is moved on. -/
lemma exists_passes_after (stage : Stage) (d : Nat) :
    ∃ es, stage.Passes es (stage.advanceTo (stage.now + d)) := by
  obtain ⟨es, rest, hahead, hes, hrest⟩ := Loop.exists_split (stage.now + d) stage.ahead
  have hnow : stage.now ≤ stage.now + d := Nat.le_add_right _ _
  rw [advanceTo_append hahead hes hrest hnow]
  exact ⟨es, hahead, hnow, hes, fun e he => Nat.le_of_lt (hrest e he), rfl⟩

end Stage

/-- Every call takes some time, in which the events of that time happen. Its answer may be anything,
and so may what else it does to the stage. -/
def Host.Clocked (h : Host Stage) : Prop :=
  ∀ (c : Call) (stage : Stage), stage.OnTime → ∃ es, stage.Passes es (h.serve c stage).1

/-! ### Calls -/

namespace Exchange

variable {α : Type}

/-- When each call is made and when the program goes on, with an answer or without waiting for it
any longer. -/
def spans (h : Host Stage) : Exchange α → Stage → List (Nat × Nat)
  | done _, _ => []
  | halt _, _ => []
  | look next, stage => spans h (next (h.view stage)) stage
  | ask c next, stage =>
    (stage.now, (h.serve c stage).1.now) ::
      match h.serve c stage with
      | (stage', .ok r) => spans h (next r) stage'
      | (_, .error _) => []

end Exchange

namespace Host.Clocked

variable {α : Type}

lemma run (hh : h.Clocked) (p : Exchange α) (hon : stage.OnTime) :
    ∃ es, stage.Passes es (p.run h stage).1 := by
  refine p.only_any.keeps (P := fun y => ∃ es, stage.Passes es y) (fun c y _ hy => ?_)
    ⟨[], .refl hon⟩
  obtain ⟨es, hp⟩ := hy
  obtain ⟨es', hp'⟩ := hh c y hp.onTime
  exact ⟨es ++ es', hp.trans hp'⟩

/-- No call is under way outside the run. -/
lemma within (hh : h.Clocked) (p : Exchange α) (hon : stage.OnTime) :
    ∀ c ∈ p.spans h stage, stage.now ≤ c.1 ∧ c.1 ≤ c.2 ∧ c.2 ≤ (p.run h stage).1.now := by
  induction p generalizing stage with
  | done a => simp [Exchange.spans]
  | halt f => simp [Exchange.spans]
  | look next ih => exact ih _ hon
  | ask call next ih =>
    obtain ⟨es, hp⟩ := hh call stage hon
    rw [Exchange.spans, Exchange.run]
    rcases hserve : h.serve call stage with ⟨stage', f | r⟩ <;> rw [hserve] at hp
    · simpa using hp.now_le
    · obtain ⟨es', hp'⟩ := hh.run (next r) hp.onTime
      intro c hc
      obtain rfl | hc := List.mem_cons.1 hc
      · exact ⟨Nat.le_refl _, hp.now_le, hp'.now_le⟩
      · obtain ⟨hmade, hspan, hover⟩ := ih r hp.onTime c hc
        exact ⟨hp.now_le.trans hmade, hspan, hover⟩

end Host.Clocked

namespace Loop

variable {rt : Runtime} {s s' : Scaler} {n I T deadline time : Nat} {turns : List (Turn h)}
  {r : Except Fault Ending} {event : Event} {rest : List (Nat × Event)}

lemma now_le_dueAt (deadline : Nat) (stage : Stage) : stage.now ≤ dueAt deadline stage :=
  Nat.le_max_left _ _

namespace Turn

def calls (t : Turn h) : List (Nat × Nat) := t.scaler.tick.spans h t.stage

/-- The tick starts more than five milliseconds after its deadline. -/
def Late (t : Turn h) : Prop := t.deadline + tolerance < t.start * Duration.nanosPerMilli

/-- One tick is over when the other one starts, and they start an interval of `I` milliseconds
apart; an interval less five milliseconds is enough after a tick that was not late. -/
structure Before (I : Nat) (t t' : Turn h) : Prop where
  finish_le : t.finish ≤ t'.start
  apart : t.start + I ≤ t'.start + 5
  apart_of_late : t.Late → t.start + I ≤ t'.start

/-- A tick takes no negative time, and its calls are made and over in it. -/
def Encloses (t : Turn h) : Prop :=
  t.start ≤ t.finish ∧ ∀ c ∈ t.calls, t.start ≤ c.1 ∧ c.1 ≤ c.2 ∧ c.2 ≤ t.finish

lemma onTime_due (hahead : stage.ahead = (time, event) :: rest)
    (second : rt.eventFirst deadline time stage = false) :
    (due h s deadline stage).stage.OnTime := by
  intro e he
  change e ∈ stage.ahead.head? at he
  rw [hahead] at he
  cases he
  exact Runtime.dueAt_le second

lemma encloses_due (hh : h.Clocked) (hahead : stage.ahead = (time, event) :: rest)
    (second : rt.eventFirst deadline time stage = false) :
    (due h s deadline stage).Encloses := by
  have hon := onTime_due (h := h) (s := s) hahead second
  obtain ⟨es, hp⟩ := hh.run s.tick hon
  exact ⟨hp.now_le, hh.within s.tick hon⟩

end Turn

/-! ### Deadlines -/

/-- The deadline after a start is an interval away from it, or less by as much as a tick may be
behind that is not late. -/
lemma apart_nextDeadline (I deadline start : Nat) :
    start + I ≤ firstMilli (nextDeadline (I * Duration.nanosPerMilli) deadline
      (start * Duration.nanosPerMilli)) + 5 ∧
    (deadline + tolerance < start * Duration.nanosPerMilli → start + I ≤
      firstMilli (nextDeadline (I * Duration.nanosPerMilli) deadline
        (start * Duration.nanosPerMilli))) := by
  by_cases hlate : deadline + tolerance < start * Duration.nanosPerMilli
  · have hnext : start + I ≤ firstMilli (nextDeadline
        (I * Duration.nanosPerMilli) deadline (start * Duration.nanosPerMilli)) := by
      refine le_firstMilli ?_
      rw [nextDeadline_of_late hlate, Nat.add_mul]
    exact ⟨hnext.trans (Nat.le_add_right _ _), fun _ => hnext⟩
  · refine ⟨?_, fun h => absurd h hlate⟩
    rw [nextDeadline_of_punctual (Nat.not_lt.1 hlate)]
    have hpunctual : (start + I - 5) * Duration.nanosPerMilli ≤
        deadline + I * Duration.nanosPerMilli := by
      unfold tolerance Duration.nanosPerMilli at *
      omega
    have hle := le_firstMilli hpunctual
    omega

/-! ### The stop -/

/-- The stop has come, at `T` or after a tick that was under way then; only changes are still
ahead. -/
structure Told (T : Nat) (stage : Stage) : Prop where
  le_now : T ≤ stage.now
  flag_eq : stage.flag = ⟨true, true, true, true⟩
  ahead_changes : ∀ e ∈ stage.ahead, e.2.Changes

lemma Told.over (ht : Told T stage) : stage.flag.value = true ∨
    stage.flag.changed = false ∧ stage.flag.settable = false :=
  .inl (congrArg ShutdownFlag.value ht.flag_eq)

lemma Awaits.quiet (hw : Awaits T before after stage) : stage.flag.Quiet :=
  hw.flag_eq ▸ ShutdownFlag.quiet_initial

/-- What is ahead begins with a change before the stop, or with the stop. -/
lemma Awaits.occur (hw : Awaits T before after stage)
    (hahead : stage.ahead = (time, event) :: rest) :
    time ≤ T ∧ ((∃ before', before = (time, event) :: before' ∧
      Awaits T before' after ({ stage with ahead := rest }.occur time event)) ∨
    Told T ({ stage with ahead := rest }.occur time event)) := by
  obtain ⟨hflag, hahead', hnow, hbefore, hafter⟩ := hw
  rw [hahead] at hahead'
  cases before with
  | nil =>
    obtain ⟨⟨⟩, rfl⟩ := List.cons.inj hahead'
    refine ⟨Nat.le_refl _, .inr ⟨?_, ?_, hafter⟩⟩
    · rw [Stage.now_occur]
      exact Nat.le_max_right _ _
    · change stage.flag.set true = _
      rw [hflag]
      rfl
  | cons e before' =>
    obtain ⟨rfl, rfl⟩ := List.cons.inj hahead'
    obtain ⟨hle, hchanges⟩ := hbefore _ List.mem_cons_self
    refine ⟨hle, .inl ⟨before', rfl, ?_, ?_, ?_, fun e he => hbefore e (List.mem_cons_of_mem _ he),
      hafter⟩⟩
    · rw [(Stage.occur_flag hchanges _ _ stage.flag).1]
      exact hflag
    · rw [Stage.occur_ahead]
      rfl
    · rw [Stage.now_occur]
      exact Nat.max_le.2 ⟨hnow, hle⟩

/-- When time passes, the stop stays ahead, or has come and the changes after it stay ahead. -/
lemma Awaits.passes (hw : Awaits T before after stage) (hp : stage.Passes es stage') :
    (∃ before', before = es ++ before' ∧ Awaits T before' after stage') ∨ Told T stage' := by
  obtain ⟨hflag, hahead, -, hbefore, hafter⟩ := hw
  have hstill : ∀ before', before = es ++ before' →
      stage'.ahead = before' ++ (T, .signal true) :: after → Awaits T before' after stage' := by
    rintro before' rfl hahead'
    have hpast : ∀ e ∈ es, e.2.Changes := fun e he => (hbefore e (List.mem_append_left _ he)).2
    have hlater : ∀ e ∈ before', e.1 ≤ T ∧ e.2.Changes :=
      fun e he => hbefore e (List.mem_append_right _ he)
    refine ⟨?_, hahead', ?_, hlater, hafter⟩
    · rw [hp.flag_eq, (Stage.pass_flag hpast stage stage.flag).1, hflag]
    · cases before' with
      | nil => exact hp.onTime (T, .signal true) (by rw [hahead']; rfl)
      | cons first rest =>
        have hfirst := hp.onTime first (by rw [hahead']; rfl)
        exact hfirst.trans (hlater first List.mem_cons_self).1
  rw [hp.ahead_eq] at hahead
  obtain ⟨before', hbefore', hahead'⟩ | ⟨es', rfl, hes'⟩ := List.append_eq_append_iff.1 hahead
  · exact .inl ⟨before', hbefore', hstill before' hbefore' hahead'⟩
  · cases es' with
    | nil =>
      rw [List.append_nil] at hstill ⊢
      exact .inl ⟨[], (List.append_nil _).symm, hstill [] (List.append_nil _).symm hes'.symm⟩
    | cons first es' =>
      obtain ⟨rfl, rfl⟩ := List.cons.inj hes'
      have hraised := flag_signalled (T := T) hflag fun e he => (hbefore e he).2
      refine .inr ⟨hp.past (T, .signal true) (by simp), ?_,
        fun e he => hafter e (List.mem_append_right _ he)⟩
      rw [hp.flag_eq, Stage.pass, List.foldl_append, ← hraised]
      exact (Stage.pass_flag (fun e he => hafter e (List.mem_append_left _ he)) _ stage.flag).1

/-- A tick leaves the stop ahead, behind no more than before, or it has come. -/
lemma Awaits.outcome {x : Except Fault (Scaler × Except TickError Outcome)} (hh : h.Clocked)
    (hw : Awaits T before after stage) (hahead : stage.ahead = (time, event) :: rest)
    (second : rt.eventFirst deadline time stage = false)
    (hrun : (Turn.due h s deadline stage).outcome = (stage', x)) :
    (∃ before', before'.length ≤ before.length ∧ Awaits T before' after stage') ∨
    Told T stage' := by
  have hdue : Awaits T before after (Turn.due h s deadline stage).stage :=
    ⟨hw.flag_eq, hw.ahead_eq, (Runtime.dueAt_le second).trans (hw.occur hahead).1, hw.before_le,
      hw.after_changes⟩
  obtain ⟨es, hp⟩ := hh.run s.tick (Turn.onTime_due (h := h) (s := s) hahead second)
  have hpassed : (Turn.due h s deadline stage).stage.Passes es stage' := by
    rw [show stage' = (Turn.due h s deadline stage).outcome.1 by rw [hrun]]
    exact hp
  obtain ⟨before', rfl, hw'⟩ | htold := hdue.passes hpassed
  · refine .inl ⟨before', ?_, hw'⟩
    rw [List.length_append]
    exact Nat.le_add_left _ _
  · exact .inr htold

/-- One stop is ahead at `T` or has come, amid changes. -/
def StopsAt (T : Nat) (stage : Stage) : Prop :=
  (∃ before after, Awaits T before after stage) ∨ Told T stage

namespace StopsAt

lemma awaits (hw : StopsAt T stage) (quiet : stage.flag.Quiet) :
    ∃ before after, Awaits T before after stage :=
  hw.resolve_right fun ht => not_quiet_of_over ht.over quiet

lemma told (hw : StopsAt T stage) (hT : T < stage.now) : Told T stage := by
  obtain ⟨before, after, hw⟩ | ht := hw
  · exact absurd hw.now_le (Nat.not_le.2 hT)
  · exact ht

lemma occur (hw : StopsAt T stage) (quiet : stage.flag.Quiet)
    (hahead : stage.ahead = (time, event) :: rest) :
    StopsAt T ({ stage with ahead := rest }.occur time event) := by
  obtain ⟨before, after, hw⟩ := hw.awaits quiet
  obtain ⟨-, ⟨before', -, hw'⟩ | ht⟩ := hw.occur hahead
  · exact .inl ⟨before', after, hw'⟩
  · exact .inr ht

lemma untouched (hw : StopsAt T stage) (down : stage.flag.value = false) :
    stage.flag.changed = false := by
  obtain ⟨before, after, hw⟩ | ht := hw
  · rw [hw.flag_eq]
    rfl
  · rw [ht.flag_eq] at down
    cases down

lemma outcome {x : Except Fault (Scaler × Except TickError Outcome)} (hh : h.Clocked)
    (hw : StopsAt T stage) (quiet : stage.flag.Quiet) (hahead : stage.ahead = (time, event) :: rest)
    (second : rt.eventFirst deadline time stage = false)
    (hrun : (Turn.due h s deadline stage).outcome = (stage', x)) : StopsAt T stage' := by
  obtain ⟨before, after, hw⟩ := hw.awaits quiet
  obtain ⟨before', -, hw'⟩ | ht := hw.outcome hh hahead second hrun
  · exact .inl ⟨before', after, hw'⟩
  · exact .inr ht

lemma due_le (hw : StopsAt T stage) (quiet : stage.flag.Quiet)
    (hahead : stage.ahead = (time, event) :: rest)
    (second : rt.eventFirst deadline time stage = false) : dueAt deadline stage ≤ T := by
  obtain ⟨before, after, hw⟩ := hw.awaits quiet
  exact (Runtime.dueAt_le second).trans (hw.occur hahead).1

end StopsAt

/-! ### What holds of every course -/

namespace Course

lemma head (hc : Course rt h n s deadline stage turns r) :
    ∀ t ∈ turns.head?, t.start = dueAt deadline stage := by
  induction hc with
  | stop => simp
  | look down touched next ih => exact ih
  | @happen n s deadline time stage event rest turns r quiet hahead first next ih =>
    intro t ht
    have hle := Runtime.le_dueAt first
    rw [ih t ht, dueAt, Stage.now_occur]
    unfold dueAt at *
    dsimp only
    omega
  | tick | broken => simp

/-- A tick takes no negative time, and its calls are made and over in it. -/
lemma encloses (hh : h.Clocked) (hc : Course rt h n s deadline stage turns r) :
    ∀ t ∈ turns, t.Encloses := by
  induction hc with
  | stop => simp
  | look down touched next ih => exact ih
  | happen quiet hahead first next ih => exact ih
  | tick quiet hahead second hrun next ih =>
    exact List.forall_mem_cons.2 ⟨Turn.encloses_due hh hahead second, ih⟩
  | broken quiet hahead second hrun =>
    exact List.forall_mem_cons.2 ⟨Turn.encloses_due hh hahead second, by simp⟩

/-- Each tick is before the next one. -/
lemma isChain (hrt : rt.Delays (I * Duration.nanosPerMilli))
    (hc : Course rt h n s deadline stage turns r) (hinterval : s.policy.interval = .ofMillis I) :
    turns.IsChain (Turn.Before I) := by
  induction hc with
  | stop => exact .nil
  | look down touched next ih => exact ih hinterval
  | happen quiet hahead first next ih => exact ih hinterval
  | broken quiet hahead second hrun => exact .singleton _
  | @tick n s s' deadline time stage stage' event rest turns result r quiet hahead second hrun next
      ih =>
    have hpolicy : s'.policy = s.policy := policy_tick hrun
    refine List.isChain_cons.2 ⟨fun t ht => ?_, ih (by rw [hpolicy, hinterval])⟩
    have hstart := next.head t ht
    rw [hpolicy, hinterval, Duration.ofMillis, hrt] at hstart
    have hfinish : (Turn.due h s deadline stage).finish = stage'.now := by rw [Turn.finish, hrun]
    obtain ⟨hapart, hlate⟩ := apart_nextDeadline I deadline (dueAt deadline stage)
    have hdue : firstMilli (nextDeadline (I * Duration.nanosPerMilli) deadline
        (dueAt deadline stage * Duration.nanosPerMilli)) ≤ t.start :=
      hstart ▸ Nat.le_max_right _ _
    refine ⟨?_, ?_, fun h => ?_⟩
    · rw [hfinish, hstart]
      exact now_le_dueAt _ _
    · rw [Turn.start_due]
      omega
    · exact (hlate h).trans hdue

lemma start_le (hh : h.Clocked) (hc : Course rt h n s deadline stage turns r)
    (hw : StopsAt T stage) : ∀ t ∈ turns, t.start ≤ T := by
  induction hc with
  | stop => simp
  | look down touched next ih => simp [hw.untouched down] at touched
  | happen quiet hahead first next ih => exact ih (hw.occur quiet hahead)
  | tick quiet hahead second hrun next ih =>
    exact List.forall_mem_cons.2
      ⟨hw.due_le quiet hahead second, ih (hw.outcome hh quiet hahead second hrun)⟩
  | broken quiet hahead second hrun => simpa using hw.due_le quiet hahead second

lemma nil_of_told (hc : Course rt h n s deadline stage turns r) (ht : Told T stage) :
    turns = [] := by
  cases hc with
  | stop => rfl
  | look down => simp [ht.flag_eq] at down
  | happen quiet | tick quiet | broken quiet => exact absurd quiet (not_quiet_of_over ht.over)

/-- A tick that is under way at the stop is the last. -/
lemma last (hh : h.Clocked) (hc : Course rt h n s deadline stage turns r) (hw : StopsAt T stage) :
    ∀ t ∈ turns, T < t.finish → t ∈ turns.getLast? := by
  induction hc with
  | stop => simp
  | look down touched next ih => exact ih (by simp [hw.untouched down] at touched)
  | happen quiet hahead first next ih => exact ih (hw.occur quiet hahead)
  | broken quiet hahead second hrun => simp
  | tick quiet hahead second hrun next ih =>
    have hnext := hw.outcome hh quiet hahead second hrun
    intro t ht hT
    obtain rfl | ht := List.mem_cons.1 ht
    · rw [Turn.finish, hrun] at hT
      rw [next.nil_of_told (hnext.told hT)]
      rfl
    · have hlast := ih hnext t ht hT
      rw [List.getLast?_cons, Option.mem_def.1 hlast]
      rfl

/-- Without a tick the loop ends at the stop, or at once if the stop has come. -/
lemma ending_of_nil (hc : Course rt h n s deadline stage [] r) (hw : StopsAt T stage) :
    r = .ok (endingAt (max T stage.now) (s, stage)) := by
  generalize hnone : ([] : List (Turn h)) = turns at hc
  induction hc with
  | @stop s deadline stage ended =>
    have ht : Told T stage := by
      obtain ⟨before, after, hw⟩ | ht := hw
      · exact absurd hw.quiet (not_quiet_of_over ended)
      · exact ht
    rw [Nat.max_eq_right ht.le_now, endingAt_eq_stop ht.flag_eq ht.ahead_changes]
  | look down touched next ih => simp [hw.untouched down] at touched
  | @happen n s deadline time stage event rest turns r quiet hahead first next ih =>
    obtain ⟨before, after, hawaits⟩ := hw.awaits quiet
    have htime : max T ({ stage with ahead := rest }.occur time event).now = max T stage.now := by
      have hle := (hawaits.occur hahead).1
      have hnow := hawaits.now_le
      rw [Stage.now_occur]
      dsimp only
      omega
    have hfinish : ({ stage with ahead := rest }.occur time event).finish = stage.finish := by
      rw [Stage.occur_ahead]
      change (stage.passed [(time, event)] rest).finish = _
      exact Stage.finish_passed hahead
    rw [ih (hw.occur quiet hahead) hnone, htime, endingAt, endingAt, hfinish]
  | tick | broken => cases hnone

/-- What the last tick ends in, the loop ends in, once the stop has come. -/
lemma ending (hh : h.Clocked) (hc : Course rt h n s deadline stage turns r) (hw : StopsAt T stage) :
    ∀ t ∈ turns.getLast?,
      r = t.outcome.2.map fun after => endingAt (max T t.finish) (after.1, t.outcome.1) := by
  induction hc with
  | stop => simp
  | look down touched next ih => simp [hw.untouched down] at touched
  | happen quiet hahead first next ih => exact ih (hw.occur quiet hahead)
  | broken quiet hahead second hrun => simp [hrun, Except.map]
  | @tick n s s' deadline time stage stage' event rest turns result r quiet hahead second hrun next
      ih =>
    have hnext := hw.outcome hh quiet hahead second hrun
    cases turns with
    | nil =>
      rw [next.ending_of_nil hnext]
      simp [Turn.finish, hrun, Except.map]
    | cons t turns => simpa using ih hnext

end Course

/-! ### The end of the loop -/

/-- The loop ends if its timer keeps to the interval: every step brings it nearer to the stop, since
an event happens or the deadline comes an interval nearer. -/
theorem exists_course_of_awaits (hrt : rt.Delays (I * Duration.nanosPerMilli)) (hh : h.Clocked)
    (m : Nat) (hinterval : s.policy.interval = .ofMillis I) (hw : Awaits T before after stage)
    (hm : T * Duration.nanosPerMilli < deadline + m * (I * Duration.nanosPerMilli)) :
    ∃ n ≤ before.length + m + 2, ∃ turns r, Course rt h n s deadline stage turns r := by
  induction hk : before.length + m using Nat.strong_induction_on
    generalizing m s deadline stage before with
  | h k ih =>
    obtain ⟨time, event, rest, hahead⟩ :
        ∃ time event rest, stage.ahead = (time, event) :: rest := by
      rw [hw.ahead_eq]
      cases before with
      | nil => exact ⟨_, _, _, rfl⟩
      | cons e before => exact ⟨_, _, _, rfl⟩
    cases horder : rt.eventFirst deadline time stage with
    | true =>
      obtain ⟨-, ⟨before', rfl, hw'⟩ | ht⟩ := hw.occur hahead
      · rw [List.length_cons] at hk
        obtain ⟨n, hn, turns, r, hcourse⟩ := ih _ (by omega) m hinterval hw' hm rfl
        exact ⟨n + 1, by omega, turns, r, .happen hw.quiet hahead horder hcourse⟩
      · exact ⟨2, by omega, [], _, .happen hw.quiet hahead horder (.stop ht.over)⟩
    | false =>
      have hdue : firstMilli deadline ≤ T :=
        (Nat.le_max_right _ _).trans ((Runtime.dueAt_le horder).trans (hw.occur hahead).1)
      obtain ⟨m, rfl⟩ : ∃ m', m = m' + 1 := by
        refine Nat.exists_eq_add_one_of_ne_zero fun hzero => ?_
        rw [hzero, Nat.zero_mul, Nat.add_zero] at hm
        exact Nat.not_lt.2 (firstMilli_le_iff.1 hdue) hm
      rcases hrun : (Turn.due h s deadline stage).outcome with ⟨stage', f | ⟨s', result⟩⟩
      · exact ⟨1, by omega, _, _, .broken hw.quiet hahead horder hrun⟩
      obtain ⟨before', hlength, hw'⟩ | ht := hw.outcome hh hahead horder hrun
      · have hpolicy : s'.policy = s.policy := policy_tick hrun
        have hnext := add_interval_le_nextDeadline (I * Duration.nanosPerMilli) deadline
          (dueAt deadline stage * Duration.nanosPerMilli)
        have hm' : T * Duration.nanosPerMilli < rt.next s'.policy.interval.nanos deadline
            (dueAt deadline stage * Duration.nanosPerMilli) +
              m * (I * Duration.nanosPerMilli) := by
          rw [hpolicy, hinterval, Duration.ofMillis, hrt]
          rw [Nat.succ_mul] at hm
          omega
        obtain ⟨n, hn, turns, r, hcourse⟩ :=
          ih _ (by omega) m (by rw [hpolicy, hinterval]) hw' hm' rfl
        exact ⟨n + 1, by omega, _, r, .tick hw.quiet hahead horder hrun hcourse⟩
      · exact ⟨2, by omega, _, _, .tick hw.quiet hahead horder hrun (.stop ht.over)⟩

/-! ### The pace -/

/-- The ticks of a loop that is told to stop at `T`, and what it ends in. Calls are made and over
inside their tick; each tick is before the next one; no tick starts after the stop, and one that is
under way at the stop is the last; the loop ends in what the last tick ends in. -/
structure Paced (T I : Nat) (turns : List (Turn h)) (r : Except Fault Ending) : Prop where
  le_head : ∀ t ∈ turns.head?, I ≤ t.start
  encloses : ∀ t ∈ turns, t.Encloses
  isChain : turns.IsChain (Turn.Before I)
  start_le : ∀ t ∈ turns, t.start ≤ T
  last : ∀ t ∈ turns, T < t.finish → t ∈ turns.getLast?
  ending : ∀ t ∈ turns.getLast?,
    r = t.outcome.2.map fun after => endingAt (max T t.finish) (after.1, t.outcome.1)

/-- The loop on a runtime that `Delays` for the interval of `I` milliseconds, with one stop at `T`
amid changes of the cluster, on any host that is `Clocked`. Its `Course` is `Paced`: the first tick
starts after the interval, and each other one when the one before it and all its calls are over, an
interval after the start of that one, or at most five milliseconds less; after a late tick it is not
less. No tick starts after the stop; one at the stop may go before it or not, as the runtime
decides. A tick that is under way at the stop is made to its end and is the last. If the clock does
not reach to the first tick, there is none, and the loop ends at once in a fault. -/
theorem runOn_paced (hrt : rt.Delays (Duration.ofMillis I).nanos) (hh : h.Clocked) (hI : 0 < I)
    (hinterval : s.policy.interval = .ofMillis I) (hstart : stage.now = 0)
    (hflag : stage.flag = .initial false)
    (hahead : stage.ahead = before ++ (T, .signal true) :: after)
    (hbefore : ∀ e ∈ before, e.1 ≤ T ∧ e.2.Changes) (hafter : ∀ e ∈ after, e.2.Changes) :
    ((Duration.ofMillis I).nanos < rt.horizon → ∃ n turns r, runOn rt h s stage = some r ∧
      Course rt h n s (Duration.ofMillis I).nanos stage turns r ∧ Paced T I turns r) ∧
    (rt.horizon ≤ (Duration.ofMillis I).nanos →
      runOn rt h s stage = some (.error .instantTooLate)) := by
  refine ⟨fun hfits => ?_, fun hlate => by rw [runOn, hinterval, if_pos hlate]⟩
  have hw : Awaits T before after stage := ⟨hflag, hahead, by omega, hbefore, hafter⟩
  have hnanos : (Duration.ofMillis I).nanos = I * Duration.nanosPerMilli := rfl
  have henough : T * Duration.nanosPerMilli <
      (Duration.ofMillis I).nanos + T / I * (I * Duration.nanosPerMilli) := by
    have hlast := lt_gridTime hI T
    rw [gridTime, Nat.succ_mul, Nat.add_comm] at hlast
    rw [hnanos, ← Nat.mul_assoc, ← Nat.add_mul]
    exact Nat.mul_lt_mul_of_pos_right hlast (by decide)
  obtain ⟨n, hn, turns, r, hcourse⟩ := exists_course_of_awaits hrt hh _ hinterval hw henough
  have hstops : StopsAt T stage := .inl ⟨before, after, hw⟩
  refine ⟨n, turns, r, ?_, hcourse, fun t ht => ?_, hcourse.encloses hh,
    hcourse.isChain hrt hinterval, hcourse.start_le hh hstops, hcourse.last hh hstops,
    hcourse.ending hh hstops⟩
  · rw [runOn, hahead, hinterval, if_neg (Nat.not_le.2 hfits)]
    exact hcourse.runFrom_eq (hn.trans (steps_le_enoughSteps hI before after T (.signal true)))
  · rw [hcourse.head t ht, hnanos, dueAt, firstMilli_millis]
    exact Nat.le_max_right _ _

end Loop

/-! ### A cluster with outages -/

namespace Stage

lemma exists_passes_serveDisturbed (c : Call) (o : Outage c.Result) (stage : Stage) :
    ∃ es, stage.Passes es (stage.serveDisturbed c o).1 := by
  have hserved : ∀ x : Stage, x.Abreast (x.serveUndisturbed c).1 := fun _ => ⟨rfl, rfl, rfl⟩
  obtain ⟨es, hp⟩ := exists_passes_after stage o.delay
  unfold serveDisturbed
  rcases c.limit? with _ | ⟨limit, late⟩
  · refine ⟨es, ?_⟩
    rcases o.error with _ | e <;> rcases o.value with _ | v <;>
      simp only [hp, hp.to_abreast (hserved _)]
  · dsimp only
    split
    · exact exists_passes_after stage limit.millisUp
    · refine ⟨es, ?_⟩
      rcases o.error with _ | e <;> rcases o.value with _ | v <;>
        simp only [hp, hp.to_abreast (hserved _)]

/-- Whatever outages there are and whatever estimates are played, the cluster takes its time. -/
theorem host_clocked : host.Clocked := by
  intro c stage hon
  have hatOnce : ∀ x, stage.Abreast x → ∃ es, stage.Passes es x :=
    fun x hx => ⟨[], (Passes.refl hon).to_abreast hx⟩
  change ∃ es, stage.Passes es (serve c stage).1
  by_cases hc : c.method = .estimate
  · cases c with
    | estimate =>
      change ∃ es, stage.Passes es (stage.logCall .estimate).playEstimate.1
      unfold playEstimate
      split
      · exact hatOnce _ ⟨rfl, rfl, rfl⟩
      · rename_i first rest _
        have hab : stage.Abreast { stage.logCall .estimate with script := rest } := ⟨rfl, rfl, rfl⟩
        obtain ⟨es, hp⟩ :=
          exists_passes_after { stage.logCall .estimate with script := rest } first.delay
        exact ⟨es, hp.of_abreast hab⟩
    | _ => cases hc
  · rw [serve_eq_serveAmid hc, serveAmid]
    split
    · exact hatOnce _ ⟨rfl, rfl, rfl⟩
    · rename_i o _
      split
      · exact hatOnce _ ⟨rfl, rfl, rfl⟩
      · have hab : stage.Abreast ((stage.logCall c).setOutage c.method o.next?) := ⟨rfl, rfl, rfl⟩
        obtain ⟨es, hp⟩ := exists_passes_serveDisturbed c o
          ((stage.logCall c).setOutage c.method o.next?)
        exact ⟨es, hp.of_abreast hab⟩

end Stage

namespace Loop

/-- A slow answer of the scheduler, a new worker, and a larger plan whose reconciling hangs. -/
def delays : List (Nat × Event) :=
  [(500, .outage .drainEstimate (some ⟨some 1, false, 1700, none, none⟩)),
    (1200, .operation (.addWorker (.idle "a" 0 100))), (3000, .operation (.scale 5)),
    (3001, .outage .reconcile (some ⟨none, true, 0, none, none⟩))]

/-- Two workers without a task, some delays before the stop, and a change after it. -/
def sluggish : Stage :=
  .start Scenario.pair.cluster [] (delays ++ (10000, .signal true) :: [(20000, .operation .arriveAll)])
    false

lemma delays_le : ∀ e ∈ delays, e.1 ≤ 10000 ∧ e.2.Changes := by
  intro e he
  simp only [delays, List.mem_cons, List.not_mem_nil, or_false] at he
  obtain rfl | rfl | rfl | rfl := he <;> exact ⟨by decide, trivial⟩

/-- The first tick is slow, the second one late. The third one is waiting for the plan when the stop
comes, gives up after thirty seconds, and is the last. -/
theorem runOn_paced_sluggish :
    ∃ ending n, ∃ turns : List (Turn Stage.host),
      run Scaler.downToOne sluggish = some (.ok ending) ∧ ending.stoppedAt = 33700 ∧
      ending.stage.calls.map Prod.fst = [1000, 2700, 2700, 2700, 2700, 3700, 3700] ∧
      Course .measured Stage.host n Scaler.downToOne (Duration.ofMillis 1000).nanos sluggish turns
        (.ok ending) ∧
      Paced 10000 1000 turns (.ok ending) := by
  have hdelays : Runtime.measured.Delays (Duration.ofMillis 1000).nanos :=
    Runtime.delays_measured (by decide)
  obtain ⟨n, turns, r, hrun, hcourse, hpaced⟩ :=
    (runOn_paced (s := Scaler.downToOne) (I := 1000) hdelays Stage.host_clocked (by decide) rfl rfl
      rfl (show sluggish.ahead = delays ++ (10000, .signal true) :: [(20000, .operation .arriveAll)]
        from rfl) delays_le (by simp [Event.Changes])).1 (by decide)
  obtain ⟨ending, hending, hstopped, hcalls⟩ : ∃ ending,
      run Scaler.downToOne sluggish = some (.ok ending) ∧ ending.stoppedAt = 33700 ∧
      ending.stage.calls.map Prod.fst = [1000, 2700, 2700, 2700, 2700, 3700, 3700] :=
    ⟨_, rfl, by decide +kernel, by decide +kernel⟩
  obtain rfl : r = .ok ending := Option.some.inj (hrun.symm.trans hending)
  exact ⟨ending, n, turns, hending, hstopped, hcalls, hcourse, hpaced⟩

end Loop

end Fleet
