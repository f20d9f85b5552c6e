import Fleet.Proofs.LoopCourse
import Fleet.Proofs.UniqueNames
import Mathlib.Data.List.TakeWhile

/-! The loop against ticks at given times. When calls are answered at once, the loop makes its ticks
on the grid of its interval, as many as fit before the stop, and comes to what the same ticks come
to without a loop (`ticksAt`), whatever each of them ends in. -/
namespace Fleet

variable {stage stage' : Stage} {time : Nat} {e : Event} {es rest : List (Nat × Event)}
  {flag : ShutdownFlag}

/-- The event changes the cluster or how calls are answered, and leaves the flag alone. -/
def Event.Changes : Event → Prop
  | operation _ | outage _ _ => True
  | signal _ | dropSignal => False

namespace Stage

/-- Both show the same time and the same flag, and have the same ahead. -/
structure Abreast (stage stage' : Stage) : Prop where
  now_eq : stage'.now = stage.now
  ahead_eq : stage'.ahead = stage.ahead
  flag_eq : stage'.flag = stage.flag

/-- What is ahead comes later than now. -/
def CaughtUp (stage : Stage) : Prop := ∀ e ∈ stage.ahead.head?, stage.now < e.1

lemma Abreast.refl (stage : Stage) : stage.Abreast stage := ⟨rfl, rfl, rfl⟩

lemma Abreast.trans {stage'' : Stage} (h : stage.Abreast stage') (h' : stage'.Abreast stage'') :
    stage.Abreast stage'' :=
  ⟨h'.now_eq.trans h.now_eq, h'.ahead_eq.trans h.ahead_eq, h'.flag_eq.trans h.flag_eq⟩

lemma CaughtUp.of_abreast (h : stage.CaughtUp) (hab : stage.Abreast stage') : stage'.CaughtUp := by
  intro e he
  rw [hab.ahead_eq] at he
  rw [hab.now_eq]
  exact h e he

/-! ### Events that happen one after another -/

/-- Lets all of the events happen. -/
def pass (es : List (Nat × Event)) (stage : Stage) : Stage :=
  es.foldl (fun stage e => stage.occur e.1 e.2) stage

/-- The stage when the first events have happened and the others are still ahead. -/
def passed (es rest : List (Nat × Event)) (stage : Stage) : Stage :=
  { pass es stage with ahead := rest }

lemma finish_eq (stage : Stage) : stage.finish = { pass stage.ahead stage with ahead := [] } := rfl

lemma now_occur (stage : Stage) (time : Nat) (e : Event) :
    (stage.occur time e).now = max stage.now time := by
  cases e <;> rfl

/-- Nothing that happens looks at what is ahead. -/
lemma occur_ahead (stage : Stage) (time : Nat) (e : Event) (ahead : List (Nat × Event)) :
    ({ stage with ahead := ahead } : Stage).occur time e =
      { stage.occur time e with ahead := ahead } := by
  cases e <;> rfl

lemma pass_ahead (es ahead : List (Nat × Event)) (stage : Stage) :
    pass es { stage with ahead := ahead } = { pass es stage with ahead := ahead } := by
  induction es generalizing stage with
  | nil => rfl
  | cons e es ih =>
    change pass es (({ stage with ahead := ahead } : Stage).occur e.1 e.2) = _
    rw [occur_ahead]
    exact ih _

lemma finish_passed (hahead : stage.ahead = es ++ rest) :
    (stage.passed es rest).finish = stage.finish := by
  have hsplit : pass (es ++ rest) stage = pass rest (pass es stage) := List.foldl_append
  rw [finish_eq, finish_eq, hahead, hsplit]
  exact congrArg (fun x => { x with ahead := [] }) (pass_ahead rest rest _)

/-- Changes leave the flag as it is and do not look at it. -/
lemma occur_flag (he : e.Changes) (stage : Stage) (time : Nat) (flag : ShutdownFlag) :
    (stage.occur time e).flag = stage.flag ∧
      ({ stage with flag := flag } : Stage).occur time e =
        { stage.occur time e with flag := flag } := by
  cases e with
  | operation op => exact ⟨rfl, rfl⟩
  | outage m o => exact ⟨rfl, rfl⟩
  | signal stop => exact False.elim he
  | dropSignal => exact False.elim he

lemma pass_flag (hes : ∀ e ∈ es, e.2.Changes) (stage : Stage) (flag : ShutdownFlag) :
    (pass es stage).flag = stage.flag ∧
      pass es { stage with flag := flag } = { pass es stage with flag := flag } := by
  induction es generalizing stage with
  | nil => exact ⟨rfl, rfl⟩
  | cons e es ih =>
    obtain ⟨hkept, hone⟩ := occur_flag (hes e List.mem_cons_self) stage e.1 flag
    obtain ⟨hrest, hall⟩ := ih (fun e he => hes e (List.mem_cons_of_mem _ he)) (stage.occur e.1 e.2)
    refine ⟨hrest.trans hkept, ?_⟩
    change pass es (({ stage with flag := flag } : Stage).occur e.1 e.2) = _
    rw [hone]
    exact hall

lemma now_pass_le {d : Nat} (hes : ∀ e ∈ es, e.1 ≤ d) (hnow : stage.now ≤ d) :
    (pass es stage).now ≤ d := by
  induction es generalizing stage with
  | nil => exact hnow
  | cons e es ih =>
    refine ih (fun e he => hes e (List.mem_cons_of_mem _ he)) ?_
    rw [now_occur]
    exact Nat.max_le.2 ⟨hnow, hes e List.mem_cons_self⟩

lemma le_now_pass (es : List (Nat × Event)) (stage : Stage) : stage.now ≤ (pass es stage).now := by
  induction es generalizing stage with
  | nil => exact Nat.le_refl _
  | cons e es ih =>
    refine Nat.le_trans ?_ (ih (stage.occur e.1 e.2))
    rw [now_occur]
    exact Nat.le_max_left _ _

/-- What is ahead is left to the end, so nothing that happens looks at it. -/
lemma occurUntil_append {d : Nat} (hes : ∀ e ∈ es, e.1 ≤ d) (hrest : ∀ e ∈ rest.head?, d < e.1)
    (stage : Stage) : occurUntil d (es ++ rest) stage = passed es rest stage := by
  induction es generalizing stage with
  | nil =>
    cases rest with
    | nil => rfl
    | cons e rest =>
      have hlt := hrest e rfl
      rw [List.nil_append, occurUntil, if_neg (Nat.not_le.2 hlt)]
      rfl
  | cons e es ih =>
    rw [List.cons_append, occurUntil, if_pos (hes e List.mem_cons_self)]
    exact ih (fun e he => hes e (List.mem_cons_of_mem _ he)) _

lemma advanceTo_append {d : Nat} (hahead : stage.ahead = es ++ rest) (hes : ∀ e ∈ es, e.1 ≤ d)
    (hrest : ∀ e ∈ rest.head?, d < e.1) (hnow : stage.now ≤ d) :
    stage.advanceTo d = { passed es rest stage with now := d } := by
  have hlate : max (passed es rest stage).now d = d := Nat.max_eq_right (now_pass_le hes hnow)
  rw [advanceTo, hahead, occurUntil_append hes hrest, hlate]

end Stage

/-- On stages that are ready and have caught up, the host answers every call at once. Being ready is
not a matter of the clock. -/
structure Host.AtOnce (h : Host Stage) (ready : Stage → Prop) : Prop where
  serve : ∀ call stage, ready stage → stage.CaughtUp →
    ready (h.serve call stage).1 ∧ stage.Abreast (h.serve call stage).1
  clock : ∀ (stage : Stage) now ahead past, ready stage →
    ready { stage with now := now, ahead := ahead, past := past }

/-- The event is a change, and the host goes on answering at once after it. -/
def Event.Keeps (ready : Stage → Prop) (e : Event) : Prop :=
  e.Changes ∧ ∀ stage, ready stage → ready (stage.happen e).1

namespace Host.AtOnce

variable {h : Host Stage} {ready : Stage → Prop}

/-- A run does not take any time. -/
lemma run {α : Type} (hh : h.AtOnce ready) (p : Exchange α) (hready : ready stage)
    (hcaught : stage.CaughtUp) : ready (p.run h stage).1 ∧ stage.Abreast (p.run h stage).1 := by
  refine p.only_any.keeps (P := fun y => ready y ∧ stage.Abreast y) (fun call y _ hy => ?_)
    ⟨hready, .refl stage⟩
  obtain ⟨hready', hab⟩ := hh.serve call y hy.1 (hcaught.of_abreast hy.2)
  exact ⟨hready', hy.2.trans hab⟩

lemma ready_pass (hh : h.AtOnce ready) (hes : ∀ e ∈ es, e.2.Keeps ready) (hready : ready stage) :
    ready (Stage.pass es stage) := by
  induction es generalizing stage with
  | nil => exact hready
  | cons e es ih =>
    refine ih (fun e he => hes e (List.mem_cons_of_mem _ he)) ?_
    exact hh.clock _ _ _ _ ((hes e List.mem_cons_self).2 stage hready)

lemma ready_passed (hh : h.AtOnce ready) (hes : ∀ e ∈ es, e.2.Keeps ready)
    (rest : List (Nat × Event)) (hready : ready stage) : ready (stage.passed es rest) :=
  hh.clock _ _ _ _ (hh.ready_pass hes hready)

end Host.AtOnce

namespace Loop

variable {rt : Runtime} {h : Host Stage} {ready : Stage → Prop} {s s' : Scaler} {n I T k m : Nat}
  {before after : List (Nat × Event)}

/-! ### The grid -/

/-- The start of the tick with number `k`, counted from zero, when ticks take no time. All times
are in milliseconds. -/
def gridTime (I k : Nat) : Nat := (k + 1) * I

lemma gridTime_succ (I k : Nat) : gridTime I (k + 1) = gridTime I k + I := by
  unfold gridTime
  rw [Nat.succ_mul (k + 1)]

lemma dvd_gridTime (I k : Nat) : I ∣ gridTime I k := Nat.dvd_mul_left _ _

/-- The interval fits into the time as often as its multiples lie before it. -/
lemma gridTime_lt_iff (hI : 0 < I) (hT : ¬ I ∣ T) : gridTime I k < T ↔ k < T / I := by
  rw [gridTime, ← Nat.succ_le_iff (m := k), Nat.le_div_iff_mul_le hI]
  refine ⟨Nat.le_of_lt, fun hle => Nat.lt_of_le_of_ne hle fun he => hT ?_⟩
  rw [← he]
  exact Nat.dvd_mul_left _ _

lemma lt_gridTime (hI : 0 < I) (T : Nat) : T < gridTime I (T / I) := by
  rw [gridTime, Nat.mul_comm]
  exact Nat.lt_mul_div_succ T hI

/-- A tick that starts at its deadline sets the next deadline one interval later. -/
lemma nextDeadline_gridTime (I k : Nat) :
    nextDeadline (I * Duration.nanosPerMilli) (gridTime I k * Duration.nanosPerMilli)
      (gridTime I k * Duration.nanosPerMilli) = gridTime I (k + 1) * Duration.nanosPerMilli := by
  rw [nextDeadline_of_punctual (Nat.le_add_right _ _), gridTime_succ, Nat.add_mul]

/-! ### Ticks without a loop -/

/-- Ticks at the given times, whatever each of them ends in. The events up to a time happen before
its tick. -/
def ticksAt (h : Host Stage) : List Nat → Scaler → Stage → Except Fault (Scaler × Stage)
  | [], s, stage => .ok (s, stage)
  | t :: ts, s, stage =>
    match s.tick.run h (stage.advanceTo t) with
    | (_, .error f) => .error f
    | (stage', .ok (s', _)) => ticksAt h ts s' stage'

/-- The end of a loop that was told to stop: all that is ahead happens, and nobody listens. -/
def endingAt (T : Nat) (last : Scaler × Stage) : Ending :=
  ⟨last.1, T, { last.2.finish with flag := ⟨true, true, true, false⟩ }⟩

/-- The ticks on the grid, each of which ends when it starts. -/
def onGrid (I k m : Nat) : List (Nat × Nat) :=
  (List.range' k m).map fun j => (gridTime I j, gridTime I j)

/-! ### The course of the loop -/

lemma dueAt_mono {deadline : Nat} (hnow : stage.now ≤ stage'.now) :
    dueAt deadline stage ≤ dueAt deadline stage' := by
  unfold dueAt
  omega

/-- Events that happen before the next tick are steps of the loop. -/
lemma Course.pass {deadline : Nat} {turns : List (Turn h)} {r : Except Fault Ending}
    (hes : ∀ e ∈ es, e.1 < dueAt deadline stage ∧ e.2.Changes) (hflag : stage.flag.Quiet)
    (hahead : stage.ahead = es ++ rest)
    (next : Course rt h n s deadline (stage.passed es rest) turns r) :
    Course rt h (n + es.length) s deadline stage turns r := by
  induction es generalizing stage with
  | nil =>
    rw [List.nil_append] at hahead
    rwa [← hahead] at next
  | cons e es ih =>
    obtain ⟨hlt, hchanges⟩ := hes e List.mem_cons_self
    refine .happen hflag hahead (Runtime.eventFirst_of_lt hlt) ?_
    refine ih (fun e' he' => ?_) ?_ ?_ ?_
    · obtain ⟨hlt', hchanges'⟩ := hes e' (List.mem_cons_of_mem _ he')
      refine ⟨hlt'.trans_le (dueAt_mono ?_), hchanges'⟩
      rw [Stage.now_occur]
      exact Nat.le_max_left _ _
    · rw [(Stage.occur_flag hchanges _ _ stage.flag).1]
      exact hflag
    · rw [Stage.occur_ahead]
      rfl
    · rw [Stage.occur_ahead, Stage.passed, Stage.pass_ahead]
      exact next

lemma flag_signalled (hflag : stage.flag = .initial false) (hbefore : ∀ e ∈ before, e.2.Changes) :
    ((Stage.pass before stage).occur T (.signal true)).flag = ⟨true, true, true, true⟩ := by
  have hpassed := (Stage.pass_flag hbefore stage stage.flag).1
  change (Stage.pass before stage).flag.set true = _
  rw [hpassed, hflag]
  rfl

/-- After the stop has been signalled, changes that are still ahead come to the same without a
loop. -/
lemma endingAt_eq_stop (hflag : stage.flag = ⟨true, true, true, true⟩)
    (hahead : ∀ e ∈ stage.ahead, e.2.Changes) : endingAt stage.now (s, stage) = stop s stage := by
  have hunheard : ({ stage.flag with heard := false } : ShutdownFlag) =
      ⟨true, true, true, false⟩ := by rw [hflag]
  have hrest : Stage.pass stage.ahead { stage with flag := ⟨true, true, true, false⟩ } =
      { Stage.pass stage.ahead stage with flag := ⟨true, true, true, false⟩ } :=
    (Stage.pass_flag hahead stage _).2
  refine congrArg (Ending.mk s stage.now) ?_
  rw [hunheard, Stage.finish_eq, Stage.finish_eq, hrest]

/-- One stop is ahead at `T`, amid changes. -/
structure Awaits (T : Nat) (before after : List (Nat × Event)) (stage : Stage) : Prop where
  flag_eq : stage.flag = .initial false
  ahead_eq : stage.ahead = before ++ (T, .signal true) :: after
  now_le : stage.now ≤ T
  before_le : ∀ e ∈ before, e.1 ≤ T ∧ e.2.Changes
  after_changes : ∀ e ∈ after, e.2.Changes

lemma Awaits.of_abreast (hw : Awaits T before after stage) (hab : stage.Abreast stage') :
    Awaits T before after stage' :=
  ⟨hab.flag_eq.trans hw.flag_eq, hab.ahead_eq.trans hw.ahead_eq, hab.now_eq.trans_le hw.now_le,
    hw.before_le, hw.after_changes⟩

/-- When the next tick is not due before the stop, the loop lets happen what is ahead of the stop,
and ends at the stop. -/
lemma course_stop {deadline : Nat} (hw : Awaits T before after stage)
    (hT : T < dueAt deadline stage) :
    Course rt h (2 + before.length) s deadline stage [] (.ok (endingAt T (s, stage))) := by
  obtain ⟨hflag, hahead, hnow, hbefore, hafter⟩ := hw
  have hquiet : stage.flag.Quiet := hflag ▸ ShutdownFlag.quiet_initial
  have hchanges : ∀ e ∈ before, e.2.Changes := fun e he => (hbefore e he).2
  have hwaits : (stage.passed before ((T, .signal true) :: after)).flag.Quiet :=
    (Stage.pass_flag hchanges stage stage.flag).1 ▸ hquiet
  have hraised := flag_signalled (T := T) hflag hchanges
  have hnowT : ((Stage.pass before stage).occur T (.signal true)).now = T := by
    rw [Stage.now_occur]
    exact Nat.max_eq_right (Stage.now_pass_le (fun e he => (hbefore e he).1) hnow)
  have hpassed : stage.passed (before ++ [(T, .signal true)]) after =
      { (Stage.pass before stage).occur T (.signal true) with ahead := after } := by
    rw [Stage.passed, Stage.pass, List.foldl_append]
    rfl
  have hending : endingAt T (s, stage) =
      stop s { (Stage.pass before stage).occur T (.signal true) with ahead := after } := by
    rw [← hpassed, ← endingAt_eq_stop (hpassed ▸ hraised) (hpassed ▸ hafter), endingAt, endingAt,
      Stage.finish_passed (by rw [hahead, List.append_assoc]; rfl), hpassed, hnowT]
  have hdue : T < dueAt deadline (stage.passed before ((T, .signal true) :: after)) :=
    hT.trans_le (dueAt_mono (Stage.le_now_pass before stage))
  refine .pass (fun e he => ⟨(hbefore e he).1.trans_lt hT, (hbefore e he).2⟩) hquiet hahead
    (.happen hwaits rfl (Runtime.eventFirst_of_lt hdue) ?_)
  rw [hending]
  exact .stop (.inl (congrArg ShutdownFlag.value hraised))

/-! ### A tick at its deadline -/

/-- The events `es` come before a tick at `d`, and the others after it. -/
structure Splits (d : Nat) (es rest : List (Nat × Event)) (stage : Stage) : Prop where
  flag_eq : stage.flag = .initial false
  ahead_eq : stage.ahead = es ++ rest
  now_le : stage.now ≤ d
  past : ∀ e ∈ es, e.1 < d ∧ e.2.Changes
  later : ∀ e ∈ rest.head?, d < e.1

namespace Splits

variable {d deadline : Nat} {turns : List (Turn h)} {r : Except Fault Ending}

lemma advanceTo_eq (hd : Splits d es rest stage) :
    stage.advanceTo d = { stage.passed es rest with now := d } :=
  Stage.advanceTo_append hd.ahead_eq (fun e he => (hd.past e he).1.le) hd.later hd.now_le

lemma caughtUp (hd : Splits d es rest stage) : (stage.advanceTo d).CaughtUp := by
  rw [hd.advanceTo_eq]
  exact hd.later

lemma now_advanceTo (hd : Splits d es rest stage) : (stage.advanceTo d).now = d := by
  rw [hd.advanceTo_eq]

lemma ready_advanceTo (hd : Splits d es rest stage) (hh : h.AtOnce ready)
    (hes : ∀ e ∈ es, e.2.Keeps ready) (hready : ready stage) : ready (stage.advanceTo d) := by
  rw [hd.advanceTo_eq]
  exact hh.clock _ _ _ _ (hh.ready_passed hes rest hready)

/-- A tick whose calls are answered at once ends when it starts. -/
lemma times_tick (hd : Splits d es rest stage) (hh : h.AtOnce ready)
    (hready : ready (stage.advanceTo d)) (deadline : Nat) (s : Scaler) :
    (⟨deadline, s, stage.advanceTo d⟩ : Turn h).times = (d, d) :=
  Prod.ext hd.now_advanceTo
    ((hh.run s.tick hready hd.caughtUp).2.now_eq.trans hd.now_advanceTo)

lemma quiet (hd : Splits d es rest stage) : stage.flag.Quiet :=
  hd.flag_eq ▸ ShutdownFlag.quiet_initial

lemma flag_passed (hd : Splits d es rest stage) : (stage.passed es rest).flag = stage.flag :=
  (Stage.pass_flag (fun e he => (hd.past e he).2) stage stage.flag).1

lemma waits (hd : Splits d es rest stage) : (stage.passed es rest).flag.Quiet :=
  hd.flag_passed ▸ hd.quiet

lemma dueAt_passed (hd : Splits d es rest stage) (hdue : dueAt deadline stage = d) :
    dueAt deadline (stage.passed es rest) = d := by
  have hge := Stage.le_now_pass es stage
  have hle := Stage.now_pass_le (fun e he => (hd.past e he).1.le) hd.now_le
  change max (Stage.pass es stage).now _ = d
  unfold dueAt at hdue
  omega

/-- The next tick is what it is without a loop. -/
lemma due_passed (hd : Splits d es rest stage) (hdue : dueAt deadline stage = d) :
    Turn.due h s deadline (stage.passed es rest) = ⟨deadline, s, stage.advanceTo d⟩ := by
  rw [Turn.due, hd.dueAt_passed hdue, hd.advanceTo_eq]

lemma course (hd : Splits d es rest stage) (hdue : dueAt deadline stage = d)
    (next : Course rt h n s deadline (stage.passed es rest) turns r) :
    Course rt h (n + es.length) s deadline stage turns r :=
  .pass (fun e he => hdue ▸ hd.past e he) hd.quiet hd.ahead_eq next

lemma second (hd : Splits d es rest stage) (hdue : dueAt deadline stage = d)
    {first : Nat × Event} (hfirst : first ∈ rest.head?) :
    rt.eventFirst deadline first.1 (stage.passed es rest) = false :=
  Runtime.eventFirst_of_gt ((hd.dueAt_passed hdue).trans_lt (hd.later first hfirst))

lemma course_tick {result : Except TickError Outcome} (hd : Splits d es rest stage)
    (hdue : dueAt deadline stage = d) (hrest : rest ≠ [])
    (hrun : s.tick.run h (stage.advanceTo d) = (stage', .ok (s', result)))
    (next : Course rt h n s' (rt.next s'.policy.interval.nanos deadline
      (d * Duration.nanosPerMilli)) stage' turns r) :
    Course rt h (n + 1 + es.length) s deadline stage
      (⟨deadline, s, stage.advanceTo d⟩ :: turns) r := by
  obtain ⟨first, tail, rfl⟩ := List.exists_cons_of_ne_nil hrest
  have hrun' : (Turn.due h s deadline (stage.passed es (first :: tail))).outcome =
      (stage', .ok (s', result)) := by
    rw [hd.due_passed hdue]
    exact hrun
  rw [← hd.due_passed hdue]
  exact hd.course hdue (.tick hd.waits rfl (hd.second hdue rfl) hrun'
    (by rwa [hd.dueAt_passed hdue]))

lemma course_broken {f : Fault} (hd : Splits d es rest stage) (hdue : dueAt deadline stage = d)
    (hrest : rest ≠ []) (hrun : s.tick.run h (stage.advanceTo d) = (stage', .error f)) :
    Course rt h (1 + es.length) s deadline stage [⟨deadline, s, stage.advanceTo d⟩]
      (.error f) := by
  obtain ⟨first, tail, rfl⟩ := List.exists_cons_of_ne_nil hrest
  have hrun' : (Turn.due h s deadline (stage.passed es (first :: tail))).outcome =
      (stage', .error f) := by
    rw [hd.due_passed hdue]
    exact hrun
  rw [← hd.due_passed hdue]
  exact hd.course hdue (.broken hd.waits rfl (hd.second hdue rfl) hrun')

end Splits

/-- A schedule in two parts, the first of which is over at a time, while the second begins later. -/
lemma exists_split (d : Nat) (es : List (Nat × Event)) :
    ∃ first second, es = first ++ second ∧ (∀ e ∈ first, e.1 ≤ d) ∧
      ∀ e ∈ second.head?, d < e.1 := by
  refine ⟨es.takeWhile (·.1 ≤ d), es.dropWhile (·.1 ≤ d), List.takeWhile_append_dropWhile.symm,
    fun e he => ?_, fun e he => ?_⟩
  · simpa using List.mem_takeWhile_imp he
  · have hnot := List.head?_dropWhile_not (fun e : Nat × Event => decide (e.1 ≤ d)) es
    rw [Option.mem_def.1 he] at hnot
    simpa using hnot

/-- What is ahead of the stop splits at every earlier time at which nothing happens. -/
lemma Awaits.exists_splits {d : Nat} (hw : Awaits T before after stage) (hnow : stage.now ≤ d)
    (hd : d < T) (hfree : ∀ e ∈ before, e.1 ≠ d) : ∃ es es', before = es ++ es' ∧
      Splits d es (es' ++ (T, .signal true) :: after) stage := by
  obtain ⟨es, es', hsplit, hes, hes'⟩ := exists_split d before
  have hmem : ∀ e ∈ es, e ∈ before := fun e he => hsplit ▸ List.mem_append_left _ he
  refine ⟨es, es', hsplit, hw.flag_eq, by rw [hw.ahead_eq, hsplit, List.append_assoc], hnow,
    fun e he => ⟨Nat.lt_of_le_of_ne (hes e he) (hfree e (hmem e he)), (hw.before_le e (hmem e he)).2⟩,
    fun e he => ?_⟩
  cases es' with
  | nil =>
    cases he
    exact hd
  | cons first tail => exact hes' e he

/-- The stop is still ahead when the first part is over. -/
lemma Awaits.of_splits {d : Nat} {es es' : List (Nat × Event)}
    (hw : Awaits T (es ++ es') after stage)
    (hsplits : Splits d es (es' ++ (T, .signal true) :: after) stage) (hd : d ≤ T) :
    Awaits T es' after (stage.advanceTo d) := by
  rw [hsplits.advanceTo_eq]
  exact ⟨hsplits.flag_passed.trans hw.flag_eq, rfl, hd,
    fun e he => hw.before_le e (List.mem_append_right _ he), hw.after_changes⟩

lemma policy_tick {result : Except TickError Outcome}
    (hrun : s.tick.run h stage = (stage', .ok (s', result))) : s'.policy = s.policy := by
  obtain ⟨d, log, -, rfl⟩ := Scaler.tick_recounts (congrArg Prod.snd hrun)
  rfl

lemma dueAt_gridTime (hnow : stage.now ≤ gridTime I k) :
    dueAt (gridTime I k * Duration.nanosPerMilli) stage = gridTime I k := by
  rw [dueAt, firstMilli_millis]
  exact Nat.max_eq_right hnow

lemma onGrid_succ (I k m : Nat) :
    onGrid I k (m + 1) = (gridTime I k, gridTime I k) :: onGrid I (k + 1) m := rfl

/-- The course of the loop from a deadline on the grid on, when nothing else happens on the grid:
the ticks that start before the stop, each at its deadline, unless one of them meets an arithmetic
step without a result. -/
theorem course_grid (hh : h.AtOnce ready) (hrt : rt.Delays (I * Duration.nanosPerMilli)) (m : Nat)
    (hs : s.policy.interval.nanos = I * Duration.nanosPerMilli) (hready : ready stage)
    (hw : Awaits T before after stage) (hnow : stage.now ≤ gridTime I k)
    (hkeeps : ∀ e ∈ before, ¬ I ∣ e.1 ∧ e.2.Keeps ready)
    (hgrid : ∀ j < m, gridTime I (k + j) < T) (hlast : T < gridTime I (k + m)) :
    ∃ n ≤ before.length + m + 2, ∃ turns : List (Turn h),
      turns.map Turn.times <+: onGrid I k m ∧
      Course rt h n s (gridTime I k * Duration.nanosPerMilli) stage turns
        ((ticksAt h ((List.range' k m).map (gridTime I)) s stage).map (endingAt T)) ∧
      ((∃ last, ticksAt h ((List.range' k m).map (gridTime I)) s stage = .ok last) →
        turns.map Turn.times = onGrid I k m) := by
  -- on the number of ticks that are left; each one passes the events before it and leaves the rest
  induction m generalizing k s stage before with
  | zero =>
    have hdue : T < dueAt (gridTime I k * Duration.nanosPerMilli) stage := by
      rwa [dueAt_gridTime hnow]
    exact ⟨2 + before.length, by omega, [], List.nil_prefix, course_stop hw hdue, fun _ => rfl⟩
  | succ m ih =>
    have hdT : gridTime I k < T := hgrid 0 (by omega)
    have hfree : ∀ e ∈ before, e.1 ≠ gridTime I k := by
      rintro e he heq
      exact (hkeeps e he).1 (heq ▸ dvd_gridTime I k)
    obtain ⟨es, es', rfl, hsplits⟩ := hw.exists_splits hnow hdT hfree
    have hready' := hsplits.ready_advanceTo hh
      (fun e he => (hkeeps e (List.mem_append_left _ he)).2) hready
    have htimes := hsplits.times_tick hh hready' (gridTime I k * Duration.nanosPerMilli) s
    obtain ⟨hready'', hab⟩ := hh.run s.tick hready' hsplits.caughtUp
    have hw' := (hw.of_splits hsplits (Nat.le_of_lt hdT)).of_abreast hab
    rw [List.range'_succ, List.map_cons, ticksAt, onGrid_succ]
    rcases hrun : s.tick.run h (stage.advanceTo (gridTime I k)) with ⟨stage', f | ⟨s', result⟩⟩
    · refine ⟨_, ?_, _, ?_, hsplits.course_broken (dueAt_gridTime hnow) (by simp) hrun, ?_⟩
      · rw [List.length_append]
        omega
      · rw [List.map_singleton, htimes]
        exact (List.prefix_cons_inj _).2 List.nil_prefix
      · rintro ⟨last, hlast⟩
        cases hlast
    · rw [hrun] at hready'' hw' hab
      have hpolicy := policy_tick hrun
      have hnext : stage'.now ≤ gridTime I (k + 1) := by
        rw [hab.now_eq, hsplits.now_advanceTo, gridTime_succ]
        exact Nat.le_add_right _ _
      obtain ⟨n, hn, turns, hprefix, hcourse, hall⟩ := ih (k := k + 1) (s := s')
        (by rwa [hpolicy]) hready'' hw' hnext
        (fun e he => hkeeps e (List.mem_append_right _ he))
        (fun j hj => by simpa [Nat.add_assoc, Nat.add_comm 1] using hgrid (j + 1) (by omega))
        (by simpa [Nat.add_assoc, Nat.add_comm 1] using hlast)
      have htick := hsplits.course_tick (dueAt_gridTime hnow) (by simp) hrun
        (by rw [hpolicy, hs, hrt, nextDeadline_gridTime]; exact hcourse)
      refine ⟨_, ?_, _, ?_, htick, fun hok => ?_⟩
      · rw [List.length_append]
        omega
      · rw [List.map_cons, htimes]
        exact (List.prefix_cons_inj _).2 hprefix
      · rw [List.map_cons, htimes, hall hok]

lemma le_foldl_max (es : List (Nat × Event)) (t : Nat) :
    t ≤ es.foldl (fun t e => max t e.1) t ∧ ∀ e ∈ es, e.1 ≤ es.foldl (fun t e => max t e.1) t := by
  induction es generalizing t with
  | nil => exact ⟨Nat.le_refl t, by simp⟩
  | cons e es ih =>
    obtain ⟨hstart, hrest⟩ := ih (max t e.1)
    refine ⟨(Nat.le_max_left _ _).trans hstart, fun e' he' => ?_⟩
    obtain rfl | he' := List.mem_cons.1 he'
    · exact (Nat.le_max_right _ _).trans hstart
    · exact hrest e' he'

/-- The loop's own bound leaves room for the events and for the ticks before the stop. -/
lemma steps_le_enoughSteps (hI : 0 < I) (before after : List (Nat × Event)) (T : Nat) (e : Event) :
    before.length + T / I + 2 ≤
      enoughSteps (I * Duration.nanosPerMilli) (before ++ (T, e) :: after) := by
  set last := (before ++ (T, e) :: after).foldl (fun t e => max t e.1) 0 with hlast
  have hT : T ≤ last := (le_foldl_max (before ++ (T, e) :: after) 0).2 (T, e) (by simp)
  have hnanos : 0 < Duration.nanosPerMilli := by decide
  have hpos : 0 < min (I * Duration.nanosPerMilli) longestPeriod :=
    Nat.lt_min.2 ⟨Nat.mul_pos hI hnanos, by decide⟩
  have hticks : T / I ≤
      last * Duration.nanosPerMilli / min (I * Duration.nanosPerMilli) longestPeriod :=
    calc T / I = T * Duration.nanosPerMilli / (I * Duration.nanosPerMilli) :=
          (Nat.mul_div_mul_right _ _ hnanos).symm
      _ ≤ last * Duration.nanosPerMilli / (I * Duration.nanosPerMilli) :=
          Nat.div_le_div_right (Nat.mul_le_mul_right _ hT)
      _ ≤ _ := Nat.div_le_div_left (Nat.min_le_left _ _) hpos
  rw [enoughSteps, ← hlast]
  simp only [List.length_append, List.length_cons]
  omega

/-- The loop on a runtime that `Delays` for the interval of `I` milliseconds, with calls that are
answered at once, among changes of the cluster off the grid and with one stop at `T` off the grid.
The turns of its `Course` start and end at `I`, `2 * I` and so on; they are the `T / I` ones before
the stop, whatever each of them ends in, unless an arithmetic step without a result breaks one off.
The loop ends at `T` as the same ticks do without a loop (`ticksAt`). If the clock does not reach to
the first tick, there is none, and the loop ends at once in a fault. -/
theorem runOn_eq_ticksAt (hrt : rt.Delays (Duration.ofMillis I).nanos) (hh : h.AtOnce ready)
    (hI : 0 < I) (hinterval : s.policy.interval = .ofMillis I) (hready : ready stage)
    (hstart : stage.now = 0) (hflag : stage.flag = .initial false)
    (hahead : stage.ahead = before ++ (T, .signal true) :: after)
    (hbefore : ∀ e ∈ before, e.1 ≤ T ∧ ¬ I ∣ e.1 ∧ e.2.Keeps ready) (hT : ¬ I ∣ T)
    (hafter : ∀ e ∈ after, e.2.Changes) :
    ((Duration.ofMillis I).nanos < rt.horizon →
      runOn rt h s stage = some ((ticksAt h ((List.range (T / I)).map fun k => (k + 1) * I) s
        stage).map (endingAt T)) ∧
      ∃ n turns, Course rt h n s (Duration.ofMillis I).nanos stage turns
          ((ticksAt h ((List.range (T / I)).map fun k => (k + 1) * I) s stage).map (endingAt T)) ∧
        turns.map Turn.times <+: (List.range (T / I)).map (fun k => ((k + 1) * I, (k + 1) * I)) ∧
        ((∃ last, ticksAt h ((List.range (T / I)).map fun k => (k + 1) * I) s stage = .ok last) →
          turns.map Turn.times =
            (List.range (T / I)).map fun k => ((k + 1) * I, (k + 1) * I))) ∧
    (rt.horizon ≤ (Duration.ofMillis I).nanos →
      runOn rt h s stage = some (.error .instantTooLate) ∧
      ((Duration.ofMillis T).nanos < rt.horizon → T / I = 0)) := by
  refine ⟨fun hfits => ?_, fun hlate => ⟨?_, fun hlast => ?_⟩⟩
  · have hfirst : gridTime I 0 = I := by rw [gridTime, Nat.zero_add, Nat.one_mul]
    have hw : Awaits T before after stage :=
      ⟨hflag, hahead, by omega, fun e he => ⟨(hbefore e he).1, (hbefore e he).2.2.1⟩, hafter⟩
    obtain ⟨n, hn, turns, hprefix, hcourse, hall⟩ := course_grid (k := 0) hh hrt (T / I)
      (by rw [hinterval]; rfl) hready hw (by omega) (fun e he => (hbefore e he).2)
      (fun j hj => by rw [Nat.zero_add]; exact (gridTime_lt_iff hI hT).2 hj)
      (by rw [Nat.zero_add]; exact lt_gridTime hI T)
    rw [← List.range_eq_range', hfirst] at hcourse
    rw [onGrid, ← List.range_eq_range'] at hprefix hall
    refine ⟨?_, n, turns, hcourse, hprefix, hall⟩
    have hfuel := hn.trans (steps_le_enoughSteps hI before after T (.signal true))
    rw [runOn, hahead, hinterval, if_neg (Nat.not_le.2 hfits)]
    exact hcourse.runFrom_eq hfuel
  · rw [runOn, hinterval, if_pos hlate]
  · exact Nat.div_eq_of_lt (Nat.lt_of_mul_lt_mul_right (hlast.trans_le hlate))

end Loop

/-! ### A cluster without delays -/

namespace Stage

/-- No outage delays a call, and no estimate of the list takes time. -/
structure Prompt (stage : Stage) : Prop where
  outage : ∀ m o, stage.outages m = some o → o.hangs = false ∧ o.delay = 0
  script : ∀ e ∈ stage.script, e.delay = 0

lemma advanceTo_now (hcaught : stage.CaughtUp) : stage.advanceTo stage.now = stage := by
  have hnone : stage.ahead = [] ++ stage.ahead := rfl
  exact advanceTo_append hnone (by simp) hcaught (Nat.le_refl _)

lemma Prompt.setOutage (hp : stage.Prompt) {m : Method} {o : Option (Outage m.Result)}
    (ho : ∀ o', o = some o' → o'.hangs = false ∧ o'.delay = 0) : (stage.setOutage m o).Prompt := by
  refine ⟨fun m' o' h => ?_, hp.script⟩
  change stage.outages.set m o m' = some o' at h
  by_cases hm : m = m'
  · subst hm
    rw [Outages.set_same] at h
    exact ho o' h
  · rw [Outages.set_other _ _ hm] at h
    exact hp.outage m' o' h

lemma prompt_next {α : Type} {o o' : Outage α} (ho : o.hangs = false ∧ o.delay = 0)
    (h : o.next? = some o') : o'.hangs = false ∧ o'.delay = 0 := by
  unfold Outage.next? at h
  split at h
  · cases h
    exact ho
  · split at h
    · cases h
    · cases h
      exact ho

/-- An outage without a delay leaves the stage as it is or lets the call be served. -/
lemma serveDisturbed_of_prompt {c : Call} {o : Outage c.Result} (ho : o.hangs = false ∧ o.delay = 0)
    (hcaught : stage.CaughtUp) :
    (serveDisturbed c o stage).1 = stage ∨
      (serveDisturbed c o stage).1 = (stage.serveUndisturbed c).1 := by
  obtain ⟨hhangs, hdelay⟩ := ho
  unfold serveDisturbed
  rw [hhangs, hdelay]
  simp only [Nat.add_zero, advanceTo_now hcaught, Bool.false_or, Nat.not_lt_zero, decide_false,
    Bool.false_eq_true, if_false]
  rcases c.limit? with _ | ⟨limit, late⟩ <;>
    rcases o.error with _ | e <;> rcases o.value with _ | v <;> simp

lemma serveUndisturbed_of_prompt (hp : stage.Prompt) (c : Call) :
    (stage.serveUndisturbed c).1.Prompt ∧ stage.Abreast (stage.serveUndisturbed c).1 :=
  ⟨⟨hp.outage, hp.script⟩, rfl, rfl, rfl⟩

lemma playEstimate_of_prompt (hp : stage.Prompt) (hcaught : stage.CaughtUp) :
    stage.playEstimate.1.Prompt ∧ stage.Abreast stage.playEstimate.1 := by
  unfold playEstimate
  cases htake : ScriptedEstimate.take? stage.script with
  | none => exact ⟨hp, .refl stage⟩
  | some taken =>
    obtain ⟨first, rest⟩ := taken
    obtain ⟨hfirst, hrest⟩ : first ∈ stage.script ∧ ∀ e ∈ rest, e ∈ stage.script := by
      generalize stage.script = script at htake
      match script, htake with
      | [last], rfl => exact ⟨List.mem_singleton_self _, fun e he => he⟩
      | e :: e' :: more, rfl => exact ⟨List.mem_cons_self, fun e he => List.mem_cons_of_mem _ he⟩
    have hnow : ({ stage with script := rest } : Stage).advanceTo (stage.now + first.delay) =
        { stage with script := rest } := by
      rw [hp.script first hfirst]
      exact advanceTo_now hcaught
    simp only [hnow]
    exact ⟨⟨hp.outage, fun e he => hp.script e (hrest e he)⟩, rfl, rfl, rfl⟩

lemma serve_eq_serveAmid {c : Call} (hc : c.method ≠ .estimate) (stage : Stage) :
    serve c stage = serveAmid c (stage.logCall c) := by
  cases c with
  | estimate => exact absurd rfl hc
  | _ => rfl

lemma serveAmid_of_prompt (hp : stage.Prompt) (hcaught : stage.CaughtUp) (c : Call) :
    (serveAmid c stage).1.Prompt ∧ stage.Abreast (serveAmid c stage).1 := by
  unfold serveAmid
  cases hout : stage.outages c.method with
  | none => exact serveUndisturbed_of_prompt hp c
  | some o =>
    have ho := hp.outage c.method o hout
    dsimp only
    split
    · have hover : (stage.setOutage c.method none).Prompt := hp.setOutage (by simp)
      exact ⟨(serveUndisturbed_of_prompt hover c).1, rfl, rfl, rfl⟩
    · have hnext : (stage.setOutage c.method o.next?).Prompt :=
        hp.setOutage fun o' => prompt_next ho
      have hcaught' : (stage.setOutage c.method o.next?).CaughtUp := hcaught
      obtain he | he := serveDisturbed_of_prompt ho hcaught'
      · rw [he]
        exact ⟨hnext, rfl, rfl, rfl⟩
      · rw [he]
        exact ⟨(serveUndisturbed_of_prompt hnext c).1, rfl, rfl, rfl⟩

/-- Without delays the cluster answers at once, if nothing is due. -/
theorem host_atOnce : host.AtOnce Prompt := by
  refine ⟨fun call stage hp hcaught => ?_, fun stage now ahead past hp => ⟨hp.outage, hp.script⟩⟩
  have hlogged : (stage.logCall call).Prompt := ⟨hp.outage, hp.script⟩
  change (serve call stage).1.Prompt ∧ stage.Abreast (serve call stage).1
  by_cases hc : call.method = .estimate
  · cases call with
    | estimate =>
      obtain ⟨hplayed, hab⟩ := playEstimate_of_prompt hlogged hcaught
      exact ⟨hplayed, hab.now_eq, hab.ahead_eq, hab.flag_eq⟩
    | _ => cases hc
  · rw [serve_eq_serveAmid hc]
    obtain ⟨hserved, hab⟩ := serveAmid_of_prompt hlogged hcaught call
    exact ⟨hserved, hab.now_eq, hab.ahead_eq, hab.flag_eq⟩

lemma keeps_operation (op : Operation) : (Event.operation op).Keeps Prompt :=
  ⟨trivial, fun _ hp => ⟨hp.outage, hp.script⟩⟩

lemma keeps_outage {m : Method} {o : Option (Outage m.Result)}
    (ho : ∀ o', o = some o' → o'.hangs = false ∧ o'.delay = 0) : (Event.outage m o).Keeps Prompt :=
  ⟨trivial, fun _ hp => hp.setOutage ho⟩

end Stage

namespace Loop

/-- An outage of the scheduler that lasts for one call, and later a new worker. -/
def trouble : List (Nat × Event) :=
  [(1500, .outage .drainEstimate (some ⟨some 1, false, 0, some (.rpc "lost"), none⟩)),
    (2300, .operation (.addWorker (.idle "a" 0 100)))]

/-- Two workers without a task, and some trouble before the stop. -/
def troubled : Stage := .start Scenario.pair.cluster [] (trouble ++ [(3500, .signal true)]) false

lemma keeps_trouble : ∀ e ∈ trouble, e.1 ≤ 3500 ∧ ¬ 1000 ∣ e.1 ∧ e.2.Keeps Stage.Prompt := by
  have hoff : ∀ o', some (⟨some 1, false, 0, some (.rpc "lost"), none⟩ : Outage Nat) = some o' →
      o'.hangs = false ∧ o'.delay = 0 := by
    rintro o' ⟨⟩
    exact ⟨rfl, rfl⟩
  intro e he
  simp only [trouble, List.mem_cons, List.not_mem_nil, or_false] at he
  obtain rfl | rfl := he
  · exact ⟨by decide, by decide, Stage.keeps_outage hoff⟩
  · exact ⟨by decide, by decide, Stage.keeps_operation _⟩

/-- The first tick lets a worker go, the second one fails, and the third one lets go the worker that
was added. -/
theorem runOn_eq_ticksAt_troubled :
    ∃ ending, run Scaler.downToOne troubled = some (.ok ending) ∧ ending.stoppedAt = 3500 ∧
      ending.scaler.history.events =
        [.down (.ofList ["z-seed-0"]), .down (.ofList ["a"])] ∧
      ending.stage.cluster.plan = .ofList ["z-seed-1"] ∧
      ∃ n, ∃ turns : List (Turn Stage.host),
        Course .measured Stage.host n Scaler.downToOne (Duration.ofMillis 1000).nanos troubled turns
          (.ok ending) ∧
        turns.map Turn.times = [(1000, 1000), (2000, 2000), (3000, 3000)] := by
  have hprompt : troubled.Prompt := by
    refine ⟨fun m o h => ?_, fun e he => ?_⟩
    · cases h
    · cases he
  have hdelays : Runtime.measured.Delays (Duration.ofMillis 1000).nanos :=
    Runtime.delays_measured (by decide)
  obtain ⟨hrun, n, turns, hcourse, -, hall⟩ :=
    (runOn_eq_ticksAt (s := Scaler.downToOne) (I := 1000) hdelays Stage.host_atOnce (by decide) rfl
      hprompt rfl rfl (show troubled.ahead = trouble ++ (3500, .signal true) :: [] from rfl)
      keeps_trouble (by decide) (by simp)).1 (by decide)
  obtain ⟨last, hlast, hhistory, hplan⟩ : ∃ last,
      ticksAt Stage.host ((List.range (3500 / 1000)).map fun k => (k + 1) * 1000) Scaler.downToOne
        troubled = .ok last ∧
      last.1.history.events = [.down (.ofList ["z-seed-0"]), .down (.ofList ["a"])] ∧
      last.2.finish.cluster.plan = .ofList ["z-seed-1"] :=
    ⟨_, rfl, by decide +kernel, by decide +kernel⟩
  rw [hlast] at hrun hcourse hall
  exact ⟨endingAt 3500 last, hrun, rfl, hhistory, hplan, n, turns, hcourse, hall ⟨last, rfl⟩⟩

end Loop

end Fleet
