import Fleet.Scenario.Basic
import Mathlib.Data.Nat.Find
import Mathlib.Logic.ExistsUnique

/-! The phases over the ticks of a scenario. Each begins where the one before it ends, and one
without ticks ends where it begins, so that looking up the phase at a tick reads the schedule. -/
namespace Fleet.Scenario

variable {s : Scenario} {p : Phase} {i j tick : Nat}

/-- The tick at which the phase at place `i` begins: as many as the phases before it have. -/
def startOf (s : Scenario) (i : Nat) : Nat := total ((s.phases.take i).map Phase.ticks)

/-- The tick is among those of the phase at place `i`: as many as it has, from its start on. -/
def InTurn (s : Scenario) (i tick : Nat) : Prop :=
  ∃ p, s.phases[i]? = some p ∧ s.startOf i ≤ tick ∧ tick < s.startOf i + p.ticks

@[simp] lemma startOf_zero (s : Scenario) : s.startOf 0 = 0 := rfl

lemma startOf_succ (s : Scenario) (i : Nat) :
    s.startOf (i + 1) = s.startOf i + (s.phases[i]?.map Phase.ticks).getD 0 := by
  unfold startOf
  rw [List.take_add_one, List.map_append, total_append]
  cases s.phases[i]? <;> simp

lemma startOf_mono (s : Scenario) (hij : i ≤ j) : s.startOf i ≤ s.startOf j :=
  total_le_of_sublist ((List.take_sublist_take_left hij).map _)

/-- The entries that some phases make in a schedule: each as many as it has ticks. -/
def entries (phases : List Phase) : List Phase := phases.flatMap fun p => List.replicate p.ticks p

lemma schedule_eq (s : Scenario) : s.schedule = entries s.phases := rfl

lemma entries_cons (p : Phase) (rest : List Phase) :
    entries (p :: rest) = List.replicate p.ticks p ++ entries rest := rfl

lemma entries_append (phases rest : List Phase) :
    entries (phases ++ rest) = entries phases ++ entries rest := List.flatMap_append

lemma length_entries (phases : List Phase) :
    (entries phases).length = total (phases.map Phase.ticks) := by
  induction phases with
  | nil => rfl
  | cons p rest ih =>
    rw [entries_cons, List.length_append, List.length_replicate, ih, List.map_cons, total_cons]

/-- The schedule ends where a phase behind the last one would begin. -/
lemma length_schedule (s : Scenario) : s.schedule.length = s.startOf s.phases.length := by
  rw [schedule_eq, length_entries, startOf, List.take_length]

/-- The scan finds the entry that stands as far behind the first one as the tick is behind the
start. -/
lemma phaseFrom_eq {start : Nat} {phases : List Phase} (hstart : start ≤ tick)
    (hfit : start + total (phases.map Phase.ticks) < Word.shortLimit) :
    phaseFrom tick start phases = .ok (entries phases)[tick - start]? := by
  induction phases generalizing start with
  | nil => rfl
  | cons p rest ih =>
    rw [List.map_cons, total_cons] at hfit
    have hword : start + p.ticks < Word.shortLimit := by omega
    rw [phaseFrom, if_pos hword, entries_cons, List.getElem?_append, List.length_replicate]
    by_cases hin : tick < start + p.ticks
    · have hat : tick - start < p.ticks := by omega
      rw [if_pos hin, if_pos hat, List.getElem?_replicate_of_lt hat]
    · have hbehind : ¬ tick - start < p.ticks := by omega
      rw [if_neg hin, if_neg hbehind, ih (by omega) (by omega), Nat.sub_add_eq]

/-- The phase at a tick is the entry of the schedule, or the last phase behind its end. -/
theorem phaseAt_eq (hfit : total (s.phases.map Phase.ticks) < Word.shortLimit) (tick : Nat) :
    s.phaseAt tick = .ok (s.schedule[tick]?.or s.phases.getLast?) := by
  unfold phaseAt
  rw [phaseFrom_eq (Nat.zero_le tick) (by omega)]
  rfl

/-- In the schedule the entries of a phase stand side by side, from its start on. -/
lemma exists_schedule_eq (hp : s.phases[i]? = some p) : ∃ before after,
    s.schedule = before ++ (List.replicate p.ticks p ++ after) ∧ before.length = s.startOf i := by
  obtain ⟨hi, hat⟩ := List.getElem?_eq_some_iff.1 hp
  have hsplit : s.phases = s.phases.take i ++ p :: s.phases.drop (i + 1) := by
    rw [← hat, ← List.drop_eq_getElem_cons, List.take_append_drop]
  refine ⟨entries (s.phases.take i), entries (s.phases.drop (i + 1)), ?_, length_entries _⟩
  rw [← entries_cons, ← entries_append, ← hsplit, schedule_eq]

namespace InTurn

lemma lt_startOf_succ (h : s.InTurn i tick) : tick < s.startOf (i + 1) := by
  obtain ⟨p, hp, -, hlt⟩ := h
  rw [startOf_succ, hp]
  exact hlt

lemma le (h : s.InTurn i tick) (h' : s.InTurn j tick) : i ≤ j := by
  by_contra hji
  obtain ⟨p, -, hle, -⟩ := h
  have hover : s.startOf (j + 1) ≤ s.startOf i := s.startOf_mono (Nat.lt_of_not_le hji)
  exact absurd (Nat.le_trans hover hle) (Nat.not_le.2 h'.lt_startOf_succ)

lemma getElem?_schedule (h : s.InTurn i tick) : s.schedule[tick]? = s.phases[i]? := by
  obtain ⟨p, hp, hle, hlt⟩ := h
  obtain ⟨before, after, hschedule, hbefore⟩ := exists_schedule_eq hp
  have hat : tick - before.length < p.ticks := by omega
  rw [hschedule, hp, List.getElem?_append_right (hbefore ▸ hle), List.getElem?_append,
    List.length_replicate, if_pos hat, List.getElem?_replicate_of_lt hat]

end InTurn

/-- On a tick of the schedule it is the turn of a phase: the last one that has begun by then. -/
lemma exists_inTurn (htick : tick < s.schedule.length) : ∃ i, s.InTurn i tick := by
  -- the first place that begins too late; the phase right before it is the one in turn
  have hover : ∃ i, tick < s.startOf i := ⟨_, s.length_schedule ▸ htick⟩
  have hfirst := Nat.find_spec hover
  cases hplace : Nat.find hover with
  | zero =>
    rw [hplace, startOf_zero] at hfirst
    exact absurd hfirst (Nat.not_lt_zero _)
  | succ i =>
    rw [hplace, startOf_succ] at hfirst
    have hbegun : s.startOf i ≤ tick := Nat.not_lt.1 (Nat.find_min hover (by omega))
    cases hp : s.phases[i]? with
    | none =>
      rw [hp] at hfirst
      exact absurd hfirst (Nat.not_lt.2 hbegun)
    | some p =>
      rw [hp] at hfirst
      exact ⟨i, p, hp, hbegun, hfirst⟩

lemma existsUnique_inTurn (htick : tick < s.schedule.length) : ∃! i, s.InTurn i tick := by
  obtain ⟨i, hi⟩ := exists_inTurn htick
  exact ⟨i, hi, fun j hj => Nat.le_antisymm (hj.le hi) (hi.le hj)⟩

/-- Looking up the phases of a scenario and counting their ticks never fails if a word holds the
number of all ticks. During these the phase at a tick is its entry in the `schedule`, so none
without ticks is ever there. Each phase is there on all ticks of its turn, and every tick is
`InTurn` for one phase only. On later ticks the last phase is there, and none is where there are no
phases. -/
theorem phaseAt_follows_schedule (s : Scenario)
    (hfit : total (s.phases.map Phase.ticks) < Word.shortLimit) :
    ∃ n, s.totalTicks = .ok n ∧ s.schedule.length = n ∧
      (∀ tick < n, ∃ p, s.schedule[tick]? = some p ∧ s.phaseAt tick = .ok (some p) ∧ 0 < p.ticks) ∧
      (∀ i p, s.phases[i]? = some p → ∀ k < p.ticks,
        s.startOf i + k < n ∧ s.phaseAt (s.startOf i + k) = .ok (some p)) ∧
      (∀ tick < n, ∃! i, s.InTurn i tick) ∧
      (∀ tick, n ≤ tick → s.phaseAt tick = .ok s.phases.getLast?) ∧
      ∀ tick, s.phaseAt tick = .ok none ↔ s.phases = [] := by
  have hlength : s.schedule.length = total (s.phases.map Phase.ticks) := length_entries s.phases
  refine ⟨_, Word.sum_eq_ok_iff.2 ⟨hfit, rfl⟩, hlength, fun tick htick => ?_, fun i p hp k hk => ?_,
    fun tick htick => existsUnique_inTurn (hlength ▸ htick), fun tick htick => ?_, fun tick => ?_⟩
  · obtain ⟨i, hi⟩ := exists_inTurn (hlength ▸ htick)
    have hentry := hi.getElem?_schedule
    obtain ⟨p, hp, hle, hlt⟩ := hi
    rw [hp] at hentry
    refine ⟨p, hentry, ?_, by omega⟩
    rw [phaseAt_eq hfit, hentry]
    rfl
  · have hturn : s.InTurn i (s.startOf i + k) :=
      ⟨p, hp, Nat.le_add_right _ _, Nat.add_lt_add_left hk _⟩
    have hentry := hturn.getElem?_schedule.trans hp
    refine ⟨hlength ▸ (List.getElem?_eq_some_iff.1 hentry).1, ?_⟩
    rw [phaseAt_eq hfit, hentry]
    rfl
  · rw [phaseAt_eq hfit, List.getElem?_eq_none (hlength ▸ htick)]
    rfl
  · rw [phaseAt_eq hfit, Except.ok.injEq, Option.or_eq_none_iff, List.getLast?_eq_none_iff]
    refine and_iff_right_of_imp fun hnone => ?_
    rw [schedule_eq, hnone]
    rfl

/-- A phase of so many ticks, with so many tasks. -/
def lasting (ticks tasks : Nat) : Phase := { Phase.standard with ticks, tasks }

/-- As many ticks as a word holds, and phases without ticks around them. -/
def longest : Scenario :=
  { standard with
    phases := [lasting 0 1, lasting 2 2, lasting 0 3, lasting 4294967293 4, lasting 0 5] }

/-- The phases without ticks are passed over, but the last one of them is what remains. -/
theorem phaseAt_follows_schedule_longest :
    total (longest.phases.map Phase.ticks) < Word.shortLimit ∧
    longest.totalTicks = .ok 4294967295 ∧
    longest.phaseAt 0 = .ok (some (lasting 2 2)) ∧ longest.phaseAt 1 = .ok (some (lasting 2 2)) ∧
    longest.phaseAt 2 = .ok (some (lasting 4294967293 4)) ∧
    longest.phaseAt 4294967294 = .ok (some (lasting 4294967293 4)) ∧
    longest.phaseAt 4294967295 = .ok (some (lasting 0 5)) := by
  have hfit : total (longest.phases.map Phase.ticks) < Word.shortLimit := by decide
  obtain ⟨n, htotal, -, -, hturn, -, hlast, -⟩ := phaseAt_follows_schedule longest hfit
  have hn : n = 4294967295 := (Except.ok.inj htotal).symm
  refine ⟨hfit, hn ▸ htotal, ?_, ?_, ?_, ?_, ?_⟩
  · exact (hturn 1 _ rfl 0 (by decide)).2
  · exact (hturn 1 _ rfl 1 (by decide)).2
  · exact (hturn 3 _ rfl 0 (by decide)).2
  · exact (hturn 3 _ rfl 4294967292 (by decide)).2
  · exact hlast _ (hn ▸ Nat.le_refl _)

end Fleet.Scenario
