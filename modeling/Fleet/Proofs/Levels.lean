import Fleet.Proofs.ConstantLoad

/-! Simulations under one load that launch nobody after they have let somebody go: all those with a
group key, and all those under whose load the policy does not waver (`Wavers`). -/
namespace Fleet

namespace Recommendation

variable {events events' : List Recommendation} {d : Recommendation}

/-- Workers are let go, and later the plan is grown. -/
def Regrows (events : List Recommendation) : Prop :=
  ∃ ws n, List.Sublist [.down ws, .up n] events

lemma Regrows.mono (h : events.Sublist events') (hr : Regrows events) : Regrows events' := by
  obtain ⟨ws, n, hsub⟩ := hr
  exact ⟨ws, n, hsub.trans h⟩

/-- A log comes to regrow only by a growth after somebody has been let go. -/
lemma Regrows.of_concat (hr : Regrows (events ++ [d])) :
    Regrows events ∨ (∃ n, d = .up n) ∧ ∃ ws, .down ws ∈ events := by
  obtain ⟨ws, n, hsub⟩ := hr
  obtain ⟨old, new, he, hold, hnew⟩ := List.sublist_append_iff.1 hsub
  cases new with
  | nil =>
    rw [List.append_nil] at he
    subst he
    exact .inl ⟨ws, n, hold⟩
  | cons last rest =>
    obtain rfl : last = d := List.mem_singleton.1 (hnew.subset List.mem_cons_self)
    have hrest : rest = [] := by
      have hlength := hnew.length_le
      simpa using hlength
    subst hrest
    change [.down ws] ++ [.up n] = old ++ [last] at he
    obtain ⟨rfl, hlast⟩ := List.append_inj' he rfl
    cases hlast
    exact .inr ⟨⟨n, rfl⟩, ws, hold.subset List.mem_cons_self⟩

end Recommendation

namespace Simulation

open Recommendation

variable {goal : Nat → Nat} {tasks lowest highest n m : Nat} {d : Recommendation}
  {events events' : List Recommendation}

/-- From a number of workers up to `highest` nothing leads above it. From `lowest` on nothing grows,
and nothing is brought below it. -/
structure Levels (goal : Nat → Nat) (tasks lowest highest : Nat) : Prop where
  grows : ∀ n ≤ highest, n < goal n → goal n ≤ highest
  rests : ∀ n ≤ highest, lowest ≤ n → goal n ≤ n
  falls : ∀ n ≤ highest, goal n < n → tasks < n → lowest ≤ max tasks (goal n)

/-- A number of workers up to `highest` and a log that has no growth after a fall; after a fall the
number is at least `lowest`. -/
structure Levelled (lowest highest n : Nat) (events : List Recommendation) : Prop where
  le_highest : n ≤ highest
  lowest_le : ∀ ws, .down ws ∈ events → lowest ≤ n
  calm : ¬ Regrows events

theorem Levels.move (hl : Levels goal tasks lowest highest)
    (h : Levelled lowest highest n events) (hm : Move goal tasks n d m)
    (he : events' <:+ events ++ d.noted) : Levelled lowest highest m events' := by
  cases hm with
  | stay hge =>
    rw [noted, List.append_nil] at he
    exact ⟨h.le_highest, fun ws hws => h.lowest_le ws (he.subset hws),
      fun hr => h.calm (hr.mono he.sublist)⟩
  | up hlt =>
    have hnew : ∀ ws, ¬ Recommendation.down ws ∈ events := by
      intro ws hws
      have hrests := hl.rests n h.le_highest (h.lowest_le ws hws)
      omega
    refine ⟨hl.grows n h.le_highest hlt, fun ws hws => ?_, fun hr => ?_⟩
    · rcases List.mem_append.1 (he.subset hws) with hws | hws
      · exact absurd hws (hnew ws)
      · cases List.mem_singleton.1 hws
    · rcases (hr.mono he.sublist).of_concat with hr | ⟨-, ws, hws⟩
      · exact h.calm hr
      · exact hnew ws hws
  | down habove hspare hkept hfewer =>
    have hfalls := hl.falls n h.le_highest habove hspare
    refine ⟨Nat.le_trans (Nat.le_of_lt hfewer) h.le_highest, fun ws hws => by omega, fun hr => ?_⟩
    rcases (hr.mono he.sublist).of_concat with hr | ⟨⟨k, hk⟩, -⟩
    · exact h.calm hr
    · cases hk

end Simulation

namespace Policy

open Simulation

variable {p : Policy} {load : Phase} {memoryLimit workers : Nat}

/-- The memory is not under pressure. With as many workers as the tasks alone call for, looking
ahead calls for more. With as many as that, or as there are at the start if they are more, it does
not. -/
def Wavers (p : Policy) (load : Phase) (memoryLimit workers : Nat) : Prop :=
  ¬ load.Presses memoryLimit ∧
  2 * p.within load.tasks < load.tasks * load.dependents ∧
  p.within load.tasks < p.within (load.tasks * 2) ∧
  load.tasks * load.dependents ≤ 2 * max workers (p.within (load.tasks * 2))

lemma goal_of_not_presses (hp : ¬ load.Presses memoryLimit) (n : Nat) :
    p.goal load memoryLimit n =
      if 2 * n < load.tasks * load.dependents then p.within (load.tasks * 2)
      else p.within load.tasks := by
  unfold goal Phase.demand
  rw [if_neg hp, Nat.max_zero]
  split <;> rfl

/-- Under pressure nothing is brought down but what is above the maximum. -/
lemma levels_of_presses (hb : p.minimum ≤ p.maximum) (hp : load.Presses memoryLimit)
    (workers : Nat) :
    Levels (p.goal load memoryLimit) load.tasks p.maximum (max workers p.maximum) := by
  have hgoal : ∀ n, ∃ k, 2 * n ≤ k ∧ p.goal load memoryLimit n = max p.minimum (min k p.maximum) := by
    intro n
    refine ⟨load.demand memoryLimit n, ?_, rfl⟩
    unfold Phase.demand
    rw [if_pos hp]
    exact Nat.le_max_right _ _
  constructor
  · intro n hn hlt
    obtain ⟨k, hk, he⟩ := hgoal n
    omega
  · intro n hn hge
    obtain ⟨k, hk, he⟩ := hgoal n
    omega
  · intro n hn hlt hspare
    obtain ⟨k, hk, he⟩ := hgoal n
    omega

/-- Unless the goal wavers there are two numbers between which it does not turn. -/
theorem exists_levels (hb : p.minimum ≤ p.maximum) (hw : ¬ p.Wavers load memoryLimit workers) :
    ∃ lowest highest, workers ≤ highest ∧
      Levels (p.goal load memoryLimit) load.tasks lowest highest := by
  by_cases hp : load.Presses memoryLimit
  · exact ⟨_, _, Nat.le_max_left _ _, levels_of_presses hb hp workers⟩
  · have hgoal := goal_of_not_presses (p := p) hp
    have hle : p.within load.tasks ≤ p.within (load.tasks * 2) := by
      unfold within
      omega
    have hmax : p.within (load.tasks * 2) ≤ p.maximum := by
      unfold within
      omega
    by_cases hahead : max workers (p.within (load.tasks * 2)) * 2 < load.tasks * load.dependents
    · -- there are never so many workers that nobody looks ahead
      refine ⟨p.within (load.tasks * 2), max workers (p.within (load.tasks * 2)),
        Nat.le_max_left _ _, ?_⟩
      have hall : ∀ n ≤ max workers (p.within (load.tasks * 2)),
          p.goal load memoryLimit n = p.within (load.tasks * 2) := by
        intro n hn
        rw [hgoal, if_pos (by omega)]
      constructor
      · intro n hn hlt
        rw [hall n hn]
        exact Nat.le_max_right _ _
      · intro n hn hge
        rw [hall n hn]
        exact hge
      · intro n hn hlt hspare
        rw [hall n hn]
        exact Nat.le_max_right _ _
    · -- once there are as many workers as the tasks alone call for, looking ahead adds none
      have hsteady : ¬ (2 * p.within load.tasks < load.tasks * load.dependents ∧
          p.within load.tasks < p.within (load.tasks * 2)) := by
        rintro ⟨hfew, hlt⟩
        exact hw ⟨hp, hfew, hlt, by omega⟩
      refine ⟨p.within load.tasks, max workers p.maximum, Nat.le_max_left _ _, ?_⟩
      constructor
      · intro n hn hlt
        rw [hgoal]
        split <;> omega
      · intro n hn hge
        rw [hgoal]
        split <;> omega
      · intro n hn hlt hspare
        rw [hgoal]
        split <;> omega

end Policy

namespace Cluster

variable {c c' : Cluster} {load : Phase} {memoryLimit : Nat}

/-- All workers, those who are to arrive included, are of the first launch. -/
structure OneLaunch (c : Cluster) : Prop where
  recorded : ∀ x, (c.batches.get? x).getD 0 = 0
  worker : ∀ x w, c.workers.get? x = some w → w.launchBatch = 0

namespace OneLaunch

lemma seeded (s : Scenario) (m : Nat) : (s.seeded m).OneLaunch := by
  refine ⟨s.batch_seeded m, fun x w hw => ?_⟩
  obtain ⟨i, -, rfl⟩ := Scenario.exists_seed_of_get? hw
  rfl

lemma apply (ho : c.OneLaunch) (h : load.apply c memoryLimit = .ok c') : c'.OneLaunch := by
  obtain ⟨hframe, hget⟩ := Phase.apply_eq_ok h
  refine ⟨fun x => ?_, fun x w hw => ?_⟩
  · rw [hframe]
    exact ho.recorded x
  · rw [hget] at hw
    obtain ⟨v, hv, rfl⟩ := Option.map_eq_some_iff.1 hw
    exact ho.worker x v hv

lemma grow (ho : c.OneLaunch) (hfirst : c.nextBatch = 0) (n : Nat) : (c.grow n).OneLaunch := by
  refine ⟨fun x => ?_, fun x w hw => ho.worker x w (c.workers_grow n ▸ hw)⟩
  obtain ⟨-, -, hbatch⟩ | ⟨-, -, hbatch⟩ := c.grow_entries n x
  · rw [hbatch, hfirst]
    rfl
  · rw [hbatch]
    exact ho.recorded x

lemma reconcile_arriveAll (ho : c.OneLaunch) : c.reconcile.arriveAll.OneLaunch := by
  have hrecorded : ∀ x, (c.reconcile.batches.get? x).getD 0 = 0 := by
    intro x
    rw [reconcile, Dict.get?_eraseAll]
    split
    · rfl
    · exact ho.recorded x
  refine ⟨hrecorded, fun x w hw => ?_⟩
  obtain rfl | hold := newcomer_or_get?_of_arriveAll hw
  · exact hrecorded x
  · exact ho.worker x w hold

/-- Under a key all workers of one launch, one host and no labels are of one group. -/
lemma exists_group (ho : c.OneLaunch) (hc : c.Outfitted memoryLimit) (key : GroupKey) :
    ∃ name, ∀ x w, c.workers.get? x = some w → groupName (some key) w = name := by
  cases key with
  | host => exact ⟨_, fun x w hw => (hc.worker x w hw).2.1⟩
  | launchBatch =>
    refine ⟨toString 0, fun x w hw => ?_⟩
    change toString w.launchBatch = toString 0
    rw [ho.worker x w hw]
  | label name =>
    refine ⟨"", fun x w hw => ?_⟩
    change (w.labels.get? name).getD "" = ""
    rw [(hc.worker x w hw).2.2]
    rfl

end OneLaunch

/-- Where all workers are of one group, a task keeps all of them. -/
lemma not_idleGroup_of_loads (hl : load.Loads memoryLimit c) (htasks : 0 < load.tasks)
    {key : Option GroupKey} {name : String}
    (hname : ∀ x w, c.workers.get? x = some w → groupName key w = name) (hc : c.Coherent) (x : Id) :
    ¬ c.IdleGroup key x := by
  rintro ⟨v, hv, -, hgroup⟩
  have hall : c.workers.values.filter Worker.isIdle = c.workers.values := by
    refine List.filter_eq_self.2 fun w hw => ?_
    have hget := hc.get?_of_mem_values hw
    rw [Worker.isIdle, hgroup w.id w hget ((hname _ w hget).trans (hname x v hv).symm)]
    rfl
  have hlength := hl.length_idle
  have hpos : 0 < c.workers.values.length := List.length_pos_of_mem (mem_values_of_get? hv)
  rw [hall, length_values] at hlength
  rw [length_values] at hpos
  omega

lemma nextBatch_apply (h : load.apply c memoryLimit = .ok c') : c'.nextBatch = c.nextBatch := by
  obtain ⟨hframe, -⟩ := Phase.apply_eq_ok h
  rw [hframe]

end Cluster

namespace Simulation

variable {settings : Settings} {p : Policy} {s : Scenario} {load : Phase} {tick n : Nat}
  {before after : State} {c : Cluster} {ws : IdSet} {d : Recommendation}

lemma Ready.policy_eq (hr : Ready settings s before) (hp : settings.toPolicy = .ok p) :
    before.scaler.policy = p := by
  have hsame := hr.serves.policy
  rw [hp] at hsame
  exact (Except.ok.inj hsame).symm

lemma Move.up_inv {goal : Nat → Nat} {tasks n m k : Nat} (h : Move goal tasks n (.up k) m) :
    n < goal n ∧ m = goal n := by
  cases h with
  | up hlt => exact ⟨hlt, rfl⟩

lemma Move.same_inv {goal : Nat → Nat} {tasks n m : Nat} (h : Move goal tasks n .same m) :
    m = n := by
  cases h with
  | stay => rfl

/-- Nobody has been let go, all workers are of the first launch, and where the number of them is
that of the start no request has been made. From another number the goal leads nowhere above it. -/
structure Whole (p : Policy) (load : Phase) (s : Scenario) (state : State) : Prop where
  oneLaunch : state.cluster.OneLaunch
  untouched : (state.cluster.nextBatch = 0 ∧ state.cluster.plan.size = s.workers) ∨
    p.goal load s.memoryLimit state.cluster.plan.size ≤ state.cluster.plan.size
  noneLeft : ∀ ws, ¬ Recommendation.down ws ∈ state.scaler.history.events

/-- Under a key a load with tasks keeps all workers, as they make up one group. -/
lemma Whole.advance (h : Whole p load s before) (hp : settings.toPolicy = .ok p)
    {key : GroupKey} (hkey : p.workerKey = some key) (hw : p.Wavers load s.memoryLimit s.workers)
    (hr : Ready settings s before) (ha : Advances load s before c ws d after) :
    Whole p load s after := by
  obtain ⟨hc, hl, -⟩ := hr.reload ha.loaded
  obtain ⟨hpress, hfew, hrange, henough⟩ := hw
  have hpolicy := hr.policy_eq hp
  have hmove := ha.move hr
  have hevents := ha.events_suffix hr
  have hafter := congrArg State.cluster ha.after_eq
  have hone := h.oneLaunch.apply ha.loaded
  rw [hpolicy] at hmove
  cases d with
  | same =>
    have hsize := hmove.same_inv
    refine ⟨hafter ▸ hone.reconcile_arriveAll, ?_, fun ws hws => h.noneLeft ws ?_⟩
    · rw [hsize, hafter]
      refine h.untouched.imp_left fun hfirst => ⟨?_, hfirst.2⟩
      exact (Cluster.nextBatch_apply ha.loaded).trans hfirst.1
    · rw [Recommendation.noted, List.append_nil] at hevents
      exact hevents.subset hws
  | up k =>
    obtain ⟨hlt, hsize⟩ := hmove.up_inv
    obtain ⟨hbatch, hstart⟩ := h.untouched.resolve_right (Nat.not_le.2 hlt)
    refine ⟨?_, .inr ?_, fun ws hws => ?_⟩
    · rw [hafter]
      exact (hone.grow ((Cluster.nextBatch_apply ha.loaded).trans hbatch) k).reconcile_arriveAll
    · rw [hsize]
      rw [hstart] at hlt ⊢
      have hgoal := Policy.goal_of_not_presses (p := p) hpress
      -- only looking ahead can have led up, and from there the tasks alone count
      have htop : p.goal load s.memoryLimit s.workers = p.within (load.tasks * 2) := by
        rw [hgoal] at hlt ⊢
        split at hlt
        · rename_i hahead
          rw [if_pos hahead]
        · omega
      rw [htop] at hlt ⊢
      rw [hgoal, if_neg (by omega)]
      omega
    · rcases List.mem_append.1 (hevents.subset hws) with hws | hws
      · exact h.noneLeft ws hws
      · cases List.mem_singleton.1 hws
  | down gone =>
    exfalso
    obtain ⟨hne, -, -, hidle⟩ := ha.let_go hr
    obtain ⟨name, hname⟩ := hone.exists_group hc.outfitted key
    have htasks : 0 < load.tasks := Nat.pos_of_ne_zero fun hzero => by simp [hzero] at hfew
    rw [hpolicy, hkey] at hidle
    obtain ⟨x, hx⟩ : ∃ x, x ∈ gone := by
      refine List.exists_mem_of_ne_nil _ fun hnil => ?_
      rw [IdSet.isEmpty, hnil] at hne
      cases hne
    exact Cluster.not_idleGroup_of_loads hl htasks hname hc.coherent x (hidle x hx)

/-- Unless the goal wavers and there is no key, nothing is launched after somebody has been let
go. -/
theorem calm_of_steps (hp : settings.toPolicy = .ok p) (hq : p.strategy = .queue)
    (hphase : ∀ tick, s.phaseAt tick = .ok (some load))
    (hcalm : ¬ (p.workerKey = none ∧ p.Wavers load s.memoryLimit s.workers))
    (hsteps : steps s n 0 ⟨.ofPolicy p, s.cluster⟩ = .ok after) :
    ¬ Recommendation.Regrows after.scaler.history.events := by
  have hstart := ready_start hp hq s
  have hsize : s.cluster.plan.size = s.workers := s.size_plan_seeded s.workers
  by_cases hw : p.Wavers load s.memoryLimit s.workers
  · obtain ⟨key, hkey⟩ : ∃ key, p.workerKey = some key :=
      Option.ne_none_iff_exists'.1 fun hnone => hcalm ⟨hnone, hw⟩
    have hbatch : s.cluster.nextBatch = 0 := s.nextBatch_seeded s.workers
    have hfirst : Whole p load s ⟨.ofPolicy p, s.cluster⟩ :=
      ⟨.seeded s s.workers, .inl ⟨hbatch, hsize⟩, fun ws hws => nomatch hws⟩
    have hwhole := hstart.steps_keep (P := Whole p load s) hphase
      (fun _ _ _ _ _ hr h ha => h.advance hp hkey hw hr ha) hfirst hsteps
    rintro ⟨ws, m, hsub⟩
    exact hwhole.noneLeft ws (hsub.subset List.mem_cons_self)
  · obtain ⟨lowest, highest, hle, hlevels⟩ :=
      Policy.exists_levels (Settings.minimum_le_maximum hp) hw
    have hfirst : Levelled lowest highest s.cluster.plan.size [] := by
      refine ⟨hsize.symm ▸ hle, fun ws hws => absurd hws List.not_mem_nil, ?_⟩
      rintro ⟨ws, m, hsub⟩
      cases hsub
    have hlast := hstart.steps_keep
      (P := fun st => Levelled lowest highest st.cluster.plan.size st.scaler.history.events) hphase
      (fun before _ _ _ after hr h ha => by
        have hmove := ha.move hr
        rw [hr.policy_eq hp] at hmove
        exact hlevels.move h hmove (ha.events_suffix hr)) hfirst hsteps
    exact hlast.calm

end Simulation

end Fleet
