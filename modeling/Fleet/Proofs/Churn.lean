import Fleet.Proofs.Idleness
import Fleet.Proofs.Levels
import Fleet.Proofs.Provisioning

/-! Simulations under one load that launch workers after they have let others go. There are some
exactly if there is no group key and the policy `Wavers` under the load: the goal lets workers go,
and looking ahead calls for more than are left then. -/
namespace Fleet

namespace Cluster

variable {c : Cluster} {load : Phase} {memoryLimit : Nat}

/-- A steady cluster is not changed between two ticks. -/
lemma Steady.reconcile_arriveAll (h : c.Steady) : c.reconcile.arriveAll = c := by
  rw [reconcile_of_requested_eq h.requested_eq]
  refine arriveAll_of_allConnected fun w hw => ?_
  rw [h.observed_eq, ← h.requested_eq]
  exact hw

lemma Coherent.nodup_spare (hc : c.Coherent) : c.spare.Nodup := by
  have hperm := (List.mergeSort_perm (c.workers.values.filter Worker.isIdle) Worker.before).map
    Worker.id
  refine hperm.nodup_iff.2 (List.Nodup.sublist (List.filter_sublist.map _) ?_)
  rw [hc.map_id_values]
  exact c.observed.nodup

lemma length_spare (hl : load.Loads memoryLimit c) :
    c.spare.length = c.observed.size - load.tasks := by
  rw [spare, List.length_map, List.length_mergeSort, hl.length_idle]

/-- The workers that are proposed to go when there is no key. -/
def proposal (c : Cluster) (target : Nat) : IdSet := .ofList (c.spare.take (c.plan.size - target))

/-- As many are proposed as there are too many, if so many have nothing to do. -/
lemma Steady.size_proposal (h : c.Steady) (hc : c.Coherent) (hl : load.Loads memoryLimit c)
    {target : Nat} (htasks : load.tasks ≤ target) :
    (c.proposal target).size = c.plan.size - target := by
  have hlength := length_spare hl
  rw [h.observed_eq] at hlength
  rw [proposal, IdSet.size_ofList_of_nodup (hc.nodup_spare.sublist (List.take_sublist _ _)),
    List.length_take, hlength]
  omega

end Cluster

/-- A fall and a growth after it are the last events of a log with room for two. -/
lemma History.regrows_record {log : History} (hs : log.size ≤ log.capacity)
    (hroom : 2 ≤ log.capacity) (gone : IdSet) (n : Nat) :
    Recommendation.Regrows ((log.record (.down gone)).record (.up n)).events := by
  have hevents := events_foldl_record hs [.down gone, .up n]
  simp only [List.foldl_cons, List.foldl_nil] at hevents
  refine ⟨gone, n, ?_⟩
  rw [hevents, List.rtake, List.length_append, List.drop_append_of_le_length]
  · exact List.sublist_append_right _ _
  · have hlength : [Recommendation.down gone, .up n].length = 2 := rfl
    omega

namespace Simulation

variable {settings : Settings} {p : Policy} {s : Scenario} {load : Phase} {tick n : Nat}
  {before after : State} {c : Cluster} {ws : IdSet} {d : Recommendation}

/-- Without a key and without pressure on the memory no tick is broken off. The candidates are known
from the cluster and the goal. -/
theorem Ready.exists_step (hr : Ready settings s before)
    (hphase : s.phaseAt tick = .ok (some load)) (hkey : before.scaler.policy.workerKey = none)
    (hpress : ¬ load.Presses s.memoryLimit) :
    ∃ c d after, step s tick before = .ok after ∧ Ready settings s after ∧
      Advances load s before c (c.proposal (before.goal s load)) d after := by
  obtain ⟨c, hloaded, -⟩ := load.exists_apply before.cluster s.memoryLimit
  obtain ⟨hc, hl, hplan, -⟩ := hr.reload hloaded
  have he := (hc.outfitted.estimate_cases hc.coherent hl hr.strategy).resolve_left
    fun h => hpress h.1
  have hround : (before.scaler.advisor.round (before.goal s load) c.roster).run Cluster.host c =
      (c, .ok (.ok (c.proposal (before.goal s load)))) := by
    rcases Nat.lt_or_ge (before.goal s load) c.plan.size with hlt | hge
    · have hfit : ∀ w ∈ c.workers.values, w.memoryUsed < Word.limit := by
        intro w hw
        rw [hl.memoryUsed_eq w.id w (hc.coherent.get?_of_mem_values hw)]
        exact UInt64.toNat_lt _
      have hquery : (before.scaler.advisor.queryFor (before.goal s load)).key = none :=
        hr.key_eq.trans hkey
      rw [Advisor.run_round_host_of_scheduler hr.source_eq hlt,
        hc.coherent.closeCandidates_none (fun w hw _ => hfit w hw) hquery, hc.steady.size_workers]
      rfl
    · rw [Advisor.run_round_of_le (r := c.roster) hge, Cluster.proposal,
        Nat.sub_eq_zero_of_le hge]
      rfl
  obtain ⟨d, after, hstep, hadvance, hready⟩ := hr.step_of_round hphase hloaded he hround
  exact ⟨c, d, after, hstep, hready, hadvance⟩

/-- Valid settings with the queue strategy and without a key, for a scenario of one load, which does
not put the memory under pressure. -/
structure Plain (settings : Settings) (p : Policy) (s : Scenario) (load : Phase) : Prop where
  policy : settings.toPolicy = .ok p
  strategy : p.strategy = .queue
  key : p.workerKey = none
  phaseAt : ∀ tick, s.phaseAt tick = .ok (some load)
  relaxed : ¬ load.Presses s.memoryLimit

/-- Under the load the cluster is `c`, and those who would be proposed on it have been proposed `k`
times in a row. -/
structure Waits (settings : Settings) (p : Policy) (s : Scenario) (load : Phase) (c : Cluster)
    (log : History) (k : Nat) (state : State) : Prop where
  ready : Ready settings s state
  history_eq : state.scaler.history = log
  loaded : load.apply state.cluster s.memoryLimit = .ok c
  count_eq : ∀ w ∈ c.proposal (p.goal load s.memoryLimit c.plan.size),
    state.scaler.debounce.count w = k

section Waiting

variable {log : History} {k : Nat} {state : State}

lemma Waits.waitCount_eq (hs : Plain settings p s load)
    (hw : Waits settings p s load c log k state) :
    state.scaler.debounce.waitCount = p.waitCount := by
  rw [hw.ready.serves.waitCount, hw.ready.policy_eq hs.policy]

/-- The next tick proposes those of whom the counts are known. -/
lemma Waits.exists_step (hs : Plain settings p s load) (hw : Waits settings p s load c log k state)
    (tick : Nat) :
    ∃ d after, step s tick state = .ok after ∧ Ready settings s after ∧
      state.goal s load = p.goal load s.memoryLimit c.plan.size ∧
      Advances load s state c (c.proposal (p.goal load s.memoryLimit c.plan.size)) d after := by
  have hpolicy := hw.ready.policy_eq hs.policy
  obtain ⟨c', d, after, hstep, hready, hadvance⟩ := hw.ready.exists_step (hs.phaseAt tick)
    (hpolicy ▸ hs.key) hs.relaxed
  obtain rfl : c = c' := Except.ok.inj (hw.loaded.symm.trans hadvance.loaded)
  obtain ⟨-, -, hplan, -⟩ := hw.ready.reload hw.loaded
  have hgoal : state.goal s load = p.goal load s.memoryLimit c.plan.size := by
    rw [State.goal, hpolicy, hplan]
  exact ⟨d, after, hstep, hready, hgoal, hgoal ▸ hadvance⟩

/-- Before the wait is over the proposed workers are counted once more, and nothing else happens. -/
lemma Waits.early (hs : Plain settings p s load) (hw : Waits settings p s load c log k state)
    (hover : p.goal load s.memoryLimit c.plan.size < c.plan.size) (hk : k + 1 < p.waitCount)
    (tick : Nat) :
    ∃ after, step s tick state = .ok after ∧ Waits settings p s load c log (k + 1) after := by
  obtain ⟨hc, hl, -⟩ := hw.ready.reload hw.loaded
  obtain ⟨d, after, hstep, hready, hgoal, hadvance⟩ := hw.exists_step hs tick
  have hwait := hw.waitCount_eq hs
  obtain rfl : d = .same := by
    rw [← hadvance.verdict_eq, hgoal, Advisor.verdict_of_count (Nat.le_of_lt hover) hw.count_eq]
    exact if_neg fun hlong => Nat.not_le.2 hk (hwait ▸ hlong.1)
  obtain rfl := hadvance.after_eq
  refine ⟨_, hstep, hready, hw.history_eq, ?_, fun w hmem => ?_⟩
  · change load.apply c.reconcile.arriveAll s.memoryLimit = .ok c
    rw [hc.steady.reconcile_arriveAll]
    exact hl.apply_eq
  · change (state.scaler.debounce.observe _).count w = k + 1
    rw [Debounce.count_observe, hw.count_eq w hmem, if_pos ⟨hmem, hwait.symm ▸ hk⟩]

/-- When the wait is over the proposed workers go, and the goal is reached. -/
lemma Waits.due (hs : Plain settings p s load) (hw : Waits settings p s load c log k state)
    (htasks : load.tasks ≤ p.goal load s.memoryLimit c.plan.size)
    (hover : p.goal load s.memoryLimit c.plan.size < c.plan.size) (hk : p.waitCount ≤ k + 1)
    (tick : Nat) :
    ∃ after gone, step s tick state = .ok after ∧ Ready settings s after ∧
      after.scaler.history = log.record (.down gone) ∧
      after.cluster.plan.size = p.goal load s.memoryLimit c.plan.size := by
  obtain ⟨hc, hl, hplan, -⟩ := hw.ready.reload hw.loaded
  obtain ⟨d, after, hstep, hready, hgoal, hadvance⟩ := hw.exists_step hs tick
  have hwait := hw.waitCount_eq hs
  have hproposed : (c.proposal (p.goal load s.memoryLimit c.plan.size)).size =
      c.plan.size - p.goal load s.memoryLimit c.plan.size :=
    hc.steady.size_proposal hc.coherent hl htasks
  have hne : (c.proposal (p.goal load s.memoryLimit c.plan.size)).isEmpty = false :=
    IdSet.size_pos_iff.1 (by omega)
  obtain rfl : d = .down (c.proposal (p.goal load s.memoryLimit c.plan.size)) := by
    rw [← hadvance.verdict_eq, hgoal, Advisor.verdict_of_count (Nat.le_of_lt hover) hw.count_eq]
    exact if_pos ⟨hwait ▸ hk, hne⟩
  refine ⟨after, c.proposal (p.goal load s.memoryLimit c.plan.size), hstep, hready, ?_, ?_⟩
  · rw [hadvance.after_eq, ← hw.history_eq]
    rfl
  · rw [hadvance.size_eq hw.ready, Recommendation.resize, hproposed, ← hplan]
    omega

/-- A number of ticks before the wait is over. -/
theorem Waits.steps (hs : Plain settings p s load) (hw : Waits settings p s load c log 0 state)
    (hover : p.goal load s.memoryLimit c.plan.size < c.plan.size) (hk : k < p.waitCount)
    (tick : Nat) :
    ∃ after, steps s k tick state = .ok after ∧ Waits settings p s load c log k after := by
  induction k with
  | zero => exact ⟨state, rfl, hw⟩
  | succ k ih =>
    obtain ⟨next, hsteps, hnext⟩ := ih (Nat.lt_of_succ_lt hk)
    obtain ⟨after, hstep, hafter⟩ := hnext.early hs hover hk (tick + k)
    refine ⟨after, ?_, hafter⟩
    rw [steps_succ, hsteps]
    exact hstep

end Waiting

/-- A number of workers below the goal grows to it in one tick, and nobody is counted then. -/
lemma Ready.exists_growth (hs : Plain settings p s load) (hr : Ready settings s before)
    (hunder : before.cluster.plan.size < p.goal load s.memoryLimit before.cluster.plan.size)
    (tick : Nat) :
    ∃ after, step s tick before = .ok after ∧ Ready settings s after ∧
      after.scaler.history = before.scaler.history.record
        (.up (p.goal load s.memoryLimit before.cluster.plan.size)) ∧
      after.cluster.plan.size = p.goal load s.memoryLimit before.cluster.plan.size ∧
      ∀ w, after.scaler.debounce.count w = 0 := by
  have hpolicy := hr.policy_eq hs.policy
  obtain ⟨c, d, after, hstep, hready, hadvance⟩ := hr.exists_step (hs.phaseAt tick)
    (hpolicy ▸ hs.key) hs.relaxed
  obtain ⟨-, -, hplan, -⟩ := hr.reload hadvance.loaded
  have hgoal : before.goal s load = p.goal load s.memoryLimit before.cluster.plan.size := by
    rw [State.goal, hpolicy]
  rw [hgoal] at hadvance
  obtain rfl : d = .up (p.goal load s.memoryLimit before.cluster.plan.size) := by
    rw [← hadvance.verdict_eq, hgoal]
    exact if_pos (hplan.symm ▸ hunder)
  refine ⟨after, hstep, hready, ?_, hadvance.size_eq hr, fun w => ?_⟩
  · rw [hadvance.after_eq]
    rfl
  · have hnobody : ¬ w ∈ c.proposal (p.goal load s.memoryLimit before.cluster.plan.size) := by
      rw [Cluster.proposal, hplan, Nat.sub_eq_zero_of_le (Nat.le_of_lt hunder)]
      exact IdSet.not_mem_empty
    rw [hadvance.after_eq, Scaler.debounce, Scaler.advisor_note]
    change (before.scaler.debounce.observe _).count w = 0
    rw [Debounce.count_observe, if_neg fun hmem => hnobody hmem.1]

/-- Too many workers, of whom nobody has been counted, fall to the goal after the wait. If the goal
is higher then, they grow to it at once. -/
theorem Ready.regrows (hs : Plain settings p s load) (hr : Ready settings s before)
    (hnew : ∀ w, before.scaler.debounce.count w = 0)
    (hroom : 2 ≤ before.scaler.history.capacity) {low : Nat}
    (hgoal : p.goal load s.memoryLimit before.cluster.plan.size = low) (htasks : load.tasks ≤ low)
    (hover : low < before.cluster.plan.size) (hunder : low < p.goal load s.memoryLimit low)
    (tick : Nat) :
    ∃ after, steps s (p.waitCount + 1) tick before = .ok after ∧
      Recommendation.Regrows after.scaler.history.events := by
  obtain ⟨c, hloaded, -⟩ := load.exists_apply before.cluster s.memoryLimit
  obtain ⟨-, -, hplan, -⟩ := hr.reload hloaded
  have hwait : 0 < p.waitCount := (Settings.checked_of_toPolicy hs.policy).1
  have hw : Waits settings p s load c before.scaler.history 0 before :=
    ⟨hr, rfl, hloaded, fun w _ => hnew w⟩
  rw [← hplan] at hgoal hover
  subst hgoal
  obtain ⟨last, hsteps, hlast⟩ := hw.steps hs hover (Nat.sub_lt hwait Nat.one_pos) tick
  obtain ⟨fallen, gone, hdue, hready, hlog, hsize⟩ :=
    hlast.due hs htasks hover (by omega) (tick + (p.waitCount - 1))
  rw [← hsize] at hunder
  obtain ⟨grown, hgrowth, -, hlog', -⟩ := hready.exists_growth hs hunder (tick + p.waitCount)
  refine ⟨grown, ?_, ?_⟩
  · have hall : steps s p.waitCount tick before = .ok fallen := by
      obtain ⟨k, hk⟩ := Nat.exists_eq_succ_of_ne_zero hwait.ne'
      rw [hk, Nat.succ_eq_add_one, Nat.add_sub_cancel] at hsteps hdue
      rw [hk, steps_succ, hsteps]
      exact hdue
    rw [steps_succ, hall]
    exact hgrowth
  · rw [hlog', hlog]
    exact History.regrows_record hr.size_le hroom gone _

/-- The ticks that it takes to let workers go and to launch others: the wait, one tick to grow, and
one more if looking ahead leads up first. -/
def ticksToRegrow (p : Policy) (s : Scenario) (load : Phase) : Nat :=
  p.waitCount + if 2 * s.workers < load.tasks * load.dependents then 2 else 1

/-- A goal that wavers and no key make a simulation let workers go and launch others soon after. -/
theorem exists_regrowth (hs : Plain settings p s load)
    (hw : p.Wavers load s.memoryLimit s.workers) :
    ∃ final, steps s (ticksToRegrow p s load) 0 ⟨.ofPolicy p, s.cluster⟩ = .ok final ∧
      Recommendation.Regrows final.scaler.history.events := by
  have hstart := ready_start hs.policy hs.strategy s
  have hsize : s.cluster.plan.size = s.workers := s.size_plan_seeded s.workers
  have hgoal := Policy.goal_of_not_presses (p := p) hs.relaxed
  obtain ⟨-, hfew, hrange, henough⟩ := hw
  have htasks : load.tasks ≤ p.within load.tasks := by
    unfold Policy.within at hrange ⊢
    omega
  have hroom : 2 ≤ (Scaler.ofPolicy p).history.capacity := by
    change 2 ≤ History.standardCapacity
    decide
  have hagain : p.within load.tasks < p.goal load s.memoryLimit (p.within load.tasks) := by
    rw [hgoal, if_pos hfew]
    exact hrange
  by_cases hahead : 2 * s.workers < load.tasks * load.dependents
  · -- looking ahead leads up first, and there it ends
    have htop : p.goal load s.memoryLimit s.cluster.plan.size = p.within (load.tasks * 2) := by
      rw [hgoal, hsize, if_pos hahead]
    have hunder : s.cluster.plan.size < p.goal load s.memoryLimit s.cluster.plan.size := by
      rw [htop, hsize]
      omega
    obtain ⟨first, hstep, hready, hlog, hfirst, hnew⟩ := hstart.exists_growth hs hunder 0
    rw [← History.capacity_record, ← hlog] at hroom
    rw [htop] at hfirst
    have hback : p.goal load s.memoryLimit first.cluster.plan.size = p.within load.tasks := by
      rw [hgoal, hfirst, if_neg (by omega)]
    obtain ⟨final, hsteps, hregrows⟩ :=
      hready.regrows hs hnew hroom hback htasks (hfirst.symm ▸ hrange) hagain 1
    refine ⟨final, ?_, hregrows⟩
    rw [ticksToRegrow, if_pos hahead]
    change steps s (p.waitCount + 1 + 1) 0 _ = _
    rw [steps, hstep]
    exact hsteps
  · have hback : p.goal load s.memoryLimit s.cluster.plan.size = p.within load.tasks := by
      rw [hgoal, hsize, if_neg hahead]
    have hover : p.within load.tasks < s.cluster.plan.size := by omega
    obtain ⟨final, hsteps, hregrows⟩ :=
      hstart.regrows hs (fun w => rfl) hroom hback htasks hover hagain 0
    refine ⟨final, ?_, hregrows⟩
    rw [ticksToRegrow, if_neg hahead]
    exact hsteps

/-- How many ticks are to be run under a single load is always known. -/
lemma exists_tickCount {d : Deployment} (hphases : d.scenario.phases = [load])
    (hticks : load.ticks < Word.shortLimit) (ticks : Option Nat) :
    ∃ n, tickCount d ticks = .ok n := by
  cases ticks with
  | some n => exact ⟨n, rfl⟩
  | none =>
    refine ⟨load.ticks, ?_⟩
    rw [tickCount, Scenario.totalTicks, hphases, Word.sum_eq_ok_iff]
    exact ⟨hticks, rfl⟩

/-- Valid settings with the queue strategy and a scenario of a single phase. The history of a
simulation that returns, after however many ticks, never `Regrows`, unless there is no key and the
policy `Wavers` under the load of the phase. In that case there is one that does. -/
theorem never_regrows_iff {d : Deployment} (hp : d.settings.toPolicy = .ok p)
    (hq : d.settings.strategy = .queue) (hphases : d.scenario.phases = [load])
    (hticks : load.ticks < Word.shortLimit) :
    (∀ ticks report, run d ticks = .ok report → ¬ Recommendation.Regrows report.history.events) ↔
      ¬ (p.workerKey = none ∧ p.Wavers load d.scenario.memoryLimit d.scenario.workers) := by
  have hstrategy : p.strategy = .queue := (Settings.strategy_of_toPolicy hp).trans hq
  have hphase := Scenario.phaseAt_single hphases hticks
  constructor
  · rintro hnever ⟨hkey, hw⟩
    obtain ⟨final, hsteps, hregrows⟩ :=
      exists_regrowth ⟨hp, hstrategy, hkey, hphase, hw.1⟩ hw
    have hn : tickCount d (some (ticksToRegrow p d.scenario load)) =
      .ok (ticksToRegrow p d.scenario load) := rfl
    have hrun := run_eq hp hn
    rw [hsteps] at hrun
    exact hnever _ _ hrun hregrows
  · intro hcalm ticks report hreport
    obtain ⟨n, hn⟩ := exists_tickCount hphases hticks ticks
    have hrun := run_eq hp hn
    rw [hreport] at hrun
    cases hsteps : steps d.scenario n 0 ⟨.ofPolicy p, d.scenario.cluster⟩ with
    | error e =>
      rw [hsteps] at hrun
      cases hrun
    | ok final =>
      rw [hsteps] at hrun
      cases hrun
      exact calm_of_steps hp hstrategy hphase hcalm hsteps

end Simulation

namespace Settings

/-- The standard settings with the queue strategy. -/
def queueing : Settings := { standard with strategy := .queue }

lemma toPolicy_queueing : queueing.toPolicy = .ok { Policy.standard with strategy := .queue } :=
  toPolicy_eq_ok (by decide +kernel) rfl (by decide) (by decide) (by decide +kernel)
    (by decide +kernel)

end Settings

namespace Simulation

/-- Three workers and two tasks, which so many tasks need each. -/
def fanOut (dependents : Nat) : Deployment :=
  ⟨.queueing, ⟨"z", 3, 0, [⟨5, 2, dependents, none, 0⟩]⟩⟩

/-- Two dependents for each of two tasks are no more than two workers can do with, so that one of
three workers goes for good. -/
theorem never_regrows_fanOut :
    ((fanOut 2).settings.toPolicy = .ok { Policy.standard with strategy := .queue } ∧
      (fanOut 2).settings.strategy = .queue ∧
      (fanOut 2).scenario.phases = [⟨5, 2, 2, none, 0⟩] ∧ 5 < Word.shortLimit) ∧
    ∀ ticks report, run (fanOut 2) ticks = .ok report →
      ¬ Recommendation.Regrows report.history.events := by
  have hp : (fanOut 2).settings.toPolicy = .ok { Policy.standard with strategy := .queue } :=
    Settings.toPolicy_queueing
  have hphases : (fanOut 2).scenario.phases = [⟨5, 2, 2, none, 0⟩] := rfl
  refine ⟨⟨hp, rfl, hphases, by decide⟩, (never_regrows_iff hp rfl hphases (by decide)).2 ?_⟩
  rintro ⟨-, -, hfew, -⟩
  exact absurd hfew (by decide +kernel)

/-- With three dependents for each of two tasks the third worker goes after three ticks, and in the
fourth the two that stay look ahead and launch two more. -/
theorem regrows_fanOut :
    (fanOut 3).settings.toPolicy = .ok { Policy.standard with strategy := .queue } ∧
    (fanOut 3).settings.strategy = .queue ∧
    (fanOut 3).scenario.phases = [⟨5, 2, 3, none, 0⟩] ∧
    ∃ report, run (fanOut 3) (some 4) = .ok report ∧
      Recommendation.Regrows report.history.events := by
  have hp : (fanOut 3).settings.toPolicy = .ok { Policy.standard with strategy := .queue } :=
    Settings.toPolicy_queueing
  have hphases : (fanOut 3).scenario.phases = [⟨5, 2, 3, none, 0⟩] := rfl
  have hrelaxed : ¬ (⟨5, 2, 3, none, 0⟩ : Phase).Presses 0 := fun h => Nat.lt_irrefl 0 h.1
  have hw : ({ Policy.standard with strategy := .queue } : Policy).Wavers ⟨5, 2, 3, none, 0⟩ 0 3 :=
    ⟨hrelaxed, by decide +kernel, by decide +kernel, by decide +kernel⟩
  obtain ⟨final, hsteps, hregrows⟩ := exists_regrowth (s := (fanOut 3).scenario)
    ⟨hp, rfl, rfl, Scenario.phaseAt_single hphases (by decide), hrelaxed⟩ hw
  have hticks : ticksToRegrow { Policy.standard with strategy := .queue } (fanOut 3).scenario
      ⟨5, 2, 3, none, 0⟩ = 4 := rfl
  have hfour : tickCount (fanOut 3) (some 4) = .ok 4 := rfl
  have hrun := run_eq hp hfour
  rw [hticks] at hsteps
  rw [hsteps] at hrun
  exact ⟨hp, rfl, hphases, _, hrun, hregrows⟩

end Simulation

end Fleet
