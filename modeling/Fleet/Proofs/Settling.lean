import Fleet.Proofs.ClosingOrder
import Fleet.Proofs.Naming

/-! Ticks with the same estimate, on a cluster to which nothing else happens. The plan comes to the
target in one step, up at once or down after the wait, and stays there. -/
namespace Fleet

namespace Cluster

/-- A cluster with an estimator from outside, which always answers the same number. -/
def hostEstimating (n : Nat) : Host Cluster where
  view := view
  serve
    | .estimate, c => (c, .ok (.ok n))
    | call, c => serve call c

lemma view_hostEstimating (n : Nat) : (hostEstimating n).view = host.view := rfl

lemma serve_hostEstimating {n : Nat} {call : Call} (hc : call.method ≠ .estimate) (c : Cluster) :
    (hostEstimating n).serve call c = host.serve call c := by
  cases call <;> first | rfl | exact absurd rfl hc

variable {c : Cluster}

@[simp] lemma plan_settled (c : Cluster) : c.settled.plan = c.plan := by
  unfold settled
  split
  · rfl
  · exact plan_reconcile c

@[simp] lemma status_settled (c : Cluster) : c.settled.status = c.status := by
  unfold settled
  split <;> rfl

@[simp] lemma settled_settled (c : Cluster) : c.settled.settled = c.settled := by
  by_cases hc : c.roster.isReconciled = true
  · have hs : c.settled = c := if_pos hc
    rw [hs, hs]
  · have hs : c.settled = c.reconcile := if_neg hc
    rw [hs]
    exact if_pos (isReconciled_reconcile c)

lemma settled_of_requested_eq (hc : c.requested = c.plan) : c.settled = c := by
  rw [settled_eq, hc, if_pos rfl]

@[simp] lemma status_grow (c : Cluster) (n : Nat) : (c.grow n).status = c.status := by
  obtain ⟨k, b, p, he⟩ := c.grow_frame n
  rw [he]

@[simp] lemma status_letGo (c : Cluster) (ws : IdSet) : (c.carryOut (.down ws)).status = c.status := by
  obtain ⟨workers, gone, he⟩ := c.retire_frame (.close ws.toList)
  rw [carryOut, he]
  rfl

lemma plan_letGo (c : Cluster) (ws : IdSet) :
    (c.carryOut (.down ws)).plan = c.plan.eraseAll ws.toList := by
  rw [carryOut, scaleDown, plan_retire]

end Cluster

/-- Workers that have been counted equally often are let go together. -/
lemma Debounce.due_of_count {d : Debounce} {ws : IdSet} {k : Nat} (hk : ∀ w ∈ ws, d.count w = k) :
    d.due ws = if d.waitCount ≤ k + 1 then ws else ∅ := by
  refine IdSet.ext_mem fun w => ?_
  rw [mem_due]
  split
  · rename_i hlong
    constructor
    · exact And.left
    · intro hw
      rw [hk w hw]
      exact ⟨hw, hlong⟩
  · rename_i hshort
    refine iff_of_false ?_ IdSet.not_mem_empty
    rintro ⟨hw, hlong⟩
    rw [hk w hw] at hlong
    exact hshort hlong

lemma Strategy.eq_queue_of_source {strategy : Strategy} (hs : strategy.source = .scheduler) :
    strategy = .queue := by
  cases strategy with
  | duration => cases hs
  | queue => rfl

lemma Advisor.verdict_of_le {a : Advisor} {target : Nat} {r : Roster} (hle : target ≤ r.plan.size)
    (ws : IdSet) :
    a.verdict target r ws =
      if (a.debounce.due ws).isEmpty then .same else .down (a.debounce.due ws) :=
  if_neg (Nat.not_lt.2 hle)

/-- Workers that have been counted equally often go when that is often enough. -/
lemma Advisor.verdict_of_count {a : Advisor} {target k : Nat} {r : Roster} {ws : IdSet}
    (hle : target ≤ r.plan.size) (hk : ∀ w ∈ ws, a.debounce.count w = k) :
    a.verdict target r ws =
      if a.debounce.waitCount ≤ k + 1 ∧ ws.isEmpty = false then .down ws else .same := by
  rw [verdict_of_le hle, Debounce.due_of_count hk]
  by_cases hlong : a.debounce.waitCount ≤ k + 1
  · rw [if_pos hlong]
    cases ws.isEmpty with
    | true => simp
    | false => simp [hlong]
  · have hnobody : (∅ : IdSet).isEmpty = true := rfl
    rw [if_neg hlong, if_pos hnobody, if_neg fun hand => hlong hand.1]

namespace Scaler

variable {σ : Type} {h : Host σ} {s s' s'' : Scaler} {x y z : σ} {m n raw : Nat}
  {results results' : List (Except TickError Outcome)}

/-- A number of ticks one after another, with what each of them came to. -/
def outcomes (s : Scaler) : Nat → Exchange (Scaler × List (Except TickError Outcome))
  | 0 => pure (s, [])
  | n + 1 => do
    let (s, result) ← s.tick
    let (s, results) ← s.outcomes n
    return (s, result :: results)

lemma outcomes_add (s : Scaler) (m n : Nat) :
    s.outcomes (m + n) = (do
      let (s, results) ← s.outcomes m
      let (s, results') ← s.outcomes n
      return (s, results ++ results')) := by
  induction m generalizing s with
  | zero => simp [outcomes]
  | succ m ih =>
    rw [Nat.add_right_comm]
    simp [outcomes, ih]

/-- Some ticks and then some more. -/
theorem run_outcomes_add (hm : (s.outcomes m).run h x = (y, .ok (s', results)))
    (hn : (s'.outcomes n).run h y = (z, .ok (s'', results'))) :
    (s.outcomes (m + n)).run h x = (z, .ok (s'', results ++ results')) := by
  rw [outcomes_add, Exchange.run_bind_ok hm]
  dsimp only
  rw [Exchange.run_bind_ok hn]
  rfl

lemma run_outcomes_one {result : Except TickError Outcome}
    (ht : s.tick.run h x = (y, .ok (s', result))) :
    (s.outcomes 1).run h x = (y, .ok (s', [result])) := by
  rw [outcomes, Exchange.run_bind_ok ht]
  rfl

/-- Whenever a tick of a run begins, the estimator answers the same number. -/
def EstimatesSteadily (s : Scaler) (h : Host σ) (raw : Nat) (x : σ) : Prop :=
  ∀ n y s' results, (s.outcomes n).run h x = (y, .ok (s', results)) →
    s'.estimator.target.run h y = (y, .ok (.ok raw))

lemma EstimatesSteadily.now (he : s.EstimatesSteadily h raw x) :
    s.estimator.target.run h x = (x, .ok (.ok raw)) :=
  he 0 x s [] rfl

lemma EstimatesSteadily.after (he : s.EstimatesSteadily h raw x)
    (hn : (s.outcomes n).run h x = (y, .ok (s', results))) : s'.EstimatesSteadily h raw y :=
  fun m _ _ _ hm => he (n + m) _ _ _ (run_outcomes_add hn hm)

section Estimated

variable {c : Cluster} {target : Nat}

/-- A tick whose estimate is known settles the cluster and acts on the target. -/
theorem run_tick_estimated
    (he : s.estimator.target.run (Cluster.hostEstimating n) c = (c, .ok (.ok raw)))
    (ht : s.policy.clamp raw = .ok target) (hrun : c.status.isRunning = true) :
    s.tick.run (Cluster.hostEstimating n) c =
      (s.act target c.settled.roster).run Cluster.host c.settled := by
  have hsettle : s.settledRoster.run (Cluster.hostEstimating n) c =
      s.settledRoster.run Cluster.host c := by
    refine s.only_settledRoster.run_congr (Cluster.view_hostEstimating n) (fun call y hm => ?_) c
    exact Cluster.serve_hostEstimating (by rw [hm]; exact Method.noConfusion) y
  have hact : ∀ y, (s.act target c.settled.roster).run (Cluster.hostEstimating n) y =
      (s.act target c.settled.roster).run Cluster.host y := by
    refine (s.only_act target c.settled.roster).run_congr (Cluster.view_hostEstimating n)
      fun call y hm => ?_
    refine Cluster.serve_hostEstimating (fun hestimate => ?_) y
    rw [hestimate] at hm
    rcases hm with hm | hm <;> cases hm
  rw [run_tick_of_running (h := Cluster.hostEstimating n) (x := c) hrun, run_prepare, run_safeTarget,
    he]
  simp only [ht, Except.map, hsettle, run_settledRoster_host]
  exact hact _

/-- A tick on a plan that has the target settles the cluster and does nothing else. -/
theorem run_tick_on_target
    (he : s.estimator.target.run (Cluster.hostEstimating n) c = (c, .ok (.ok raw)))
    (ht : s.policy.clamp raw = .ok c.plan.size) (hrun : c.status.isRunning = true) :
    s.tick.run (Cluster.hostEstimating n) c =
      (c.settled, .ok (s.counted ∅, .ok .unchanged)) := by
  have hplan : c.settled.roster.plan.size = c.plan.size := congrArg IdSet.size (Cluster.plan_settled c)
  have hround : (s.advisor.round c.plan.size c.settled.roster).run Cluster.host c.settled =
      (c.settled, .ok (.ok ∅)) := Advisor.run_round_of_le (Nat.le_of_eq hplan)
  have hsame : s.advisor.verdict c.plan.size c.settled.roster ∅ = .same :=
    Advisor.verdict_of_le (Nat.le_of_eq hplan.symm) ∅
  have hrun' : c.settled.status.isRunning = true := by
    rw [Cluster.status_settled]
    exact hrun
  rw [run_tick_estimated he ht hrun, run_act_host hrun' hround hsame trivial]
  rfl

/-- A plan that has the target keeps it. -/
theorem outcomes_on_target (he : s.EstimatesSteadily (Cluster.hostEstimating m) raw c)
    (ht : s.policy.clamp raw = .ok c.plan.size) (hrun : c.status.isRunning = true) (n : Nat) :
    ∃ c' s', (s.outcomes n).run (Cluster.hostEstimating m) c =
        (c', .ok (s', List.replicate n (.ok .unchanged))) ∧
      (c' = c ∨ c' = c.settled) ∧ s'.history = s.history := by
  -- on the number of ticks; the first one settles the cluster, which is settled then
  induction n generalizing s c with
  | zero => exact ⟨c, s, rfl, .inl rfl, rfl⟩
  | succ n ih =>
    have hfirst := run_outcomes_one (run_tick_on_target he.now ht hrun)
    have ht' : (s.counted ∅).policy.clamp raw = .ok c.settled.plan.size := by
      rw [Cluster.plan_settled]
      exact ht
    have hrun' : c.settled.status.isRunning = true := by
      rw [Cluster.status_settled]
      exact hrun
    obtain ⟨c', s', hrest, hc', hhistory⟩ := ih (he.after hfirst) ht' hrun'
    rw [Cluster.settled_settled, or_self] at hc'
    have hall := run_outcomes_add hfirst hrest
    rw [Nat.add_comm 1 n] at hall
    exact ⟨c', s', hall, .inr hc', hhistory⟩

/-- A plan below the target is grown to it at once. -/
theorem run_tick_below
    (he : s.estimator.target.run (Cluster.hostEstimating n) c = (c, .ok (.ok raw)))
    (ht : s.policy.clamp raw = .ok target) (hrun : c.status.isRunning = true)
    (hreq : c.requested = c.plan) (hlt : c.plan.size < target) :
    s.tick.run (Cluster.hostEstimating n) c =
      (c.grow target, .ok ((s.counted ∅).note (.up target), .ok (.scaledUp target))) := by
  have hround : (s.advisor.round target c.roster).run Cluster.host c = (c, .ok (.ok ∅)) :=
    Advisor.run_round_of_le (Nat.le_of_lt hlt)
  have hup : s.advisor.verdict target c.roster ∅ = .up target := if_pos hlt
  rw [run_tick_estimated he ht hrun, Cluster.settled_of_requested_eq hreq]
  exact run_act_host hrun hround hup hlt

/-- The plan of the cluster, which has been requested, is above the target, and the scaler can find
the first workers in the closing order. -/
structure Overstaffs (s : Scaler) (target : Nat) (c : Cluster) : Prop where
  coherent : c.Coherent
  idle : c.AllIdle
  requested_eq : c.requested = c.plan
  key : s.advisor.query.key = none
  observed_eq : s.advisor.source = .scheduler → c.observed = c.plan
  target_lt : target < c.plan.size

lemma Overstaffs.run_round (ho : s.Overstaffs target c) :
    (s.advisor.round target c.roster).run Cluster.host c =
      (c, .ok (.ok (c.leavers target))) :=
  Advisor.run_round_idle ho.coherent ho.idle ho.requested_eq ho.key ho.observed_eq ho.target_lt

/-- The candidates that have been counted too few times are counted once more. -/
theorem Overstaffs.run_tick_early (ho : s.Overstaffs target c)
    (he : s.estimator.target.run (Cluster.hostEstimating n) c = (c, .ok (.ok raw)))
    (ht : s.policy.clamp raw = .ok target) (hrun : c.status.isRunning = true) {k : Nat}
    (hcount : ∀ w ∈ c.leavers target, s.debounce.count w = k) (hk : k + 1 < s.debounce.waitCount) :
    s.tick.run (Cluster.hostEstimating n) c =
      (c, .ok (s.counted (c.leavers target), .ok .unchanged)) := by
  have hsame : s.advisor.verdict target c.roster (c.leavers target) = .same := by
    rw [Advisor.verdict_of_count (Nat.le_of_lt ho.target_lt) hcount]
    exact if_neg fun hlong => Nat.not_le.2 hk hlong.1
  rw [run_tick_estimated he ht hrun, Cluster.settled_of_requested_eq ho.requested_eq,
    run_act_host hrun ho.run_round hsame trivial]
  rfl

/-- The candidates that have been counted often enough are let go. -/
theorem Overstaffs.run_tick_due (ho : s.Overstaffs target c)
    (he : s.estimator.target.run (Cluster.hostEstimating n) c = (c, .ok (.ok raw)))
    (ht : s.policy.clamp raw = .ok target) (hrun : c.status.isRunning = true) {k : Nat}
    (hcount : ∀ w ∈ c.leavers target, s.debounce.count w = k) (hk : s.debounce.waitCount ≤ k + 1) :
    s.tick.run (Cluster.hostEstimating n) c =
      (c.carryOut (.down (c.leavers target)),
        .ok ((s.counted (c.leavers target)).note (.down (c.leavers target)),
          .ok (.scaledDown (c.leavers target)))) := by
  have hlt := ho.target_lt
  have hsome : (c.leavers target).isEmpty = false := by
    have hsize := ho.coherent.size_leavers ho.requested_eq target
    exact IdSet.size_pos_iff.1 (by omega)
  have hdown : s.advisor.verdict target c.roster (c.leavers target) =
      .down (c.leavers target) := by
    rw [Advisor.verdict_of_count (Nat.le_of_lt hlt) hcount]
    exact if_pos ⟨hk, hsome⟩
  have hfits : c.Fits (.down (c.leavers target)) :=
    ⟨hsome, fun w hw => ho.coherent.mem_plan_of_mem_leavers ho.requested_eq hw⟩
  rw [run_tick_estimated he ht hrun, Cluster.settled_of_requested_eq ho.requested_eq]
  exact run_act_host hrun ho.run_round hdown hfits

/-- Letting the candidates go brings the plan to the target. -/
lemma Overstaffs.size_letGo (ho : s.Overstaffs target c) :
    (c.carryOut (.down (c.leavers target))).plan.size = target := by
  have hlt := ho.target_lt
  have hsize : (c.leavers target).toList.length = c.plan.size - target :=
    ho.coherent.size_leavers ho.requested_eq target
  have herase := IdSet.size_eraseAll_add (s := c.plan) (c.leavers target).nodup
    fun w hw => ho.coherent.mem_plan_of_mem_leavers ho.requested_eq hw
  rw [Cluster.plan_letGo]
  omega

/-- Until the wait is over nothing happens, but that the candidates are counted at each tick. -/
theorem Overstaffs.outcomes_waiting (ho : s.Overstaffs target c)
    (he : s.EstimatesSteadily (Cluster.hostEstimating m) raw c)
    (ht : s.policy.clamp raw = .ok target) (hrun : c.status.isRunning = true)
    (hnew : ∀ w ∈ c.leavers target, s.debounce.count w = 0) (hn : n < s.debounce.waitCount) :
    ∃ d : Debounce, (s.outcomes n).run (Cluster.hostEstimating m) c =
        (c, .ok ({ s with advisor := { s.advisor with debounce := d } },
          List.replicate n (.ok .unchanged))) ∧
      d.waitCount = s.debounce.waitCount ∧ ∀ w ∈ c.leavers target, d.count w = n := by
  -- on the number of ticks; after each of them the candidates have one count more
  induction n with
  | zero => exact ⟨s.debounce, rfl, rfl, hnew⟩
  | succ n ih =>
    obtain ⟨d, hpast, hwait, hcount⟩ := ih (by omega)
    have hlast := Overstaffs.run_tick_early
      (s := { s with advisor := { s.advisor with debounce := d } })
      ⟨ho.coherent, ho.idle, ho.requested_eq, ho.key, ho.observed_eq, ho.target_lt⟩
      (he.after hpast).now ht hrun hcount (hwait.symm ▸ hn)
    refine ⟨d.observe (c.leavers target), ?_, hwait, fun w hw => ?_⟩
    · rw [List.replicate_succ']
      exact run_outcomes_add hpast (run_outcomes_one hlast)
    · rw [Debounce.count_observe, hcount w hw, if_pos ⟨hw, hwait.symm ▸ hn⟩]

/-- After a first tick that brings the plan to the target nothing more is done. -/
lemma outcomes_after_change {c' : Cluster} {result : Except TickError Outcome}
    (he : s.EstimatesSteadily (Cluster.hostEstimating m) raw c)
    (hfirst : s.tick.run (Cluster.hostEstimating m) c = (c', .ok (s', result)))
    (ht : s'.policy.clamp raw = .ok c'.plan.size) (hrun : c'.status.isRunning = true) (n : Nat) :
    ∃ c'' s'', (s.outcomes (n + 1)).run (Cluster.hostEstimating m) c =
        (c'', .ok (s'', result :: List.replicate n (.ok .unchanged))) ∧
      c''.plan.size = c'.plan.size ∧ s''.history = s'.history := by
  have hone := run_outcomes_one hfirst
  obtain ⟨c'', s'', hrest, hc'', hhistory⟩ := outcomes_on_target (he.after hone) ht hrun n
  have hall := run_outcomes_add hone hrest
  rw [Nat.add_comm 1 n] at hall
  refine ⟨c'', s'', hall, ?_, hhistory⟩
  rcases hc'' with rfl | rfl
  · rfl
  · rw [Cluster.plan_settled]

end Estimated

/-- Ticks do not change the estimator. -/
lemma estimator_outcomes (hn : (s.outcomes n).run h x = (y, .ok (s', results))) :
    s'.estimator = s.estimator := by
  induction n generalizing s x results with
  | zero =>
    cases hn
    rfl
  | succ n ih =>
    rw [outcomes, Exchange.run_bind] at hn
    rcases ht : s.tick.run h x with ⟨x', f | ⟨s₁, result⟩⟩
    · rw [ht] at hn
      cases hn
    · rw [ht] at hn
      dsimp only at hn
      rw [Exchange.run_bind] at hn
      rcases hrest : (s₁.outcomes n).run h x' with ⟨y', f | ⟨s₂, rest⟩⟩
      · rw [hrest] at hn
        cases hn
      · rw [hrest] at hn
        cases hn
        obtain ⟨d, log, -, rfl⟩ := tick_recounts (congrArg Prod.snd ht)
        have hkept := ih hrest
        exact hkept

lemma estimatesSteadily_outside (hs : s.estimator = .outside) (raw : Nat) (c : Cluster) :
    s.EstimatesSteadily (Cluster.hostEstimating raw) raw c := by
  intro n y s' results hn
  rw [estimator_outcomes hn, hs]
  rfl

/-- A scaler by a policy that has counted nobody. -/
def starting (p : Policy) (e : Estimator) (log : History) : Scaler :=
  { ofPolicy p with estimator := e, history := log }

variable {settings : Settings} {p : Policy} {e : Estimator} {log : History} {c : Cluster}

/-- Ticks of a scaler that `EstimatesSteadily`, on a cluster whose plan has been requested and whose
connected workers are idle. There is no key, and where the scheduler alone names the candidates, all
are connected. A plan below the target grows to it at once. One above the target stays for as long
as the wait tells, and then its `leavers` go, as many as there are too many. A plan that has the
target keeps it. The history gains an event for a change of the plan. -/
theorem constant_target_reached (hp : settings.toPolicy = .ok p) (hkey : p.workerKey = none)
    (hc : c.Reachable) (hrun : c.status.isRunning = true) (hreq : c.requested = c.plan)
    (hidle : c.AllIdle) (hobs : p.strategy = .queue → c.observed = c.plan)
    (he : (starting p e log).EstimatesSteadily (Cluster.hostEstimating raw) raw c) :
    ∃ target, p.clamp raw = .ok target ∧
      (c.plan.size < target → ∀ n, ∃ c' s',
        ((starting p e log).outcomes (n + 1)).run (Cluster.hostEstimating raw) c =
          (c', .ok (s', .ok (.scaledUp target) :: List.replicate n (.ok .unchanged))) ∧
        c'.plan.size = target ∧ s'.history = log.record (.up target)) ∧
      (c.plan.size = target → ∀ n, ∃ s',
        ((starting p e log).outcomes n).run (Cluster.hostEstimating raw) c =
          (c, .ok (s', List.replicate n (.ok .unchanged))) ∧ s'.history = log) ∧
      (target < c.plan.size →
        (c.leavers target).size = c.plan.size - target ∧
        (∀ n < p.waitCount, ∃ s',
          ((starting p e log).outcomes n).run (Cluster.hostEstimating raw) c =
            (c, .ok (s', List.replicate n (.ok .unchanged))) ∧ s'.history = log) ∧
        ∀ n, ∃ c' s',
          ((starting p e log).outcomes (p.waitCount + n)).run (Cluster.hostEstimating raw) c =
            (c', .ok (s', List.replicate (p.waitCount - 1) (.ok .unchanged) ++
              .ok (.scaledDown (c.leavers target)) :: List.replicate n (.ok .unchanged))) ∧
          c'.plan.size = target ∧ s'.history = log.record (.down (c.leavers target))) := by
  obtain ⟨hwait, hbounds⟩ := Settings.checked_of_toPolicy hp
  refine ⟨max p.minimum (min raw p.maximum), ?_⟩
  have ht : p.clamp raw = .ok (max p.minimum (min raw p.maximum)) :=
    Word.clamp_eq_ok_iff.2 ⟨hbounds, rfl⟩
  generalize max p.minimum (min raw p.maximum) = target at ht ⊢
  refine ⟨ht, fun hlt n => ?_, fun heq n => ?_, fun hlt => ?_⟩
  · have hsize : (c.grow target).plan.size = target := Cluster.size_grow (Nat.le_of_lt hlt)
    have hrun' : (c.grow target).status.isRunning = true := by
      rw [Cluster.status_grow]
      exact hrun
    obtain ⟨c', s', hall, hplan, hhistory⟩ :=
      outcomes_after_change he (run_tick_below he.now ht hrun hreq hlt) (hsize.symm ▸ ht) hrun' n
    exact ⟨c', s', hall, hplan.trans hsize, hhistory⟩
  · subst heq
    obtain ⟨c', s', hall, hc', hhistory⟩ := outcomes_on_target he ht hrun n
    rw [Cluster.settled_of_requested_eq hreq, or_self] at hc'
    subst hc'
    exact ⟨s', hall, hhistory⟩
  · have ho : (starting p e log).Overstaffs target c :=
      ⟨hc.coherent, hidle, hreq, hkey, fun hs => hobs (Strategy.eq_queue_of_source hs),
        hlt⟩
    refine ⟨hc.coherent.size_leavers hreq target, fun n hn => ?_, fun n => ?_⟩
    · obtain ⟨d, hall, -⟩ := ho.outcomes_waiting he ht hrun (fun _ _ => rfl) hn
      exact ⟨_, hall, rfl⟩
    · obtain ⟨d, hpast, hd, hcount⟩ :=
        ho.outcomes_waiting he ht hrun (n := p.waitCount - 1) (fun _ _ => rfl)
          (Nat.sub_lt hwait Nat.one_pos)
      have hlast : d.waitCount ≤ p.waitCount - 1 + 1 := by
        have hsame : d.waitCount = p.waitCount := hd
        omega
      have hdue := Overstaffs.run_tick_due
        (s := { starting p e log with advisor := { (starting p e log).advisor with debounce := d } })
        ⟨ho.coherent, ho.idle, ho.requested_eq, ho.key, ho.observed_eq, ho.target_lt⟩
        (he.after hpast).now ht hrun hcount hlast
      have hrun' : (c.carryOut (.down (c.leavers target))).status.isRunning = true := by
        rw [Cluster.status_letGo]
        exact hrun
      obtain ⟨c', s', hrest, hplan, hhistory⟩ := outcomes_after_change (he.after hpast) hdue
        (ho.size_letGo.symm ▸ ht) hrun' n
      have hall := run_outcomes_add hpast hrest
      have hticks : p.waitCount - 1 + (n + 1) = p.waitCount + n := by omega
      rw [hticks] at hall
      exact ⟨c', s', hall, hplan.trans ho.size_letGo, hhistory⟩

end Scaler

namespace Settings

/-- Lets workers go when they have been candidates twice in a row. -/
def twice : Settings := { standard with waitCount := 2 }

lemma toPolicy_twice : twice.toPolicy = .ok { Policy.standard with waitCount := 2 } :=
  toPolicy_eq_ok (by decide +kernel) rfl (by decide) (by decide) (by decide +kernel)
    (by decide +kernel)

end Settings

namespace Scaler

/-- Two workers are connected and one is awaited, and one is enough. The awaited worker and one of
the others go at the second tick. -/
theorem constant_target_reached_partlyConnected :
    (partlyConnected.leavers 1).size = 2 ∧
      ∃ c' s', ((starting { Policy.standard with waitCount := 2 } .outside (.empty 1)).outcomes
          4).run (Cluster.hostEstimating 1) partlyConnected =
            (c', .ok (s', [.ok .unchanged, .ok (.scaledDown (partlyConnected.leavers 1)),
              .ok .unchanged, .ok .unchanged])) ∧
          c'.plan.size = 1 := by
  have hreach : partlyConnected.Reachable := ⟨_, _, _, rfl⟩
  have hidle : partlyConnected.AllIdle := ⟨by decide +kernel, by decide +kernel⟩
  have he : (starting { Policy.standard with waitCount := 2 } .outside (.empty 1)).EstimatesSteadily
      (Cluster.hostEstimating 1) 1 partlyConnected := estimatesSteadily_outside rfl 1 _
  obtain ⟨target, ht, -, -, hdown⟩ := constant_target_reached Settings.toPolicy_twice rfl hreach
    rfl (by decide +kernel) hidle (fun hq => nomatch hq) he
  obtain rfl : target = 1 := by
    cases ht
    rfl
  obtain ⟨hsize, -, hall⟩ := hdown (by decide +kernel)
  obtain ⟨c', s', hrun, hplan, -⟩ := hall 2
  exact ⟨hsize.trans (by decide +kernel), c', s', hrun, hplan⟩

end Scaler

end Fleet
