import Fleet.Proofs.PlanBounds
import Mathlib.Logic.Function.Iterate

/-! Ticks that workers connect in the middle of. Exactly the `Harmless` ones keep every plan at its
minimum: nobody connects between the look at the roster and the query for candidates, or everybody
has connected before. -/
namespace Fleet

variable {settings : Settings} {s : Scaler} {target : Nat} {c c' : Cluster}

/-- How often the awaited workers connect during a call: before it takes effect, and between then
and the moment at which its answer is read. -/
structure Arrivals where
  before : Nat
  after : Nat

/-- The arrivals of one tick. It makes one call of a method at most. -/
abbrev Interleaving := Method → Arrivals

namespace Cluster

/-- Serves a call amid arrivals. -/
def serveAmid (i : Interleaving) (call : Call) (c : Cluster) : Cluster × Except Fault call.Reply :=
  let (c, reply) := serve call (arriveAll^[(i call.method).before] c)
  (arriveAll^[(i call.method).after] c, reply)

/-- A cluster that workers connect to while it serves its calls. -/
def hostAmid (i : Interleaving) : Host Cluster := ⟨view, serveAmid i⟩

/-- Nobody is awaited. -/
def AllConnected (c : Cluster) : Prop := ∀ w ∈ c.requested, w ∈ c.observed

lemma allConnected_arriveAll (c : Cluster) : c.arriveAll.AllConnected :=
  fun _ hw => mem_observed_arriveAll.2 (.inl hw)

lemma arriveAll_of_allConnected (h : c.AllConnected) : c.arriveAll = c := by
  have hnone : c.awaited = ∅ := by
    refine IdSet.ext_mem fun w => ?_
    simp only [awaited, IdSet.mem_diff, IdSet.not_mem_empty, iff_false, not_and, not_not]
    exact h w
  unfold arriveAll
  rw [hnone]
  rfl

lemma iterate_arriveAll_of_allConnected (h : c.AllConnected) (n : Nat) : arriveAll^[n] c = c :=
  Function.iterate_fixed (arriveAll_of_allConnected h) n

lemma iterate_arriveAll_of_pos (c : Cluster) {n : Nat} (hn : 0 < n) :
    arriveAll^[n] c = c.arriveAll := by
  obtain ⟨m, rfl⟩ := Nat.exists_eq_succ_of_ne_zero hn.ne'
  rw [Function.iterate_succ_apply]
  exact iterate_arriveAll_of_allConnected c.allConnected_arriveAll m

@[simp] lemma plan_iterate_arriveAll (c : Cluster) (n : Nat) :
    (arriveAll^[n] c).plan = c.plan := by
  induction n generalizing c with
  | zero => rfl
  | succ n ih => exact ih c.arriveAll

@[simp] lemma requested_iterate_arriveAll (c : Cluster) (n : Nat) :
    (arriveAll^[n] c).requested = c.requested := by
  induction n generalizing c with
  | zero => rfl
  | succ n ih => exact ih c.arriveAll

lemma coherent_iterate_arriveAll (h : c.Coherent) (n : Nat) : (arriveAll^[n] c).Coherent := by
  induction n generalizing c with
  | zero => exact h
  | succ n ih => exact ih h.arriveAll

variable {i : Interleaving}

lemma fst_serve_hostAmid (i : Interleaving) (call : Call) (c : Cluster) :
    ((hostAmid i).serve call c).1 =
      arriveAll^[(i call.method).after]
        (host.serve call (arriveAll^[(i call.method).before] c)).1 := rfl

lemma snd_serve_hostAmid (i : Interleaving) (call : Call) (c : Cluster) :
    ((hostAmid i).serve call c).2 =
      (host.serve call (arriveAll^[(i call.method).before] c)).2 := rfl

/-- Arrivals do not touch the plan. -/
theorem planLaws_hostAmid (i : Interleaving) : (hostAmid i).PlanLaws fun c => c where
  view_eq _ := rfl
  coherent call c hc := by
    rw [fst_serve_hostAmid]
    exact coherent_iterate_arriveAll
      (conveys_host.planLaws.coherent call _ (coherent_iterate_arriveAll hc _)) _
  kept call c hup hdown := by
    rw [fst_serve_hostAmid, plan_iterate_arriveAll, conveys_host.planLaws.kept call _ hup hdown,
      plan_iterate_arriveAll]
  scaled n c := by
    have h := conveys_host.planLaws.scaled n (arriveAll^[(i (Call.scale n).method).before] c)
    rw [fst_serve_hostAmid, snd_serve_hostAmid, plan_iterate_arriveAll]
    rwa [plan_iterate_arriveAll c] at h
  removed ids c := by
    have h := conveys_host.planLaws.removed ids
      (arriveAll^[(i (Call.scaleDown ids).method).before] c)
    rw [fst_serve_hostAmid, snd_serve_hostAmid, plan_iterate_arriveAll]
    rwa [plan_iterate_arriveAll c] at h
  reconciled limit c hr := by
    have h := conveys_host.planLaws.reconciled limit
      (arriveAll^[(i (Call.reconcile limit).method).before] c) hr
    rw [fst_serve_hostAmid, Roster.isReconciled, roster]
    dsimp only
    rwa [plan_iterate_arriveAll, requested_iterate_arriveAll]

lemma length_offer_amid_le {q : CloseQuery} {ids : List Id}
    (hr : ((hostAmid i).serve (.closeCandidates q) c).2 = .ok (.ok ids)) :
    ids.length ≤ (arriveAll^[(i .closeCandidates).before] c).observed.size - q.target :=
  (conveys_host.handles (.closeCandidates q) _).length_offer_le hr

/-- After arrivals in the middle of the estimate and at the end of a reconciliation, nobody is
awaited when a tick is prepared. -/
lemma allConnected_prepared {window : Duration} {r : Roster}
    (he : s.estimator = .drain window)
    (hd : 0 < (i .drainEstimate).before + (i .drainEstimate).after)
    (ha : 0 < (i .reconcile).after)
    (hp : s.prepare.run (hostAmid i) c = (c', .ok (.ok (target, r)))) : c'.AllConnected := by
  obtain ⟨x, raw, hx, -, hr⟩ := Scaler.prepare_eq_ok hp
  have hconnected : x.AllConnected := by
    rw [he] at hx
    have hstate : arriveAll^[(i .drainEstimate).after]
        (arriveAll^[(i .drainEstimate).before] c) = x :=
      congrArg Prod.fst ((Estimator.run_drain _ window c).symm.trans hx)
    rw [← hstate, ← Function.iterate_add_apply, iterate_arriveAll_of_pos _ (by omega)]
    exact allConnected_arriveAll c
  obtain ⟨-, ⟨rfl, -⟩ | hc⟩ := Scaler.settledRoster_eq_ok hr
  · exact hconnected
  · have hstate : arriveAll^[(i .reconcile).after]
        (arriveAll^[(i .reconcile).before] x).reconcile = c' := congrArg Prod.fst hc
    rw [← hstate, iterate_arriveAll_of_pos _ ha]
    exact allConnected_arriveAll _

/-- Nobody connects between the look at the roster and the query for candidates; or else nobody is
left to connect, as the awaited workers have connected during the estimate and again after the
reconciliation, if there is one. -/
def Harmless (i : Interleaving) : Prop :=
  (i .closeCandidates).before = 0 ∨
    (0 < (i .drainEstimate).before + (i .drainEstimate).after ∧ 0 < (i .reconcile).after)

/-- In a harmless interleaving the query reaches a cluster with the roster that was looked at. -/
lemma frugal_prepared {window : Duration} {r : Roster} (hi : Harmless i)
    (he : s.estimator = .drain window)
    (hp : s.prepare.run (hostAmid i) c = (c', .ok (.ok (target, r)))) :
    s.Frugal (hostAmid i) (fun c => c) target c' := by
  intro ids hr
  have hlen := length_offer_amid_le hr
  rcases hi with hb | ⟨hd, ha⟩
  · rwa [hb] at hlen
  · have hconnected := allConnected_prepared he hd ha hp
    rwa [iterate_arriveAll_of_allConnected hconnected] at hlen

theorem minimum_le_size_plan_amid (hi : Harmless i) (hs : s.Serves settings)
    (hduration : s.policy.strategy = .duration) (hc : c.Reachable)
    (hmin : s.policy.minimum ≤ c.plan.size) :
    s.policy.minimum ≤ (s.tick.run (hostAmid i) c).1.plan.size := by
  have he : s.estimator = .drain s.policy.targetDuration := by
    rw [hs.estimator, Estimator.ofPolicy, hduration]
  rcases (planLaws_hostAmid i).tick hc.coherent fun _ _ _ hp => frugal_prepared hi he hp with
    ⟨c', target, r, hp, ha⟩ | ⟨hplan, -⟩
  · obtain ⟨x, raw, -, hclamp, -⟩ := Scaler.prepare_eq_ok hp
    have htarget := (Word.clamp_eq_ok_iff.1 hclamp).2
    have hlow := ha.size_between.1
    omega
  · rw [hplan]
    exact hmin

/-- Two workers are connected, and two more are planned but not requested. -/
def twoPlanned : Cluster :=
  Operation.applyAll (.create "z" 100)
    [.addWorker (.idle "w0" 0 100), .addWorker (.idle "w1" 0 100), .scale 4]

def twoAwaited : Cluster := twoPlanned.reconcile

lemma reachable_twoPlanned : twoPlanned.Reachable := ⟨_, _, _, rfl⟩

lemma reachable_twoAwaited : twoAwaited.Reachable :=
  ⟨"z", 100, [.addWorker (.idle "w0" 0 100), .addWorker (.idle "w1" 0 100), .scale 4, .reconcile],
    rfl⟩

lemma allConnected_twoPlanned : twoPlanned.AllConnected := by
  have h : ∀ w ∈ twoPlanned.requested.toList, w ∈ twoPlanned.observed := by decide +kernel
  exact h

lemma plan_execute_down_amid (i : Interleaving) {ws : IdSet} (hws : ws.isEmpty = false)
    (c : Cluster) :
    ((Scaler.execute (.down ws)).run (hostAmid i) c).1.plan = c.plan.eraseAll ws.toList := by
  rw [Scaler.run_execute_down hws]
  have hretire := (planLaws_hostAmid i).kept (.retire (.close ws.toList)) c
    Method.noConfusion Method.noConfusion
  have hreply : ((hostAmid i).serve (.retire (.close ws.toList)) c).2 = .ok (.ok ()) := rfl
  rcases hc : (hostAmid i).serve (.retire (.close ws.toList)) c with ⟨y, reply⟩
  rw [hc] at hretire hreply
  dsimp only at hretire hreply
  subst hreply
  have hscale : (host.serve (.scaleDown ws.toList) (arriveAll^[(i .scaleDown).before] y)).1.plan =
      (arriveAll^[(i .scaleDown).before] y).plan.eraseAll ws.toList := rfl
  rw [plan_iterate_arriveAll, hretire] at hscale
  exact (plan_iterate_arriveAll _ _).trans hscale

/-- When the awaited workers connect while the query is under way, all four workers are let go
where three would do. -/
lemma act_twoAwaited (hb : 0 < (i .closeCandidates).before) :
    ((Scaler.downToOne.act 1 twoAwaited.roster).run (hostAmid i) twoAwaited).1.plan = ∅ := by
  have hoffer : host.serve (.closeCandidates (Scaler.downToOne.advisor.queryFor 1))
      twoAwaited.arriveAll = (twoAwaited.arriveAll, .ok (.ok ["w0", "w1", "z-worker-0"])) := by
    rfl
  have hserve : (hostAmid i).serve (.closeCandidates (Scaler.downToOne.advisor.queryFor 1))
      twoAwaited = (twoAwaited.arriveAll, .ok (.ok ["w0", "w1", "z-worker-0"])) := by
    have harrived : arriveAll^[(i (Call.closeCandidates
        (Scaler.downToOne.advisor.queryFor 1)).method).before] twoAwaited =
          twoAwaited.arriveAll := iterate_arriveAll_of_pos _ hb
    refine Prod.ext ?_ ?_
    · rw [fst_serve_hostAmid, harrived, hoffer]
      exact iterate_arriveAll_of_allConnected twoAwaited.allConnected_arriveAll _
    · rw [snd_serve_hostAmid, harrived, hoffer]
  rw [Scaler.run_act, Advisor.run_recommend_of_lt (by decide +kernel),
    Advisor.run_candidates_of_query (by decide +kernel), hserve]
  have hdown : (Scaler.downToOne.advisor.conclude
      ((Scaler.downToOne.advisor.pendingShare 1 twoAwaited.roster).union
        (.ofList ["w0", "w1", "z-worker-0"]))).2 =
      .down (.ofList ["w0", "w1", "z-worker-0", "z-worker-1"]) := by
    decide +kernel
  simp only [Except.map, Advisor.settle, hdown]
  rw [plan_execute_down_amid i (by decide +kernel)]
  decide +kernel

/-- A tick that goes on from there leaves nobody. -/
lemma plan_tick_amid (hc : c.status.isRunning = true)
    (htasks : c.drainEstimate (.ofSeconds 5) = .ok 0)
    (hbefore : arriveAll^[(i .drainEstimate).before] c = c)
    (hafter : arriveAll^[(i .drainEstimate).after] c = c)
    (hsettled : Scaler.downToOne.settledRoster.run (hostAmid i) c =
      (twoAwaited, .ok (.ok twoAwaited.roster)))
    (hb : 0 < (i .closeCandidates).before) :
    (Scaler.downToOne.tick.run (hostAmid i) c).1.plan = ∅ := by
  have hest : Scaler.downToOne.estimator.target.run (hostAmid i) c = (c, .ok (.ok 0)) := by
    refine (Estimator.run_drain _ _ c).trans (Prod.ext ?_ ?_)
    · change arriveAll^[(i .drainEstimate).after] (arriveAll^[(i .drainEstimate).before] c) = c
      rw [hbefore, hafter]
    · change ((arriveAll^[(i .drainEstimate).before] c).drainEstimate (.ofSeconds 5)).map
        Except.ok = _
      rw [hbefore, htasks]
      rfl
  rw [Scaler.run_tick_of_running hc, Scaler.run_prepare, Scaler.run_safeTarget, hest]
  have hclamp : Scaler.downToOne.policy.clamp 0 = .ok 1 := by decide +kernel
  simp only [hclamp, hsettled, Except.map]
  exact act_twoAwaited hb

lemma plan_tick_twoAwaited (hbefore : (i .drainEstimate).before = 0)
    (hafter : (i .drainEstimate).after = 0) (hb : 0 < (i .closeCandidates).before) :
    (Scaler.downToOne.tick.run (hostAmid i) twoAwaited).1.plan = ∅ := by
  refine plan_tick_amid rfl (by decide +kernel) ?_ ?_ ?_ hb
  · rw [hbefore]
    rfl
  · rw [hafter]
    rfl
  · rw [Scaler.run_settledRoster]
    rfl

lemma plan_tick_twoPlanned (ha : (i .reconcile).after = 0)
    (hb : 0 < (i .closeCandidates).before) :
    (Scaler.downToOne.tick.run (hostAmid i) twoPlanned).1.plan = ∅ := by
  have hfixed := iterate_arriveAll_of_allConnected allConnected_twoPlanned
  have hreconciled : (hostAmid i).serve
      (.reconcile Scaler.downToOne.policy.reconcileTimeout) twoPlanned =
        (twoAwaited, .ok (.ok .finished)) := by
    refine Prod.ext ?_ rfl
    change arriveAll^[(i .reconcile).after]
      (arriveAll^[(i .reconcile).before] twoPlanned).reconcile = twoAwaited
    rw [ha, hfixed]
    rfl
  refine plan_tick_amid rfl (by decide +kernel) (hfixed _) (hfixed _) ?_ hb
  rw [Scaler.run_settledRoster, hreconciled]
  rfl

/-- Exactly the `Harmless` interleavings keep every tick by the duration strategy from taking a plan
below the minimum, whatever the policy, the counts and the state of the cluster. -/
theorem minimum_kept_amid_iff (i : Interleaving) :
    (∀ (settings : Settings) (s : Scaler) (c : Cluster), s.Serves settings →
      s.policy.strategy = .duration → c.Reachable → s.policy.minimum ≤ c.plan.size →
      s.policy.minimum ≤ (s.tick.run (hostAmid i) c).1.plan.size) ↔ Harmless i := by
  constructor
  · intro h
    by_contra hi
    unfold Harmless at hi
    have hb : 0 < (i .closeCandidates).before := by omega
    -- the snapshot is stale, either as nobody connects before it or as reconciling comes in between
    by_cases hd : 0 < (i .drainEstimate).before + (i .drainEstimate).after
    · have hmin := h _ _ _ Scaler.serves_downToOne rfl reachable_twoPlanned (by decide +kernel)
      rw [plan_tick_twoPlanned (by omega) hb] at hmin
      exact absurd hmin (by decide)
    · have hmin := h _ _ _ Scaler.serves_downToOne rfl reachable_twoAwaited (by decide +kernel)
      rw [plan_tick_twoAwaited (by omega) (by omega) hb] at hmin
      exact absurd hmin (by decide)
  · intro hi settings s c hs hduration hc hmin
    exact minimum_le_size_plan_amid hi hs hduration hc hmin

/-- The awaited workers connect after the look at the roster and before the query is served. -/
def duringQuery : Interleaving
  | .closeCandidates => ⟨1, 0⟩
  | _ => ⟨0, 0⟩

/-- With a minimum of one, all four workers of the plan are let go at once. -/
theorem minimum_lost_duringQuery :
    (Scaler.downToOne.Serves Settings.downToOne ∧
      Scaler.downToOne.policy.strategy = .duration ∧ twoAwaited.Reachable ∧
      Scaler.downToOne.policy.minimum ≤ twoAwaited.plan.size) ∧
      ¬ Scaler.downToOne.policy.minimum ≤
        (Scaler.downToOne.tick.run (hostAmid duringQuery) twoAwaited).1.plan.size :=
  ⟨⟨Scaler.serves_downToOne, rfl, reachable_twoAwaited, by decide +kernel⟩, by decide +kernel⟩

end Cluster

end Fleet
