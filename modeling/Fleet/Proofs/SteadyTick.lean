import Fleet.Proofs.Disturbance
import Fleet.Proofs.Faults

/-! Ticks that every call of is served, on a cluster whose workers are all connected. Such a tick
has no error, carries its decision out to the full and does not reconcile, unless an overflow or a
division by zero ends it. -/
namespace Fleet

namespace Exchange

variable {α β σ : Type} {h : Host σ} {x : σ} {c : Call}

/-- The calls that a run makes, in order. -/
def calls (h : Host σ) : Exchange α → σ → List Call
  | done _, _ => []
  | halt _, _ => []
  | look next, x => (next (h.view x)).calls h x
  | ask c next, x =>
    c :: match h.serve c x with
      | (y, .ok r) => (next r).calls h y
      | (_, .error _) => []

@[simp] lemma calls_view_bind (h : Host σ) (f : View → Exchange α) (x : σ) :
    (view >>= f).calls h x = (f (h.view x)).calls h x := rfl

/-- A call is made before or after the first part of a program has come to its end. -/
theorem mem_calls_bind {p : Exchange α} {f : α → Exchange β} (hc : c ∈ (p >>= f).calls h x) :
    c ∈ p.calls h x ∨ ∃ a y, p.run h x = (y, .ok a) ∧ c ∈ (f a).calls h y := by
  change c ∈ (p.bind f).calls h x at hc
  induction p generalizing x with
  | done a => exact .inr ⟨a, x, rfl, hc⟩
  | halt e => cases hc
  | look next ih => exact ih _ hc
  | ask call next ih =>
    simp only [bind, calls, run] at hc ⊢
    rcases List.mem_cons.1 hc with rfl | hc
    · exact .inl List.mem_cons_self
    · rcases hs : h.serve call x with ⟨y, e | r⟩
      · rw [hs] at hc
        cases hc
      · rw [hs] at hc
        exact (ih r hc).imp_left (List.mem_cons_of_mem call)

lemma Only.of_mem_calls {M : Method → Prop} {p : Exchange α} (hp : p.Only M)
    (hc : c ∈ p.calls h x) : M c.method := by
  induction p generalizing x with
  | done a => cases hc
  | halt e => cases hc
  | look next ih => exact ih _ (hp _) hc
  | ask call next ih =>
    simp only [calls] at hc
    rcases List.mem_cons.1 hc with rfl | hc
    · exact hp.1
    · rcases hs : h.serve call x with ⟨y, e | r⟩
      · rw [hs] at hc
        cases hc
      · rw [hs] at hc
        exact ih r (hp.2 r) hc

end Exchange

/-- The fault is an overflow or a division by zero. -/
def Fault.isArithmetic : Fault → Bool
  | sumTooLarge | productTooLarge | zeroDivisor => true
  | crossedBounds .. | instantTooLate => false

namespace Cluster

variable {c : Cluster} {f : Fault}

lemma arithmetic_of_drainEstimate {d : Duration} (h : c.drainEstimate d = .error f) :
    f.isArithmetic = true := by
  unfold drainEstimate workersForBacklog Word.sum Word.divUp at h
  simp only [bind, Except.bind, pure, Except.pure] at h
  by_cases hsum : total (c.backlog.map fun t => t.expectedMillis.getD assumedMillis) < Word.limit
  · by_cases hzero : drainWindow d = 0
    · simp only [hsum, hzero, if_true] at h
      cases h
      rfl
    · simp only [hsum, hzero, if_true, if_false] at h
      cases h
  · simp only [hsum, if_false] at h
    cases h
    rfl

lemma arithmetic_of_closeCandidates {q : CloseQuery} (h : c.closeCandidates q = .error f) :
    f.isArithmetic = true := by
  simp only [closeCandidates] at h
  split at h
  · cases h
  · cases h
    rfl

end Cluster

lemma QueueEstimate.arithmetic_of_target {tasks : List Task} {workers : List Worker}
    {observed : Nat} {f : Fault} (h : target tasks workers observed = .error f) :
    f.isArithmetic = true := by
  unfold target memoryTarget Word.mul at h
  simp only [bind, Except.bind, pure, Except.pure] at h
  cases hp : underPressure workers with
  | false => simp [hp] at h
  | true =>
    by_cases hlt : 2 * observed < Word.limit
    · simp [hp, hlt] at h
    · simp only [hp, hlt, if_true, if_false] at h
      cases h
      rfl

/-- The nearest number within the bounds of the policy. -/
def Policy.within (p : Policy) (n : Nat) : Nat := max p.minimum (min n p.maximum)

lemma Policy.arithmetic_of_estimate {p : Policy} {c : Cluster} {f : Fault}
    (h : p.estimate c = .error f) : f.isArithmetic = true := by
  unfold estimate at h
  split at h
  · exact Cluster.arithmetic_of_drainEstimate h
  · exact QueueEstimate.arithmetic_of_target h

namespace Cluster

variable {c : Cluster}

/-- All planned workers have been requested and are connected, and no others. -/
structure Steady (c : Cluster) : Prop where
  requested_eq : c.requested = c.plan
  observed_eq : c.observed = c.plan

lemma Steady.isReconciled (h : c.Steady) : c.roster.isReconciled = true := by
  simp [Roster.isReconciled, roster, h.requested_eq]

lemma Steady.settled_eq (h : c.Steady) : c.settled = c := by
  unfold settled
  rw [if_pos h.isReconciled]

lemma Steady.size_workers (h : c.Steady) : c.workers.size = c.plan.size := by
  rw [← h.observed_eq]
  exact (Dict.size_keys _).symm

lemma Steady.not_mem_awaited (h : c.Steady) (w : Id) : ¬ w ∈ c.awaited := by
  simp [awaited, h.requested_eq, h.observed_eq]

/-- After a reconciliation and the arrival of all who are awaited a coherent cluster is steady. -/
theorem Coherent.steady_reconcile_arriveAll (hc : c.Coherent) : c.reconcile.arriveAll.Steady := by
  refine ⟨requested_reconcile c, IdSet.ext_mem fun w => ?_⟩
  have hplan : c.reconcile.arriveAll.plan = c.plan := rfl
  rw [mem_observed_arriveAll, requested_reconcile, mem_observed_reconcile, hplan]
  constructor
  · rintro (hw | ⟨ho, hw⟩)
    · exact hw
    · exact hw (hc.requested_of_observed w ho)
  · exact .inl

/-- What a decision makes of a cluster when every call is served. -/
def carryOut (c : Cluster) : Recommendation → Cluster
  | .same => c
  | .up n => c.grow n
  | .down ws => (c.retire (.close ws.toList)).scaleDown ws.toList

/-- The decision grows the plan, or lets somebody go and only workers of the plan. -/
def Fits (c : Cluster) : Recommendation → Prop
  | .same => True
  | .up n => c.plan.size < n
  | .down ws => ws.isEmpty = false ∧ ∀ w ∈ ws, w ∈ c.plan

lemma scale_eq_grow {n : Nat} (hrun : c.status.isRunning = true) (hn : c.plan.size < n) :
    c.scale n = .ok (c.grow n) := by
  unfold scale
  rw [if_pos hrun, if_pos hn]

end Cluster

/-- What a tick reports that has carried a decision out. -/
def Recommendation.outcome : Recommendation → Outcome
  | same => .unchanged
  | up n => .scaledUp n
  | down ws => .scaledDown ws

namespace Advisor

variable {c : Cluster} {target : Nat}

lemma only_recommend (a : Advisor) (target : Nat) (r : Roster) :
    (a.recommend target r).Only (· = .closeCandidates) := by
  unfold recommend
  split
  · trivial
  · split
    · trivial
    · refine (a.only_candidates target r).bind fun reply => ?_
      cases reply <;> trivial

/-- The search for candidates leaves a cluster as it is and does not fail. -/
lemma run_round_host (a : Advisor) (target : Nat) (r : Roster) (c : Cluster) :
    (∃ f, f.isArithmetic = true ∧ (a.round target r).run Cluster.host c = (c, .error f)) ∨
      ∃ ws, (a.round target r).run Cluster.host c = (c, .ok (.ok ws)) := by
  by_cases hle : r.plan.size ≤ target
  · exact .inr ⟨∅, run_round_of_le hle⟩
  · rw [run_round_of_lt (by omega)]
    cases hq : a.asksScheduler target r with
    | false => exact .inr ⟨_, run_candidates_of_pending hq⟩
    | true =>
      rw [run_candidates_of_query hq]
      have hserve : Cluster.host.serve (.closeCandidates (a.queryFor target)) c =
          (c, (c.closeCandidates (a.queryFor target)).map .ok) := rfl
      rw [hserve]
      cases hids : c.closeCandidates (a.queryFor target) with
      | error f => exact .inl ⟨f, Cluster.arithmetic_of_closeCandidates hids, rfl⟩
      | ok ids => exact .inr ⟨_, rfl⟩

/-- On a steady cluster every candidate is of an idle group. -/
lemma idleGroup_of_round (hc : c.Coherent) (hsteady : c.Steady) {a : Advisor} {ws : IdSet}
    (hround : ((a.round target c.roster).run Cluster.host c).2 = .ok (.ok ws)) {w : Id}
    (hw : w ∈ ws) : c.IdleGroup a.query.key w :=
  ((Cluster.relays_host .none).candidate id hc hround hw).resolve_left (hsteady.not_mem_awaited w)

/-- On a steady cluster every candidate is planned, so the decision on them fits. -/
lemma fits_verdict (hc : c.Coherent) (hsteady : c.Steady) {a : Advisor} {ws : IdSet}
    (hround : ((a.round target c.roster).run Cluster.host c).2 = .ok (.ok ws)) :
    c.Fits (a.verdict target c.roster ws) := by
  cases hv : a.verdict target c.roster ws with
  | same => trivial
  | up n =>
    obtain ⟨hlt, rfl⟩ := verdict_eq_up hv
    exact hlt
  | down gone =>
    obtain ⟨rfl, hne⟩ := verdict_eq_down hv
    refine ⟨hne, fun w hw => ?_⟩
    rw [← hsteady.observed_eq]
    exact (idleGroup_of_round hc hsteady hround (Debounce.mem_of_mem_due hw)).mem_observed

end Advisor

namespace Scaler

variable {settings : Settings} {s : Scaler} {c : Cluster} {target : Nat} {d : Recommendation}

/-- Acting asks for candidates and carries a decision out. -/
lemma only_act (s : Scaler) (target : Nat) (r : Roster) :
    (s.act target r).Only fun m => m = .closeCandidates ∨ m.Executes := by
  refine ((s.advisor.only_recommend target r).mono fun m hm => .inl hm).bind fun answer => ?_
  obtain ⟨a, e | d⟩ := answer
  · trivial
  · refine Exchange.Only.bind ?_ fun _ => trivial
    cases d with
    | same => trivial
    | up n =>
      refine Exchange.Only.bind ?_ fun _ => trivial
      refine (Exchange.only_call.2 (.inr trivial)).bind fun reply => ?_
      cases reply <;> trivial
    | down ws =>
      refine (only_execute (d := .down ws) fun _ => Recommendation.noConfusion).mono fun m hm => ?_
      rcases hm with rfl | rfl <;> exact .inr trivial

lemma calls_settledRoster {σ : Type} {h : Host σ} {x : σ}
    (hx : (h.view x).roster.isReconciled = true) : s.settledRoster.calls h x = [] := by
  unfold settledRoster
  rw [Exchange.calls_view_bind, if_pos hx]
  rfl

lemma fst_run_safeTarget_host (s : Scaler) (c : Cluster) :
    (s.safeTarget.run Cluster.host c).1 = c := by
  refine s.only_safeTarget.keeps (P := (· = c)) (fun call x hm hx => ?_) rfl
  cases call <;> first | exact hx | exact hm.elim

/-- A tick does not reconcile where the sizes of plan and request are the same. -/
theorem reconcile_not_called (hc : c.roster.isReconciled = true) :
    ∀ call ∈ s.tick.calls Cluster.host c, call.method ≠ .reconcile := by
  intro call hcall
  unfold tick at hcall
  rw [Exchange.calls_view_bind] at hcall
  split at hcall
  · obtain hcall | ⟨reply, y, hy, hcall⟩ := Exchange.mem_calls_bind hcall
    · have hm := s.only_safeTarget.of_mem_calls hcall
      rintro he
      rwa [he] at hm
    · obtain rfl : y = c := by rw [← s.fst_run_safeTarget_host c, hy]
      cases reply with
      | error e => cases hcall
      | ok target =>
        obtain hcall | ⟨reply, z, hz, hcall⟩ := Exchange.mem_calls_bind hcall
        · rw [calls_settledRoster hc] at hcall
          cases hcall
        · cases reply with
          | error e => cases hcall
          | ok r =>
            have hm := (s.only_act target r).of_mem_calls hcall
            rintro he
            rw [he] at hm
            rcases hm with hm | hm <;> cases hm
  · cases hcall

/-- A decision that fits is carried out without a failure. -/
theorem run_execute_host (hrun : c.status.isRunning = true) (hd : c.Fits d) :
    (execute d).run Cluster.host c = (c.carryOut d, .ok (.ok d.outcome)) := by
  cases d with
  | same => rfl
  | up n =>
    rw [run_execute_up]
    simp only [Cluster.host, Cluster.serve, Cluster.scale_eq_grow hrun hd]
    rfl
  | down ws =>
    rw [run_execute_down hd.1]
    rfl

/-- A decision that fits the cluster is made on the candidates of a round, noted and carried out. -/
theorem run_act_host {ws : IdSet} (hrun : c.status.isRunning = true)
    (hround : (s.advisor.round target c.roster).run Cluster.host c = (c, .ok (.ok ws)))
    (hd : s.advisor.verdict target c.roster ws = d) (hfits : c.Fits d) :
    (s.act target c.roster).run Cluster.host c =
      (c.carryOut d, .ok ((s.counted ws).note d, .ok d.outcome)) := by
  rw [run_act, Advisor.run_recommend, hround]
  dsimp only
  rw [hd, run_execute_host hrun hfits]
  rfl

lemma run_tick_of_no_estimate (hs : s.Serves settings) (hrun : c.status.isRunning = true)
    {f : Fault} (he : s.policy.estimate c = .error f) :
    s.tick.run Cluster.host c = (c, .error f) := by
  rw [run_tick_of_running (h := Cluster.host) (x := c) hrun, run_prepare, run_safeTarget,
    hs.estimator, Estimator.run_ofPolicy, he]
  rfl

/-- A tick on a steady cluster that finds an estimate acts on what the bounds make of it. -/
lemma run_tick_of_estimate (hs : s.Serves settings) (hrun : c.status.isRunning = true)
    (hsteady : c.Steady) {raw : Nat} (he : s.policy.estimate c = .ok raw) :
    s.tick.run Cluster.host c = (s.act (s.policy.within raw) c.roster).run Cluster.host c := by
  have hclamp : s.policy.clamp raw = .ok (s.policy.within raw) :=
    Word.clamp_eq_ok_iff.2 ⟨Settings.minimum_le_maximum hs.policy, rfl⟩
  rw [run_tick_of_running (h := Cluster.host) (x := c) hrun, run_prepare, run_safeTarget,
    hs.estimator, Estimator.run_ofPolicy, he]
  simp only [Except.map, hclamp, run_settledRoster_host, hsteady.settled_eq]

/-- A tick on a steady cluster ends in an overflow or a division by zero, or it makes a decision
that fits, notes it and carries it out. -/
theorem run_tick_steady (hs : s.Serves settings) (hrun : c.status.isRunning = true)
    (hc : c.Coherent) (hsteady : c.Steady) :
    (∃ f y, f.isArithmetic = true ∧ s.tick.run Cluster.host c = (y, .error f)) ∨
      ∃ ws d, c.Fits d ∧ s.tick.run Cluster.host c =
        (c.carryOut d, .ok ((s.counted ws).note d, .ok d.outcome)) := by
  cases he : s.policy.estimate c with
  | error f =>
    exact .inl ⟨f, c, Policy.arithmetic_of_estimate he, run_tick_of_no_estimate hs hrun he⟩
  | ok raw =>
    rw [run_tick_of_estimate hs hrun hsteady he]
    obtain ⟨f, hf, hround⟩ | ⟨ws, hround⟩ :=
      s.advisor.run_round_host (s.policy.within raw) c.roster c
    · rw [run_act, Advisor.run_recommend, hround]
      exact .inl ⟨f, c, hf, rfl⟩
    · have hfits := Advisor.fits_verdict hc hsteady (congrArg Prod.snd hround)
      rw [run_act_host hrun hround rfl hfits]
      exact .inr ⟨ws, _, hfits, rfl⟩

end Scaler

end Fleet
