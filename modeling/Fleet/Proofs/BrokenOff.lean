import Fleet.Proofs.SteadyTick

/-! Ticks that are broken off before a decision. They leave no trace, except that the cluster may
have been reconciled before the search for candidates failed. -/
namespace Fleet

namespace Method

/-- The methods that only look. -/
def Reads (m : Method) : Prop := m.Estimates ∨ m = closeCandidates

lemma Estimates.not_executes {m : Method} (h : m.Estimates) : ¬ m.Executes := by
  cases m <;> first | exact id | exact h.elim

end Method

lemma Cluster.serve_of_reads {call : Call} (hc : call.method.Reads) (c : Cluster) :
    (serve call c).1 = c := by
  cases call with
  | drainEstimate window => rfl
  | closeCandidates query => rfl
  | workers => rfl
  | tasks => rfl
  | estimate => rfl
  | scale n => exact hc.elim False.elim (by rintro ⟨⟩)
  | scaleDown ids => exact hc.elim False.elim (by rintro ⟨⟩)
  | reconcile limit => exact hc.elim False.elim (by rintro ⟨⟩)
  | retire request => exact hc.elim False.elim (by rintro ⟨⟩)

/-- A reconciliation that has not come to its end has had no effect. -/
def Host.ReconcilesOrNot {σ : Type} (h : Host σ) (cluster : σ → Cluster) : Prop :=
  ∀ limit x, (h.serve (.reconcile limit) x).2 ≠ .ok (.ok .finished) →
    cluster (h.serve (.reconcile limit) x).1 = cluster x

namespace Host.Relays

variable {σ : Type} {h : Host σ} {cluster : σ → Cluster} {d : Disturbance} {s : Scaler} {x y : σ}
  {target : Nat} {r : Roster}

/-- A run that only looks leaves the cluster as it is. -/
theorem cluster_run_reads {α : Type} (hh : h.Relays d cluster) {p : Exchange α}
    (hp : p.Only Method.Reads) (x : σ) : cluster (p.run h x).1 = cluster x := by
  refine hp.keeps (P := fun y => cluster y = cluster x) (fun call y hc hy => ?_) rfl
  rcases (hh.replies call y).reaches with he | he
  · rw [he, hy]
  · rw [he, Cluster.serve_of_reads hc, hy]

lemma cluster_safeTarget (hh : h.Relays d cluster) (s : Scaler) (x : σ) :
    cluster (s.safeTarget.run h x).1 = cluster x :=
  hh.cluster_run_reads (s.only_safeTarget.mono fun _ => .inl) x

lemma cluster_round (hh : h.Relays d cluster) (a : Advisor) (target : Nat) (r : Roster) (x : σ) :
    cluster ((a.round target r).run h x).1 = cluster x :=
  hh.cluster_run_reads ((a.only_round target r).mono fun _ => .inr) x

/-- A prepared tick goes on with the cluster settled, unless the reconciliation was feigned. -/
theorem cluster_prepared (hh : h.Relays d cluster) (hd : ¬ d.feigned .reconcile)
    (hp : s.prepare.run h x = (y, .ok (.ok (target, r)))) : cluster y = (cluster x).settled := by
  obtain ⟨x', raw, he, -, hr⟩ := Scaler.prepare_eq_ok hp
  have hkept := hh.cluster_run_reads (s.estimator.only_target.mono fun _ => .inl) x
  rw [he] at hkept
  rw [Scaler.run_settledRoster, hh.view_eq, hkept] at hr
  change (if (cluster x).roster.isReconciled = true then _ else _) = _ at hr
  unfold Cluster.settled
  split at hr
  · rename_i hsize
    cases hr
    rw [if_pos hsize, hkept]
  · rename_i hsize
    rw [if_neg hsize]
    have hreplies := hh.replies (.reconcile s.policy.reconcileTimeout) x'
    rcases hc : h.serve (.reconcile s.policy.reconcileTimeout) x' with ⟨z, f | e | _ | _⟩
    · rw [hc] at hr
      cases hr
    · rw [hc] at hr
      cases hr
    · rw [hc] at hr hreplies
      cases hr
      rw [hreplies.reconciled hd, hkept]
    · rw [hc] at hr
      cases hr

/-- If a reconciliation without an end has no effect, a tick that is broken off while it prepares
has none. -/
theorem cluster_unprepared (hh : h.Relays d cluster) (hrec : h.ReconcilesOrNot cluster)
    {e : TickError} (hp : s.prepare.run h x = (y, .ok (.error e))) : cluster y = cluster x := by
  have hkept := hh.cluster_safeTarget s x
  rw [Scaler.run_prepare] at hp
  rcases ht : s.safeTarget.run h x with ⟨x', f | e' | target⟩
  · rw [ht] at hp
    cases hp
  · rw [ht] at hp hkept
    cases hp
    exact hkept
  · rw [ht] at hp hkept
    have hnone := hrec s.policy.reconcileTimeout x'
    simp only [Scaler.run_settledRoster] at hp
    split at hp
    · cases hp
    · rcases hc : h.serve (.reconcile s.policy.reconcileTimeout) x' with ⟨z, f | e' | _ | _⟩
      · rw [hc] at hp
        cases hp
      · rw [hc] at hp hnone
        cases hp
        exact (hnone (by rintro ⟨⟩)).trans hkept
      · rw [hc] at hp
        cases hp
      · rw [hc] at hp hnone
        cases hp
        exact (hnone (by rintro ⟨⟩)).trans hkept

end Host.Relays

namespace Cluster

/-- What a tick that comes to no decision leaves of a cluster. -/
def leftBy (c : Cluster) : Except TickError Outcome → Cluster
  | .error (.candidates _) => c.settled
  | _ => c

/-- A cluster that refuses the calls of one method. -/
def hostWithout (m : Method) (e : RemoteError) : Host Cluster :=
  hostFailing fun other => if other = m then some e else none

lemma reconcilesOrNot_hostFailing (fails : Method → Option RemoteError) :
    (hostFailing fails).ReconcilesOrNot fun c => c := by
  intro limit c hreply
  simp only [hostFailing] at hreply ⊢
  split
  · rfl
  · rename_i hserves
    rw [hserves] at hreply
    exact absurd rfl hreply

end Cluster

namespace Scaler

variable {σ : Type} {h : Host σ} {cluster : σ → Cluster} {d : Disturbance} {s s' : Scaler} {x y : σ}
  {target : Nat} {r : Roster} {result : Except TickError Outcome}

lemma decided_of_recommend {a : Advisor} {decision : Recommendation} {z : σ}
    (hd : (s.advisor.recommend target r).run h x = (z, .ok (a, .ok decision)))
    (ha : (s.act target r).run h x = (y, .ok (s', result))) : decided result = true := by
  rw [run_act, hd] at ha
  dsimp only at ha
  rcases he : (execute decision).run h z with ⟨w, f | result'⟩
  · rw [he] at ha
    cases ha
  · rw [he] at ha
    cases ha
    exact (execute_yields he).decided

/-- Only a tick that decides makes a call that carries something out. -/
theorem not_executed (ht : s.tick.run h x = (y, .ok (s', result))) (hu : decided result = false) :
    ∀ call ∈ s.tick.calls h x, ¬ call.method.Executes := by
  intro call hcall
  rw [tick_eq, Exchange.calls_view_bind] at hcall
  split at hcall
  · rename_i hr
    rw [run_tick_of_running hr] at ht
    obtain hcall | ⟨reply, z, hz, hcall⟩ := Exchange.mem_calls_bind hcall
    · rcases s.only_prepare.of_mem_calls hcall with hm | hm
      · exact hm.not_executes
      · rw [hm]
        exact id
    · rw [hz] at ht
      obtain e | ⟨target, r⟩ := reply
      · cases hcall
      · obtain hcall | ⟨answer, z', hz', hcall⟩ := Exchange.mem_calls_bind hcall
        · rw [(s.advisor.only_recommend target r).of_mem_calls hcall]
          exact id
        · obtain ⟨a, e | decision⟩ := answer
          · cases hcall
          · rw [decided_of_recommend hz' ht] at hu
            cases hu
  · cases hcall

/-- A tick that comes to no decision has found the cluster not running, or has been broken off while
it prepared or in the search for candidates. -/
theorem undecided_cases (ht : s.tick.run h x = (y, .ok (s', result)))
    (hu : decided result = false) :
    (y = x ∧ result = .ok .skipped) ∨
    (∃ e, s.prepare.run h x = (y, .ok (.error e)) ∧ result = .error e) ∨
    ∃ x₁ target r e, s.prepare.run h x = (x₁, .ok (.ok (target, r))) ∧
      (s.advisor.round target r).run h x₁ = (y, .ok (.error e)) ∧
      result = .error (.candidates e) := by
  cases hv : (h.view x).status.isRunning with
  | false =>
    rw [run_tick_of_not_running hv] at ht
    cases ht
    exact .inl ⟨rfl, rfl⟩
  | true =>
    rw [run_tick_of_running hv] at ht
    rcases hp : s.prepare.run h x with ⟨x₁, f | e | ⟨target, r⟩⟩
    · rw [hp] at ht
      cases ht
    · rw [hp] at ht
      cases ht
      exact .inr (.inl ⟨e, rfl, rfl⟩)
    · rw [hp] at ht
      dsimp only at ht
      have hrec := Advisor.run_recommend h s.advisor target r x₁
      rcases hround : (s.advisor.round target r).run h x₁ with ⟨x₂, f | e | ws⟩
      · rw [hround] at hrec
        rw [run_act, hrec] at ht
        cases ht
      · rw [hround] at hrec
        rw [run_act, hrec] at ht
        cases ht
        exact .inr (.inr ⟨x₁, target, r, e, rfl, hround, rfl⟩)
      · rw [hround] at hrec
        rw [decided_of_recommend hrec ht] at hu
        cases hu

/-- A tick that comes to no decision leaves the scaler as it is and carries nothing out. -/
theorem undecided_traceless (hh : h.Relays d cluster) (hd : ¬ d.feigned .reconcile)
    (hrec : h.ReconcilesOrNot cluster) (ht : s.tick.run h x = (y, .ok (s', result)))
    (hu : decided result = false) :
    s' = s ∧ cluster y = (cluster x).leftBy result ∧
      ∀ call ∈ s.tick.calls h x, ¬ call.method.Executes := by
  refine ⟨?_, ?_, not_executed ht hu⟩
  · obtain ⟨-, hs⟩ | ⟨-, -, -, -, -, hr, -⟩ := tick_cases ht
    · exact hs
    · rw [hu] at hr
      cases hr
  · obtain ⟨rfl, rfl⟩ | ⟨e, hp, rfl⟩ | ⟨x₁, target, r, e, hp, hround, rfl⟩ := undecided_cases ht hu
    · rfl
    · have hkept := hh.cluster_unprepared hrec hp
      obtain ⟨e', rfl⟩ | ⟨e', rfl⟩ | ⟨limit, rfl⟩ := error_of_prepare hp
      · exact hkept
      · exact hkept
      · exact hkept
    · have hkept := hh.cluster_round s.advisor target r x₁
      rw [hround] at hkept
      exact hkept.trans (hh.cluster_prepared hd hp)

/-- Ticks that come to no decision, on a host that `Relays` the calls and `ReconcilesOrNot`. They
are those on a cluster that is not running and those that end in an error before anything is carried
out. Such a tick leaves the counts and the history as they are and carries nothing out. It leaves
the cluster as it is, except that a search for candidates may fail after the cluster has been
reconciled. -/
theorem broken_off_traceless (hh : h.Relays d cluster) (hd : ¬ d.feigned .reconcile)
    (hrec : h.ReconcilesOrNot cluster) (ht : s.tick.run h x = (y, .ok (s', result))) :
    match result with
    | .ok .skipped | .error (.estimate _) | .error (.reconcile _) | .error (.reconcileTimeout _) =>
      s' = s ∧ cluster y = cluster x ∧ ∀ call ∈ s.tick.calls h x, ¬ call.method.Executes
    | .error (.candidates _) =>
      s' = s ∧
      cluster y = (if (cluster x).plan.size = (cluster x).requested.size then cluster x
        else (cluster x).reconcile) ∧
      ∀ call ∈ s.tick.calls h x, ¬ call.method.Executes
    | _ => True := by
  obtain e | outcome := result
  · cases e with
    | estimate e => exact undecided_traceless hh hd hrec ht rfl
    | reconcile e => exact undecided_traceless hh hd hrec ht rfl
    | reconcileTimeout limit => exact undecided_traceless hh hd hrec ht rfl
    | candidates e =>
      obtain ⟨hs, hleft, hcalls⟩ := undecided_traceless hh hd hrec ht rfl
      rw [Cluster.leftBy, Cluster.settled_eq] at hleft
      exact ⟨hs, hleft, hcalls⟩
    | scaleUp n e => trivial
  · cases outcome with
    | skipped => exact undecided_traceless hh hd hrec ht rfl
    | unchanged => trivial
    | scaledUp n => trivial
    | scaledDown ws => trivial

/-- Three workers are planned and two of them requested. -/
def unrequested : Cluster :=
  Operation.applyAll (.create "z" 100) [.scale 2, .reconcile, .arriveAll, .scale 3]

/-- When the search for candidates fails, the third worker has been requested and nothing else has
changed. -/
theorem broken_off_traceless_unrequested :
    ∃ s' e, downToOne.tick.run (Cluster.hostWithout .closeCandidates (.connection "lost"))
        unrequested = (unrequested.reconcile, .ok (s', .error (.candidates e))) ∧
      s' = downToOne ∧ unrequested.reconcile ≠ unrequested := by
  have hh := Cluster.relays_hostFailing
    fun other => if other = .closeCandidates then some (.connection "lost") else none
  have hrec := Cluster.reconcilesOrNot_hostFailing
    fun other => if other = .closeCandidates then some (.connection "lost") else none
  obtain ⟨y, s', e, ht⟩ : ∃ y s' e,
      downToOne.tick.run (Cluster.hostWithout .closeCandidates (.connection "lost"))
        unrequested = (y, .ok (s', .error (.candidates e))) := ⟨_, _, _, by rfl⟩
  obtain ⟨hs, hy, -⟩ := broken_off_traceless hh id hrec ht
  have hsizes : unrequested.plan.size ≠ unrequested.requested.size := by decide +kernel
  rw [if_neg hsizes] at hy
  rw [hy] at ht
  exact ⟨s', e, ht, hs, by decide +kernel⟩

end Scaler

end Fleet
