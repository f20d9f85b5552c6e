import Fleet.Proofs.Coherence
import Fleet.Proofs.PlanSize
import Fleet.Proofs.Tick

/-! What a tick makes of the plan, on any host that treats the plan as a cluster does. Only a
decision that is carried out changes the plan, and it keeps to the target. -/
namespace Fleet

variable {σ : Type} {h : Host σ} {cluster : σ → Cluster} {s : Scaler} {x y : σ} {target : Nat}

/-- A host with a cluster behind it: it shows the cluster and keeps it coherent, and no call but
those that scale or remove changes the plan. -/
structure Host.Frames (h : Host σ) (cluster : σ → Cluster) : Prop where
  view_eq : ∀ x, h.view x = (cluster x).view
  coherent : ∀ call x, (cluster x).Coherent → (cluster (h.serve call x).1).Coherent
  kept : ∀ call x, call.method ≠ .scale → call.method ≠ .scaleDown →
    (cluster (h.serve call x).1).plan = (cluster x).plan

namespace Host.Frames

/-- A run that neither scales nor removes keeps the plan. -/
theorem plan_run {α : Type} (hf : h.Frames cluster) {M : Method → Prop} {p : Exchange α}
    (hp : p.Only M) (hup : ¬ M .scale) (hdown : ¬ M .scaleDown) (x : σ) :
    (cluster (p.run h x).1).plan = (cluster x).plan := by
  refine hp.keeps (P := fun y => (cluster y).plan = (cluster x).plan) ?_ rfl
  intro c y hc hy
  have hup' : c.method ≠ .scale := fun he => hup (he ▸ hc)
  have hdown' : c.method ≠ .scaleDown := fun he => hdown (he ▸ hc)
  rw [hf.kept c y hup' hdown', hy]

theorem coherent_run {α : Type} (hf : h.Frames cluster) (p : Exchange α)
    (hx : (cluster x).Coherent) : (cluster (p.run h x).1).Coherent :=
  p.only_any.keeps (P := fun y => (cluster y).Coherent) (fun c y _ => hf.coherent c y) hx

lemma plan_prepare (hf : h.Frames cluster) (s : Scaler) (x : σ) :
    (cluster (s.prepare.run h x).1).plan = (cluster x).plan :=
  hf.plan_run s.only_prepare (by simp [Method.Estimates]) (by simp [Method.Estimates]) x

/-- A prepared tick goes on with the roster that the cluster shows. It is reconciled, or a call has
been said to have seen to it. -/
theorem prepared (hf : h.Frames cluster) {r : Roster}
    (hp : s.prepare.run h x = (y, .ok (.ok (target, r)))) :
    r = (cluster y).roster ∧
      (r.isReconciled = true ∨
        ∃ x' limit, h.serve (.reconcile limit) x' = (y, .ok (.ok .finished))) := by
  obtain ⟨x', raw, -, -, hr⟩ := Scaler.prepare_eq_ok hp
  obtain ⟨rfl, hrec⟩ := Scaler.settledRoster_eq_ok hr
  have hview : (h.view y).roster = (cluster y).roster := by
    rw [hf.view_eq]
    rfl
  refine ⟨hview, ?_⟩
  rcases hrec with ⟨-, hrec⟩ | hrec
  · exact .inl hrec
  · exact .inr ⟨x', _, hrec⟩

end Host.Frames

/-- The laws of the plan for a host with a cluster behind it: what it shows, which calls change the
plan, and how. -/
structure Host.PlanLaws (h : Host σ) (cluster : σ → Cluster) : Prop where
  view_eq : ∀ x, h.view x = (cluster x).view
  coherent : ∀ call x, (cluster x).Coherent → (cluster (h.serve call x).1).Coherent
  kept : ∀ call x, call.method ≠ .scale → call.method ≠ .scaleDown →
    (cluster (h.serve call x).1).plan = (cluster x).plan
  scaled : ∀ n x,
    ((h.serve (.scale n) x).2 ≠ .ok (.ok ()) ∧
      (cluster (h.serve (.scale n) x).1).plan = (cluster x).plan) ∨
    ((h.serve (.scale n) x).2 = .ok (.ok ()) ∧
      (cluster (h.serve (.scale n) x).1).plan.size = n)
  removed : ∀ ids x,
    (cluster (h.serve (.scaleDown ids) x).1).plan = (cluster x).plan ∨
    ((h.serve (.scaleDown ids) x).2 = .ok (.ok ()) ∧
      (cluster (h.serve (.scaleDown ids) x).1).plan = (cluster x).plan.eraseAll ids)
  reconciled : ∀ limit x, (h.serve (.reconcile limit) x).2 = .ok (.ok .finished) →
    (cluster (h.serve (.reconcile limit) x).1).roster.isReconciled = true

/-- What an outcome says of the plan before and after a tick with the given target. -/
def Outcome.Accounts (target : Nat) (plan plan' : IdSet) : Outcome → Prop
  | .skipped | .unchanged => plan' = plan
  | .scaledUp n => n = target ∧ plan.size < target ∧ plan'.size = target
  | .scaledDown ws =>
    1 ≤ ws.size ∧ ws.size + target ≤ plan.size ∧ target ≤ plan'.size ∧
      (plan' = plan ∨ plan' = plan.eraseAll ws.toList)

/-- Whatever else a tick ends in, the plan is the same. -/
def Scaler.Accounts (target : Nat) (plan plan' : IdSet) :
    Except Fault (Scaler × Except TickError Outcome) → Prop
  | .ok (_, .ok outcome) => outcome.Accounts target plan plan'
  | .ok (_, .error _) | .error _ => plan' = plan

/-- A tick takes the size of the plan towards the target and not past it. -/
theorem Scaler.Accounts.size_between {plan plan' : IdSet}
    {result : Except Fault (Scaler × Except TickError Outcome)}
    (ha : Accounts target plan plan' result) :
    min target plan.size ≤ plan'.size ∧ plan'.size ≤ max target plan.size := by
  have hkept : plan' = plan →
      min target plan.size ≤ plan'.size ∧ plan'.size ≤ max target plan.size := by
    rintro rfl
    omega
  rcases result with f | ⟨s', e | _ | _ | n | ws⟩
  · exact hkept ha
  · exact hkept ha
  · exact hkept ha
  · exact hkept ha
  · obtain ⟨-, -, hsize⟩ := ha
    omega
  · obtain ⟨-, -, hle, rfl | rfl⟩ := ha
    · omega
    · have hsub : (plan.eraseAll ws.toList).size ≤ plan.size :=
        IdSet.size_le_of_subset fun w => IdSet.eraseAll_subset
      omega

/-- A scheduler is frugal in a state if it offers no more connected workers than a target leaves
over. -/
def Scaler.Frugal (h : Host σ) (cluster : σ → Cluster) (s : Scaler) (target : Nat) (x : σ) : Prop :=
  ∀ ids, (h.serve (.closeCandidates (s.advisor.queryFor target)) x).2 = .ok (.ok ids) →
    ids.length ≤ (cluster x).observed.size - target

lemma Outcome.accounts_scaledDown {ws plan plan' : IdSet} (hws : ws.isEmpty = false)
    (hsize : ws.size ≤ plan.size - target) (hlt : target < plan.size)
    (hplan : plan' = plan ∨ plan' = plan.eraseAll ws.toList) :
    (Outcome.scaledDown ws).Accounts target plan plan' := by
  have hpos : 0 < ws.size := IdSet.size_pos_iff.2 hws
  refine ⟨by omega, by omega, ?_, hplan⟩
  rcases hplan with rfl | rfl
  · omega
  · have herase := plan.size_le_size_eraseAll_add ws.toList
    change plan.size ≤ (plan.eraseAll ws.toList).size + ws.size at herase
    omega

namespace Host.PlanLaws

lemma frames (hl : h.PlanLaws cluster) : h.Frames cluster := ⟨hl.view_eq, hl.coherent, hl.kept⟩

/-- The roster of a prepared tick is reconciled. -/
theorem prepared (hl : h.PlanLaws cluster) {r : Roster}
    (hp : s.prepare.run h x = (y, .ok (.ok (target, r)))) :
    r = (cluster y).roster ∧ r.isReconciled = true := by
  obtain ⟨rfl, hrec | ⟨x', limit, hrec⟩⟩ := hl.frames.prepared hp
  · exact ⟨rfl, hrec⟩
  · have hdone := hl.reconciled limit x'
    rw [hrec] at hdone
    exact ⟨rfl, hdone rfl⟩

/-- Asking for a larger plan gives one of the size asked for, or fails and changes nothing. -/
theorem execute_up (hl : h.PlanLaws cluster) {n : Nat} {s' : Scaler}
    (hn : (cluster x).plan.size < n) :
    Scaler.Accounts n (cluster x).plan (cluster ((Scaler.execute (.up n)).run h x).1).plan
      (((Scaler.execute (.up n)).run h x).2.map fun result => (s', result)) := by
  rw [Scaler.run_execute_up]
  rcases hl.scaled n x with ⟨hc, hplan⟩ | ⟨hc, hsize⟩
  · rcases hr : (h.serve (.scale n) x).2 with f | e | u
    · exact hplan
    · exact hplan
    · exact absurd hr hc
  · simp only [hc]
    exact ⟨rfl, hn, hsize⟩

/-- Removing workers takes nothing else from the plan. -/
theorem execute_down (hl : h.PlanLaws cluster) {ws : IdSet} {s' : Scaler}
    (hws : ws.isEmpty = false) (hlt : target < (cluster x).plan.size)
    (hsize : ws.size ≤ (cluster x).plan.size - target) :
    Scaler.Accounts target (cluster x).plan
      (cluster ((Scaler.execute (.down ws)).run h x).1).plan
      (((Scaler.execute (.down ws)).run h x).2.map fun result => (s', result)) := by
  rw [Scaler.run_execute_down hws]
  have hretire := hl.kept (.retire (.close ws.toList)) x Method.noConfusion Method.noConfusion
  rcases hc : h.serve (.retire (.close ws.toList)) x with ⟨y, f | reply⟩
  · rw [hc] at hretire
    exact hretire
  · rw [hc] at hretire
    dsimp only at hretire ⊢
    rcases hl.removed ws.toList y with hplan | ⟨hd, hplan⟩
    · rw [hretire] at hplan
      rcases (h.serve (.scaleDown ws.toList) y).2 with f | reply
      · exact hplan
      · exact Outcome.accounts_scaledDown hws hsize hlt (.inl hplan)
    · rw [hretire] at hplan
      rw [hd]
      exact Outcome.accounts_scaledDown hws hsize hlt (.inr hplan)

theorem act (hl : h.PlanLaws cluster) (hc : (cluster x).Coherent)
    (hr : (cluster x).roster.isReconciled = true) (hf : s.Frugal h cluster target x) :
    Scaler.Accounts target (cluster x).plan
      (cluster ((s.act target (cluster x).roster).run h x).1).plan
      ((s.act target (cluster x).roster).run h x).2 := by
  rw [Scaler.run_act]
  by_cases hle : (cluster x).plan.size ≤ target
  · rw [Advisor.run_recommend_of_le hle]
    dsimp only
    split
    · rename_i hup
      exact hl.execute_up hup
    · exact rfl
  · have hlt : target < (cluster x).plan.size := by omega
    rw [Advisor.run_recommend_of_lt hlt]
    have hplan := hl.frames.plan_run (s.advisor.only_candidates target (cluster x).roster)
      Method.noConfusion Method.noConfusion x
    -- whoever is let go has been a candidate, and the candidates are few enough
    have hsize : ∀ ws, ((s.advisor.candidates target (cluster x).roster).run h x).2 = .ok (.ok ws) →
        ws.size ≤ (cluster x).plan.size - target :=
      fun ws => Advisor.size_candidates_le hr hc.requested_of_observed hlt hf
    rcases hd : (s.advisor.candidates target (cluster x).roster).run h x with ⟨y, f | e | ws⟩
    · rw [hd] at hplan
      exact hplan
    · rw [hd] at hplan
      exact hplan
    · rw [hd] at hplan hsize
      dsimp only at hplan
      simp only [Except.map, Advisor.settle]
      obtain hsame | ⟨hdown, hne⟩ := s.advisor.conclude_cases ws
      · rw [hsame]
        exact hplan
      · have hsub : (s.advisor.debounce.due ws).size ≤ ws.size :=
          IdSet.size_le_of_subset fun w => Debounce.mem_of_mem_due
        have hws := hsize ws rfl
        rw [hdown]
        rw [← hplan] at hlt hws ⊢
        exact hl.execute_down hne hlt (by omega)

/-- A tick that is prepared accounts for the plan with the target it has found; any other tick keeps
the plan and has no outcome but that it was skipped. -/
theorem tick (hl : h.PlanLaws cluster) (hx : (cluster x).Coherent)
    (hf : ∀ y target r, s.prepare.run h x = (y, .ok (.ok (target, r))) →
      s.Frugal h cluster target y) :
    (∃ y target r, s.prepare.run h x = (y, .ok (.ok (target, r))) ∧
      Scaler.Accounts target (cluster x).plan (cluster (s.tick.run h x).1).plan
        (s.tick.run h x).2) ∨
    ((cluster (s.tick.run h x).1).plan = (cluster x).plan ∧
      ∀ s' outcome, (s.tick.run h x).2 = .ok (s', .ok outcome) → outcome = .skipped) := by
  cases hr : (h.view x).status.isRunning with
  | false =>
    right
    rw [Scaler.run_tick_of_not_running hr]
    refine ⟨rfl, fun s' outcome ho => ?_⟩
    cases ho
    rfl
  | true =>
    rw [Scaler.run_tick_of_running hr]
    have hplan := hl.frames.plan_prepare s x
    have hcoherent := hl.frames.coherent_run s.prepare hx
    rcases hp : s.prepare.run h x with ⟨y, f | e | ⟨target, r⟩⟩
    · rw [hp] at hplan
      refine .inr ⟨hplan, fun s' outcome ho => ?_⟩
      cases ho
    · rw [hp] at hplan
      refine .inr ⟨hplan, fun s' outcome ho => ?_⟩
      cases ho
    · rw [hp] at hplan hcoherent
      obtain ⟨rfl, hrec⟩ := hl.prepared hp
      refine .inl ⟨y, target, _, rfl, ?_⟩
      dsimp only at hplan
      rw [← hplan]
      exact hl.act hcoherent hrec (hf y target _ hp)

end Host.PlanLaws

end Fleet
