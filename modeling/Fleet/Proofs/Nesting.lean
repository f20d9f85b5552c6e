import Fleet.Proofs.Disturbance

/-! Plans that hold all that is requested. Whatever is done to a new cluster by ticks and by
operations other than scaling to less, comparing the sizes of plan and request tells whether they
are the same. -/
namespace Fleet

/-- The operation does not scale to fewer workers than are planned. -/
def Operation.Admitted (c : Cluster) : Operation → Prop
  | scale n => c.plan.size ≤ n
  | _ => True

instance (c : Cluster) : (op : Operation) → Decidable (op.Admitted c)
  | .scale n => inferInstanceAs (Decidable (c.plan.size ≤ n))
  | .addWorker _ | .setTasks _ | .setLoad .. | .arriveAll | .setStatus _ | .scaleDown _
  | .reconcile | .retire _ => inferInstanceAs (Decidable True)

namespace Cluster

variable {c c' : Cluster}

/-- Whoever is requested is planned. -/
def Nested (c : Cluster) : Prop := ∀ w ∈ c.requested, w ∈ c.plan

namespace Nested

lemma addWorker (h : c.Nested) (w : Worker) : (c.addWorker w).Nested := by
  intro x hx
  rcases IdSet.mem_insert.1 hx with rfl | hx
  · exact IdSet.mem_insert.2 (.inl rfl)
  · exact IdSet.mem_insert.2 (.inr (h x hx))

lemma setLoad (h : c.Nested) {id : Id} {memoryUsed processing : Nat}
    (hc : c.setLoad id memoryUsed processing = .ok c') : c'.Nested := by
  unfold Cluster.setLoad at hc
  split at hc
  · cases hc
    exact h
  · cases hc

lemma scaleDown (h : c.Nested) (ids : List Id) : (c.scaleDown ids).Nested := by
  intro x hx
  obtain ⟨hr, hn⟩ := IdSet.mem_eraseAll.1 hx
  exact IdSet.mem_eraseAll.2 ⟨h x hr, hn⟩

lemma reconcile (c : Cluster) : c.reconcile.Nested := by
  intro x hx
  rwa [requested_reconcile] at hx

lemma retire (h : c.Nested) (r : Retirement) : (c.retire r).Nested := by
  intro x hx
  rw [requested_retire] at hx
  rw [plan_retire]
  exact h x hx

/-- A plan that does not get smaller keeps all its workers. -/
theorem scale (h : c.Nested) {n : Nat} (hn : c.plan.size ≤ n) (hc : c.scale n = .ok c') :
    c'.Nested := by
  unfold Cluster.scale at hc
  split at hc
  · cases hc
    split
    · intro x hx
      rw [grow, planUpTo_requested] at hx
      exact plan_subset_planUpTo _ _ _ _ (h x hx)
    · have hnone : c.plan.size - n = 0 := by omega
      intro x hx
      simp only [shrink, hnone, List.take_zero]
      exact IdSet.mem_eraseAll.2 ⟨h x hx, List.not_mem_nil⟩
  · cases hc

theorem apply (h : c.Nested) {op : Operation} (hop : op.Admitted c) : (op.apply c).1.Nested := by
  cases op with
  | addWorker w => exact h.addWorker w
  | setTasks tasks => exact h
  | setLoad id memoryUsed processing =>
    simp only [Operation.apply]
    split
    · rename_i c' hc
      exact h.setLoad hc
    · exact h
  | arriveAll => exact h
  | setStatus status => exact h
  | scale n =>
    simp only [Operation.apply]
    split
    · rename_i c' hc
      exact h.scale hop hc
    · exact h
  | scaleDown ids => exact h.scaleDown ids
  | reconcile => exact Nested.reconcile c
  | retire r => exact h.retire r

theorem serve (h : c.Nested) {call : Call} (hcall : ∀ n, call = .scale n → c.plan.size ≤ n) :
    (serve call c).1.Nested := by
  cases call with
  | scale n =>
    simp only [Cluster.serve]
    split
    · rename_i c' hs
      exact h.scale (hcall n rfl) hs
    · exact h
  | scaleDown ids => exact h.scaleDown ids
  | reconcile limit => exact Nested.reconcile c
  | retire request => exact h.retire request
  | drainEstimate window => exact h
  | closeCandidates query => exact h
  | workers => exact h
  | tasks => exact h
  | estimate => exact h

end Nested

lemma Replies.nested {d : Disturbance} {call : Call} {reply : Except Fault call.Reply}
    (hr : Replies d call c c' reply) (h : c.Nested)
    (hcall : ∀ n, call = .scale n → c.plan.size ≤ n) : c'.Nested := by
  obtain rfl | rfl := hr.reaches
  · exact h
  · exact h.serve hcall

/-- With a nested plan the sizes decide. -/
theorem Nested.isReconciled_iff (h : c.Nested) :
    c.roster.isReconciled = true ↔ c.requested = c.plan := by
  simp only [Roster.isReconciled, roster, beq_iff_eq]
  constructor
  · intro hsize
    exact IdSet.eq_of_subset_of_size_le h (Nat.le_of_eq hsize)
  · intro he
    rw [he]

/-- The states that a new cluster comes to by ticks of scalers, with any of their calls disturbed,
and by operations that do not scale to less. -/
inductive Driven : Cluster → Prop where
  | create (name : String) (memoryLimit : Nat) : Driven (create name memoryLimit)
  | operate {c : Cluster} (past : Driven c) (op : Operation) (hop : op.Admitted c) :
    Driven (op.apply c).1
  | tick {σ : Type} {h : Host σ} {cluster : σ → Cluster} (hh : h.Relays .any cluster) {x : σ}
    (past : Driven (cluster x)) (s : Scaler) : Driven (cluster (s.tick.run h x).1)

end Cluster

namespace Host.Relays

variable {σ : Type} {h : Host σ} {cluster : σ → Cluster} {d : Disturbance} {s s' : Scaler} {x y : σ}
  {target : Nat} {r : Roster}

/-- A run that does not scale keeps a plan nested. -/
lemma nested_run {α : Type} (hh : h.Relays d cluster) {M : Method → Prop} {p : Exchange α}
    (hp : p.Only M) (hup : ¬ M .scale) (hx : (cluster x).Nested) :
    (cluster (p.run h x).1).Nested := by
  refine hp.keeps (P := fun y => (cluster y).Nested) (fun call y hc hy => ?_) hx
  refine (hh.replies call y).nested hy fun n he => absurd hc ?_
  rw [he]
  exact hup

/-- A tick scales to more only, so it keeps a plan nested. -/
theorem nested_tick (hh : h.Relays d cluster) (s : Scaler) (hx : (cluster x).Nested) :
    (cluster (s.tick.run h x).1).Nested := by
  refine Scaler.tick_keeps (P := fun y => (cluster y).Nested) (fun call y hc hy => ?_)
    (fun n y hn hy => ?_) hx
  · refine (hh.replies call y).nested hy fun n he => absurd ?_ hc
    rw [he]
    rfl
  · refine (hh.replies (.scale n) y).nested hy fun m he => ?_
    cases he
    rw [hh.view_eq] at hn
    exact Nat.le_of_lt hn

/-- Unless the reconciliation was feigned, a decision is made on a roster whose plan is the one at
the beginning of the tick and has been requested. -/
theorem prepared_nested (hh : h.Relays d cluster) (hd : ¬ d.feigned .reconcile)
    (hx : (cluster x).Nested) (hp : s.prepare.run h x = (y, .ok (.ok (target, r)))) :
    r = (cluster y).roster ∧ r.plan = (cluster x).plan ∧ r.requested = r.plan := by
  have hplan := hh.frames.plan_prepare s x
  have hnested := hh.nested_run s.only_prepare (by simp [Method.Estimates]) hx
  rw [hp] at hplan hnested
  obtain ⟨rfl, hrec⟩ := hh.prepared hd hp
  exact ⟨rfl, hplan, hnested.isReconciled_iff.1 hrec⟩

/-- Removing workers of the plan takes just these from it. -/
lemma size_plan_execute_down (hh : h.Relays d cluster) (hfail : ¬ d.failing .scaleDown)
    (hfeign : ¬ d.feigned .scaleDown) {ws : IdSet} (hws : ws.isEmpty = false)
    (hplan : ∀ w ∈ ws, w ∈ (cluster x).plan) {result : Except TickError Outcome}
    (he : (Scaler.execute (.down ws)).run h x = (y, .ok result)) :
    (cluster y).plan.size + ws.size = (cluster x).plan.size := by
  rw [Scaler.run_execute_down hws] at he
  have hretire := (hh.replies (.retire (.close ws.toList)) x).kept Method.noConfusion
    Method.noConfusion
  rcases hc : h.serve (.retire (.close ws.toList)) x with ⟨z, f | reply⟩
  · rw [hc] at he
    cases he
  · rw [hc] at he hretire
    have hremoved := (hh.replies (.scaleDown ws.toList) z).removed hfail hfeign
    obtain rfl := congrArg Prod.fst he
    rw [hremoved, ← hretire]
    exact IdSet.size_eraseAll_add ws.nodup (hretire ▸ hplan)

/-- Workers that are let go on the cluster's own answer are planned. The plan loses just these, if
their removal is not disturbed. -/
theorem tick_scaledDown_nested (hh : h.Relays d cluster) (hd : ¬ d.feigned .closeCandidates)
    (hc : (cluster x).Coherent) (hx : (cluster x).Nested) {ws : IdSet}
    (ht : s.tick.run h x = (y, .ok (s', .ok (.scaledDown ws)))) :
    (∀ w ∈ ws, w ∈ (cluster x).plan) ∧
      (¬ d.failing .scaleDown → ¬ d.feigned .scaleDown →
        (cluster y).plan.size + ws.size = (cluster x).plan.size) := by
  obtain ⟨x₁, target, r, x₂, proposed, hp, hround, he, hdue, hws⟩ := Scaler.tick_scaledDown ht
  have hplan₁ := hh.frames.plan_prepare s x
  have hnested := hh.nested_run s.only_prepare (by simp [Method.Estimates]) hx
  have hcoherent := hh.frames.coherent_run s.prepare hc
  rw [hp] at hplan₁ hnested hcoherent
  obtain ⟨rfl, -⟩ := hh.frames.prepared hp
  have hplan₂ := hh.frames.plan_run (s.advisor.only_round target (cluster x₁).roster)
    Method.noConfusion Method.noConfusion x₁
  rw [hround] at hplan₂
  -- awaited workers are requested and offered ones connected, so either way they are planned
  have hplanned : ∀ w ∈ ws, w ∈ (cluster x).plan := by
    intro w hw
    rw [hdue] at hw
    rw [← hplan₁]
    apply hnested
    obtain hawaited | hidle := hh.candidate hd hcoherent (congrArg Prod.snd hround)
      (Debounce.mem_of_mem_due hw)
    · exact (IdSet.mem_diff.1 hawaited).1
    · exact hcoherent.requested_of_observed w hidle.mem_observed
  refine ⟨hplanned, fun hfail hfeign => ?_⟩
  rw [← hplan₁, ← hplan₂]
  refine hh.size_plan_execute_down hfail hfeign hws (fun w hw => ?_) he
  rw [hplan₂, hplan₁]
  exact hplanned w hw

end Host.Relays

namespace Cluster

variable {c : Cluster}

lemma Driven.coherent (hc : c.Driven) : c.Coherent := by
  induction hc with
  | create name memoryLimit => exact coherent_create name memoryLimit
  | operate past op hop ih => exact ih.apply op
  | tick hh past s ih => exact hh.frames.coherent_run s.tick ih

lemma Driven.nested (hc : c.Driven) : c.Nested := by
  induction hc with
  | create name memoryLimit => exact fun x hx => absurd hx IdSet.not_mem_empty
  | operate past op hop ih => exact ih.apply hop
  | tick hh past s ih => exact hh.nested_tick s ih

/-- In every `Driven` state the connected workers have been requested and the requested ones are
planned. So equal sizes mean that the plan has been requested. On such a roster each decision of a
tick is made, unless its reconciliation was feigned; and workers that are let go on the cluster's
own answer are planned, and the plan loses exactly these where their removal is not disturbed. -/
theorem Driven.size_check_sound (hc : c.Driven) :
    (∀ w ∈ c.observed, w ∈ c.requested) ∧ (∀ w ∈ c.requested, w ∈ c.plan) ∧
    (c.roster.isReconciled = true ↔ c.requested = c.plan) ∧
    ∀ (σ : Type) (h : Host σ) (d : Disturbance) (cluster : σ → Cluster) (s : Scaler) (x : σ),
      h.Relays d cluster → cluster x = c →
      (¬ d.feigned .reconcile → ∀ y target r,
        s.prepare.run h x = (y, .ok (.ok (target, r))) →
        r = (cluster y).roster ∧ r.plan = c.plan ∧ r.requested = r.plan) ∧
      (¬ d.feigned .closeCandidates → ∀ y s' ws,
        s.tick.run h x = (y, .ok (s', .ok (.scaledDown ws))) →
        (∀ w ∈ ws, w ∈ c.plan) ∧
        (¬ d.failing .scaleDown → ¬ d.feigned .scaleDown →
          (cluster y).plan.size + ws.size = c.plan.size)) := by
  refine ⟨hc.coherent.requested_of_observed, hc.nested, hc.nested.isReconciled_iff, ?_⟩
  rintro σ h d cluster s x hh rfl
  constructor
  · intro hd y target r hp
    exact hh.prepared_nested hd hc.nested hp
  · intro hd y s' ws ht
    exact hh.tick_scaledDown_nested hd hc.coherent hc.nested ht

lemma driven_partlyConnected : Scaler.partlyConnected.Driven := by
  have htwo : Driven (Operation.applyAll (create "z" 100) [.scale 2, .reconcile, .arriveAll]) :=
    .operate (.operate (.operate (.create "z" 100) (.scale 2) (by decide +kernel))
      .reconcile (by decide)) .arriveAll (by decide)
  exact .operate (.operate htwo (.scale 3) (by decide +kernel)) .reconcile (by decide)

/-- A tick that lets two of three planned workers go leaves one. -/
theorem size_check_sound_partlyConnected :
    Scaler.partlyConnected.Driven ∧
      ∃ c' s' ws, Scaler.downToOne.tick.run host Scaler.partlyConnected =
          (c', .ok (s', .ok (.scaledDown ws))) ∧
        ws = .ofList ["z-worker-0", "z-worker-2"] ∧ c'.plan.size + ws.size = 3 := by
  obtain ⟨c', s', ht⟩ : ∃ c' s', Scaler.downToOne.tick.run host Scaler.partlyConnected =
      (c', .ok (s', .ok (.scaledDown (.ofList ["z-worker-0", "z-worker-2"])))) := ⟨_, _, by rfl⟩
  obtain ⟨-, -, -, hticks⟩ := driven_partlyConnected.size_check_sound
  obtain ⟨-, hdown⟩ := hticks Cluster host .none (fun c => c) Scaler.downToOne _
    (relays_host _) rfl
  obtain ⟨-, hsize⟩ := hdown id _ _ _ ht
  exact ⟨driven_partlyConnected, c', s', _, ht, rfl, (hsize id id).trans (by decide +kernel)⟩

end Cluster

end Fleet
