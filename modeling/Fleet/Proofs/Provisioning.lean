import Fleet.Proofs.Interleaving
import Fleet.Proofs.SteadyTick

/-! The way of workers from the plan to the scheduler. From every state that a cluster can come to,
reconciling and arriving bring request and connections to what they are to be, and once done they
change nothing more. -/
namespace Fleet

namespace Cluster

variable {c : Cluster}

/-- A request that is the plan already stays as it is, and so does everything else. -/
lemma reconcile_of_requested_eq (h : c.requested = c.plan) : c.reconcile = c := by
  have hnone : c.requested.diff c.plan = ∅ := by
    refine IdSet.ext_mem fun x => ?_
    simp [h]
  have hsame : c.reconcile = { c with requested := c.reconcile.requested } := by
    unfold reconcile
    rw [hnone]
    rfl
  rw [hsame, (requested_reconcile c).trans h.symm]

lemma reconcile_reconcile (c : Cluster) : c.reconcile.reconcile = c.reconcile :=
  reconcile_of_requested_eq (requested_reconcile c)

lemma awaited_arriveAll (c : Cluster) : c.arriveAll.awaited = ∅ := by
  refine IdSet.ext_mem fun x => ?_
  simp only [awaited, IdSet.mem_diff, IdSet.not_mem_empty, iff_false, not_and, not_not]
  exact c.allConnected_arriveAll x

/-- Arriving leaves the workers that are connected already as they were. -/
lemma get?_arriveAll_of_some {x : Id} {w : Worker} (h : c.workers.get? x = some w) :
    c.arriveAll.workers.get? x = some w := by
  have hx : x ∈ c.observed := mem_observed.2 (h ▸ rfl)
  have hnot : ¬ x ∈ c.awaited := fun ha => (IdSet.mem_diff.1 ha).2 hx
  rw [get?_workers_arriveAll, if_neg hnot, h]

namespace Coherent

/-- Whoever arrives brings the launch on record, never a made-up one. -/
lemma get?_batches_of_awaited (h : c.Coherent) {x : Id} (hx : x ∈ c.awaited) :
    c.batches.get? x = some (c.newcomer x).launchBatch := by
  have hknown := Dict.mem_keys.1 (h.batch_of_known x (.inr (IdSet.mem_diff.1 hx).1))
  obtain ⟨b, hb⟩ := Option.isSome_iff_exists.1 hknown
  rw [newcomer, hb]
  rfl

lemma observed_arriveAll (h : c.Coherent) : c.arriveAll.observed = c.requested := by
  refine IdSet.ext_mem fun x => ?_
  rw [mem_observed_arriveAll]
  exact or_iff_left_of_imp (h.requested_of_observed x)

lemma size_awaited (h : c.Coherent) : c.awaited.size + c.observed.size = c.requested.size :=
  IdSet.size_diff_add h.requested_of_observed

/-- After a reconciliation nobody is connected who is not planned. -/
lemma plan_of_observed_reconcile (h : c.Coherent) : ∀ x ∈ c.reconcile.observed, x ∈ c.plan := by
  intro x hx
  obtain ⟨hobserved, hplan⟩ := mem_observed_reconcile.1 hx
  exact hplan (h.requested_of_observed x hobserved)

/-- A running cluster takes every size, and a reconciliation and an arrival carry it through. -/
lemma provisioned (h : c.Coherent) (hrun : c.status.isRunning = true) (n : Nat) :
    ∃ c', c.scale n = .ok c' ∧ c'.plan.size = n ∧ c'.reconcile.arriveAll.Steady := by
  obtain ⟨c', hc⟩ : ∃ c', c.scale n = .ok c' := by
    unfold Cluster.scale
    rw [if_pos hrun]
    exact ⟨_, rfl⟩
  exact ⟨c', hc, size_scale hc, (h.scale hc).steady_reconcile_arriveAll⟩

end Coherent

/-- In every `Reachable` state connected workers have been requested and are stored under their own
ids, and whoever is planned or requested has a launch on record, which it brings when it arrives. So
a reconciliation keeps the plan, requests just the plan and leaves only planned workers connected;
another one changes nothing. An arrival connects the requested workers that were missing, keeps the
others as they were and reports how many came; another one connects nobody. And a running cluster
that is scaled to a size, reconciled and filled up has a plan of that size, all requested and all
connected. -/
theorem Reachable.pipeline (h : c.Reachable) :
    ((∀ x ∈ c.observed, x ∈ c.requested) ∧
      (∀ x w, c.workers.get? x = some w → w.id = x) ∧
      (∀ x, x ∈ c.plan ∨ x ∈ c.requested → x ∈ c.batches.keys) ∧
      ∀ x ∈ c.awaited, c.batches.get? x = some (c.newcomer x).launchBatch) ∧
    (c.reconcile.plan = c.plan ∧ c.reconcile.requested = c.plan ∧
      (∀ x ∈ c.reconcile.observed, x ∈ c.plan) ∧ c.reconcile.reconcile = c.reconcile) ∧
    (c.observed.size ≤ c.requested.size ∧
      Operation.arriveAll.apply c =
        (c.arriveAll, .arrived (c.requested.size - c.observed.size)) ∧
      c.arriveAll.requested = c.requested ∧ c.arriveAll.observed = c.requested ∧
      (∀ x w, c.workers.get? x = some w → c.arriveAll.workers.get? x = some w) ∧
      Operation.arriveAll.apply c.arriveAll = (c.arriveAll, .arrived 0)) ∧
    (c.status.isRunning = true → ∀ n, ((Operation.scale n).apply c).2 = .done ∧
      let full := Operation.applyAll c [.scale n, .reconcile, .arriveAll]
      full.plan.size = n ∧ full.requested = full.plan ∧ full.observed = full.plan) := by
  have hc := h.coherent
  have hsize := hc.size_awaited
  refine ⟨⟨hc.requested_of_observed, hc.id_of_get?, hc.batch_of_known,
    fun x hx => hc.get?_batches_of_awaited hx⟩,
    ⟨plan_reconcile c, requested_reconcile c, hc.plan_of_observed_reconcile,
      reconcile_reconcile c⟩, ⟨by omega, ?_, rfl, hc.observed_arriveAll,
        fun x w hw => get?_arriveAll_of_some hw, ?_⟩, fun hrun n => ?_⟩
  · have harrived : c.awaited.size = c.requested.size - c.observed.size := by omega
    rw [Operation.apply, harrived]
  · rw [Operation.apply, awaited_arriveAll, arriveAll_of_allConnected c.allConnected_arriveAll]
    rfl
  · obtain ⟨c', hscale, hn, hsteady⟩ := hc.provisioned hrun n
    have hfull : Operation.applyAll c [.scale n, .reconcile, .arriveAll] =
        c'.reconcile.arriveAll := by
      simp only [Operation.applyAll, List.foldl_cons, List.foldl_nil, Operation.apply, hscale]
    rw [hfull]
    refine ⟨?_, hn, hsteady.requested_eq, hsteady.observed_eq⟩
    simp only [Operation.apply, hscale]

/-- Five workers are planned. Three are requested, one of them planned, and two are connected. -/
def underway : Cluster :=
  Operation.applyAll (create "z" 100) [.scale 3, .reconcile, .arriveAll,
    .retire (.close ["z-worker-1"]), .scale 1, .scale 5]

/-- Of the three requested workers one arrives, and the plan is filled up to six. -/
theorem pipeline_underway :
    underway.Reachable ∧ (Operation.arriveAll.apply underway).2 = .arrived 1 ∧
      (Operation.applyAll underway [.scale 6, .reconcile, .arriveAll]).observed.size = 6 := by
  have hreach : underway.Reachable := ⟨"z", 100, _, rfl⟩
  obtain ⟨-, -, ⟨-, harrive, -⟩, hfull⟩ := hreach.pipeline
  obtain ⟨-, hsize, -, hobserved⟩ := hfull rfl 6
  refine ⟨hreach, ?_, hobserved ▸ hsize⟩
  rw [harrive]
  decide +kernel

end Cluster

end Fleet
