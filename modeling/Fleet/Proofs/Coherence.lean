import Fleet.Cluster.Operation
import Mathlib.Tactic.Lemma
import Mathlib.Tactic.Tauto

/-! The representation invariant of a cluster. Every state that a new cluster can come to is
`Coherent`. -/
namespace Fleet

namespace Dict

variable {β : Type}

@[simp] lemma mem_keys_erase {d : Dict β} {k x : Id} :
    x ∈ (d.erase k).keys ↔ x ∈ d.keys ∧ x ≠ k := by
  rw [mem_keys, mem_keys, get?_erase]
  by_cases h : x = k <;> simp [h]

@[simp] lemma mem_keys_eraseAll {d : Dict β} {ks : List Id} {x : Id} :
    x ∈ (d.eraseAll ks).keys ↔ x ∈ d.keys ∧ x ∉ ks := by
  rw [mem_keys, mem_keys, get?_eraseAll]
  by_cases h : x ∈ ks <;> simp [h]

lemma erase_eq_self {d : Dict β} {k : Id} (h : ¬ k ∈ d.keys) : d.erase k = d := by
  refine ext_get? fun x => ?_
  rw [get?_erase]
  split
  · rename_i hx
    rw [← hx, mem_keys, Bool.not_eq_true, Option.isSome_eq_false_iff, Option.isNone_iff_eq_none] at h
    exact h.symm
  · rfl

end Dict

namespace Cluster

variable {c : Cluster}

/-- Connected workers have been requested, each is stored under its own id, and every worker that
is planned or requested has a recorded launch. -/
structure Coherent (c : Cluster) : Prop where
  requested_of_observed : ∀ x ∈ c.observed, x ∈ c.requested
  id_of_get? : ∀ x w, c.workers.get? x = some w → w.id = x
  batch_of_known : ∀ x, x ∈ c.plan ∨ x ∈ c.requested → x ∈ c.batches.keys

lemma coherent_create (name : String) (memoryLimit : Nat) :
    (create name memoryLimit).Coherent := by
  constructor
  · intro x hx
    exact absurd hx IdSet.not_mem_empty
  · intro x w hw
    cases hw
  · rintro x (hx | hx)
    · exact absurd hx IdSet.not_mem_empty
    · exact absurd hx IdSet.not_mem_empty

namespace Coherent

theorem addWorker (h : c.Coherent) (w : Worker) : (c.addWorker w).Coherent := by
  constructor
  · intro x hx
    have hx' : x = w.id ∨ x ∈ c.observed := by
      simpa [Cluster.addWorker, observed] using hx
    rcases hx' with rfl | hx'
    · exact IdSet.mem_insert.2 (.inl rfl)
    · exact IdSet.mem_insert.2 (.inr (h.requested_of_observed x hx'))
  · intro x v hv
    simp only [Cluster.addWorker, Dict.get?_insert] at hv
    split at hv
    · rename_i he
      cases hv
      exact he.symm
    · exact h.id_of_get? x v hv
  · intro x hx
    have hb := h.batch_of_known x
    simp only [Cluster.addWorker, IdSet.mem_insert, Dict.keys_insert] at hx ⊢
    tauto

theorem setLoad (h : c.Coherent) {id : Id} {memoryUsed processing : Nat} {c' : Cluster}
    (hc : c.setLoad id memoryUsed processing = .ok c') : c'.Coherent := by
  unfold Cluster.setLoad at hc
  split at hc
  · cases hc
    constructor
    · intro x hx
      exact h.requested_of_observed x (by simpa [observed] using hx)
    · intro x w hw
      simp only [Dict.get?_modify] at hw
      split at hw
      · obtain ⟨v, hv, rfl⟩ := Option.map_eq_some_iff.1 hw
        exact h.id_of_get? x v hv
      · exact h.id_of_get? x w hw
    · exact h.batch_of_known
  · cases hc

theorem arriveAll (h : c.Coherent) : c.arriveAll.Coherent := by
  constructor
  · intro x hx
    rcases mem_observed_arriveAll.1 hx with hr | ho
    · exact hr
    · exact h.requested_of_observed x ho
  · intro x w hw
    rw [get?_workers_arriveAll] at hw
    split at hw
    · cases hw
      rfl
    · exact h.id_of_get? x w hw
  · exact h.batch_of_known

theorem scaleDown (h : c.Coherent) (ids : List Id) : (c.scaleDown ids).Coherent := by
  constructor
  · intro x hx
    obtain ⟨ho, hn⟩ := mem_observed_scaleDown.1 hx
    exact IdSet.mem_eraseAll.2 ⟨h.requested_of_observed x ho, hn⟩
  · intro x w hw
    simp only [Cluster.scaleDown, Dict.get?_eraseAll] at hw
    split at hw
    · cases hw
    · exact h.id_of_get? x w hw
  · intro x hx
    simp only [Cluster.scaleDown, IdSet.mem_eraseAll, Dict.mem_keys_eraseAll] at hx ⊢
    rcases hx with ⟨hp, hn⟩ | ⟨hr, hn⟩
    · exact ⟨h.batch_of_known x (.inl hp), hn⟩
    · exact ⟨h.batch_of_known x (.inr hr), hn⟩

/-- Only workers that are not planned lose their record. -/
theorem reconcile (h : c.Coherent) : c.reconcile.Coherent := by
  constructor
  · intro x hx
    obtain ⟨ho, hp⟩ := mem_observed_reconcile.1 hx
    rw [requested_reconcile]
    exact hp (h.requested_of_observed x ho)
  · intro x w hw
    simp only [Cluster.reconcile, Dict.get?_eraseAll] at hw
    split at hw
    · cases hw
    · exact h.id_of_get? x w hw
  · intro x hx
    rw [requested_reconcile, plan_reconcile, or_self] at hx
    refine Dict.mem_keys_eraseAll.2 ⟨h.batch_of_known x (.inl hx), ?_⟩
    intro hd
    exact (IdSet.mem_diff.1 (IdSet.mem_def.2 hd)).2 hx

theorem retireOne (h : c.Coherent) (id : Id) : (c.retireOne id).Coherent := by
  unfold Cluster.retireOne
  split
  · constructor
    · intro x hx
      exact h.requested_of_observed x (Dict.mem_keys_erase.1 hx).1
    · intro x w hw
      simp only [Dict.get?_erase] at hw
      split at hw
      · cases hw
      · exact h.id_of_get? x w hw
    · exact h.batch_of_known
  · exact h

theorem retire (h : c.Coherent) (r : Retirement) : (c.retire r).Coherent := by
  unfold Cluster.retire
  split
  · induction r.names generalizing c with
    | nil => exact h
    | cons id ids ih => exact ih (h.retireOne id)
  · exact h

theorem planNext (h : c.Coherent) (batch : Nat) : (c.planNext batch).Coherent := by
  constructor
  · exact h.requested_of_observed
  · exact h.id_of_get?
  · intro x hx
    have hb := h.batch_of_known x
    simp only [Cluster.planNext, IdSet.mem_insert, Dict.keys_insert] at hx ⊢
    tauto

theorem planUpTo (h : c.Coherent) (batch n tries : Nat) :
    (planUpTo batch n tries c).Coherent := by
  induction tries generalizing c with
  | zero => exact h
  | succ tries ih =>
    unfold Cluster.planUpTo
    split
    · exact ih (h.planNext batch)
    · exact h

theorem scale (h : c.Coherent) {n : Nat} {c' : Cluster} (hc : c.scale n = .ok c') :
    c'.Coherent := by
  unfold Cluster.scale at hc
  split at hc
  · cases hc
    split
    · exact planUpTo (c := { c with nextBatch := c.nextBatch + 1 }) ⟨h.1, h.2, h.3⟩ _ _ _
    · refine ⟨h.requested_of_observed, h.id_of_get?, fun x hx => h.batch_of_known x ?_⟩
      exact hx.imp_left fun hp => (IdSet.mem_eraseAll.1 hp).1
  · cases hc

theorem apply (h : c.Coherent) (op : Operation) : (op.apply c).1.Coherent := by
  cases op with
  | addWorker w => exact h.addWorker w
  | setTasks tasks => exact ⟨h.1, h.2, h.3⟩
  | setLoad id memoryUsed processing =>
    simp only [Operation.apply]
    split
    · rename_i c' hc
      exact h.setLoad hc
    · exact h
  | arriveAll => exact h.arriveAll
  | setStatus status => exact ⟨h.1, h.2, h.3⟩
  | scale n =>
    simp only [Operation.apply]
    split
    · rename_i c' hc
      exact h.scale hc
    · exact h
  | scaleDown ids => exact h.scaleDown ids
  | reconcile => exact h.reconcile
  | retire r => exact h.retire r

theorem applyAll (h : c.Coherent) (ops : List Operation) :
    (Operation.applyAll c ops).Coherent := by
  induction ops generalizing c with
  | nil => exact h
  | cons op ops ih => exact ih (h.apply op)

end Coherent

/-- A cluster is coherent in every state it can come to. -/
theorem Reachable.coherent (h : c.Reachable) : c.Coherent := by
  obtain ⟨name, memoryLimit, ops, rfl⟩ := h
  exact (coherent_create name memoryLimit).applyAll ops

end Cluster

end Fleet
