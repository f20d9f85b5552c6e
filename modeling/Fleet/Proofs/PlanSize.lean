import Fleet.Cluster.CloseCandidates
import Fleet.Cluster.Scale
import Fleet.Proofs.SetSize
import Mathlib.Data.Finset.Range
import Std.Data.String.ToNat

/-! How many workers a cluster plans after it has been scaled, and how many a scheduler offers to
close. Scaling hits its size, and the offer stays within its limit. -/
namespace Fleet

namespace Cluster

variable {c c' : Cluster}

def nameAt (c : Cluster) (k : Nat) : Id := c.name ++ "-worker-" ++ toString k

lemma nameAt_injective (c : Cluster) : Function.Injective c.nameAt := by
  intro j k h
  exact Nat.repr_injective ((String.append_right_inj _).1 h)

lemma size_planNext (c : Cluster) (batch : Nat) :
    (c.planNext batch).plan.size = if c.nextName ∈ c.plan then c.plan.size else c.plan.size + 1 :=
  IdSet.size_insert _ _

theorem size_planUpTo_le {n : Nat} (batch tries : Nat) (hc : c.plan.size ≤ n) :
    (planUpTo batch n tries c).plan.size ≤ n := by
  induction tries generalizing c with
  | zero => exact hc
  | succ tries ih =>
    unfold planUpTo
    split
    · apply ih
      rw [size_planNext]
      split <;> omega
    · exact hc

/-- While the plan is too small, every name that was looked at is in it. -/
theorem nameAt_mem_planUpTo {batch n tries i : Nat}
    (h : (planUpTo batch n tries c).plan.size < n) (hi : i < tries) :
    c.nameAt (c.nextId + i) ∈ (planUpTo batch n tries c).plan := by
  -- on the tries; the first name is planned at once, and the others are first names of later tries
  induction tries generalizing c i with
  | zero => omega
  | succ tries ih =>
    unfold planUpTo at h ⊢
    split at h
    · rename_i hlt
      rw [if_pos hlt]
      cases i with
      | zero => exact plan_subset_planUpTo _ _ _ _ (IdSet.mem_insert.2 (.inl rfl))
      | succ i =>
        have hn : c.nameAt (c.nextId + (i + 1)) =
            (c.planNext batch).nameAt ((c.planNext batch).nextId + i) := by
          rw [Nat.add_comm i 1, ← Nat.add_assoc]
          rfl
        rw [hn]
        exact ih h (by omega)
    · omega

/-- Numbers give different names, so as many tries as workers are enough. -/
theorem size_grow {n : Nat} (hc : c.plan.size ≤ n) : (c.grow n).plan.size = n := by
  have hle : (c.grow n).plan.size ≤ n :=
    size_planUpTo_le (c := { c with nextBatch := c.nextBatch + 1 }) _ _ hc
  refine Nat.le_antisymm hle (Nat.not_lt.1 fun hlt => ?_)
  have hmem : ∀ i ∈ Finset.range n, c.nameAt (c.nextId + i) ∈ (c.grow n).plan.toFinset := by
    intro i hi
    rw [IdSet.mem_toFinset]
    exact nameAt_mem_planUpTo (c := { c with nextBatch := c.nextBatch + 1 }) hlt
      (Finset.mem_range.1 hi)
  have hcard := Finset.card_le_card_of_injOn _ hmem fun i _ j _ h => by
    have := c.nameAt_injective h
    omega
  rw [Finset.card_range, IdSet.card_toFinset] at hcard
  omega

lemma surplus_perm (c : Cluster) : c.surplus.Perm c.plan.toList := by
  have h : (c.plan.toList.reverse.filter fun id => c.workers.contains id).Perm
      (c.plan.toList.filter fun id => !(!c.workers.contains id)) := by
    simp only [Bool.not_not]
    exact (List.reverse_perm _).filter _
  exact (h.append_left _).trans (List.filter_append_perm _ _)

theorem size_shrink {n : Nat} (hn : n ≤ c.plan.size) : (c.shrink n).plan.size = n := by
  have hp := c.surplus_perm
  have hsub := List.take_sublist (c.plan.size - n) c.surplus
  have hadd := IdSet.size_eraseAll_add ((hp.nodup_iff.2 c.plan.nodup).sublist hsub)
    fun x hx => hp.mem_iff.1 (hsub.subset hx)
  have hlen : (c.surplus.take (c.plan.size - n)).length = c.plan.size - n := by
    rw [List.length_take, hp.length_eq]
    exact Nat.min_eq_left (Nat.sub_le _ _)
  rw [hlen] at hadd
  simp only [shrink]
  omega

/-- A cluster that accepts a number of workers plans for exactly so many. -/
theorem size_scale {n : Nat} (hc : c.scale n = .ok c') : c'.plan.size = n := by
  unfold scale at hc
  split at hc
  · cases hc
    split
    · exact size_grow (by omega)
    · exact size_shrink (by omega)
  · cases hc

end Cluster

namespace Group

@[simp] lemma length_ids (g : Group) : g.ids.length = g.members.length := List.length_map ..

/-- No more workers are taken than fit. -/
theorem length_takeFitting_le {limit : Nat} {taken : List Id} (groups : List Group)
    (h : taken.length ≤ limit) : (takeFitting limit taken groups).length ≤ limit := by
  induction groups generalizing taken with
  | nil => exact h
  | cons g groups ih =>
    unfold takeFitting
    split
    · exact ih h
    · apply ih
      rw [List.length_append, length_ids]
      omega

end Group

/-- The scheduler offers no more workers than it may. -/
theorem Cluster.length_closeCandidates_le {c : Cluster} {q : CloseQuery} {ids : List Id}
    (h : c.closeCandidates q = .ok ids) : ids.length ≤ c.closeLimit q.target := by
  simp only [closeCandidates] at h
  split at h
  · cases h
    exact Group.length_takeFitting_le _ (Nat.zero_le _)
  · cases h

end Fleet
