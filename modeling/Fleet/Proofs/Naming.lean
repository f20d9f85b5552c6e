import Fleet.Proofs.Coherence
import Fleet.Proofs.PlanSize
import Fleet.Proofs.SteadyTick
import Fleet.Scenario.Basic

/-! Names of workers. Growing gives names by number, and the workers of the start of a scenario have
names of another kind, so a name that is given was not in use, and none is given twice. -/
namespace Fleet

namespace Cluster

variable {c : Cluster} {batch n tries : Nat} {w : Id}

/-- The name has a number that has not come up. -/
def Unused (c : Cluster) (w : Id) : Prop := ∃ k, c.nextId ≤ k ∧ w = c.nameAt k

/-- No planned worker has a name that is still to be given. -/
def Fresh (c : Cluster) : Prop := ∀ w, c.Unused w → ¬ w ∈ c.plan

lemma planUpTo_frame (batch n tries : Nat) (c : Cluster) :
    ∃ k b p, planUpTo batch n tries c = { c with nextId := k, batches := b, plan := p } := by
  induction tries generalizing c with
  | zero => exact ⟨_, _, _, rfl⟩
  | succ tries ih =>
    unfold planUpTo
    split
    · obtain ⟨k, b, p, he⟩ := ih (c.planNext batch)
      exact ⟨k, b, p, he⟩
    · exact ⟨_, _, _, rfl⟩

/-- Growing changes the plan, the launches and the next numbers only. -/
lemma grow_frame (c : Cluster) (n : Nat) :
    ∃ k b p, c.grow n =
      { c with nextId := k, batches := b, plan := p, nextBatch := c.nextBatch + 1 } := by
  obtain ⟨k, b, p, he⟩ := planUpTo_frame c.nextBatch n n { c with nextBatch := c.nextBatch + 1 }
  exact ⟨k, b, p, he⟩

@[simp] lemma name_grow (c : Cluster) (n : Nat) : (c.grow n).name = c.name := by
  obtain ⟨k, b, p, he⟩ := c.grow_frame n
  rw [he]

lemma nextId_le_planUpTo (batch n tries : Nat) (c : Cluster) :
    c.nextId ≤ (planUpTo batch n tries c).nextId := by
  induction tries generalizing c with
  | zero => exact Nat.le_refl _
  | succ tries ih =>
    unfold planUpTo
    split
    · exact (Nat.le_succ _).trans (ih (c.planNext batch))
    · exact Nat.le_refl _

theorem mem_plan_planUpTo (hw : w ∈ (planUpTo batch n tries c).plan) :
    w ∈ c.plan ∨
      ∃ k, c.nextId ≤ k ∧ k < (planUpTo batch n tries c).nextId ∧ w = c.nameAt k := by
  -- on the tries; the first one uses up the next number, and the others use those after it
  induction tries generalizing c with
  | zero => exact .inl hw
  | succ tries ih =>
    unfold planUpTo at hw ⊢
    split at hw
    · rename_i hlt
      rw [if_pos hlt]
      rcases ih hw with hw | ⟨k, hk, hlast, rfl⟩
      · rcases IdSet.mem_insert.1 hw with rfl | hw
        · have hnext := nextId_le_planUpTo batch n tries (c.planNext batch)
          exact .inr ⟨c.nextId, Nat.le_refl _, Nat.lt_of_succ_le hnext, rfl⟩
        · exact .inl hw
      · exact .inr ⟨k, Nat.le_of_succ_le hk, hlast, rfl⟩
    · exact .inl hw

/-- Who is planned by growing was planned before or has a name between the next number before and
the next number after. -/
theorem mem_plan_grow (hw : w ∈ (c.grow n).plan) :
    w ∈ c.plan ∨ ∃ k, c.nextId ≤ k ∧ k < (c.grow n).nextId ∧ w = c.nameAt k :=
  mem_plan_planUpTo (c := { c with nextBatch := c.nextBatch + 1 }) hw

lemma Unused.of_grow (hw : (c.grow n).Unused w) : c.Unused w := by
  obtain ⟨k, hk, rfl⟩ := hw
  have hnext := nextId_le_planUpTo c.nextBatch n n { c with nextBatch := c.nextBatch + 1 }
  refine ⟨k, hnext.trans hk, ?_⟩
  rw [nameAt, nameAt, name_grow]

theorem Fresh.grow (h : c.Fresh) (n : Nat) : (c.grow n).Fresh := by
  intro w hw hmem
  rcases mem_plan_grow hmem with hold | ⟨k, -, hlast, rfl⟩
  · exact h w hw.of_grow hold
  · obtain ⟨j, hj, hname⟩ := hw
    have hsame : (c.grow n).nameAt j = c.nameAt j := by
      rw [nameAt, nameAt, name_grow]
    have hkj := c.nameAt_injective (hname.trans hsame)
    omega

end Cluster

namespace Scenario

/-- The cluster with the first so many workers of the start. -/
def seeded (s : Scenario) (m : Nat) : Cluster :=
  (List.range m).foldl (fun c i => c.addWorker (s.seed i)) (Cluster.create s.name s.memoryLimit)

lemma seeded_succ (s : Scenario) (m : Nat) :
    s.seeded (m + 1) = (s.seeded m).addWorker (s.seed m) := by
  unfold seeded
  rw [List.range_succ, List.foldl_append]
  rfl

lemma seeded_frame (s : Scenario) (m : Nat) :
    ∃ p r b ws, s.seeded m =
      { Cluster.create s.name s.memoryLimit with
        plan := p, requested := r, batches := b, workers := ws } := by
  induction m with
  | zero => exact ⟨_, _, _, _, rfl⟩
  | succ m ih =>
    obtain ⟨p, r, b, ws, he⟩ := ih
    rw [seeded_succ, he]
    exact ⟨_, _, _, _, rfl⟩

lemma mem_plan_seeded {s : Scenario} {m : Nat} {w : Id} (hw : w ∈ (s.seeded m).plan) :
    ∃ i < m, w = (s.seed i).id := by
  induction m with
  | zero => exact absurd hw IdSet.not_mem_empty
  | succ m ih =>
    rw [seeded_succ] at hw
    rcases IdSet.mem_insert.1 hw with rfl | hw
    · exact ⟨m, Nat.lt_succ_self m, rfl⟩
    · obtain ⟨i, hi, rfl⟩ := ih hw
      exact ⟨i, Nat.lt_succ_of_lt hi, rfl⟩

lemma seed_id_injective {s : Scenario} {i j : Nat} (h : (s.seed i).id = (s.seed j).id) : i = j :=
  Nat.repr_injective ((String.append_right_inj _).1 h)

theorem size_plan_seeded (s : Scenario) (m : Nat) : (s.seeded m).plan.size = m := by
  induction m with
  | zero => rfl
  | succ m ih =>
    have hnew : ¬ (s.seed m).id ∈ (s.seeded m).plan := by
      intro hm
      obtain ⟨i, hi, he⟩ := mem_plan_seeded hm
      exact absurd (seed_id_injective he) (by omega)
    rw [seeded_succ, Cluster.addWorker, IdSet.size_insert, if_neg hnew, ih]

lemma coherent_seeded (s : Scenario) (m : Nat) : (s.seeded m).Coherent := by
  induction m with
  | zero => exact Cluster.coherent_create s.name s.memoryLimit
  | succ m ih =>
    rw [seeded_succ]
    exact ih.addWorker (s.seed m)

lemma steady_seeded (s : Scenario) (m : Nat) : (s.seeded m).Steady := by
  induction m with
  | zero => exact ⟨rfl, rfl⟩
  | succ m ih =>
    have hobserved : (s.seeded m).workers.keys = (s.seeded m).plan := ih.observed_eq
    rw [seeded_succ]
    constructor
    · simp only [Cluster.addWorker, ih.requested_eq]
    · simp only [Cluster.addWorker, Cluster.observed, Dict.keys_insert, hobserved]

lemma exists_seed_of_get? {s : Scenario} {m : Nat} {x : Id} {w : Worker}
    (hw : (s.seeded m).workers.get? x = some w) : ∃ i < m, w = s.seed i := by
  induction m with
  | zero => cases hw
  | succ m ih =>
    rw [seeded_succ, Cluster.addWorker, Dict.get?_insert] at hw
    split at hw
    · cases hw
      exact ⟨m, Nat.lt_succ_self m, rfl⟩
    · obtain ⟨i, hi, rfl⟩ := ih hw
      exact ⟨i, Nat.lt_succ_of_lt hi, rfl⟩

/-- The workers of the start are on record under the very first launch. -/
lemma batch_seeded (s : Scenario) (m : Nat) (x : Id) :
    ((s.seeded m).batches.get? x).getD 0 = 0 := by
  induction m with
  | zero => rfl
  | succ m ih =>
    rw [seeded_succ, Cluster.addWorker, Dict.get?_insert]
    split
    · rfl
    · exact ih

lemma nextBatch_seeded (s : Scenario) (m : Nat) : (s.seeded m).nextBatch = 0 := by
  obtain ⟨p, r, b, ws, he⟩ := s.seeded_frame m
  rw [he]
  rfl

/-- The workers of the start have names that growing never gives. -/
theorem fresh_seeded (s : Scenario) (m : Nat) : (s.seeded m).Fresh := by
  rintro w ⟨k, -, rfl⟩ hw
  obtain ⟨i, -, he⟩ := mem_plan_seeded hw
  obtain ⟨p, r, b, ws, hframe⟩ := s.seeded_frame m
  rw [hframe] at he
  have hkind : s.name ++ "-worker-" ++ toString k = s.name ++ "-seed-" ++ toString i := he
  rw [String.append_assoc, String.append_assoc, String.append_right_inj] at hkind
  have hlist := congrArg String.toList hkind
  simp [String.toList_append] at hlist

end Scenario

end Fleet
