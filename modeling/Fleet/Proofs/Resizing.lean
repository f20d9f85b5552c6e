import Fleet.Proofs.Books

/-! Scaling to a size. Growing looks at one name after another until the plan is large enough, and
names of the plan that come up on the way are passed over. It needs no more names than workers are
wanted, and scaling comes to the size and leaves all else alone. -/
namespace Fleet.Cluster

variable {c c' d : Cluster} {batch n tries j k : Nat}

/-- Growing without any bound on the names: as long as the plan is too small, the next name is
planned. It comes from the first cluster to the second one after `k` names. -/
inductive Grows (batch n : Nat) : (k : Nat) → Cluster → Cluster → Prop where
  | enough {c : Cluster} (large : n ≤ c.plan.size) : Grows batch n 0 c c
  | another {k : Nat} {c c' : Cluster} (small : c.plan.size < n)
    (rest : Grows batch n k (c.planNext batch) c') : Grows batch n (k + 1) c c'

namespace Grows

lemma nextId_eq (h : Grows batch n k c c') : c'.nextId = c.nextId + k := by
  induction h with
  | enough large => rfl
  | another small rest ih => exact ih.trans (Nat.add_right_comm _ 1 _)

/-- Growing has one end only. -/
lemma unique (h : Grows batch n k c c') (h' : Grows batch n j c d) : j = k ∧ d = c' := by
  induction h generalizing j with
  | enough large =>
    cases h' with
    | enough => exact ⟨rfl, rfl⟩
    | another small => omega
  | another small rest ih =>
    cases h' with
    | enough large => omega
    | another small' rest' =>
      obtain ⟨rfl, rfl⟩ := ih rest'
      exact ⟨rfl, rfl⟩

end Grows

/-- Where a number of names is enough, growing without a bound ends with at most so many. -/
lemma grows_planUpTo (henough : n ≤ (planUpTo batch n tries c).plan.size) :
    ∃ k ≤ tries, Grows batch n k c (planUpTo batch n tries c) := by
  -- on the names that are left; a plan that is large enough looks at none of them
  induction tries generalizing c with
  | zero => exact ⟨0, Nat.le_refl 0, .enough henough⟩
  | succ tries ih =>
    unfold planUpTo at henough ⊢
    split
    · rename_i small
      rw [if_pos small] at henough
      obtain ⟨k, hk, hgrows⟩ := ih henough
      exact ⟨k + 1, Nat.succ_le_succ hk, .another small hgrows⟩
    · rename_i large
      exact ⟨0, Nat.zero_le _, .enough (Nat.not_lt.1 large)⟩

/-- The growing loop ends, as numbers give different names and only so many can be taken. -/
theorem grows_iff (hn : c.plan.size ≤ n) :
    ∃ k ≤ n, (c.grow n).nextId = c.nextId + k ∧ ∀ j d,
      Grows c.nextBatch n j { c with nextBatch := c.nextBatch + 1 } d ↔ j = k ∧ d = c.grow n := by
  have hsize := (size_grow hn).ge
  obtain ⟨k, hk, hgrows⟩ : ∃ k ≤ n,
      Grows c.nextBatch n k { c with nextBatch := c.nextBatch + 1 } (c.grow n) :=
    grows_planUpTo hsize
  refine ⟨k, hk, hgrows.nextId_eq, fun j d => ⟨fun h => hgrows.unique h, ?_⟩⟩
  rintro ⟨rfl, rfl⟩
  exact hgrows

lemma plan_subset_grow {x : Id} (hx : x ∈ c.plan) : x ∈ (c.grow n).plan :=
  plan_subset_planUpTo _ _ _ _ hx

/-- A plan of the size that is asked for stays as it is, and so does everything else. -/
lemma shrink_of_size_eq (hsize : c.plan.size = n) : c.shrink n = c := by
  rw [shrink, hsize, Nat.sub_self, List.take_zero]
  rfl

lemma scale_of_size_eq (hrun : c.status.isRunning = true) (hsize : c.plan.size = n) :
    c.scale n = .ok c := by
  rw [scale, if_pos hrun, if_neg (by omega), shrink_of_size_eq hsize]

lemma scale_of_le (hrun : c.status.isRunning = true) (hle : n ≤ c.plan.size) :
    c.scale n = .ok (c.shrink n) := by
  rw [scale, if_pos hrun, if_neg (Nat.not_lt.2 hle)]

lemma scale_of_not_running (hrun : c.status.isRunning = false) :
    c.scale n = .error .notRunning := by
  simp [scale, hrun]

/-- What scaling does not touch. -/
structure SameApart (c c' : Cluster) : Prop where
  requested_eq : c'.requested = c.requested
  workers_eq : c'.workers = c.workers
  tasks_eq : c'.tasks = c.tasks
  retired_eq : c'.retired = c.retired
  status_eq : c'.status = c.status

lemma sameApart_grow (c : Cluster) (n : Nat) : c.SameApart (c.grow n) := by
  obtain ⟨k, b, p, he⟩ := c.grow_frame n
  rw [he]
  exact ⟨rfl, rfl, rfl, rfl, rfl⟩

lemma sameApart_shrink (c : Cluster) (n : Nat) : c.SameApart (c.shrink n) :=
  ⟨rfl, rfl, rfl, rfl, rfl⟩

/-- A cluster that runs can be scaled to every size. It plans for exactly so many workers then:
those it had and others, or some of those it had. Apart from that it is the `SameApart`, and scaling
again changes nothing. Where it has to grow, looking at one name after another (`Grows`) ends, in
one way only and after no more names than workers are wanted. A cluster that does not run refuses
and stays as it is. -/
theorem scale_exact (c : Cluster) (n : Nat) :
    (c.status.isRunning = true → ∃ c', c.scale n = .ok c' ∧ c'.plan.size = n ∧
      (c.plan.size ≤ n → ∀ x ∈ c.plan, x ∈ c'.plan) ∧
      (n ≤ c.plan.size → ∀ x ∈ c'.plan, x ∈ c.plan) ∧
      c.SameApart c' ∧ c'.scale n = .ok c' ∧
      (c.plan.size < n → ∃ k ≤ n, c'.nextId = c.nextId + k ∧ ∀ j d,
        Grows c.nextBatch n j { c with nextBatch := c.nextBatch + 1 } d ↔ j = k ∧ d = c')) ∧
    (c.status.isRunning = false →
      (Operation.scale n).apply c = (c, .refused .notRunning)) := by
  constructor
  · intro hrun
    obtain hlt | heq | hgt := Nat.lt_trichotomy c.plan.size n
    · have hsame := c.sameApart_grow n
      have hsize := size_grow (Nat.le_of_lt hlt)
      refine ⟨_, scale_eq_grow hrun hlt, hsize, fun _ x hx => plan_subset_grow hx, fun hle => ?_,
        hsame, scale_of_size_eq ?_ hsize, fun _ => grows_iff (Nat.le_of_lt hlt)⟩
      · omega
      · rw [hsame.status_eq, hrun]
    · exact ⟨c, scale_of_size_eq hrun heq, heq, fun _ x hx => hx, fun _ x hx => hx,
        ⟨rfl, rfl, rfl, rfl, rfl⟩, scale_of_size_eq hrun heq, fun hlt => by omega⟩
    · have hsize := size_shrink (Nat.le_of_lt hgt)
      exact ⟨_, scale_of_le hrun (Nat.le_of_lt hgt), hsize, fun hle => by omega,
        fun _ x hx => mem_plan_shrink hx, c.sameApart_shrink n, scale_of_size_eq hrun hsize,
        fun hlt => by omega⟩
  · intro hrun
    rw [Operation.apply, scale_of_not_running hrun]

/-- Two workers that were added have names that growing gives. -/
def forestalled : Cluster :=
  Operation.applyAll (create "z" 100)
    [.addWorker (.idle "z-worker-0" 0 100), .addWorker (.idle "z-worker-2" 0 100)]

/-- Two more workers take four names, as the first and the third one are in use. -/
theorem scale_exact_forestalled :
    ∃ c', forestalled.scale 4 = .ok c' ∧ c'.plan.size = 4 ∧ c'.nextId = 4 ∧
      Grows 0 4 4 { forestalled with nextBatch := 1 } c' := by
  obtain ⟨c', hscale, hsize, -, -, -, -, hgrows⟩ := (scale_exact forestalled 4).1 rfl
  obtain ⟨k, -, hnext, hall⟩ := hgrows (by decide +kernel)
  have hk : c'.nextId = 4 := by
    cases hscale
    decide +kernel
  obtain rfl : k = 4 := by
    rw [hk] at hnext
    exact (Nat.zero_add k ▸ hnext).symm
  exact ⟨c', hscale, hsize, hk, (hall 4 c').2 ⟨rfl, rfl⟩⟩

end Fleet.Cluster
