import Fleet.Proofs.Naming

/-! The books of a cluster: its plan, its request and the launches on record. Growing enters just
the names that it makes up, all under one launch, and `Operation.Books` tells what each operation
may change. -/
namespace Fleet

namespace Cluster

variable {c c' : Cluster} {batch n tries : Nat} {x w : Id}

/-- The name has been given on the way from `c` to `c'`. -/
def Named (c c' : Cluster) (w : Id) : Prop := ∃ k, c.nextId ≤ k ∧ k < c'.nextId ∧ w = c.nameAt k

lemma not_named_self (c : Cluster) (w : Id) : ¬ c.Named c w :=
  fun ⟨_, hk, hlt, _⟩ => absurd hlt (Nat.not_lt.2 hk)

lemma Named.unused (h : c.Named c' w) : c.Unused w := by
  obtain ⟨k, hk, -, rfl⟩ := h
  exact ⟨k, hk, rfl⟩

lemma Unused.of_le (hx : c'.Unused x) (hname : c'.name = c.name) (hle : c.nextId ≤ c'.nextId) :
    c.Unused x := by
  obtain ⟨k, hk, rfl⟩ := hx
  exact ⟨k, hle.trans hk, by rw [nameAt, nameAt, hname]⟩

/-- Every name is entered under the launch or left as it is in plan and records. -/
theorem planUpTo_entries (batch n tries : Nat) (c : Cluster) (x : Id) :
    (c.Named (planUpTo batch n tries c) x ∧ x ∈ (planUpTo batch n tries c).plan ∧
      (planUpTo batch n tries c).batches.get? x = some batch) ∨
    (¬ c.Named (planUpTo batch n tries c) x ∧
      (x ∈ (planUpTo batch n tries c).plan ↔ x ∈ c.plan) ∧
      (planUpTo batch n tries c).batches.get? x = c.batches.get? x) := by
  -- on the tries; the first one gives the next number, and the others give those after it
  induction tries generalizing c with
  | zero => exact .inr ⟨c.not_named_self x, Iff.rfl, rfl⟩
  | succ tries ih =>
    unfold planUpTo
    split
    · have hnext := nextId_le_planUpTo batch n tries (c.planNext batch)
      obtain ⟨⟨k, hk, hlast, rfl⟩, hplan, hbatch⟩ | ⟨hrest, hplan, hbatch⟩ :=
        ih (c.planNext batch)
      · exact .inl ⟨⟨k, Nat.le_of_succ_le hk, hlast, rfl⟩, hplan, hbatch⟩
      · by_cases hx : x = c.nextName
        · refine .inl ⟨⟨c.nextId, Nat.le_refl _, Nat.lt_of_succ_le hnext, hx⟩, ?_, ?_⟩
          · exact hplan.2 (IdSet.mem_insert.2 (.inl hx))
          · rw [hbatch, planNext, Dict.get?_insert, if_pos hx]
        · refine .inr ⟨?_, ?_, ?_⟩
          · rintro ⟨k, hk, hlast, rfl⟩
            obtain rfl | hlt := Nat.eq_or_lt_of_le hk
            · exact hx rfl
            · exact hrest ⟨k, hlt, hlast, rfl⟩
          · rw [hplan, planNext, IdSet.mem_insert]
            exact or_iff_right hx
          · rw [hbatch, planNext, Dict.get?_insert, if_neg hx]
    · exact .inr ⟨c.not_named_self x, Iff.rfl, rfl⟩

/-- Growing plans exactly the names that it gives, all under the next launch. -/
theorem grow_entries (c : Cluster) (n : Nat) (x : Id) :
    (c.Named (c.grow n) x ∧ x ∈ (c.grow n).plan ∧
      (c.grow n).batches.get? x = some c.nextBatch) ∨
    (¬ c.Named (c.grow n) x ∧ (x ∈ (c.grow n).plan ↔ x ∈ c.plan) ∧
      (c.grow n).batches.get? x = c.batches.get? x) :=
  planUpTo_entries c.nextBatch n n { c with nextBatch := c.nextBatch + 1 } x

lemma nextId_le_grow (c : Cluster) (n : Nat) : c.nextId ≤ (c.grow n).nextId :=
  nextId_le_planUpTo c.nextBatch n n { c with nextBatch := c.nextBatch + 1 }

@[simp] lemma requested_grow (c : Cluster) (n : Nat) : (c.grow n).requested = c.requested :=
  planUpTo_requested _ _ _ _

@[simp] lemma workers_grow (c : Cluster) (n : Nat) : (c.grow n).workers = c.workers :=
  planUpTo_workers _ _ _ _

@[simp] lemma nextBatch_grow (c : Cluster) (n : Nat) : (c.grow n).nextBatch = c.nextBatch + 1 := by
  obtain ⟨k, b, p, he⟩ := c.grow_frame n
  rw [he]

lemma mem_plan_shrink (h : x ∈ (c.shrink n).plan) : x ∈ c.plan := (IdSet.mem_eraseAll.1 h).1

/-- Draining connects nobody and leaves those that stay as they were. -/
lemma get?_of_get?_retire {r : Retirement} {w : Worker}
    (h : (c.retire r).workers.get? x = some w) : c.workers.get? x = some w := by
  unfold retire at h
  split at h
  · generalize r.names = ids at h
    induction ids generalizing c with
    | nil => exact h
    | cons id ids ih =>
      have hone : (c.retireOne id).workers.get? x = some w := ih h
      unfold retireOne at hone
      split at hone
      · rw [Dict.get?_erase] at hone
        split at hone
        · cases hone
        · exact hone
      · exact hone
  · exact h

lemma observed_of_retire {r : Retirement} (h : w ∈ (c.retire r).observed) : w ∈ c.observed := by
  obtain ⟨v, hv⟩ := Option.isSome_iff_exists.1 (mem_observed.1 h)
  exact mem_observed.2 (get?_of_get?_retire hv ▸ rfl)

/-- Both have the same books, and go on with the same numbers. -/
structure SameBooks (c c' : Cluster) : Prop where
  name_eq : c'.name = c.name
  plan_eq : c'.plan = c.plan
  requested_eq : c'.requested = c.requested
  batches_eq : c'.batches = c.batches
  nextId_eq : c'.nextId = c.nextId
  nextBatch_eq : c'.nextBatch = c.nextBatch

end Cluster

namespace Operation

lemma applyAll_append (c : Cluster) (ops ops' : List Operation) :
    applyAll c (ops ++ ops') = applyAll (applyAll c ops) ops' := List.foldl_append

/-- The operation adds no worker. -/
def AddsNobody : Operation → Prop
  | addWorker _ => False
  | _ => True

/-- The operation removes no workers by name. -/
def RemovesNobody : Operation → Prop
  | scaleDown _ => False
  | _ => True

/-- The operation is a scaling that makes the plan of a running cluster grow. -/
def grows (c : Cluster) : Operation → Bool
  | scale n => c.status.isRunning && decide (c.plan.size < n)
  | _ => false

/-- What an operation may do to the books. Four kinds of operations change them. -/
inductive Books (c : Cluster) : Operation → Cluster → Prop where
  | kept {op : Operation} {c' : Cluster} (hadd : op.AddsNobody) (hremove : op.RemovesNobody)
    (hgrow : op.grows c = false) (same : c.SameBooks c')
    (hobserved : ∀ w ∈ c'.observed, w ∈ c.observed ∨ w ∈ c.requested) : Books c op c'
  | added (w : Worker) : Books c (.addWorker w) (c.addWorker w)
  | grown (n : Nat) (hgrow : (scale n).grows c = true) : Books c (.scale n) (c.grow n)
  | shrunk (n : Nat) (hgrow : (scale n).grows c = false) : Books c (.scale n) (c.shrink n)
  | removed (ids : List Id) : Books c (.scaleDown ids) (c.scaleDown ids)
  | reconciled : Books c .reconcile c.reconcile

variable {c c' : Cluster} {op : Operation}

lemma addsNobody_or (op : Operation) : op.AddsNobody ∨ ∃ w, op = .addWorker w := by
  cases op with
  | addWorker w => exact .inr ⟨w, rfl⟩
  | _ => exact .inl trivial

lemma books_setLoad (c : Cluster) (id : Id) (memoryUsed processing : Nat) :
    (setLoad id memoryUsed processing).Books c ((setLoad id memoryUsed processing).apply c).1 := by
  unfold apply Cluster.setLoad
  by_cases hc : c.workers.contains id = true
  · simp only [hc, if_true]
    refine .kept trivial trivial rfl ⟨rfl, rfl, rfl, rfl, rfl, rfl⟩ fun w hw => ?_
    exact .inl (by simpa [Cluster.observed] using hw)
  · simp only [hc]
    exact .kept trivial trivial rfl ⟨rfl, rfl, rfl, rfl, rfl, rfl⟩ fun _ => .inl

lemma books_scale (c : Cluster) (n : Nat) : (scale n).Books c ((scale n).apply c).1 := by
  unfold apply Cluster.scale
  by_cases hrun : c.status.isRunning = true
  · by_cases hn : c.plan.size < n
    · simp only [hrun, hn, if_true]
      exact .grown n (by simp [grows, hrun, hn])
    · simp only [hrun, hn, if_true, if_false]
      exact .shrunk n (by simp [grows, hn])
  · simp only [hrun]
    refine .kept trivial trivial ?_ ⟨rfl, rfl, rfl, rfl, rfl, rfl⟩ fun w => .inl
    simp [grows, hrun]

lemma books_retire (c : Cluster) (r : Retirement) : (retire r).Books c (c.retire r) := by
  obtain ⟨ws, gone, he⟩ := c.retire_frame r
  refine .kept trivial trivial rfl ?_ fun w hw => .inl (Cluster.observed_of_retire hw)
  rw [he]
  exact ⟨rfl, rfl, rfl, rfl, rfl, rfl⟩

theorem books (op : Operation) (c : Cluster) : op.Books c (op.apply c).1 := by
  cases op with
  | addWorker w => exact .added w
  | setTasks tasks =>
    exact .kept trivial trivial rfl ⟨rfl, rfl, rfl, rfl, rfl, rfl⟩ fun _ => .inl
  | setLoad id memoryUsed processing => exact books_setLoad c id memoryUsed processing
  | arriveAll =>
    refine .kept trivial trivial rfl ⟨rfl, rfl, rfl, rfl, rfl, rfl⟩ fun w hw => ?_
    exact (Cluster.mem_observed_arriveAll.1 hw).symm
  | setStatus status =>
    exact .kept trivial trivial rfl ⟨rfl, rfl, rfl, rfl, rfl, rfl⟩ fun _ => .inl
  | scale n => exact books_scale c n
  | scaleDown ids => exact .removed ids
  | reconcile => exact .reconciled
  | retire r => exact books_retire c r

end Operation

end Fleet
