import Fleet.Proofs.StaleRecords

/-! Records that nobody needs are never read: a cluster from which they have been dropped answers
everything as before. -/
namespace Fleet

namespace Cluster

variable {c c' : Cluster}

instance (c : Cluster) : DecidablePred c.Wants := fun x =>
  inferInstanceAs (Decidable (x ∈ c.plan ∨ x ∈ c.requested))

/-- The cluster with other launches on record. -/
def withRecords (c : Cluster) (b : Dict Nat) : Cluster := { c with batches := b }

@[simp] lemma awaited_withRecords (c : Cluster) (b : Dict Nat) :
    (c.withRecords b).awaited = c.awaited := rfl

@[simp] lemma workers_withRecords (c : Cluster) (b : Dict Nat) :
    (c.withRecords b).workers = c.workers := rfl

/-- The clusters differ at most in the records of workers that are neither planned nor requested. -/
inductive Alike (c : Cluster) : Cluster → Prop where
  | intro (b : Dict Nat) (hb : ∀ x, c.Wants x → b.get? x = c.batches.get? x) :
    Alike c (c.withRecords b)

/-- The cluster without the records of workers that are neither planned nor requested. -/
def tidy (c : Cluster) : Cluster :=
  c.withRecords (c.batches.filter fun x _ => decide (c.Wants x))

lemma alike_tidy (c : Cluster) : c.Alike c.tidy := by
  refine .intro _ fun x hx => ?_
  rw [Dict.get?_filter, decide_eq_true hx]
  cases c.batches.get? x with
  | none => rfl
  | some k => rfl

lemma not_stale_tidy (c : Cluster) (x : Id) : ¬ c.tidy.Stale x := by
  rintro ⟨hrecord, hnot⟩
  have hkept : decide (c.Wants x) = true := by
    rw [Dict.mem_keys, tidy, withRecords, Dict.get?_filter] at hrecord
    obtain ⟨v, hv⟩ := Option.isSome_iff_exists.1 hrecord
    exact (Option.filter_eq_some_iff.1 hv).2
  exact hnot (of_decide_eq_true hkept)

namespace Alike

lemma view_eq (h : c.Alike c') : c'.view = c.view := by
  obtain ⟨b, hb⟩ := h
  rfl

theorem addWorker (h : c.Alike c') (w : Worker) : (c.addWorker w).Alike (c'.addWorker w) := by
  obtain ⟨b, hb⟩ := h
  refine .intro (b.insert w.id w.launchBatch) fun x hx => ?_
  rw [Cluster.addWorker, Dict.get?_insert, Dict.get?_insert]
  by_cases he : x = w.id
  · rw [if_pos he, if_pos he]
  · rw [if_neg he, if_neg he]
    refine hb x (hx.imp ?_ ?_)
    · exact fun hin => (IdSet.mem_insert.1 hin).resolve_left he
    · exact fun hin => (IdSet.mem_insert.1 hin).resolve_left he

/-- Whoever arrives has been requested, so its record is the same on both sides. -/
theorem arriveAll (h : c.Alike c') : c.arriveAll.Alike c'.arriveAll := by
  obtain ⟨b, hb⟩ := h
  have hworkers : (c.withRecords b).arriveAll.workers = c.arriveAll.workers := by
    refine Dict.ext_get? fun x => ?_
    rw [get?_workers_arriveAll, get?_workers_arriveAll, awaited_withRecords]
    by_cases hx : x ∈ c.awaited
    · rw [if_pos hx, if_pos hx]
      have hrecord : b.get? x = c.batches.get? x := hb x (.inr (IdSet.mem_diff.1 hx).1)
      simp only [newcomer, withRecords, hrecord]
    · rw [if_neg hx, if_neg hx, workers_withRecords]
  have he : (c.withRecords b).arriveAll = c.arriveAll.withRecords b := by
    change { c.withRecords b with workers := (c.withRecords b).arriveAll.workers } = _
    rw [hworkers]
    rfl
  rw [he]
  exact .intro b hb

theorem setLoad (h : c.Alike c') (id : Id) (memoryUsed processing : Nat) :
    ((Operation.setLoad id memoryUsed processing).apply c).1.Alike
      ((Operation.setLoad id memoryUsed processing).apply c').1 ∧
    ((Operation.setLoad id memoryUsed processing).apply c').2 =
      ((Operation.setLoad id memoryUsed processing).apply c).2 := by
  obtain ⟨b, hb⟩ := h
  simp only [Operation.apply, Cluster.setLoad, workers_withRecords]
  by_cases hc : c.workers.contains id = true
  · simp only [hc, if_true]
    exact ⟨.intro b hb, trivial⟩
  · simp only [hc]
    exact ⟨.intro b hb, rfl⟩

lemma planNext (h : c.Alike c') (batch : Nat) : (c.planNext batch).Alike (c'.planNext batch) := by
  obtain ⟨b, hb⟩ := h
  refine .intro (b.insert c.nextName batch) fun x hx => ?_
  rw [Cluster.planNext, Dict.get?_insert, Dict.get?_insert]
  by_cases he : x = c.nextName
  · rw [if_pos he, if_pos he]
  · rw [if_neg he, if_neg he]
    exact hb x (hx.imp_left fun hin => (IdSet.mem_insert.1 hin).resolve_left he)

lemma planUpTo (h : c.Alike c') (batch n tries : Nat) :
    (Cluster.planUpTo batch n tries c).Alike (Cluster.planUpTo batch n tries c') := by
  induction tries generalizing c c' with
  | zero => exact h
  | succ tries ih =>
    have hplan : c'.plan = c.plan := by
      obtain ⟨b, hb⟩ := h
      rfl
    unfold Cluster.planUpTo
    rw [hplan]
    split
    · exact ih (h.planNext batch)
    · exact h

/-- Both sides take the scaling, or both refuse it. -/
theorem scale (h : c.Alike c') (n : Nat) :
    (∃ e, c.scale n = .error e ∧ c'.scale n = .error e) ∨
      ∃ d d', c.scale n = .ok d ∧ c'.scale n = .ok d' ∧ d.Alike d' := by
  obtain ⟨b, hb⟩ := h
  have hplan : (c.withRecords b).plan = c.plan := rfl
  have hstatus : (c.withRecords b).status = c.status := rfl
  simp only [Cluster.scale, hplan, hstatus]
  by_cases hrun : c.status.isRunning = true
  · simp only [hrun, if_true]
    refine .inr ⟨_, _, rfl, rfl, ?_⟩
    by_cases hn : c.plan.size < n
    · simp only [hn, if_true]
      exact planUpTo (c := { c with nextBatch := c.nextBatch + 1 }) (.intro b hb) _ _ _
    · simp only [hn, if_false]
      exact .intro b fun x hx => hb x (hx.imp_left mem_plan_shrink)
  · simp only [hrun]
    exact .inl ⟨_, rfl, rfl⟩

theorem scaleDown (h : c.Alike c') (ids : List Id) :
    (c.scaleDown ids).Alike (c'.scaleDown ids) := by
  obtain ⟨b, hb⟩ := h
  refine .intro (b.eraseAll ids) fun x hx => ?_
  rw [Cluster.scaleDown, Dict.get?_eraseAll, Dict.get?_eraseAll,
    hb x (hx.imp IdSet.eraseAll_subset IdSet.eraseAll_subset)]

theorem reconcile (h : c.Alike c') : c.reconcile.Alike c'.reconcile := by
  obtain ⟨b, hb⟩ := h
  refine .intro (b.eraseAll (c.requested.diff c.plan).toList) fun x hx => ?_
  rw [Wants, requested_reconcile, plan_reconcile, or_self] at hx
  rw [Cluster.reconcile, Dict.get?_eraseAll, Dict.get?_eraseAll, hb x (.inl hx)]

lemma retireOne (h : c.Alike c') (id : Id) : (c.retireOne id).Alike (c'.retireOne id) := by
  obtain ⟨b, hb⟩ := h
  unfold Cluster.retireOne
  rw [workers_withRecords]
  split
  · exact .intro b hb
  · exact .intro b hb

theorem retire (h : c.Alike c') (r : Retirement) : (c.retire r).Alike (c'.retire r) := by
  unfold Cluster.retire
  split
  · generalize r.names = ids
    induction ids generalizing c c' with
    | nil => exact h
    | cons id ids ih => exact ih (h.retireOne id)
  · exact h

/-- Whatever is done to both, they answer alike and go on being alike. -/
theorem apply (h : c.Alike c') (op : Operation) :
    (op.apply c).1.Alike (op.apply c').1 ∧ (op.apply c').2 = (op.apply c).2 := by
  cases op with
  | addWorker w => exact ⟨h.addWorker w, rfl⟩
  | setTasks tasks | setStatus status =>
    obtain ⟨b, hb⟩ := h
    exact ⟨.intro b hb, rfl⟩
  | setLoad id memoryUsed processing => exact h.setLoad id memoryUsed processing
  | arriveAll =>
    refine ⟨h.arriveAll, ?_⟩
    obtain ⟨b, hb⟩ := h
    rfl
  | scale n =>
    obtain ⟨e, he, he'⟩ | ⟨d, d', hd, hd', halike⟩ := h.scale n
    · simp only [Operation.apply, he, he']
      exact ⟨h, trivial⟩
    · simp only [Operation.apply, hd, hd']
      exact ⟨halike, trivial⟩
  | scaleDown ids => exact ⟨h.scaleDown ids, rfl⟩
  | reconcile => exact ⟨h.reconcile, rfl⟩
  | retire r => exact ⟨h.retire r, rfl⟩

theorem serve (h : c.Alike c') (call : Call) :
    (Cluster.serve call c).1.Alike (Cluster.serve call c').1 ∧
      (Cluster.serve call c').2 = (Cluster.serve call c).2 := by
  cases call with
  | scale n =>
    obtain ⟨e, he, he'⟩ | ⟨d, d', hd, hd', halike⟩ := h.scale n
    · simp only [Cluster.serve, he, he']
      exact ⟨h, trivial⟩
    · simp only [Cluster.serve, hd, hd']
      exact ⟨halike, trivial⟩
  | scaleDown ids => exact ⟨h.scaleDown ids, rfl⟩
  | reconcile limit => exact ⟨h.reconcile, rfl⟩
  | retire request => exact ⟨h.retire request, rfl⟩
  | drainEstimate window | closeCandidates query | workers | tasks | estimate =>
    obtain ⟨b, hb⟩ := h
    exact ⟨.intro b hb, rfl⟩

theorem applyAll (h : c.Alike c') (ops : List Operation) :
    (Operation.applyAll c ops).Alike (Operation.applyAll c' ops) := by
  induction ops generalizing c c' with
  | nil => exact h
  | cons op ops ih => exact ih (h.apply op).1

/-- A program that looks at them and calls them comes to the same end with both. -/
theorem run {α : Type} (h : c.Alike c') (p : Exchange α) :
    (p.run host c).1.Alike (p.run host c').1 ∧ (p.run host c').2 = (p.run host c).2 := by
  induction p generalizing c c' with
  | done a => exact ⟨h, rfl⟩
  | halt f => exact ⟨h, rfl⟩
  | look next ih =>
    have hview : host.view c' = host.view c := h.view_eq
    simp only [Exchange.run, hview]
    exact ih _ h
  | ask call next ih =>
    obtain ⟨halike, hreply⟩ := h.serve call
    rcases hc : Cluster.serve call c with ⟨d, reply⟩
    rcases hc' : Cluster.serve call c' with ⟨d', reply'⟩
    rw [hc, hc'] at halike hreply
    obtain rfl : reply' = reply := hreply
    simp only [Exchange.run, host, hc, hc']
    cases reply' with
    | error f => exact ⟨halike, rfl⟩
    | ok r => exact ih r halike

end Alike

/-- Stale records may be dropped at any time, as nothing reads them. Whatever is done afterwards,
the cluster shows the same view, every operation is answered as it would have been, and every
program that makes calls comes to the same end. -/
theorem tidy_unnoticed (c : Cluster) (ops : List Operation) :
    let kept := Operation.applyAll c ops
    let tidied := Operation.applyAll c.tidy ops
    (∀ x, ¬ c.tidy.Stale x) ∧ tidied.view = kept.view ∧
    (∀ op : Operation, (op.apply tidied).2 = (op.apply kept).2) ∧
    ∀ (α : Type) (p : Exchange α), (p.run host tidied).2 = (p.run host kept).2 := by
  intro kept tidied
  have h : kept.Alike tidied := c.alike_tidy.applyAll ops
  exact ⟨c.not_stale_tidy, h.view_eq, fun op => (h.apply op).2, fun α p => (h.run p).2⟩

end Cluster

end Fleet
