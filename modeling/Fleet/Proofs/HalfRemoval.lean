import Fleet.Proofs.Replay

/-! Removals of which either step may fail. Draining takes the connected workers of the set and
removing by force takes the whole set, each whether or not the other one fails. -/
namespace Fleet

namespace IdSet

lemma eraseAll_toList (s t : IdSet) : s.eraseAll t.toList = s.diff t :=
  ext_mem fun x => by rw [mem_eraseAll, mem_diff, mem_def (s := t)]

@[simp] lemma diff_empty (s : IdSet) : s.diff ∅ = s := by
  refine ext_mem fun x => ?_
  simp

lemma eq_empty_of_isEmpty {s : IdSet} (h : s.isEmpty = true) : s = ∅ :=
  IdSet.ext (List.isEmpty_iff.1 h)

end IdSet

namespace Dict

variable {β : Type} {d : Dict β} {ws : IdSet}

/-- The map without the entries of a set. -/
def without (d : Dict β) (ws : IdSet) : Dict β := d.filter fun x _ => !decide (x ∈ ws)

@[simp] lemma get?_without (d : Dict β) (ws : IdSet) (x : Id) :
    (d.without ws).get? x = if x ∈ ws then none else d.get? x := by
  rw [without, get?_filter]
  by_cases h : x ∈ ws
  · simp [h]
  · cases d.get? x <;> simp [h]

@[simp] lemma without_empty (d : Dict β) : d.without ∅ = d := by
  refine ext_get? fun x => ?_
  rw [get?_without, if_neg IdSet.not_mem_empty]

@[simp] lemma without_without (d : Dict β) (ws : IdSet) :
    (d.without ws).without ws = d.without ws := by
  refine ext_get? fun x => ?_
  simp only [get?_without]
  split <;> rfl

lemma eraseAll_toList (d : Dict β) (ws : IdSet) : d.eraseAll ws.toList = d.without ws := by
  refine ext_get? fun x => ?_
  rw [get?_eraseAll, get?_without]
  rfl

end Dict

namespace Cluster

variable {c : Cluster} {ws : IdSet}

/-- The connected workers of a set. -/
def connected (c : Cluster) (ws : IdSet) : IdSet := ws.filter fun w => decide (w ∈ c.observed)

lemma filter_contains (c : Cluster) (ws : IdSet) :
    ws.toList.filter c.workers.contains = (c.connected ws).toList := by
  refine List.filter_congr fun w _ => ?_
  rw [Bool.eq_iff_iff, decide_eq_true_eq]
  exact Dict.contains_iff_mem_keys

/-- What draining makes of the cluster, if it is not the call that fails. -/
def drained (c : Cluster) (ws : IdSet) : Option RemoteError → Cluster
  | some _ => c
  | none => { c with
      workers := c.workers.without ws
      retired := c.retired ++ (c.connected ws).toList }

/-- What removing by force makes of the cluster, if it is not the call that fails. -/
def removed (c : Cluster) (ws : IdSet) : Option RemoteError → Cluster
  | some _ => c
  | none => { c with
      plan := c.plan.diff ws
      requested := c.requested.diff ws
      workers := c.workers.without ws
      batches := c.batches.without ws }

lemma drained_of_failed {e : Option RemoteError} (he : e ≠ none) : c.drained ws e = c := by
  cases e with
  | some e => rfl
  | none => exact absurd rfl he

lemma removed_of_failed {e : Option RemoteError} (he : e ≠ none) : c.removed ws e = c := by
  cases e with
  | some e => rfl
  | none => exact absurd rfl he

/-- Draining changes who is connected and who has been retired only. -/
lemma drained_frame (c : Cluster) (ws : IdSet) (e : Option RemoteError) :
    ∃ workers gone, c.drained ws e = { c with workers := workers, retired := gone } := by
  cases e with
  | some e => exact ⟨_, _, rfl⟩
  | none => exact ⟨_, _, rfl⟩

lemma retired_removed (c : Cluster) (ws : IdSet) (e : Option RemoteError) :
    (c.removed ws e).retired = c.retired := by
  cases e <;> rfl

/-- Whoever has been drained is not there to be removed, so the two steps take the same workers. -/
lemma without_workers_drained (c : Cluster) (ws : IdSet) (e : Option RemoteError) :
    (c.drained ws e).workers.without ws = c.workers.without ws := by
  cases e with
  | some e => rfl
  | none => exact Dict.without_without c.workers ws

lemma drained_none (c : Cluster) (ws : IdSet) :
    c.drained ws none = c.retire (.close ws.toList) := by
  rw [retire_close ws.nodup, Dict.eraseAll_toList, filter_contains]
  rfl

lemma removed_none (c : Cluster) (ws : IdSet) : c.removed ws none = c.scaleDown ws.toList := by
  unfold scaleDown
  simp only [IdSet.eraseAll_toList, Dict.eraseAll_toList]
  rfl

lemma serve_retire_hostFailing (fails : Method → Option RemoteError) (c : Cluster) (ws : IdSet) :
    ∃ reply, (hostFailing fails).serve (.retire (.close ws.toList)) c =
      (c.drained ws (fails .retire), .ok reply) := by
  simp only [hostFailing, Call.method]
  cases fails .retire with
  | some e => exact ⟨_, rfl⟩
  | none => exact ⟨_, by rw [drained_none]; rfl⟩

lemma serve_scaleDown_hostFailing (fails : Method → Option RemoteError) (c : Cluster)
    (ws : IdSet) :
    ∃ reply, (hostFailing fails).serve (.scaleDown ws.toList) c =
      (c.removed ws (fails .scaleDown), .ok reply) := by
  simp only [hostFailing, Call.method]
  cases fails .scaleDown with
  | some e => exact ⟨_, rfl⟩
  | none => exact ⟨_, by rw [removed_none]; rfl⟩

lemma drained_empty (c : Cluster) (e : Option RemoteError) : c.drained ∅ e = c := by
  cases e with
  | some e => rfl
  | none =>
    have hnone : (c.connected ∅).toList = [] := rfl
    simp only [drained, Dict.without_empty, hnone, List.append_nil]

lemma removed_empty (c : Cluster) (e : Option RemoteError) : c.removed ∅ e = c := by
  cases e with
  | some e => rfl
  | none => simp only [removed, Dict.without_empty, IdSet.diff_empty]

/-- Scaling down carries out each of the two steps that does not fail. -/
theorem run_scaleDown_hostFailing (fails : Method → Option RemoteError) (c : Cluster) (ws : IdSet) :
    (Executor.scaleDown ws).run (hostFailing fails) c =
      ((c.drained ws (fails .retire)).removed ws (fails .scaleDown), .ok ()) := by
  unfold Executor.scaleDown
  cases hws : ws.isEmpty with
  | true =>
    rw [IdSet.eq_empty_of_isEmpty hws, drained_empty, removed_empty]
    rfl
  | false =>
    obtain ⟨reply, hretire⟩ := serve_retire_hostFailing fails c ws
    obtain ⟨reply', hremove⟩ :=
      serve_scaleDown_hostFailing fails (c.drained ws (fails .retire)) ws
    simp only [Bool.false_eq_true, if_false, Exchange.run_bind, Exchange.run_call, hretire, hremove]
    rfl

/-- Scaling down by a set always returns. If the draining does not fail, the connected workers of
the set are retired in ascending order, and nobody else is. If the removal does not fail, the plan,
the request, the connected workers and the records are left without the set, whether or not the
draining has failed. If it fails, only the draining takes the set away, and only from the connected
workers. Nothing else changes, and for an empty set nothing at all. -/
theorem scaleDown_steps_apart (fails : Method → Option RemoteError) (c : Cluster) (ws : IdSet) :
    ∃ c', (Executor.scaleDown ws).run (hostFailing fails) c = (c', .ok ()) ∧
      (fails .retire = none →
        c'.retired = c.retired ++ (c.connected ws).toList) ∧
      (fails .retire ≠ none → c'.retired = c.retired) ∧
      (fails .scaleDown = none →
        c'.plan = c.plan.diff ws ∧ c'.requested = c.requested.diff ws ∧
        c'.workers = c.workers.without ws ∧ c'.batches = c.batches.without ws) ∧
      (fails .scaleDown ≠ none →
        c'.plan = c.plan ∧ c'.requested = c.requested ∧ c'.batches = c.batches ∧
        (fails .retire = none → c'.workers = c.workers.without ws) ∧
        (fails .retire ≠ none → c'.workers = c.workers)) ∧
      (c'.tasks = c.tasks ∧ c'.status = c.status ∧ c'.nextId = c.nextId ∧
        c'.nextBatch = c.nextBatch ∧ c'.name = c.name ∧ c'.memoryLimit = c.memoryLimit) ∧
      (ws = ∅ → c' = c) := by
  obtain ⟨workers, gone, hdrained⟩ := c.drained_frame ws (fails .retire)
  refine ⟨_, run_scaleDown_hostFailing fails c ws, fun hr => ?_, fun hr => ?_, fun hs => ?_,
    fun hs => ?_, ?_, ?_⟩
  · rw [retired_removed, hr]
    rfl
  · rw [retired_removed, drained_of_failed hr]
  · have hworkers := c.without_workers_drained ws (fails .retire)
    rw [hs]
    rw [hdrained] at hworkers ⊢
    exact ⟨rfl, rfl, hworkers, rfl⟩
  · rw [removed_of_failed hs]
    refine ⟨by rw [hdrained], by rw [hdrained], by rw [hdrained], fun hr => ?_, fun hr => ?_⟩
    · rw [hr]
      rfl
    · rw [drained_of_failed hr]
  · cases fails .retire <;> cases fails .scaleDown <;> exact ⟨rfl, rfl, rfl, rfl, rfl, rfl⟩
  · rintro rfl
    rw [drained_empty, removed_empty]

end Cluster

end Fleet
