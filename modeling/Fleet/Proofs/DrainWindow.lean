import Fleet.Proofs.Estimates
import Mathlib.Algebra.Order.Floor.Div
import Mathlib.Data.List.Perm.Subperm

/-! The scheduler's estimate for a longer window and for a longer backlog. A longer window never
calls for more workers, as long as cutting it off to a word keeps it no shorter and keeps the other
one from vanishing; more tasks never call for fewer workers. -/
namespace Fleet

namespace Cluster

variable {c : Cluster} {d d₁ d₂ : Duration} {tasks : List Task} {n v w : Nat}

/-- As many workers as windows of so many milliseconds fit into the backlog's length, rounded up,
but no more than it has tasks. -/
def workersWithin (c : Cluster) (window : Nat) : Nat :=
  min (c.backlogMillis ⌈/⌉ window) c.backlog.length

/-- The estimate has a value when the backlog's length fits a word and the window does not vanish.
-/
theorem drainEstimate_eq_ok_iff : c.drainEstimate d = .ok n ↔
    c.backlogMillis < Word.limit ∧ 0 < drainWindow d ∧
      n = max (c.workersWithin (drainWindow d)) c.workersForMemory := by
  unfold drainEstimate workersForBacklog Word.sum Word.divUp workersWithin backlogMillis
  simp only [bind, Except.bind, pure, Except.pure]
  by_cases hsum : total (c.backlog.map fun t => t.expectedMillis.getD assumedMillis) < Word.limit
  · by_cases hzero : drainWindow d = 0
    · simp [hsum, hzero]
    · have hpos : 0 < drainWindow d := Nat.pos_of_ne_zero hzero
      simp only [hsum, hzero, if_true, if_false, hpos, true_and, Except.ok.injEq,
        Nat.ceilDiv_eq_add_pred_div, Nat.add_sub_assoc hpos]
      exact eq_comm
  · simp [hsum]

/-- A longer window fits less often. -/
lemma workersWithin_antitone (c : Cluster) (hv : 0 < v) (hvw : v ≤ w) :
    c.workersWithin w ≤ c.workersWithin v := by
  refine min_le_min_right _ ((ceilDiv_le_iff_le_mul (hv.trans_le hvw)).2 ?_)
  calc c.backlogMillis ≤ v * (c.backlogMillis ⌈/⌉ v) := le_smul_ceilDiv hv
    _ ≤ w * (c.backlogMillis ⌈/⌉ v) := Nat.mul_le_mul_right _ hvw

/-- The unblocked tasks among more tasks are more, and they last longer. -/
lemma backlog_setTasks (htasks : c.tasks.Subperm tasks) :
    c.backlogMillis ≤ (c.setTasks tasks).backlogMillis ∧
      c.backlog.length ≤ (c.setTasks tasks).backlog.length := by
  obtain ⟨part, hperm, hsub⟩ := htasks.filter Task.isUnblocked
  have hmillis := total_perm (hperm.map fun t => t.expectedMillis.getD assumedMillis)
  refine ⟨?_, ?_⟩
  · rw [backlogMillis, backlog, ← hmillis]
    exact total_le_of_sublist (hsub.map _)
  · rw [backlog, ← hperm.length_eq]
    exact hsub.length_le

lemma workersWithin_mono (htasks : c.tasks.Subperm tasks) (hw : 0 < w) :
    c.workersWithin w ≤ (c.setTasks tasks).workersWithin w := by
  obtain ⟨hmillis, hlength⟩ := backlog_setTasks htasks
  refine min_le_min ((ceilDiv_le_iff_le_mul hw).2 (hmillis.trans ?_)) hlength
  exact le_smul_ceilDiv hw

/-- A window of fewer than two to the 64th milliseconds is not cut off. -/
lemma drainWindow_of_lt (hd : d.millis < Word.limit) : drainWindow d = max d.millis 1 := by
  have hone : 1 < Word.limit := by decide
  exact Nat.mod_eq_of_lt (max_lt hd hone)

lemma drainWindow_le_of_lt (hle : d₁.nanos ≤ d₂.nanos) (hd : d₂.millis < Word.limit) :
    0 < drainWindow d₁ ∧ drainWindow d₁ ≤ drainWindow d₂ := by
  have hmillis : d₁.millis ≤ d₂.millis := Nat.div_le_div_right hle
  rw [drainWindow_of_lt hd, drainWindow_of_lt (hmillis.trans_lt hd)]
  omega

lemma drainEstimate_le_of_drainWindow_le (hsum : c.backlogMillis < Word.limit)
    (hpos : 0 < drainWindow d₁) (hle : drainWindow d₁ ≤ drainWindow d₂) :
    ∃ n₁ n₂, c.drainEstimate d₁ = .ok n₁ ∧ c.drainEstimate d₂ = .ok n₂ ∧ n₂ ≤ n₁ :=
  ⟨_, _, drainEstimate_eq_ok_iff.2 ⟨hsum, hpos, rfl⟩,
    drainEstimate_eq_ok_iff.2 ⟨hsum, hpos.trans_le hle, rfl⟩,
    max_le_max_right _ (c.workersWithin_antitone hpos hle)⟩

lemma drainEstimate_le_of_subperm (htasks : c.tasks.Subperm tasks)
    (hsum : (c.setTasks tasks).backlogMillis < Word.limit) (hpos : 0 < drainWindow d) :
    ∃ n n', c.drainEstimate d = .ok n ∧ (c.setTasks tasks).drainEstimate d = .ok n' ∧ n ≤ n' :=
  ⟨_, _, drainEstimate_eq_ok_iff.2 ⟨(backlog_setTasks htasks).1.trans_lt hsum, hpos, rfl⟩,
    drainEstimate_eq_ok_iff.2 ⟨hsum, hpos, rfl⟩, max_le_max_right _ (workersWithin_mono htasks hpos)⟩

/-- No workers and two tasks, one of which lasts so many milliseconds and the other none. -/
def oneLongTask (millis : Nat) : Cluster :=
  Operation.applyAll (create "z" 100)
    [.setTasks [⟨"a", .processing, [], some millis⟩, ⟨"b", .waiting, [], some 0⟩]]

lemma reachable_oneLongTask (millis : Nat) : (oneLongTask millis).Reachable := ⟨_, _, _, rfl⟩

lemma drainEstimate_oneLongTask {millis : Nat} (hsum : millis < Word.limit)
    (hpos : 0 < drainWindow d) :
    (oneLongTask millis).drainEstimate d = .ok (min (millis ⌈/⌉ drainWindow d) 2) := by
  have hmillis : (oneLongTask millis).backlogMillis = millis := rfl
  refine drainEstimate_eq_ok_iff.2 ⟨hmillis ▸ hsum, hpos, ?_⟩
  rw [workersWithin, hmillis]
  exact (Nat.max_zero _).symm

/-- In every cluster whose backlog fits a word both durations have an estimate and the second one is
not above the first one, exactly if the `drainWindow` of the first one does not vanish and that of
the second one is not shorter. That is so for a longer duration of fewer than two to the 64th
milliseconds. With such a duration more tasks never lower the estimate. -/
theorem drainEstimate_antitone_iff (d₁ d₂ : Duration) :
    ((∀ c : Cluster, c.Reachable → c.backlogMillis < Word.limit →
        ∃ n₁ n₂, c.drainEstimate d₁ = .ok n₁ ∧ c.drainEstimate d₂ = .ok n₂ ∧ n₂ ≤ n₁) ↔
      0 < drainWindow d₁ ∧ drainWindow d₁ ≤ drainWindow d₂) ∧
    (d₁.nanos ≤ d₂.nanos → d₂.millis < Word.limit →
      0 < drainWindow d₁ ∧ drainWindow d₁ ≤ drainWindow d₂) ∧
    (d₂.millis < Word.limit → ∀ (c : Cluster) (tasks : List Task), c.tasks.Subperm tasks →
      (c.setTasks tasks).backlogMillis < Word.limit →
      ∃ n n', c.drainEstimate d₂ = .ok n ∧ (c.setTasks tasks).drainEstimate d₂ = .ok n' ∧
        n ≤ n') := by
  refine ⟨⟨fun h => ?_, fun h c _ hsum => drainEstimate_le_of_drainWindow_le hsum h.1 h.2⟩,
    drainWindow_le_of_lt, fun hd c tasks htasks hsum => ?_⟩
  · obtain ⟨n₁, -, hn₁, -, -⟩ := h _ (reachable_oneLongTask 0) (by decide)
    have hpos : 0 < drainWindow d₁ := (drainEstimate_eq_ok_iff.1 hn₁).2.1
    refine ⟨hpos, Nat.not_lt.1 fun hshort => ?_⟩
    -- a task as long as the first window takes one such window, and two of the second ones
    have hword : drainWindow d₁ < Word.limit := Nat.mod_lt _ (by decide)
    obtain ⟨n₁, n₂, hn₁, hn₂, hle⟩ := h _ (reachable_oneLongTask (drainWindow d₁)) hword
    have hpos₂ : 0 < drainWindow d₂ := (drainEstimate_eq_ok_iff.1 hn₂).2.1
    rw [drainEstimate_oneLongTask hword hpos, Except.ok.injEq] at hn₁
    rw [drainEstimate_oneLongTask hword hpos₂, Except.ok.injEq] at hn₂
    have hone : drainWindow d₁ ⌈/⌉ drainWindow d₁ ≤ 1 := by
      rw [ceilDiv_le_iff_le_mul hpos, Nat.mul_one]
    have htwo : ¬ drainWindow d₁ ⌈/⌉ drainWindow d₂ ≤ 1 := by
      rw [ceilDiv_le_iff_le_mul hpos₂, Nat.mul_one]
      exact Nat.not_le.2 hshort
    omega
  · exact drainEstimate_le_of_subperm htasks hsum (drainWindow_le_of_lt (Nat.le_refl _) hd).1

/-- Five and seven seconds. -/
theorem drainEstimate_antitone_iff_seconds :
    ((Duration.ofSeconds 5).nanos ≤ (Duration.ofSeconds 7).nanos ∧
      (Duration.ofSeconds 7).millis < Word.limit ∧ (oneLongTask 6000).backlogMillis < Word.limit) ∧
    (oneLongTask 6000).drainEstimate (.ofSeconds 5) = .ok 2 ∧
    (oneLongTask 6000).drainEstimate (.ofSeconds 7) = .ok 1 ∧
    ∀ c : Cluster, c.Reachable → c.backlogMillis < Word.limit →
      ∃ n₁ n₂, c.drainEstimate (.ofSeconds 5) = .ok n₁ ∧
        c.drainEstimate (.ofSeconds 7) = .ok n₂ ∧ n₂ ≤ n₁ := by
  have hle : (Duration.ofSeconds 5).nanos ≤ (Duration.ofSeconds 7).nanos := by decide
  have hshort : (Duration.ofSeconds 7).millis < Word.limit := by decide
  obtain ⟨hall, hordered, -⟩ := drainEstimate_antitone_iff (.ofSeconds 5) (.ofSeconds 7)
  exact ⟨⟨hle, hshort, by decide⟩, rfl, rfl, hall.2 (hordered hle hshort)⟩

/-- Two to the 64th milliseconds are cut off to nothing, so that there is no estimate, and one more
millisecond to a window of one, which calls for two workers where two seconds call for one. -/
theorem longer_window_calls_for_more :
    (oneLongTask 2000).Reachable ∧ (oneLongTask 2000).backlogMillis < Word.limit ∧
    (Duration.ofSeconds 2).nanos ≤ (Duration.ofMillis Word.limit).nanos ∧
    (Duration.ofSeconds 2).nanos ≤ (Duration.ofMillis (Word.limit + 1)).nanos ∧
    (oneLongTask 2000).drainEstimate (.ofSeconds 2) = .ok 1 ∧
    (oneLongTask 2000).drainEstimate (.ofMillis Word.limit) = .error .zeroDivisor ∧
    (oneLongTask 2000).drainEstimate (.ofMillis (Word.limit + 1)) = .ok 2 :=
  ⟨reachable_oneLongTask 2000, by decide, by decide, by decide, rfl, rfl, rfl⟩

end Cluster

end Fleet
