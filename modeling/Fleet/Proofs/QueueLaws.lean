import Fleet.Proofs.Estimates
import Mathlib.Data.List.Flatten
import Mathlib.Data.List.Perm.Subperm

/-! What the queue calls for when its tasks change. Neither the order of the tasks nor that of the
workers counts, fewer tasks never call for more workers, and the number lies between those for the
unblocked tasks once and twice. -/
namespace Fleet

lemma underPressure_perm {ws ws' : List Worker} (h : ws.Perm ws') :
    underPressure ws = underPressure ws' := by
  unfold underPressure
  rw [total_perm (h.map Worker.memoryLimit), total_perm (h.map Worker.memoryUsed)]

namespace QueueEstimate

variable {tasks tasks' : List Task} {workers workers' : List Worker} {m observed : Nat}

lemma upcoming_le_of_subperm (h : tasks'.Subperm tasks) : upcoming tasks' ≤ upcoming tasks := by
  obtain ⟨part, hperm, hsub⟩ := h
  calc upcoming tasks' = upcoming part :=
        ((hperm.flatMap fun t _ => .refl t.dependents).length_eq).symm
    _ ≤ upcoming tasks := (hsub.flatMap Task.dependents).length_le

/-- Leaving tasks out lowers both the number of unblocked ones and what they are compared with, so
that the doubling may only end. -/
theorem backlogTarget_le_of_subperm (h : tasks'.Subperm tasks) (n : Nat) :
    backlogTarget tasks' n ≤ backlogTarget tasks n := by
  have hunblocked := h.filter Task.isUnblocked
  have hlength := hunblocked.length_le
  have hupcoming := upcoming_le_of_subperm hunblocked
  unfold backlogTarget
  dsimp only
  split <;> split <;> omega

lemma backlogTarget_perm (h : tasks'.Perm tasks) (n : Nat) :
    backlogTarget tasks' n = backlogTarget tasks n :=
  Nat.le_antisymm (backlogTarget_le_of_subperm h.subperm n)
    (backlogTarget_le_of_subperm h.symm.subperm n)

lemma backlogTarget_le (tasks : List Task) (n : Nat) :
    backlogTarget tasks n ≤ 2 * (tasks.filter Task.isUnblocked).length := by
  unfold backlogTarget
  dsimp only
  split <;> omega

lemma backlogTarget_eq_double_iff (tasks : List Task) (n : Nat) :
    backlogTarget tasks n = 2 * (tasks.filter Task.isUnblocked).length ↔
      2 * n < upcoming (tasks.filter Task.isUnblocked) ∨
        (tasks.filter Task.isUnblocked).length = 0 := by
  unfold backlogTarget
  dsimp only
  split <;> omega

lemma memoryTarget_perm (h : workers'.Perm workers) (observed : Nat) :
    memoryTarget workers' observed = memoryTarget workers observed := by
  unfold memoryTarget
  rw [underPressure_perm h]

lemma exists_memoryTarget (hobserved : 2 * observed < Word.limit) (workers : List Worker) :
    ∃ m, memoryTarget workers observed = .ok m := by
  unfold memoryTarget
  split
  · exact ⟨_, Word.mul_eq_ok_iff.2 ⟨hobserved, rfl⟩⟩
  · exact ⟨0, rfl⟩

lemma target_eq_ok (hm : memoryTarget workers observed = .ok m) (tasks : List Task) :
    target tasks workers observed = .ok (max (backlogTarget tasks workers.length) m) := by
  unfold target
  rw [hm]
  rfl

/-- Where twice the observed workers fit a word, the queue calls for a number, whatever the order of
the tasks and of the workers, and for no larger one without some of the tasks. The number is at
least that of the unblocked tasks and that for the memory. It is at most the number with the
unblocked tasks counted twice, and it comes to that exactly if the `upcoming` tasks are more than
two for every worker, or if the memory calls for as many anyway, or if no task is unblocked. -/
theorem target_monotone_between (tasks : List Task) (workers : List Worker)
    (hobserved : 2 * observed < Word.limit) :
    ∃ q m, target tasks workers observed = .ok q ∧ memoryTarget workers observed = .ok m ∧
      (∀ tasks' workers', tasks'.Perm tasks → workers'.Perm workers →
        target tasks' workers' observed = .ok q) ∧
      (∀ tasks', tasks'.Subperm tasks →
        ∃ q', target tasks' workers observed = .ok q' ∧ q' ≤ q) ∧
      max (tasks.filter Task.isUnblocked).length m ≤ q ∧
      q ≤ max (2 * (tasks.filter Task.isUnblocked).length) m ∧
      (q = max (2 * (tasks.filter Task.isUnblocked).length) m ↔
        2 * workers.length < upcoming (tasks.filter Task.isUnblocked) ∨
          2 * (tasks.filter Task.isUnblocked).length ≤ m ∨
          (tasks.filter Task.isUnblocked).length = 0) := by
  obtain ⟨m, hm⟩ := exists_memoryTarget hobserved workers
  have hlow := length_le_backlogTarget tasks workers.length
  have hhigh := backlogTarget_le tasks workers.length
  have hdouble := backlogTarget_eq_double_iff tasks workers.length
  refine ⟨_, m, target_eq_ok hm tasks, hm, fun tasks' workers' ht hw => ?_, fun tasks' ht => ?_,
    max_le_max_right m hlow, max_le_max_right m hhigh, ?_⟩
  · rw [target_eq_ok (memoryTarget_perm hw observed ▸ hm), backlogTarget_perm ht, hw.length_eq]
  · exact ⟨_, target_eq_ok hm tasks',
      max_le_max_right m (backlogTarget_le_of_subperm ht workers.length)⟩
  · -- below the memory's number the backlog's does not show, above it only the doubling reaches it
    constructor
    · intro heq
      by_cases hmemory : 2 * (tasks.filter Task.isUnblocked).length ≤ m
      · exact .inr (.inl hmemory)
      · have hreached : backlogTarget tasks workers.length =
            2 * (tasks.filter Task.isUnblocked).length := by omega
        exact (hdouble.1 hreached).imp_right .inr
    · rintro (hahead | hmemory | hnone)
      · rw [hdouble.2 (.inl hahead)]
      · omega
      · rw [hdouble.2 (.inr hnone)]

/-- A blocked task and three unblocked ones, which five tasks need. -/
def fanning : List Task :=
  [⟨"a", .processing, ["x", "y", "x"], none⟩, ⟨"b", .memory, ["x"], none⟩,
    ⟨"c", .waiting, ["y", "z"], none⟩, ⟨"d", .noWorker, [], none⟩]

/-- Five dependents are more than two workers can do with, so that three tasks call for six workers.
Without the first task two workers are enough, and four for the memory. -/
theorem target_monotone_between_fanning :
    2 * 2 < Word.limit ∧
    ∃ q m, target fanning [.idle "v" 90 100, .idle "w" 90 100] 2 = .ok q ∧
      memoryTarget [.idle "v" 90 100, .idle "w" 90 100] 2 = .ok m ∧ (q, m) = (6, 4) ∧
      target fanning.reverse [.idle "w" 90 100, .idle "v" 90 100] 2 = .ok q ∧
      ∃ q', target fanning.tail [.idle "v" 90 100, .idle "w" 90 100] 2 = .ok q' ∧ q' ≤ q := by
  have hword : 2 * 2 < Word.limit := by decide
  obtain ⟨q, m, hq, hm, hperm, hless, -⟩ :=
    target_monotone_between fanning [.idle "v" 90 100, .idle "w" 90 100] hword
  refine ⟨hword, q, m, hq, hm, ?_, hperm _ _ (List.reverse_perm _) (.swap _ _ _),
    hless _ (List.tail_sublist _).subperm⟩
  have hsix : target fanning [.idle "v" 90 100, .idle "w" 90 100] 2 = .ok 6 := rfl
  have hfour : memoryTarget [.idle "v" 90 100, .idle "w" 90 100] 2 = .ok 4 := rfl
  rw [Except.ok.inj (hq.symm.trans hsix), Except.ok.inj (hm.symm.trans hfour)]

end QueueEstimate

end Fleet
