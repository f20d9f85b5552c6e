import Fleet.Proofs.Faults

/-! The two estimates of a cluster side by side. The memory counts the same in both, the scheduler's
never exceeds the queue's, and without a backlog they are one number. -/
namespace Fleet

variable {c : Cluster} {window : Duration}

namespace QueueEstimate

/-- Looking ahead only adds to the unblocked tasks. -/
lemma length_le_backlogTarget (tasks : List Task) (workers : Nat) :
    (tasks.filter Task.isUnblocked).length ≤ backlogTarget tasks workers := by
  unfold backlogTarget
  dsimp only
  split <;> omega

lemma backlogTarget_eq_zero {tasks : List Task} (workers : Nat)
    (blocked : ∀ t ∈ tasks, t.isUnblocked = false) : backlogTarget tasks workers = 0 := by
  have hnone : tasks.filter Task.isUnblocked = [] :=
    List.filter_eq_nil_iff.2 fun t ht => by rw [blocked t ht]; decide
  unfold backlogTarget
  rw [hnone]
  rfl

end QueueEstimate

namespace Cluster

/-- However long the tasks last, there is no use for more workers than tasks. -/
lemma workersForBacklog_le {n : Nat} (h : c.workersForBacklog window = .ok n) :
    n ≤ c.backlog.length := by
  simp only [workersForBacklog, bind, Except.bind, pure, Except.pure] at h
  split at h
  · cases h
  · split at h
    · cases h
    · cases h
      exact Nat.min_le_right _ _

lemma exists_of_drainEstimate {n : Nat} (h : c.drainEstimate window = .ok n) :
    ∃ forBacklog, c.workersForBacklog window = .ok forBacklog ∧
      n = max forBacklog c.workersForMemory := by
  unfold drainEstimate at h
  cases hb : c.workersForBacklog window with
  | error f =>
    rw [hb] at h
    cases h
  | ok forBacklog =>
    rw [hb] at h
    cases h
    exact ⟨forBacklog, rfl, rfl⟩

/-- The queue finds the number that the scheduler has for memory, if it fits a word. -/
lemma memoryTarget_eq_workersForMemory {n : Nat}
    (h : QueueEstimate.memoryTarget c.workers.values c.observed.size = .ok n) :
    n = c.workersForMemory := by
  have hsize : c.observed.size = c.workers.size := Dict.size_keys _
  unfold QueueEstimate.memoryTarget at h
  unfold workersForMemory
  cases hp : underPressure c.workers.values with
  | true =>
    rw [hp, if_pos rfl, Word.mul_eq_ok_iff, hsize] at h
    rw [if_pos rfl, ← h.2]
  | false =>
    rw [hp, if_neg Bool.false_ne_true] at h
    rw [if_neg Bool.false_ne_true]
    cases h
    rfl

lemma exists_of_queueEstimate {n : Nat}
    (h : QueueEstimate.target c.tasks c.workers.values c.observed.size = .ok n) :
    QueueEstimate.memoryTarget c.workers.values c.observed.size = .ok c.workersForMemory ∧
      n = max (QueueEstimate.backlogTarget c.tasks c.workers.values.length)
        c.workersForMemory := by
  unfold QueueEstimate.target at h
  cases hm : QueueEstimate.memoryTarget c.workers.values c.observed.size with
  | error f =>
    rw [hm] at h
    cases h
  | ok memory =>
    rw [hm] at h
    cases h
    rw [memoryTarget_eq_workersForMemory hm]
    exact ⟨rfl, rfl⟩

end Cluster

namespace Estimator

lemma run_drain_host (window : Duration) (c : Cluster) :
    (drain window).target.run Cluster.host c = (c, (c.drainEstimate window).map .ok) :=
  run_drain _ window c

lemma run_queue_host (c : Cluster) :
    queue.target.run Cluster.host c =
      (c, (QueueEstimate.target c.tasks c.workers.values c.observed.size).map .ok) :=
  run_ofPolicy { Policy.standard with strategy := .queue } c

/-- If neither estimate meets an arithmetic step without a result, both have a value and leave the
cluster as it is. The memory part is the same number in both, whether the scheduler takes it from
its own workers or the queue from the reported ones and the observed set. The scheduler's value is
at most the queue's, and it is the same when no task is unblocked. -/
theorem drain_le_queue (c : Cluster) (window : Duration)
    (drains : ∀ f, ((drain window).target.run Cluster.host c).2 ≠ .error f)
    (queues : ∀ f, (queue.target.run Cluster.host c).2 ≠ .error f) :
    ∃ forDrain forQueue forBacklog forMemory,
      (drain window).target.run Cluster.host c = (c, .ok (.ok forDrain)) ∧
      queue.target.run Cluster.host c = (c, .ok (.ok forQueue)) ∧
      forDrain ≤ forQueue ∧
      c.workersForBacklog window = .ok forBacklog ∧ c.workersForMemory = forMemory ∧
      QueueEstimate.memoryTarget c.workers.values c.observed.size = .ok forMemory ∧
      forDrain = max forBacklog forMemory ∧
      forQueue = max (QueueEstimate.backlogTarget c.tasks c.workers.values.length) forMemory ∧
      ((∀ t ∈ c.tasks, t.isUnblocked = false) → forDrain = forQueue) := by
  rw [run_drain_host] at drains ⊢
  rw [run_queue_host] at queues ⊢
  cases hd : c.drainEstimate window with
  | error f =>
    rw [hd] at drains
    exact absurd rfl (drains f)
  | ok forDrain =>
    cases hq : QueueEstimate.target c.tasks c.workers.values c.observed.size with
    | error f =>
      rw [hq] at queues
      exact absurd rfl (queues f)
    | ok forQueue =>
      obtain ⟨forBacklog, hbacklog, hdrain⟩ := Cluster.exists_of_drainEstimate hd
      obtain ⟨hmemory, hqueue⟩ := Cluster.exists_of_queueEstimate hq
      -- The number of unblocked tasks stands between the two.
      have hlen : forBacklog ≤ c.backlog.length := Cluster.workersForBacklog_le hbacklog
      have hle : c.backlog.length ≤ QueueEstimate.backlogTarget c.tasks c.workers.values.length :=
        QueueEstimate.length_le_backlogTarget _ _
      refine ⟨forDrain, forQueue, forBacklog, _, rfl, rfl, by omega, hbacklog, rfl, hmemory,
        hdrain, hqueue, fun hblocked => ?_⟩
      have hzero := QueueEstimate.backlogTarget_eq_zero c.workers.values.length hblocked
      omega

/-- Two workers, one of them nearly full, and a task of two seconds with many dependents. -/
def crowded : Cluster :=
  Operation.applyAll (.create "z" 100)
    [.addWorker (.idle "a" 90 100), .addWorker (.idle "b" 40 100),
      .setTasks [⟨"t", .processing, ["u", "v", "w", "x", "y"], some 2000⟩,
        ⟨"u", .waiting, [], none⟩, ⟨"v", .waiting, [], none⟩]]

/-- Three tasks last three seconds, so a window of one calls for three workers and the memory for
four. The queue doubles the three. -/
theorem drain_le_queue_crowded :
    crowded.Reachable ∧
    (∀ f, ((drain (.ofSeconds 1)).target.run Cluster.host crowded).2 ≠ .error f) ∧
    (∀ f, (queue.target.run Cluster.host crowded).2 ≠ .error f) ∧
    ∃ forDrain forQueue forBacklog forMemory,
      (drain (.ofSeconds 1)).target.run Cluster.host crowded = (crowded, .ok (.ok forDrain)) ∧
      queue.target.run Cluster.host crowded = (crowded, .ok (.ok forQueue)) ∧
      (forDrain, forQueue, forBacklog, forMemory) = (4, 6, 3, 4) ∧ forDrain ≤ forQueue := by
  have hd : (drain (.ofSeconds 1)).target.run Cluster.host crowded = (crowded, .ok (.ok 4)) := rfl
  have hq : queue.target.run Cluster.host crowded = (crowded, .ok (.ok 6)) := rfl
  have drains : ∀ f, ((drain (.ofSeconds 1)).target.run Cluster.host crowded).2 ≠ .error f := by
    rw [hd]
    simp
  have queues : ∀ f, (queue.target.run Cluster.host crowded).2 ≠ .error f := by
    rw [hq]
    simp
  obtain ⟨forDrain, forQueue, forBacklog, forMemory, h, h', hle, hb, hm, -⟩ :=
    drain_le_queue crowded (.ofSeconds 1) drains queues
  refine ⟨⟨_, _, _, rfl⟩, drains, queues, forDrain, forQueue, forBacklog, forMemory, h, h', ?_, hle⟩
  rw [hd] at h
  rw [hq] at h'
  cases h
  cases h'
  cases hb
  cases hm
  rfl

end Estimator

end Fleet
