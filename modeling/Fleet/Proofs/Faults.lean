import Fleet.Cluster.Operation
import Fleet.Proofs.Serving
import Fleet.Remote.ClusterHost

/-! Arithmetic steps without a result on the way of a tick. A tick on a cluster meets one in the sum
or the division of the drain estimate, in the doubling of the queue estimate, or in the memory of an
idle group. -/
namespace Fleet

variable {settings : Settings} {s : Scaler} {c : Cluster}

namespace Cluster

def backlogMillis (c : Cluster) : Nat :=
  total (c.backlog.map fun t => t.expectedMillis.getD assumedMillis)

/-- The scheduler's estimate sums the backlog and divides by the window. -/
theorem drainEstimate_eq_error_iff {d : Duration} :
    (∃ f, c.drainEstimate d = .error f) ↔ Word.limit ≤ c.backlogMillis ∨ drainWindow d = 0 := by
  unfold drainEstimate workersForBacklog Word.sum Word.divUp backlogMillis
  simp only [bind, Except.bind, pure, Except.pure]
  by_cases hsum : total (c.backlog.map fun t => t.expectedMillis.getD assumedMillis) < Word.limit
  · rw [if_pos hsum]
    by_cases hzero : drainWindow d = 0
    · simp [hzero]
    · simp [hzero, hsum]
  · rw [if_neg hsum]
    simp [Nat.not_lt.1 hsum]

theorem closeCandidates_eq_error_iff {q : CloseQuery} :
    (∃ f, c.closeCandidates q = .error f) ↔
      ∃ g ∈ c.idleGroups q.key, Word.limit ≤ g.memoryUsed := by
  unfold closeCandidates
  dsimp only
  split
  · rename_i hall
    refine iff_of_false (by simp) ?_
    rintro ⟨g, hg, hsum⟩
    have hlt := List.all_eq_true.1 hall g hg
    rw [decide_eq_true_eq] at hlt
    omega
  · rename_i hall
    refine iff_of_true ⟨_, rfl⟩ ?_
    simpa using hall

/-- The cluster once its plan has been requested, where the sizes tell that it has to be. -/
def settled (c : Cluster) : Cluster := if c.roster.isReconciled then c else c.reconcile

lemma settled_eq (c : Cluster) :
    c.settled = if c.plan.size = c.requested.size then c else c.reconcile := by
  simp only [settled, Roster.isReconciled, roster, beq_iff_eq]

end Cluster

lemma QueueEstimate.target_eq_error_iff {tasks : List Task} {workers : List Worker}
    {observed : Nat} :
    (∃ f, QueueEstimate.target tasks workers observed = .error f) ↔
      underPressure workers = true ∧ Word.limit ≤ 2 * observed := by
  unfold target memoryTarget Word.mul
  simp only [bind, Except.bind, pure, Except.pure]
  cases hp : underPressure workers with
  | false => simp
  | true =>
    by_cases hlt : 2 * observed < Word.limit
    · simp [hlt]
    · simp [hlt, Nat.not_lt.1 hlt]

/-- The number of workers that the strategy of a policy finds for a cluster. -/
def Policy.estimate (p : Policy) (c : Cluster) : Except Fault Nat :=
  match p.strategy with
  | .duration => c.drainEstimate p.targetDuration
  | .queue => QueueEstimate.target c.tasks c.workers.values c.observed.size

/-- The strategy of a policy finds no number for a cluster. -/
def Policy.Overtaxed (p : Policy) (c : Cluster) : Prop :=
  match p.strategy with
  | .duration => Word.limit ≤ c.backlogMillis ∨ Cluster.drainWindow p.targetDuration = 0
  | .queue => underPressure c.workers.values = true ∧ Word.limit ≤ 2 * c.observed.size

lemma Policy.estimate_eq_error_iff (p : Policy) (c : Cluster) :
    (∃ f, p.estimate c = .error f) ↔ p.Overtaxed c := by
  unfold estimate Overtaxed
  cases p.strategy with
  | duration => exact Cluster.drainEstimate_eq_error_iff
  | queue => exact QueueEstimate.target_eq_error_iff

/-- The scheduler is asked for candidates and cannot sum the memory of an idle group. -/
def Advisor.Overtaxes (a : Advisor) (target : Nat) (c : Cluster) : Prop :=
  target < c.plan.size ∧ a.asksScheduler target c.roster = true ∧
    ∃ g ∈ c.idleGroups a.query.key, Word.limit ≤ g.memoryUsed

lemma Estimator.run_ofPolicy (p : Policy) (c : Cluster) :
    (ofPolicy p).target.run Cluster.host c = (c, (p.estimate c).map .ok) := by
  unfold ofPolicy Policy.estimate
  cases p.strategy with
  | duration => exact run_drain _ _ c
  | queue =>
    change queueTarget.run Cluster.host c = _
    unfold queueTarget
    rw [Exchange.run_bind_ok (a := .ok c.tasks) (Exchange.run_call Cluster.host .tasks c)]
    dsimp only
    rw [Exchange.run_bind_ok (a := .ok c.workers.values)
      (Exchange.run_call Cluster.host .workers c)]
    dsimp only
    rw [Exchange.run_bind_ok (Exchange.run_view Cluster.host c), Exchange.run_bind,
      Exchange.run_check]
    have hview : (Cluster.host.view c).roster.observed = c.observed := rfl
    rw [hview]
    cases QueueEstimate.target c.tasks c.workers.values c.observed.size <;> rfl

namespace Scaler

lemma execute_eq_ok (d : Recommendation) (c : Cluster) :
    ∃ result, ((execute d).run Cluster.host c).2 = .ok result := by
  cases d with
  | same => exact ⟨_, rfl⟩
  | up n =>
    rw [run_execute_up]
    simp only [Cluster.host, Cluster.serve]
    cases c.scale n <;> exact ⟨_, rfl⟩
  | down ws =>
    cases hws : ws.isEmpty with
    | false =>
      rw [run_execute_down hws]
      exact ⟨_, rfl⟩
    | true =>
      refine ⟨.ok (.scaledDown ws), ?_⟩
      simp only [execute, Executor.scaleDown, hws, if_true]
      rfl

/-- Acting meets a fault only in the search for candidates. -/
theorem act_eq_error_iff (s : Scaler) (target : Nat) (c : Cluster) :
    (∃ f, ((s.act target c.roster).run Cluster.host c).2 = .error f) ↔
      s.advisor.Overtaxes target c := by
  have hact : ∀ a decision y,
      (s.advisor.recommend target c.roster).run Cluster.host c = (y, .ok (a, .ok decision)) →
      ∃ result, ((s.act target c.roster).run Cluster.host c).2 = .ok result := by
    intro a decision y hr
    obtain ⟨result, he⟩ := execute_eq_ok decision y
    rw [run_act, hr]
    simp only [he]
    exact ⟨_, rfl⟩
  unfold Advisor.Overtaxes
  by_cases hle : c.plan.size ≤ target
  · obtain ⟨result, hok⟩ := hact _ _ _
      (Advisor.run_recommend_of_le (h := Cluster.host) (r := c.roster) (x := c) hle)
    rw [hok]
    refine iff_of_false (by simp) ?_
    rintro ⟨hlt, -⟩
    omega
  · have hlt : target < c.plan.size := by omega
    have hr := Advisor.run_recommend_of_lt (h := Cluster.host) (a := s.advisor) (r := c.roster)
      (x := c) hlt
    cases ha : s.advisor.asksScheduler target c.roster with
    | false =>
      rw [Advisor.run_candidates_of_pending ha] at hr
      obtain ⟨result, hok⟩ := hact _ _ _ hr
      rw [hok]
      simp
    | true =>
      rw [Advisor.run_candidates_of_query ha] at hr
      have hsums := Cluster.closeCandidates_eq_error_iff (c := c) (q := s.advisor.queryFor target)
      have hserve : Cluster.host.serve (.closeCandidates (s.advisor.queryFor target)) c =
          (c, (c.closeCandidates (s.advisor.queryFor target)).map .ok) := rfl
      rw [hserve] at hr
      cases hq : c.closeCandidates (s.advisor.queryFor target) with
      | error f =>
        rw [hq] at hr hsums
        have hsum := hsums.1 ⟨f, rfl⟩
        rw [run_act, hr]
        exact iff_of_true ⟨f, rfl⟩ ⟨hlt, rfl, hsum⟩
      | ok ids =>
        rw [hq] at hr hsums
        obtain ⟨result, hok⟩ := hact _ _ _ hr
        rw [hok]
        refine iff_of_false (by simp) ?_
        rintro ⟨-, -, hsum⟩
        obtain ⟨f, hf⟩ := hsums.2 hsum
        cases hf

lemma run_settledRoster_host (s : Scaler) (c : Cluster) :
    s.settledRoster.run Cluster.host c = (c.settled, .ok (.ok c.settled.roster)) := by
  rw [run_settledRoster]
  unfold Cluster.settled
  have hview : (Cluster.host.view c).roster = c.roster := rfl
  rw [hview]
  split <;> rfl

/-- The bounds of valid settings never cross, no more pending workers are taken than the plan has
above the target, and no count outgrows its word. So a tick on a cluster meets an arithmetic step
without a result exactly if the cluster is running and the policy is `Overtaxed` by it, or if the
cluster `settled` on its plan `Overtaxes` the scheduler that is asked for candidates. -/
theorem tick_faults_iff (hs : s.Serves settings) (c : Cluster) :
    s.policy.minimum ≤ s.policy.maximum ∧
    (∀ (target : Nat) (r : Roster), target < r.plan.size →
      (s.advisor.pendingShare target r).size ≤ r.plan.size - target) ∧
    (s.policy.waitCount < Word.shortLimit → ∀ w, s.debounce.count w + 1 < Word.shortLimit) ∧
    ((∃ f, (s.tick.run Cluster.host c).2 = .error f) ↔
      c.status.isRunning = true ∧
        (s.policy.Overtaxed c ∨
          ∃ raw target, s.policy.estimate c = .ok raw ∧ s.policy.clamp raw = .ok target ∧
            s.advisor.Overtaxes target c.settled)) := by
  have hbounds := Settings.minimum_le_maximum hs.policy
  refine ⟨hbounds, fun target r _ => s.advisor.size_pendingShare_le target r,
    hs.count_succ_lt, ?_⟩
  cases hrun : c.status.isRunning with
  | false =>
    rw [run_tick_of_not_running (h := Cluster.host) (x := c) hrun]
    simp
  | true =>
    rw [run_tick_of_running (h := Cluster.host) (x := c) hrun, run_prepare, run_safeTarget,
      hs.estimator, Estimator.run_ofPolicy, ← Policy.estimate_eq_error_iff]
    cases he : s.policy.estimate c with
    | error f => simp [Except.map]
    | ok raw =>
      have hclamp : s.policy.clamp raw = .ok (max s.policy.minimum (min raw s.policy.maximum)) :=
        Word.clamp_eq_ok_iff.2 ⟨hbounds, rfl⟩
      simp only [Except.map, hclamp, run_settledRoster_host]
      rw [act_eq_error_iff]
      constructor
      · intro h
        exact ⟨trivial, .inr ⟨raw, _, rfl, hclamp, h⟩⟩
      · rintro ⟨-, ⟨f, hf⟩ | ⟨raw', target, hraw, htarget, h⟩⟩
        · cases hf
        · cases hraw
          rw [hclamp] at htarget
          cases htarget
          exact h

/-- A backlog of two tasks, one of which lasts as long as a word can tell. -/
def longBacklog : Cluster :=
  Operation.applyAll (.create "z" 100)
    [.setTasks [⟨"a", .processing, [], some Word.largest⟩, ⟨"b", .waiting, [], some 1⟩]]

/-- The milliseconds of the backlog do not fit a word. -/
theorem tick_faults_longBacklog :
    downToOne.Serves Settings.downToOne ∧
      ∃ f, (downToOne.tick.run Cluster.host longBacklog).2 = .error f := by
  refine ⟨serves_downToOne, ?_⟩
  refine (tick_faults_iff serves_downToOne longBacklog).2.2.2.2 ⟨rfl, .inl ?_⟩
  have hsum : Word.limit ≤ longBacklog.backlogMillis := by decide +kernel
  exact .inl hsum

end Scaler

namespace Settings

/-- Two to the 61st seconds are a multiple of two to the 64th milliseconds. -/
def aeonic : Settings := { downToOne with targetDuration := "2305843009213693952" }

lemma toPolicy_aeonic :
    aeonic.toPolicy = .ok { Policy.standard with
      minimum := 1, waitCount := 1, targetDuration := .ofSeconds 2305843009213693952 } :=
  toPolicy_eq_ok (by decide +kernel) rfl (by decide) (by decide) (by decide +kernel)
    (by decide +kernel)

/-- Lets the workers of a host go together. -/
def hostByHost : Settings := { downToOne with workerKey := some .host }

lemma toPolicy_hostByHost :
    hostByHost.toPolicy = .ok { Policy.standard with
      minimum := 1, waitCount := 1, workerKey := some .host } :=
  toPolicy_eq_ok (by decide +kernel) rfl (by decide) (by decide) (by decide +kernel)
    (by decide +kernel)

end Settings

namespace Scaler

/-- Two idle workers of one host, one of which uses as much memory as a word can tell. -/
def fullHost : Cluster :=
  Operation.applyAll (.create "z" 100)
    [.addWorker { Worker.idle "a" Word.largest 0 with host := "h" },
      .addWorker { Worker.idle "b" 1 0 with host := "h" }]

/-- The window is cut off to nothing, a backlog is too long, and a group uses too much memory. -/
theorem tick_faults_on_valid_settings :
    (∃ s : Scaler, s.Serves Settings.aeonic ∧ (Cluster.create "z" 100).Reachable ∧
      (s.tick.run Cluster.host (Cluster.create "z" 100)).2 = .error .zeroDivisor) ∧
    (∃ s : Scaler, s.Serves Settings.downToOne ∧ longBacklog.Reachable ∧
      (s.tick.run Cluster.host longBacklog).2 = .error .sumTooLarge) ∧
    (∃ s : Scaler, s.Serves Settings.hostByHost ∧ fullHost.Reachable ∧
      (s.tick.run Cluster.host fullHost).2 = .error .sumTooLarge) := by
  refine ⟨⟨_, serves_ofPolicy Settings.toPolicy_aeonic, ⟨_, _, [], rfl⟩, ?_⟩,
    ⟨_, serves_downToOne, ⟨_, _, _, rfl⟩, ?_⟩,
    ⟨_, serves_ofPolicy Settings.toPolicy_hostByHost, ⟨_, _, _, rfl⟩, ?_⟩⟩
  · rfl
  · rfl
  · rfl

end Scaler

end Fleet
