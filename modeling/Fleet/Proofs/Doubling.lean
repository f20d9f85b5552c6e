import Fleet.Proofs.Churn
import Fleet.Proofs.DrainWindow
import Fleet.Proofs.QueueLaws

/-! Rounds in which every worker is short of memory. From round to round there are twice as many
workers, until there are as many as the policy allows, and then nothing is done. -/
namespace Fleet

/-- The strategy finds no number of workers when so many are under pressure. -/
def Policy.OvertaxedBy (p : Policy) (c : Cluster) (n : Nat) : Prop :=
  match p.strategy with
  | .duration => Word.limit ≤ c.backlogMillis ∨ Cluster.drainWindow p.targetDuration = 0
  | .queue => Word.limit ≤ 2 * n

/-- The number of workers that has been doubled so often, but no more than the policy allows. -/
def Policy.doubled (p : Policy) (n k : Nat) : Nat := min p.maximum (n * 2 ^ k)

/-- The decision to have twice the workers, but no more than the policy allows. -/
def Policy.growth (p : Policy) (n : Nat) : Recommendation :=
  if n < p.maximum then .up (min p.maximum (2 * n)) else .same

namespace Cluster

variable {c : Cluster} {p : Policy} {used n : Nat} {busy : Worker → Nat}

/-- All connected workers report that they use so much memory, and how many tasks they work on. -/
def reports (c : Cluster) (used : Nat) (busy : Worker → Nat) : List Operation :=
  c.workers.entries.map fun e => .setLoad e.1 used (busy e.2)

/-- The cluster after the reports. -/
def reported (c : Cluster) (used : Nat) (busy : Worker → Nat) : Cluster :=
  Operation.applyAll c (c.reports used busy)

lemma apply_setLoad (c : Cluster) (x : Id) (used processing : Nat) :
    ((Operation.setLoad x used processing).apply c).1 =
      { c with workers := c.workers.modify x fun w => w.loaded used processing } := by
  simp only [Operation.apply, setLoad]
  by_cases hx : c.workers.contains x = true
  · rw [if_pos hx]
    rfl
  · have hnone : c.workers.get? x = none := by simpa [Dict.contains] using hx
    have hsame : (c.workers.modify x fun w => w.loaded used processing) = c.workers := by
      refine Dict.ext_get? fun y => ?_
      rw [Dict.get?_modify]
      split
      · subst_vars
        rw [hnone]
        rfl
      · rfl
    rw [if_neg hx, hsame]

lemma applyAll_setLoads (items : List (Id × Worker)) (c : Cluster) :
    Operation.applyAll c (items.map fun e => .setLoad e.1 used (busy e.2)) =
      { c with
        workers := items.foldl (fun ws e => ws.modify e.1 (·.loaded used (busy e.2))) c.workers } := by
  induction items generalizing c with
  | nil => rfl
  | cons e items ih =>
    rw [List.map_cons, Operation.applyAll, List.foldl_cons, apply_setLoad]
    exact ih _

/-- Everybody has what was reported, and nothing else has changed. -/
theorem reported_eq (c : Cluster) (used : Nat) (busy : Worker → Nat) :
    c.reported used busy =
      { c with workers := c.workers.mapValues fun w => w.loaded used (busy w) } := by
  rw [reported, reports, applyAll_setLoads]
  congr 1
  refine Dict.ext_get? fun x => ?_
  have hget := Dict.get?_foldl_modify c.workers.keys.nodup
    (fun v w : Worker => w.loaded used (busy v)) c.workers x
  have hitem : Dict.lookup x c.workers.entries = c.workers.get? x := rfl
  rw [hitem] at hget
  rw [Dict.get?_mapValues]
  refine hget.trans ?_
  cases c.workers.get? x <;> rfl

section Reported

variable (c : Cluster) (used : Nat) (busy : Worker → Nat)

@[simp] lemma status_reported : (c.reported used busy).status = c.status := by rw [reported_eq]

@[simp] lemma plan_reported : (c.reported used busy).plan = c.plan := by rw [reported_eq]

@[simp] lemma requested_reported : (c.reported used busy).requested = c.requested := by
  rw [reported_eq]

@[simp] lemma tasks_reported : (c.reported used busy).tasks = c.tasks := by rw [reported_eq]

@[simp] lemma memoryLimit_reported : (c.reported used busy).memoryLimit = c.memoryLimit := by
  rw [reported_eq]

@[simp] lemma observed_reported : (c.reported used busy).observed = c.observed := by
  rw [reported_eq]
  exact Dict.keys_mapValues _ c.workers

@[simp] lemma get?_workers_reported (x : Id) : (c.reported used busy).workers.get? x =
    (c.workers.get? x).map fun w => w.loaded used (busy w) := by
  rw [reported_eq]
  exact Dict.get?_mapValues _ c.workers x

@[simp] lemma values_reported : (c.reported used busy).workers.values =
    c.workers.values.map fun w => w.loaded used (busy w) := by
  rw [reported_eq]
  exact Dict.values_mapValues _ c.workers

end Reported

/-- The cluster runs, and the planned workers are connected, and no others. They all have the memory
of a newcomer. There are as many as the policy asks for and no more than it allows, and no fewer
than unblocked tasks. -/
structure Uniform (p : Policy) (c : Cluster) : Prop where
  running : c.status.isRunning = true
  steady : c.Steady
  memoryLimit_eq : ∀ x w, c.workers.get? x = some w → w.memoryLimit = c.memoryLimit
  size_pos : 0 < c.plan.size
  minimum_le : p.minimum ≤ c.plan.size
  le_maximum : c.plan.size ≤ p.maximum
  backlog_le : c.backlog.length ≤ c.plan.size

/-- So much memory in use is more than six tenths of what a newcomer has. -/
def ShortOfMemory (c : Cluster) (used : Nat) : Prop :=
  0 < c.memoryLimit ∧ c.memoryLimit * 6 < used * 10

lemma growth_frame (c : Cluster) (p : Policy) (n : Nat) :
    ∃ k b plan m, c.carryOut (p.growth n) =
      { c with nextId := k, batches := b, plan := plan, nextBatch := m } := by
  unfold Policy.growth
  split
  · obtain ⟨k, b, plan, hframe⟩ := c.grow_frame (min p.maximum (2 * n))
    exact ⟨k, b, plan, _, hframe⟩
  · exact ⟨_, _, _, _, rfl⟩

namespace Uniform

lemma reported (hu : c.Uniform p) (used : Nat) (busy : Worker → Nat) :
    (c.reported used busy).Uniform p where
  running := by simpa using hu.running
  steady := ⟨by simpa using hu.steady.requested_eq, by simpa using hu.steady.observed_eq⟩
  memoryLimit_eq x w hw := by
    rw [get?_workers_reported] at hw
    obtain ⟨v, hv, rfl⟩ := Option.map_eq_some_iff.1 hw
    rw [memoryLimit_reported]
    exact hu.memoryLimit_eq x v hv
  size_pos := by simpa using hu.size_pos
  minimum_le := by simpa using hu.minimum_le
  le_maximum := by simpa using hu.le_maximum
  backlog_le := by simpa [backlog] using hu.backlog_le

/-- With the reports that they are short of memory the workers are under pressure. -/
lemma underPressure_reported (hu : c.Uniform p) (hc : c.Coherent) (hshort : c.ShortOfMemory used)
    (busy : Worker → Nat) : underPressure (c.reported used busy).workers.values = true := by
  have hlimit : ∀ w ∈ (c.reported used busy).workers.values, w.memoryLimit = c.memoryLimit := by
    intro w hw
    rw [values_reported] at hw
    obtain ⟨v, hv, rfl⟩ := List.mem_map.1 hw
    exact hu.memoryLimit_eq v.id v (hc.get?_of_mem_values hv)
  have hused : ∀ w ∈ (c.reported used busy).workers.values, w.memoryUsed = used := by
    intro w hw
    rw [values_reported] at hw
    obtain ⟨v, -, rfl⟩ := List.mem_map.1 hw
    rfl
  refine (underPressure_alike_iff hlimit hused).2 ⟨?_, hshort⟩
  rw [values_reported, List.length_map, length_values, hu.steady.observed_eq]
  exact hu.size_pos

/-- Under pressure both strategies call for twice the workers: the backlog alone calls for no more
than that. -/
theorem estimate_eq (hu : c.Uniform p) (hpressed : underPressure c.workers.values = true)
    (he : p.estimate c = .ok n) : n = 2 * c.plan.size := by
  have hmemory : c.workersForMemory = 2 * c.plan.size := by
    rw [workersForMemory, if_pos hpressed, hu.steady.size_workers]
  have hbacklog := hu.backlog_le
  unfold Policy.estimate at he
  cases hstrategy : p.strategy with
  | duration =>
    rw [hstrategy] at he
    obtain ⟨-, -, rfl⟩ := drainEstimate_eq_ok_iff.1 he
    have hwithin : c.workersWithin (drainWindow p.targetDuration) ≤ c.backlog.length :=
      Nat.min_le_right _ _
    omega
  | queue =>
    rw [hstrategy] at he
    obtain ⟨-, rfl⟩ := exists_of_queueEstimate he
    have htwice : QueueEstimate.backlogTarget c.tasks c.workers.values.length ≤
        2 * c.backlog.length := QueueEstimate.backlogTarget_le _ _
    omega

/-- Growing to no more than the policy allows leads to a cluster of the same kind. -/
lemma grown (hu : c.Uniform p) (hc : c.Coherent) (hle : c.plan.size ≤ n) (hn : n ≤ p.maximum) :
    (c.grow n).reconcile.arriveAll.Uniform p := by
  have hsize : (c.grow n).reconcile.arriveAll.plan.size = n := size_grow hle
  have hpositive := hu.size_pos
  have hminimum := hu.minimum_le
  have hbacklog := hu.backlog_le
  obtain ⟨k, b, plan, hframe⟩ := c.grow_frame n
  constructor
  · rw [hframe]
    exact hu.running
  · exact (hc.carryOut (.up n)).steady_reconcile_arriveAll
  · have hlimit : (c.grow n).reconcile.arriveAll.memoryLimit = c.memoryLimit := by
      rw [hframe]
      rfl
    intro x w hw
    obtain rfl | hold := newcomer_or_get?_of_arriveAll hw
    · rfl
    · rw [workers_grow] at hold
      rw [hlimit]
      exact hu.memoryLimit_eq x w hold
  · omega
  · omega
  · omega
  · have hsame : (c.grow n).reconcile.arriveAll.backlog = c.backlog := by
      rw [hframe]
      rfl
    rw [hsame]
    omega

/-- The growth can be carried out, and it leads to a cluster of the same kind. -/
lemma carryOut_growth (hu : c.Uniform p) (hc : c.Coherent) :
    c.Fits (p.growth c.plan.size) ∧
      (c.carryOut (p.growth c.plan.size)).reconcile.arriveAll.Uniform p ∧
      (c.carryOut (p.growth c.plan.size)).plan.size = min p.maximum (2 * c.plan.size) := by
  have hpositive := hu.size_pos
  have hmaximum := hu.le_maximum
  unfold Policy.growth
  split
  · have hlt : c.plan.size < min p.maximum (2 * c.plan.size) := by omega
    exact ⟨hlt, hu.grown hc (Nat.le_of_lt hlt) (Nat.min_le_left _ _), size_grow (Nat.le_of_lt hlt)⟩
  · refine ⟨trivial, ?_, ?_⟩
    · rw [carryOut, hu.steady.reconcile_arriveAll]
      exact hu
    · rw [carryOut]
      omega

/-- Of the cluster only the tasks and the number of workers count. -/
lemma overtaxed_iff {start : Cluster} (hu : c.Uniform p)
    (hpressed : underPressure c.workers.values = true) (htasks : c.tasks = start.tasks) :
    p.Overtaxed c ↔ p.OvertaxedBy start c.plan.size := by
  have hmillis : c.backlogMillis = start.backlogMillis := by
    rw [backlogMillis, backlog, htasks]
    rfl
  unfold Policy.Overtaxed Policy.OvertaxedBy
  cases p.strategy with
  | duration => rw [hmillis]
  | queue => rw [hu.steady.observed_eq, and_iff_right hpressed]

end Uniform

end Cluster

lemma Advisor.verdict_growth {a : Advisor} {p : Policy} {c : Cluster} (hpositive : 0 < c.plan.size)
    (hmaximum : c.plan.size ≤ p.maximum) :
    a.verdict (min p.maximum (2 * c.plan.size)) c.roster ∅ = p.growth c.plan.size := by
  have hplan : c.roster.plan.size = c.plan.size := rfl
  by_cases hlt : c.plan.size < p.maximum
  · rw [Policy.growth, if_pos hlt, Advisor.verdict, if_pos (by omega)]
  · rw [Policy.growth, if_neg hlt, Advisor.verdict_of_le (by omega)]
    rfl

namespace Policy

variable {p : Policy} {n : Nat}

lemma within_eq_min (hminimum : p.minimum ≤ n) (hmaximum : n ≤ p.maximum) :
    p.within (2 * n) = min p.maximum (2 * n) := by
  unfold within
  omega

lemma doubled_zero (hmaximum : n ≤ p.maximum) : p.doubled n 0 = n := by
  unfold doubled
  omega

lemma doubled_succ (p : Policy) (n k : Nat) :
    p.doubled n (k + 1) = min p.maximum (2 * p.doubled n k) := by
  unfold doubled
  rw [Nat.pow_succ, ← Nat.mul_assoc]
  omega

lemma outcome_growth (p : Policy) (n k : Nat) :
    (p.growth (p.doubled n k)).outcome =
      if p.doubled n k < p.maximum then .scaledUp (p.doubled n (k + 1)) else .unchanged := by
  rw [growth, doubled_succ]
  split <;> rfl

end Policy

namespace Simulation

variable {settings : Settings} {p : Policy} {start : Cluster} {used : Nat} {state : State}

/-- A round: the workers report, there is a tick, and those whom it has planned arrive. -/
def pressedStep (used : Nat) (busy : Worker → Nat) (state : State) :
    Except Fault (State × Except TickError Outcome) :=
  match state.scaler.tick.run Cluster.host (state.cluster.reported used busy) with
  | (_, .error f) => .error f
  | (c, .ok (s, result)) => .ok (⟨s, Operation.applyAll c [.reconcile, .arriveAll]⟩, result)

/-- So many rounds, with what each tick came to. -/
def pressedSteps (used : Nat) (busy : Nat → Worker → Nat) (state : State) :
    Nat → Except Fault (State × List (Except TickError Outcome))
  | 0 => .ok (state, [])
  | k + 1 => do
    let (state, results) ← pressedSteps used busy state k
    let (state, result) ← pressedStep used (busy k) state
    return (state, results ++ [result])

/-- Between two rounds: the scaler serves its settings by the policy, and the workers are alike. The
tasks and the memory of newcomers are those of the start. -/
structure Pressed (settings : Settings) (p : Policy) (start : Cluster) (state : State) : Prop where
  serves : state.scaler.Serves settings
  policy_eq : state.scaler.policy = p
  coherent : state.cluster.Coherent
  uniform : state.cluster.Uniform p
  tasks_eq : state.cluster.tasks = start.tasks
  memoryLimit_eq : state.cluster.memoryLimit = start.memoryLimit

namespace Pressed

variable {s : Scaler} {c : Cluster}

/-- The reports change nothing of what is said of a state between two rounds. -/
lemma reported (h : Pressed settings p start state) (used : Nat) (busy : Worker → Nat) :
    Pressed settings p start ⟨state.scaler, state.cluster.reported used busy⟩ where
  serves := h.serves
  policy_eq := h.policy_eq
  coherent := h.coherent.applyAll _
  uniform := h.uniform.reported used busy
  tasks_eq := by simpa using h.tasks_eq
  memoryLimit_eq := by simpa using h.memoryLimit_eq

/-- A tick that finds the workers under pressure plans for twice as many, if the policy allows so
many, unless there is no number for them. -/
theorem tick_cases (h : Pressed settings p start ⟨s, c⟩)
    (hpressed : underPressure c.workers.values = true) :
    p.OvertaxedBy start c.plan.size ∧ (∃ f, s.tick.run Cluster.host c = (c, .error f)) ∨
      ¬ p.OvertaxedBy start c.plan.size ∧
        ∃ s', s.tick.run Cluster.host c = (c.carryOut (p.growth c.plan.size),
            .ok (s', .ok (p.growth c.plan.size).outcome)) ∧
          Pressed settings p start ⟨s', (c.carryOut (p.growth c.plan.size)).reconcile.arriveAll⟩ := by
  obtain ⟨hs, rfl, hc, hu, htasks, hlimit⟩ := h
  have hover := hu.overtaxed_iff hpressed htasks
  rw [← Policy.estimate_eq_error_iff] at hover
  cases he : s.policy.estimate c with
  | error f => exact .inl ⟨hover.1 ⟨f, he⟩, f, Scaler.run_tick_of_no_estimate hs hu.running he⟩
  | ok raw =>
    have hvalue : ¬ ∃ f, s.policy.estimate c = .error f := by
      rw [he]
      simp
    obtain rfl := hu.estimate_eq hpressed he
    obtain ⟨hfits, hafter, -⟩ := hu.carryOut_growth hc
    -- the target is not below the plan, so that nobody is looked for who could go
    have hround : (s.advisor.round (min s.policy.maximum (2 * c.plan.size)) c.roster).run
        Cluster.host c = (c, .ok (.ok ∅)) :=
      Advisor.run_round_of_le (Nat.le_min.2 ⟨hu.le_maximum, Nat.le_mul_of_pos_left _ Nat.two_pos⟩)
    have htick := Scaler.run_tick_of_estimate hs hu.running hu.steady he
    rw [Policy.within_eq_min hu.minimum_le hu.le_maximum, Scaler.run_act_host hu.running hround
      (Advisor.verdict_growth hu.size_pos hu.le_maximum) hfits] at htick
    obtain ⟨k, b, plan, m, hframe⟩ := c.growth_frame s.policy c.plan.size
    refine .inr ⟨mt hover.2 hvalue, _, htick, hs.tick (congrArg Prod.snd htick),
      Scaler.policy_note _ _, (hc.carryOut _).reconcile.arriveAll, hafter, ?_, ?_⟩
    · rw [hframe]
      exact htasks
    · rw [hframe]
      exact hlimit

/-- A round ends in a fault, or it leaves twice the workers, if the policy allows so many. -/
theorem step_cases (h : Pressed settings p start state) (hshort : start.ShortOfMemory used)
    (busy : Worker → Nat) :
    p.OvertaxedBy start state.cluster.plan.size ∧
        (∃ f, pressedStep used busy state = .error f) ∨
      ¬ p.OvertaxedBy start state.cluster.plan.size ∧
        ∃ after, pressedStep used busy state =
            .ok (after, .ok (p.growth state.cluster.plan.size).outcome) ∧
          Pressed settings p start after ∧
          after.cluster.plan.size = min p.maximum (2 * state.cluster.plan.size) := by
  have hreported := h.reported used busy
  have hshort' : state.cluster.ShortOfMemory used := by
    rw [Cluster.ShortOfMemory, h.memoryLimit_eq]
    exact hshort
  have hpressed := h.uniform.underPressure_reported h.coherent hshort' busy
  unfold pressedStep
  rw [← state.cluster.plan_reported used busy]
  obtain ⟨hover, f, htick⟩ | ⟨hover, s', htick, hafter⟩ := hreported.tick_cases hpressed
  · refine .inl ⟨hover, f, ?_⟩
    rw [htick]
  · refine .inr ⟨hover, _, ?_, hafter, ?_⟩
    · rw [htick]
      rfl
    · exact (hreported.uniform.carryOut_growth hreported.coherent).2.2

/-- So many rounds end in the fault of the first of them that finds no number, or they double the
workers so often. -/
theorem steps_cases (h : Pressed settings p start state) (hshort : start.ShortOfMemory used)
    (busy : Nat → Worker → Nat) (k : Nat) :
    (∃ j < k, p.OvertaxedBy start (p.doubled state.cluster.plan.size j)) ∧
        (∃ f, pressedSteps used busy state k = .error f) ∨
      (∀ j < k, ¬ p.OvertaxedBy start (p.doubled state.cluster.plan.size j)) ∧
        ∃ after, pressedSteps used busy state k = .ok (after, (List.range k).map fun j =>
            .ok (p.growth (p.doubled state.cluster.plan.size j)).outcome) ∧
          Pressed settings p start after ∧
          after.cluster.plan.size = p.doubled state.cluster.plan.size k := by
  -- on the number of rounds; the last one begins where the others have ended
  induction k with
  | zero =>
    refine .inr ⟨fun j hj => absurd hj (Nat.not_lt_zero j), state, rfl, h, ?_⟩
    exact (Policy.doubled_zero h.uniform.le_maximum).symm
  | succ k ih =>
    obtain ⟨⟨j, hj, hover⟩, f, hpast⟩ | ⟨hbefore, middle, hpast, hmiddle, hsize⟩ := ih
    · refine .inl ⟨⟨j, Nat.lt_succ_of_lt hj, hover⟩, f, ?_⟩
      rw [pressedSteps, hpast]
      rfl
    · obtain ⟨hover, f, hstep⟩ | ⟨hover, after, hstep, hafter, hdouble⟩ :=
        hmiddle.step_cases hshort (busy k)
      · rw [hsize] at hover
        refine .inl ⟨⟨k, Nat.lt_succ_self k, hover⟩, f, ?_⟩
        rw [pressedSteps, hpast]
        simp only [bind, Except.bind, hstep]
      · rw [hsize] at hover hstep hdouble
        refine .inr ⟨fun j hj => ?_, after, ?_, hafter, hdouble.trans (p.doubled_succ _ k).symm⟩
        · rcases Nat.lt_succ_iff_lt_or_eq.1 hj with hj | rfl
          · exact hbefore j hj
          · exact hover
        · rw [pressedSteps, hpast, List.range_succ, List.map_append]
          simp only [bind, Except.bind, hstep]
          rfl

end Pressed

/-- All workers of a `Uniform` cluster are short of memory in every round of `pressedSteps`. The
rounds end in a fault exactly if the policy is `OvertaxedBy` the number of workers in one of them.
Else each of them plans for twice as many, or for the maximum if that is less, and those who are
planned are connected at its end. Once there are as many as the policy allows, nothing is done. -/
theorem doubles_up_to_maximum {s : Scaler} {c : Cluster} (hs : s.Serves settings)
    (hc : c.Reachable) (hu : c.Uniform s.policy) (hshort : c.ShortOfMemory used)
    (busy : Nat → Worker → Nat) (k : Nat) :
    ((∃ f, pressedSteps used busy ⟨s, c⟩ k = .error f) ↔
      ∃ j < k, s.policy.OvertaxedBy c (s.policy.doubled c.plan.size j)) ∧
    ∀ after results, pressedSteps used busy ⟨s, c⟩ k = .ok (after, results) →
      after.cluster.Steady ∧
      after.cluster.plan.size = min s.policy.maximum (c.plan.size * 2 ^ k) ∧
      after.cluster.observed.size = min s.policy.maximum (c.plan.size * 2 ^ k) ∧
      results = (List.range k).map fun j => .ok <|
        if s.policy.doubled c.plan.size j < s.policy.maximum then
          .scaledUp (s.policy.doubled c.plan.size (j + 1))
        else .unchanged := by
  have hstart : Pressed settings s.policy c ⟨s, c⟩ := ⟨hs, rfl, hc.coherent, hu, rfl, rfl⟩
  obtain ⟨hover, f, hfault⟩ | ⟨hnever, after, hsteps, hafter, hsize⟩ :=
    hstart.steps_cases hshort busy k
  · rw [hfault]
    exact ⟨iff_of_true ⟨f, rfl⟩ hover, by simp⟩
  · rw [hsteps]
    refine ⟨iff_of_false (by simp) ?_, ?_⟩
    · rintro ⟨j, hj, hover⟩
      exact hnever j hj hover
    · intro after' results hsame
      cases hsame
      have hsteady := hafter.uniform.steady
      refine ⟨hsteady, hsize, hsteady.observed_eq ▸ hsize, ?_⟩
      exact List.map_congr_left fun j _ => congrArg Except.ok (s.policy.outcome_growth _ j)

end Simulation

namespace Settings

/-- Asks for as many workers as the queue calls for, up to five. -/
def upToFive : Settings := { standard with maximum := some 5, strategy := .queue }

lemma toPolicy_upToFive :
    upToFive.toPolicy = .ok { Policy.standard with maximum := 5, strategy := .queue } :=
  toPolicy_eq_ok (by decide +kernel) rfl (by decide) (by decide) (by decide +kernel)
    (by decide +kernel)

end Settings

namespace Simulation

/-- One worker for one task. -/
def alone : Cluster :=
  Operation.applyAll (.create "z" 100)
    [.addWorker (.idle "a" 0 100), .setTasks [⟨"t", .processing, [], none⟩]]

lemma uniform_alone {p : Policy} (hminimum : p.minimum ≤ 1) (hmaximum : 1 ≤ p.maximum) :
    alone.Uniform p := by
  refine ⟨rfl, ⟨by decide, by decide⟩, fun x w hw => ?_, by decide, hminimum, hmaximum, by decide⟩
  have hall : ∀ e ∈ alone.workers.entries, e.2.memoryLimit = alone.memoryLimit := by decide
  exact hall (x, w) (Dict.get?_eq_some_iff.1 hw)

/-- One worker becomes two, then four, then five, and five stay. -/
theorem doubles_up_to_maximum_alone :
    alone.Reachable ∧ alone.ShortOfMemory 61 ∧
    ∃ s : Scaler, s.Serves Settings.upToFive ∧ alone.Uniform s.policy ∧
      ∃ after, pressedSteps 61 (fun _ _ => 0) ⟨s, alone⟩ 4 =
          .ok (after, [.ok (.scaledUp 2), .ok (.scaledUp 4), .ok (.scaledUp 5), .ok .unchanged]) ∧
        after.cluster.plan.size = 5 ∧ after.cluster.observed.size = 5 := by
  have hreach : alone.Reachable := ⟨_, _, _, rfl⟩
  have hshort : alone.ShortOfMemory 61 := ⟨by decide, by decide⟩
  have hs := Scaler.serves_ofPolicy Settings.toPolicy_upToFive
  have hu : alone.Uniform { Policy.standard with maximum := 5, strategy := .queue } :=
    uniform_alone (by decide) (by decide)
  obtain ⟨hfault, hdone⟩ := doubles_up_to_maximum hs hreach hu hshort (fun _ _ => 0) 4
  refine ⟨hreach, hshort, _, hs, hu, ?_⟩
  cases hsteps : pressedSteps 61 (fun _ _ => 0) ⟨Scaler.ofPolicy
      { Policy.standard with maximum := 5, strategy := .queue }, alone⟩ 4 with
  | error f =>
    obtain ⟨j, -, hover⟩ := hfault.1 ⟨f, hsteps⟩
    have hsmall : 2 * min 5 (1 * 2 ^ j) < Word.limit :=
      (Nat.mul_le_mul_left 2 (Nat.min_le_left _ _)).trans_lt (by decide)
    exact absurd hover (Nat.not_le.2 hsmall)
  | ok result =>
    obtain ⟨after, results⟩ := result
    obtain ⟨-, hplan, hobserved, rfl⟩ := hdone after results hsteps
    exact ⟨after, rfl, hplan, hobserved⟩

end Simulation

end Fleet
