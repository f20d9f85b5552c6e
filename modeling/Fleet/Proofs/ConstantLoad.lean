import Fleet.Proofs.Books
import Fleet.Proofs.Loading
import Fleet.Proofs.Settling

/-! Simulations under one load: the number of workers that the load calls for, and what a tick under
it makes of the number that there are. -/
namespace Fleet

lemma total_map_of_forall {α : Type} {l : List α} {f : α → Nat} {k : Nat}
    (h : ∀ a ∈ l, f a = k) : total (l.map f) = l.length * k := by
  rw [List.map_eq_replicate_iff.2 h, total_eq_foldr]
  exact List.sum_replicate_nat

/-- Of workers that have the same memory and use the same part of it, the number does not count. -/
lemma underPressure_alike_iff {ws : List Worker} {limit used : Nat}
    (hlimit : ∀ w ∈ ws, w.memoryLimit = limit) (hused : ∀ w ∈ ws, w.memoryUsed = used) :
    underPressure ws = true ↔ 0 < ws.length ∧ 0 < limit ∧ limit * 6 < used * 10 := by
  unfold underPressure
  dsimp only
  rw [total_map_of_forall hlimit, total_map_of_forall hused, Bool.and_eq_true, decide_eq_true_eq,
    decide_eq_true_eq, Nat.mul_assoc, Nat.mul_assoc]
  rcases Nat.eq_zero_or_pos ws.length with hzero | hpos
  · simp [hzero]
  · rw [Nat.mul_lt_mul_left hpos, Nat.mul_pos_iff_of_pos_left hpos]
    exact (and_iff_right hpos).symm

namespace Phase

variable {load : Phase} {memoryLimit : Nat}

/-- Workers with so much memory come under pressure, however many there are. -/
def Presses (load : Phase) (memoryLimit : Nat) : Prop :=
  0 < memoryLimit ∧ memoryLimit * 6 < load.memoryUsed memoryLimit * 10

instance : Decidable (load.Presses memoryLimit) :=
  inferInstanceAs (Decidable (_ ∧ _))

/-- How many workers the load calls for when there are so many. -/
def demand (load : Phase) (memoryLimit workers : Nat) : Nat :=
  max (if 2 * workers < load.tasks * load.dependents then load.tasks * 2 else load.tasks)
    (if load.Presses memoryLimit then 2 * workers else 0)

lemma filter_taskList (load : Phase) : load.taskList.filter Task.isUnblocked = load.taskList := by
  refine List.filter_eq_self.2 fun t ht => ?_
  rw [Task.isUnblocked, (task_of_mem_taskList ht).1]
  rfl

lemma upcoming_taskList (load : Phase) :
    QueueEstimate.upcoming load.taskList = load.tasks * load.dependents := by
  have hdependents : ∀ t ∈ load.taskList, t.dependents.length = load.dependents :=
    fun t ht => (task_of_mem_taskList ht).2.1
  rw [QueueEstimate.upcoming, List.length_flatMap, List.map_congr_left hdependents,
    List.map_const', List.sum_replicate_nat, length_taskList]

lemma backlogTarget_taskList (load : Phase) (workers : Nat) :
    QueueEstimate.backlogTarget load.taskList workers =
      if 2 * workers < load.tasks * load.dependents then load.tasks * 2 else load.tasks := by
  unfold QueueEstimate.backlogTarget
  dsimp only
  rw [filter_taskList, upcoming_taskList, length_taskList]

end Phase

namespace Cluster

variable {c : Cluster} {load : Phase} {memoryLimit : Nat} {d : Recommendation}

/-- Who is connected after the arrival is a newcomer or was connected before. -/
lemma newcomer_or_get?_of_arriveAll {x : Id} {w : Worker}
    (hw : c.reconcile.arriveAll.workers.get? x = some w) :
    w = c.reconcile.newcomer x ∨ c.workers.get? x = some w := by
  rw [get?_workers_arriveAll] at hw
  split at hw
  · cases hw
    exact .inl rfl
  · rw [reconcile, Dict.get?_eraseAll] at hw
    split at hw
    · cases hw
    · exact .inr hw

/-- Every connected worker has the memory, the host and the labels of those at the start of a
scenario, and so will have everyone who arrives. -/
structure Outfitted (memoryLimit : Nat) (c : Cluster) : Prop where
  memoryLimit_eq : c.memoryLimit = memoryLimit
  worker : ∀ x w, c.workers.get? x = some w →
    w.memoryLimit = memoryLimit ∧ w.host = "127.0.0.1" ∧ w.labels = ∅

/-- All workers use the same part of the same memory, so their number does not count. -/
lemma Outfitted.underPressure_iff (ho : c.Outfitted memoryLimit) (hc : c.Coherent)
    (hl : load.Loads memoryLimit c) :
    underPressure c.workers.values = true ↔ 0 < c.observed.size ∧ load.Presses memoryLimit := by
  have hlimit : ∀ w ∈ c.workers.values, w.memoryLimit = memoryLimit :=
    fun w hw => (ho.worker w.id w (hc.get?_of_mem_values hw)).1
  have hused : ∀ w ∈ c.workers.values, w.memoryUsed = load.memoryUsed memoryLimit :=
    fun w hw => hl.memoryUsed_eq w.id w (hc.get?_of_mem_values hw)
  rw [← length_values]
  exact underPressure_alike_iff hlimit hused

/-- Under the load the queue calls for its demand. Only under pressure on the memory can the number
be too large for a word. -/
theorem Outfitted.estimate_cases (ho : c.Outfitted memoryLimit) (hc : c.Coherent)
    (hl : load.Loads memoryLimit c) {p : Policy} (hq : p.strategy = .queue) :
    load.Presses memoryLimit ∧ (∃ f, p.estimate c = .error f) ∨
      p.estimate c = .ok (load.demand memoryLimit c.observed.size) := by
  have hpressure := ho.underPressure_iff hc hl
  have hestimate : p.estimate c = (QueueEstimate.memoryTarget c.workers.values c.observed.size).map
      fun n => max (QueueEstimate.backlogTarget c.tasks c.workers.values.length) n := by
    unfold Policy.estimate
    rw [hq]
    dsimp only
    unfold QueueEstimate.target
    cases QueueEstimate.memoryTarget c.workers.values c.observed.size <;> rfl
  rw [hestimate, hl.tasks_eq, load.backlogTarget_taskList, length_values]
  unfold QueueEstimate.memoryTarget Phase.demand
  by_cases hp : load.Presses memoryLimit
  · by_cases hsome : 0 < c.observed.size
    · rw [if_pos (hpressure.2 ⟨hsome, hp⟩), if_pos hp, Word.mul]
      by_cases hword : 2 * c.observed.size < Word.limit
      · rw [if_pos hword]
        exact .inr rfl
      · rw [if_neg hword]
        exact .inl ⟨hp, _, rfl⟩
    · have hzero : c.observed.size = 0 := by omega
      rw [if_neg fun hpressed => hsome (hpressure.1 hpressed).1, if_pos hp, hzero]
      exact .inr rfl
  · rw [if_neg fun hpressed => hp (hpressure.1 hpressed).2, if_neg hp]
    exact .inr rfl

lemma outfitted_seeded (s : Scenario) (m : Nat) : (s.seeded m).Outfitted s.memoryLimit := by
  constructor
  · obtain ⟨p, r, b, ws, hframe⟩ := s.seeded_frame m
    rw [hframe]
    rfl
  · intro x w hw
    obtain ⟨i, -, rfl⟩ := Scenario.exists_seed_of_get? hw
    exact ⟨rfl, rfl, rfl⟩

namespace Outfitted

variable {c' : Cluster}

lemma apply (ho : c.Outfitted memoryLimit) (h : load.apply c memoryLimit = .ok c') :
    c'.Outfitted memoryLimit := by
  obtain ⟨hframe, hget⟩ := Phase.apply_eq_ok h
  refine ⟨?_, fun x w hw => ?_⟩
  · rw [hframe]
    exact ho.memoryLimit_eq
  · rw [hget] at hw
    obtain ⟨v, hv, rfl⟩ := Option.map_eq_some_iff.1 hw
    exact ho.worker x v hv

lemma carryOut (ho : c.Outfitted memoryLimit) (d : Recommendation) :
    (c.carryOut d).Outfitted memoryLimit := by
  cases d with
  | same => exact ho
  | up n =>
    obtain ⟨k, b, p, he⟩ := c.grow_frame n
    rw [Cluster.carryOut, he]
    exact ⟨ho.memoryLimit_eq, ho.worker⟩
  | down ws =>
    refine ⟨?_, fun x w hw => ho.worker x w ?_⟩
    · obtain ⟨workers, gone, he⟩ := c.retire_frame (.close ws.toList)
      rw [Cluster.carryOut, he]
      exact ho.memoryLimit_eq
    · rw [Cluster.carryOut, scaleDown, Dict.get?_eraseAll] at hw
      split at hw
      · cases hw
      · exact get?_of_get?_retire hw

lemma reconcile_arriveAll (ho : c.Outfitted memoryLimit) :
    c.reconcile.arriveAll.Outfitted memoryLimit := by
  refine ⟨ho.memoryLimit_eq, fun x w hw => ?_⟩
  obtain rfl | hold := newcomer_or_get?_of_arriveAll hw
  · exact ⟨ho.memoryLimit_eq, rfl, rfl⟩
  · exact ho.worker x w hold

end Outfitted

/-- A decision that fits brings the plan to its size. -/
lemma size_carryOut (hd : c.Fits d) : (c.carryOut d).plan.size = d.resize c.plan.size := by
  cases d with
  | same => rfl
  | up n => exact size_grow (Nat.le_of_lt hd)
  | down ws =>
    rw [plan_letGo]
    exact (Nat.sub_eq_of_eq_add (IdSet.size_eraseAll_add ws.nodup hd.2).symm).symm

lemma Coherent.carryOut (hc : c.Coherent) (d : Recommendation) : (c.carryOut d).Coherent := by
  cases d with
  | same => exact hc
  | up n =>
    exact Coherent.planUpTo (c := { c with nextBatch := c.nextBatch + 1 }) ⟨hc.1, hc.2, hc.3⟩ _ _ _
  | down ws => exact (hc.retire _).scaleDown _

@[simp] lemma status_carryOut (c : Cluster) (d : Recommendation) :
    (c.carryOut d).status = c.status := by
  cases d with
  | same => rfl
  | up n => exact status_grow c n
  | down ws => exact status_letGo c ws

end Cluster

lemma Advisor.run_round_host_of_scheduler {a : Advisor} {target : Nat} {c : Cluster}
    (hs : a.source = .scheduler) (hlt : target < c.plan.size) :
    (a.round target c.roster).run Cluster.host c =
      (c, (c.closeCandidates (a.queryFor target)).map fun ids => .ok (.ofList ids)) := by
  have hserve : Cluster.host.serve (.closeCandidates (a.queryFor target)) c =
      (c, (c.closeCandidates (a.queryFor target)).map .ok) := rfl
  rw [run_round_of_scheduler (r := c.roster) hs hlt, hserve]
  cases c.closeCandidates (a.queryFor target) <;> rfl

namespace Scaler

lemma policy_note (s : Scaler) (d : Recommendation) : (s.note d).policy = s.policy := by
  unfold note
  split <;> rfl

/-- The log of a decision is the end of what it would be with unlimited room. -/
lemma events_note_suffix {s : Scaler} (hs : s.history.size ≤ s.history.capacity)
    (d : Recommendation) : (s.note d).history.events <:+ s.history.events ++ d.noted := by
  have hrecord : ∀ r, (s.history.record r).events <:+ s.history.events ++ [r] := by
    intro r
    rw [History.events_record _ r hs]
    exact List.drop_suffix _ _
  cases d with
  | same =>
    rw [Recommendation.noted, List.append_nil]
    exact List.suffix_rfl
  | up n => exact hrecord (.up n)
  | down ws => exact hrecord (.down ws)

lemma size_note_le_capacity {s : Scaler} (hs : s.history.size ≤ s.history.capacity)
    (d : Recommendation) : (s.note d).history.size ≤ (s.note d).history.capacity := by
  unfold note
  split
  · exact hs
  · exact History.size_record_le hs d

end Scaler

/-- The number of workers that a tick under the load aims at. -/
def Policy.goal (p : Policy) (load : Phase) (memoryLimit workers : Nat) : Nat :=
  p.within (load.demand memoryLimit workers)

namespace Simulation

variable {settings : Settings} {s : Scenario} {load : Phase} {tick : Nat} {before after : State}
  {c : Cluster} {ws gone : IdSet} {d : Recommendation}

/-- Between two ticks: the scaler serves its settings with the queue strategy, its log is no fuller
than it may be, and the planned workers of a running cluster are connected, and no others. -/
structure Ready (settings : Settings) (s : Scenario) (state : State) : Prop where
  serves : state.scaler.Serves settings
  strategy : state.scaler.policy.strategy = .queue
  size_le : state.scaler.history.size ≤ state.scaler.history.capacity
  running : state.cluster.status.isRunning = true
  coherent : state.cluster.Coherent
  steady : state.cluster.Steady
  outfitted : state.cluster.Outfitted s.memoryLimit

/-- The number of workers that the next tick aims at. -/
def State.goal (state : State) (s : Scenario) (load : Phase) : Nat :=
  state.scaler.policy.goal load s.memoryLimit state.cluster.plan.size

/-- A tick has put the load on the cluster, has found the candidates, has decided on them and has
carried the decision out; then the workers have arrived. -/
structure Advances (load : Phase) (s : Scenario) (before : State) (c : Cluster) (ws : IdSet)
    (d : Recommendation) (after : State) : Prop where
  loaded : load.apply before.cluster s.memoryLimit = .ok c
  round_eq : (before.scaler.advisor.round (before.goal s load) c.roster).run Cluster.host c =
    (c, .ok (.ok ws))
  verdict_eq : before.scaler.advisor.verdict (before.goal s load) c.roster ws = d
  after_eq : after = ⟨(before.scaler.counted ws).note d, (c.carryOut d).reconcile.arriveAll⟩

namespace Ready

/-- With the queue strategy the scheduler alone names the candidates. -/
lemma source_eq (hr : Ready settings s before) : before.scaler.advisor.source = .scheduler := by
  rw [hr.serves.source, Advisor.ofPolicy, hr.strategy]
  rfl

lemma key_eq (hr : Ready settings s before) :
    before.scaler.advisor.query.key = before.scaler.policy.workerKey := by
  rw [hr.serves.query]
  rfl

/-- The load changes nothing of what is said of a state between two ticks. -/
lemma reload (hr : Ready settings s before) (h : load.apply before.cluster s.memoryLimit = .ok c) :
    Ready settings s ⟨before.scaler, c⟩ ∧ load.Loads s.memoryLimit c ∧
      c.plan = before.cluster.plan ∧
      before.scaler.policy.within (load.demand s.memoryLimit c.observed.size) =
        before.goal s load := by
  obtain ⟨c', hc', hl⟩ := load.exists_apply before.cluster s.memoryLimit
  obtain rfl : c = c' := by
    rw [h] at hc'
    exact Except.ok.inj hc'
  obtain ⟨hframe, -⟩ := Phase.apply_eq_ok h
  have hrunning : c.status.isRunning = true := by
    rw [hframe]
    exact hr.running
  refine ⟨⟨hr.serves, hr.strategy, hr.size_le, hrunning, hl.coherent hr.coherent,
    hl.steady hr.steady, hr.outfitted.apply h⟩, Phase.loads_apply h, by rw [hframe], ?_⟩
  rw [hl.observed_eq, hr.steady.observed_eq]
  rfl

lemma step_eq (hphase : s.phaseAt tick = .ok (some load))
    (hloaded : load.apply before.cluster s.memoryLimit = .ok c) :
    step s tick before =
      match before.scaler.tick.run Cluster.host c with
      | (_, .error f) => .error (.fault f)
      | (c', .ok (scaler, _)) => .ok ⟨scaler, c'.reconcile.arriveAll⟩ := by
  have hload : Simulation.load s tick before.cluster = .ok c := by
    unfold Simulation.load
    rw [hphase]
    simp only [hloaded]
    rfl
  unfold step
  simp only [hload, bind, Except.bind]
  rcases before.scaler.tick.run Cluster.host c with ⟨c', f | ⟨scaler, result⟩⟩ <;> rfl

/-- A tick that meets no arithmetic step without a result leads to a state of the same kind. -/
theorem step_of_round (hr : Ready settings s before) (hphase : s.phaseAt tick = .ok (some load))
    (hloaded : load.apply before.cluster s.memoryLimit = .ok c)
    (he : before.scaler.policy.estimate c = .ok (load.demand s.memoryLimit c.observed.size))
    (hround : (before.scaler.advisor.round (before.goal s load) c.roster).run Cluster.host c =
      (c, .ok (.ok ws))) :
    ∃ d after, step s tick before = .ok after ∧ Advances load s before c ws d after ∧
      Ready settings s after := by
  obtain ⟨hc, hl, -, hgoal⟩ := hr.reload hloaded
  have hfits := Advisor.fits_verdict hc.coherent hc.steady (congrArg Prod.snd hround)
  have ht := Scaler.run_tick_of_estimate hr.serves hc.running hc.steady he
  rw [hgoal, Scaler.run_act_host hc.running hround rfl hfits] at ht
  refine ⟨_, _, (step_eq hphase hloaded).trans (by rw [ht]), ⟨hloaded, hround, rfl, rfl⟩, ?_⟩
  constructor
  · exact hr.serves.tick (congrArg Prod.snd ht)
  · rw [Scaler.policy_note]
    exact hr.strategy
  · exact Scaler.size_note_le_capacity (s := before.scaler.counted ws) hr.size_le _
  · change (c.carryOut _).status.isRunning = true
    rw [Cluster.status_carryOut]
    exact hc.running
  · exact (hc.coherent.carryOut _).reconcile.arriveAll
  · exact (hc.coherent.carryOut _).steady_reconcile_arriveAll
  · exact (hc.outfitted.carryOut _).reconcile_arriveAll

/-- A tick that returns has advanced the simulation to a state of the same kind. -/
theorem advances_of_step (hr : Ready settings s before)
    (hphase : s.phaseAt tick = .ok (some load)) (hstep : step s tick before = .ok after) :
    ∃ c ws d, Advances load s before c ws d after ∧ Ready settings s after := by
  obtain ⟨c, hloaded, -⟩ := load.exists_apply before.cluster s.memoryLimit
  obtain ⟨hc, hl, -, hgoal⟩ := hr.reload hloaded
  have hfault : ∀ f y, before.scaler.tick.run Cluster.host c ≠ (y, .error f) := by
    intro f y ht
    rw [step_eq hphase hloaded, ht] at hstep
    cases hstep
  obtain ⟨-, f, he⟩ | he := hc.outfitted.estimate_cases hc.coherent hl hr.strategy
  · exact absurd (Scaler.run_tick_of_no_estimate hr.serves hc.running he) (hfault f c)
  · obtain ⟨f, -, hround⟩ | ⟨ws, hround⟩ :=
      before.scaler.advisor.run_round_host (before.goal s load) c.roster c
    · have ht := Scaler.run_tick_of_estimate hr.serves hc.running hc.steady he
      rw [hgoal, Scaler.run_act, Advisor.run_recommend, hround] at ht
      exact absurd ht (hfault f c)
    · obtain ⟨d, after', hstep', hadvance, hready⟩ := hr.step_of_round hphase hloaded he hround
      rw [hstep] at hstep'
      cases hstep'
      exact ⟨c, ws, d, hadvance, hready⟩

end Ready

/-- What a tick may make of a number of workers. One that is below the goal comes to it at once. One
above it may fall, though not below the goal, and no further than workers have nothing to do. -/
inductive Move (goal : Nat → Nat) (tasks : Nat) : Nat → Recommendation → Nat → Prop
  | stay {n : Nat} (notBelow : goal n ≤ n) : Move goal tasks n .same n
  | up {n : Nat} (below : n < goal n) : Move goal tasks n (.up (goal n)) (goal n)
  | down {n m : Nat} {ws : IdSet} (above : goal n < n) (spare : tasks < n)
      (kept : max tasks (goal n) ≤ m) (fewer : m < n) : Move goal tasks n (.down ws) m

namespace Advances

/-- The workers that are let go are candidates that have nothing to do, no more than there are above
the goal. -/
lemma let_go (ha : Advances load s before c ws (.down gone) after) (hr : Ready settings s before) :
    gone.isEmpty = false ∧ before.goal s load < c.plan.size ∧
      gone.size ≤ c.plan.size - before.goal s load ∧
      ∀ w ∈ gone, c.IdleGroup before.scaler.policy.workerKey w := by
  obtain ⟨hc, -⟩ := hr.reload ha.loaded
  obtain ⟨rfl, hne⟩ := Advisor.verdict_eq_down ha.verdict_eq
  have hround := ha.round_eq
  have hidle : ∀ w ∈ ws, c.IdleGroup before.scaler.policy.workerKey w := by
    intro w hw
    rw [← hr.key_eq]
    exact Advisor.idleGroup_of_round hc.coherent hc.steady (congrArg Prod.snd hround) hw
  have hsub : ∀ w ∈ before.scaler.advisor.debounce.due ws, w ∈ ws :=
    fun w hw => Debounce.mem_of_mem_due hw
  refine ⟨hne, ?_⟩
  rcases Nat.lt_or_ge (before.goal s load) c.plan.size with hlt | hge
  · refine ⟨hlt, ?_, fun w hw => hidle w (hsub w hw)⟩
    rw [Advisor.run_round_host_of_scheduler hr.source_eq hlt] at hround
    cases hids : c.closeCandidates (before.scaler.advisor.queryFor (before.goal s load)) with
    | error f => simp [hids, Except.map] at hround
    | ok ids =>
      simp only [hids, Except.map, Prod.mk.injEq, Except.ok.injEq, true_and] at hround
      subst hround
      have hoffer := Cluster.length_closeCandidates_le hids
      rw [Cluster.closeLimit, hc.steady.size_workers] at hoffer
      exact (IdSet.size_le_of_subset hsub).trans ((IdSet.size_ofList_le ids).trans hoffer)
  · rw [Advisor.run_round_of_le (r := c.roster) hge] at hround
    cases hround
    have hnobody : (before.scaler.advisor.debounce.due ∅).size ≤ 0 := IdSet.size_le_of_subset hsub
    exact absurd (IdSet.size_pos_iff.2 hne) (Nat.not_lt.2 hnobody)

lemma size_eq (ha : Advances load s before c ws d after) (hr : Ready settings s before) :
    after.cluster.plan.size = d.resize before.cluster.plan.size := by
  obtain ⟨hc, -, hplan, -⟩ := hr.reload ha.loaded
  have hfits : c.Fits d := by
    rw [← ha.verdict_eq]
    exact Advisor.fits_verdict hc.coherent hc.steady (congrArg Prod.snd ha.round_eq)
  rw [ha.after_eq, ← hplan]
  exact Cluster.size_carryOut hfits

theorem move (ha : Advances load s before c ws d after) (hr : Ready settings s before) :
    Move (before.scaler.policy.goal load s.memoryLimit) load.tasks before.cluster.plan.size d
      after.cluster.plan.size := by
  obtain ⟨hc, hl, hplan, -⟩ := hr.reload ha.loaded
  have hsize : c.roster.plan.size = before.cluster.plan.size := congrArg IdSet.size hplan
  rw [ha.size_eq hr]
  cases d with
  | same =>
    refine .stay (Nat.not_lt.1 fun hlt => ?_)
    have hup := ha.verdict_eq
    have hbelow : c.roster.plan.size < before.goal s load := hsize.trans_lt hlt
    rw [Advisor.verdict, if_pos hbelow] at hup
    cases hup
  | up n =>
    obtain ⟨hlt, rfl⟩ := Advisor.verdict_eq_up ha.verdict_eq
    rw [hsize] at hlt
    exact .up hlt
  | down gone =>
    obtain ⟨hne, hlt, hoffer, hidle⟩ := ha.let_go hr
    have hspare : gone.size ≤ c.observed.size - load.tasks := by
      refine hl.size_idle_le hc.coherent fun x hx => ?_
      obtain ⟨w, hw, hzero, -⟩ := hidle x hx
      exact ⟨w, hw, hzero⟩
    have hpos : 0 < gone.size := IdSet.size_pos_iff.2 hne
    rw [hc.steady.observed_eq, hplan] at hspare
    rw [hplan] at hlt hoffer
    change before.scaler.policy.goal load s.memoryLimit before.cluster.plan.size < _ at hlt
    change _ ≤ _ - before.scaler.policy.goal load s.memoryLimit before.cluster.plan.size at hoffer
    refine .down hlt (by omega) ?_ ?_
    · change _ ≤ before.cluster.plan.size - gone.size
      omega
    · change before.cluster.plan.size - gone.size < _
      omega

/-- The log after a tick is the end of the log before it and what the tick has noted. -/
lemma events_suffix (ha : Advances load s before c ws d after) (hr : Ready settings s before) :
    after.scaler.history.events <:+ before.scaler.history.events ++ d.noted := by
  rw [ha.after_eq]
  exact Scaler.events_note_suffix (s := before.scaler.counted ws) hr.size_le d

end Advances

/-- What every tick under the load keeps, a run of ticks keeps. -/
theorem Ready.steps_keep {P : State → Prop} (hphase : ∀ tick, s.phaseAt tick = .ok (some load))
    (hkeep : ∀ before c ws d after, Ready settings s before → P before →
      Advances load s before c ws d after → P after)
    {n : Nat} (hr : Ready settings s before) (hP : P before)
    (hsteps : steps s n tick before = .ok after) : P after := by
  induction n generalizing tick before with
  | zero =>
    cases hsteps
    exact hP
  | succ n ih =>
    rw [steps] at hsteps
    cases hstep : step s tick before with
    | error e =>
      rw [hstep] at hsteps
      cases hsteps
    | ok next =>
      rw [hstep] at hsteps
      obtain ⟨c, ws, d, hadvance, hready⟩ := hr.advances_of_step (hphase tick) hstep
      exact ih hready (hkeep _ c ws d _ hr hP hadvance) hsteps

lemma ready_start {p : Policy} (hp : settings.toPolicy = .ok p) (hq : p.strategy = .queue)
    (s : Scenario) : Ready settings s ⟨.ofPolicy p, s.cluster⟩ where
  serves := Scaler.serves_ofPolicy hp
  strategy := hq
  size_le := Nat.zero_le _
  running := s.accounted_cluster.running
  coherent := s.coherent_seeded s.workers
  steady := s.steady_seeded s.workers
  outfitted := Cluster.outfitted_seeded s s.workers

end Simulation

/-- The only phase of a scenario lasts for ever. -/
lemma Scenario.phaseAt_single {s : Scenario} {load : Phase} (hs : s.phases = [load])
    (hticks : load.ticks < Word.shortLimit) (tick : Nat) : s.phaseAt tick = .ok (some load) := by
  unfold phaseAt
  rw [hs]
  simp only [phaseFrom, Nat.zero_add, if_pos hticks]
  split <;> rfl

end Fleet
