import Fleet.Proofs.Replay
import Fleet.Scenario.Simulation

/-! Simulations. One that no overflow and no division by zero ends makes only ticks that succeed,
and its history replays to the plan it ends with. -/
namespace Fleet

namespace Cluster

variable {c c' : Cluster} {size : Nat} {events : List Recommendation}

/-- The clusters differ in their tasks and in what is known of their connected workers only. -/
structure Reloaded (c c' : Cluster) : Prop where
  frame : ∃ tasks ws, c' = { c with tasks := tasks, workers := ws }
  observed_eq : c'.observed = c.observed
  coherent : c.Coherent → c'.Coherent

namespace Reloaded

lemma refl (c : Cluster) : c.Reloaded c := ⟨⟨_, _, rfl⟩, rfl, id⟩

lemma trans {c'' : Cluster} (h : c.Reloaded c') (h' : c'.Reloaded c'') : c.Reloaded c'' := by
  obtain ⟨tasks, ws, rfl⟩ := h.frame
  obtain ⟨tasks', ws', rfl⟩ := h'.frame
  exact ⟨⟨tasks', ws', rfl⟩, h'.observed_eq.trans h.observed_eq, fun hc => h'.coherent (h.coherent hc)⟩

lemma accounted (hl : c.Reloaded c') (h : Accounted size events c) : Accounted size events c' := by
  have hcoherent := hl.coherent h.coherent
  obtain ⟨tasks, ws, rfl⟩ := hl.frame
  exact ⟨hcoherent, h.running, h.fresh, h.size_eq, h.grows, h.leaves,
    h.gone, h.disjoint, h.retired⟩

lemma steady (hl : c.Reloaded c') (h : c.Steady) : c'.Steady := by
  have hobserved := hl.observed_eq.trans h.observed_eq
  obtain ⟨tasks, ws, rfl⟩ := hl.frame
  exact ⟨h.requested_eq, hobserved⟩

end Reloaded

lemma reloaded_setTasks (c : Cluster) (tasks : List Task) : c.Reloaded (c.setTasks tasks) :=
  ⟨⟨_, _, rfl⟩, rfl, fun hc => ⟨hc.1, hc.2, hc.3⟩⟩

/-- The load of a connected worker can be set. -/
lemma exists_setLoad {id : Id} (hid : id ∈ c.observed) (memoryUsed processing : Nat) :
    ∃ c', c.setLoad id memoryUsed processing = .ok c' ∧ c.Reloaded c' := by
  have hset : ∃ ws, c.setLoad id memoryUsed processing = .ok { c with workers := ws } ∧
      ws.keys = c.workers.keys := by
    unfold setLoad
    rw [if_pos (Dict.contains_iff_mem_keys.2 hid)]
    exact ⟨_, rfl, Dict.keys_modify _ _ _⟩
  obtain ⟨ws, hs, hkeys⟩ := hset
  exact ⟨_, hs, ⟨_, _, rfl⟩, hkeys, fun hc => hc.setLoad hs⟩

end Cluster

/-- The load of a phase can be put on any cluster. -/
theorem Phase.exists_apply (p : Phase) (c : Cluster) (memoryLimit : Nat) :
    ∃ c', p.apply c memoryLimit = .ok c' ∧ c.Reloaded c' := by
  have hloads : ∀ (items : List (Id × Nat)) (used : Nat) (processing : Nat → Nat) (c : Cluster),
      (∀ e ∈ items, e.1 ∈ c.observed) →
      ∃ c', items.foldlM (fun c e => c.setLoad e.1 used (processing e.2)) c = .ok c' ∧
        c.Reloaded c' := by
    intro items used processing c hall
    induction items generalizing c with
    | nil => exact ⟨c, rfl, .refl c⟩
    | cons e items ih =>
      obtain ⟨c', hc', hl⟩ :=
        Cluster.exists_setLoad (hall e List.mem_cons_self) used (processing e.2)
      obtain ⟨c'', hc'', hl'⟩ := ih c' fun e' he => by
        rw [hl.observed_eq]
        exact hall e' (List.mem_cons_of_mem e he)
      refine ⟨c'', ?_, hl.trans hl'⟩
      rw [List.foldlM_cons, hc']
      exact hc''
  obtain ⟨c', hc', hl⟩ := hloads c.observed.toList.zipIdx (p.memoryUsed memoryLimit)
    (share p.tasks c.observed.toList.length) (c.setTasks p.taskList)
    fun e he => List.fst_mem_of_mem_zipIdx he
  exact ⟨c', hc', (Cluster.reloaded_setTasks c p.taskList).trans hl⟩

lemma Scenario.arithmetic_of_phaseAt {s : Scenario} {tick : Nat} {f : Fault}
    (h : s.phaseAt tick = .error f) : f.isArithmetic = true := by
  have hfrom : ∀ (phases : List Phase) (start : Nat),
      phaseFrom tick start phases = .error f → f.isArithmetic = true := by
    intro phases start h
    induction phases generalizing start with
    | nil => cases h
    | cons p rest ih =>
      unfold phaseFrom at h
      split at h
      · split at h
        · cases h
        · exact ih _ h
      · cases h
        rfl
  unfold phaseAt at h
  cases hp : phaseFrom tick 0 s.phases with
  | error f' =>
    rw [hp] at h
    cases h
    exact hfrom _ _ hp
  | ok found =>
    rw [hp] at h
    cases h

/-- Nothing has happened at the start of a scenario. -/
lemma Scenario.accounted_cluster (s : Scenario) : Cluster.Accounted s.workers [] s.cluster := by
  obtain ⟨p, r, b, ws, hframe⟩ := s.seeded_frame s.workers
  constructor
  · exact s.coherent_seeded s.workers
  · exact congrArg (fun c : Cluster => c.status.isRunning) hframe
  · exact s.fresh_seeded s.workers
  · exact (s.size_plan_seeded s.workers).symm
  · intro past n hp
    exact absurd (List.prefix_nil.1 hp) (by simp)
  · intro past ws hp
    exact absurd (List.prefix_nil.1 hp) (by simp)
  · intro ws hws
    cases hws
  · exact .nil
  · exact congrArg (fun c : Cluster => c.retired.length) hframe

namespace Scaler

variable {s : Scaler}

lemma capacity_note (s : Scaler) (d : Recommendation) :
    (s.note d).history.capacity = s.history.capacity := by
  unfold note
  split
  · rfl
  · exact History.capacity_record _ _

/-- A log with room for one more gets the entries of a decision. -/
theorem events_note (hroom : s.history.size < s.history.capacity) (d : Recommendation) :
    (s.note d).history.events = s.history.events ++ d.noted := by
  have hrecord : ∀ r, (s.history.record r).events = s.history.events ++ [r] := by
    intro r
    rw [History.events_record _ r (Nat.le_of_lt hroom), Nat.sub_eq_zero_of_le hroom]
    rfl
  cases d with
  | same => exact (List.append_nil _).symm
  | up n => exact hrecord (.up n)
  | down ws => exact hrecord (.down ws)

lemma size_note_le (hroom : s.history.size < s.history.capacity) (d : Recommendation) :
    (s.note d).history.size ≤ s.history.size + 1 := by
  have hone : d.noted.length ≤ 1 := by
    cases d <;> simp [Recommendation.noted]
  rw [History.size_eq_length, events_note hroom, List.length_append, ← History.size_eq_length]
  omega

end Scaler

namespace Simulation

variable {settings : Settings} {p : Policy} {s : Scenario} {tick n : Nat} {before after : State}

/-- A tick of a simulation that goes well. It has an outcome other than that the cluster is not
running, and it does not reconcile. After it the planned workers are requested and connected, and no
others. -/
structure Smooth (s : Scenario) (tick : Nat) (before after : State) : Prop where
  step_eq : step s tick before = .ok after
  ticked : ∃ c c' outcome, load s tick before.cluster = .ok c ∧
    before.scaler.tick.run Cluster.host c = (c', .ok (after.scaler, .ok outcome)) ∧
    outcome ≠ .skipped ∧
    ∀ call ∈ before.scaler.tick.calls Cluster.host c, call.method ≠ .reconcile
  steady : after.cluster.Steady

/-- After some ticks the scaler serves its settings, the log has had room for every decision, and it
accounts for a cluster whose workers are all connected. -/
structure Inv (settings : Settings) (s : Scenario) (tick : Nat) (state : State) : Prop where
  serves : state.scaler.Serves settings
  capacity : state.scaler.history.capacity = History.standardCapacity
  size_le : state.scaler.history.size ≤ tick
  accounted : Cluster.Accounted s.workers state.scaler.history.events state.cluster
  steady : state.cluster.Steady

lemma inv_start (hp : settings.toPolicy = .ok p) (s : Scenario) :
    Inv settings s 0 ⟨.ofPolicy p, s.cluster⟩ :=
  ⟨Scaler.serves_ofPolicy hp, rfl, Nat.le_refl _, s.accounted_cluster, s.steady_seeded s.workers⟩

/-- A load is put on the cluster, or the number of a tick overflows. -/
lemma load_cases (s : Scenario) (tick : Nat) (c : Cluster) :
    (∃ f, f.isArithmetic = true ∧ load s tick c = .error (.fault f)) ∨
      ∃ c', load s tick c = .ok c' ∧ c.Reloaded c' := by
  unfold load
  rcases hphase : s.phaseAt tick with f | _ | p
  · exact .inl ⟨f, Scenario.arithmetic_of_phaseAt hphase, rfl⟩
  · exact .inr ⟨c, rfl, .refl c⟩
  · obtain ⟨c', hc', hl⟩ := p.exists_apply c s.memoryLimit
    refine .inr ⟨c', ?_, hl⟩
    simp only [hc']
    rfl

/-- While the log has room, a tick goes well or ends in an overflow or a division by zero. -/
theorem step_cases (hi : Inv settings s tick before) (hroom : tick < History.standardCapacity) :
    (∃ f, f.isArithmetic = true ∧ step s tick before = .error (.fault f)) ∨
      ∃ after, Smooth s tick before after ∧ Inv settings s (tick + 1) after := by
  obtain ⟨f, hf, hload⟩ | ⟨c, hload, hl⟩ := load_cases s tick before.cluster
  · refine .inl ⟨f, hf, ?_⟩
    unfold step
    rw [hload]
    rfl
  · have haccounted := hl.accounted hi.accounted
    have hsteady := hl.steady hi.steady
    obtain ⟨f, y, hf, ht⟩ | ⟨ws, d, hfits, ht⟩ :=
      Scaler.run_tick_steady hi.serves haccounted.running haccounted.coherent hsteady
    · refine .inl ⟨f, hf, ?_⟩
      unfold step
      simp only [hload, bind, Except.bind, ht]
      rfl
    · have hfree : (before.scaler.counted ws).history.size <
          (before.scaler.counted ws).history.capacity :=
        hi.capacity ▸ Nat.lt_of_le_of_lt hi.size_le hroom
      -- the tick takes place under the load, and the events account for what it leaves behind
      have hcarried := haccounted.carryOut hsteady hfits
      have hsettled := hcarried.coherent.steady_reconcile_arriveAll
      refine .inr ⟨⟨(before.scaler.counted ws).note d, (c.carryOut d).reconcile.arriveAll⟩,
        ⟨?_, ⟨c, _, _, hload, ht, ?_, ?_⟩, hsettled⟩, ?_⟩
      · unfold step
        simp only [hload, bind, Except.bind, ht]
        rfl
      · cases d <;> exact Outcome.noConfusion
      · exact Scaler.reconcile_not_called hsteady.isReconciled
      · constructor
        · exact hi.serves.tick (congrArg Prod.snd ht)
        · exact (Scaler.capacity_note _ d).trans hi.capacity
        · exact (Scaler.size_note_le hfree d).trans (Nat.succ_le_succ hi.size_le)
        · rw [Scaler.events_note hfree]
          exact hcarried.reconcile_arriveAll
        · exact hsettled

/-- The last of some ticks comes after the others. -/
lemma steps_succ (s : Scenario) (k tick : Nat) (state : State) :
    steps s (k + 1) tick state = (steps s k tick state).bind (step s (tick + k)) := by
  induction k generalizing tick state with
  | zero =>
    simp only [steps, Except.bind, Nat.add_zero]
    cases step s tick state <;> rfl
  | succ k ih =>
    cases hstep : step s tick state with
    | error e => simp only [steps, hstep, Except.bind]
    | ok next =>
      have hone : ∀ m, steps s (m + 1) tick state = steps s m (tick + 1) next := by
        intro m
        simp only [steps, hstep]
      rw [hone, hone, ih, Nat.add_assoc, Nat.add_comm 1 k]

/-- While the log has room, all ticks go well, or one of them ends in an overflow or a division by
zero. -/
theorem steps_cases (hp : settings.toPolicy = .ok p) (hn : n ≤ History.standardCapacity) :
    (∃ f, f.isArithmetic = true ∧
      steps s n 0 ⟨.ofPolicy p, s.cluster⟩ = .error (.fault f)) ∨
    ∃ final, steps s n 0 ⟨.ofPolicy p, s.cluster⟩ = .ok final ∧ Inv settings s n final ∧
      ∀ k < n, ∃ before after, steps s k 0 ⟨.ofPolicy p, s.cluster⟩ = .ok before ∧
        Smooth s k before after := by
  -- on the number of ticks; the invariant is what the next tick starts from
  induction n with
  | zero => exact .inr ⟨_, rfl, inv_start hp s, fun k hk => absurd hk (Nat.not_lt_zero k)⟩
  | succ n ih =>
    rw [steps_succ, Nat.zero_add]
    obtain ⟨f, hf, hsteps⟩ | ⟨before, hsteps, hinv, hsmooth⟩ := ih (Nat.le_of_succ_le hn)
    · exact .inl ⟨f, hf, by rw [hsteps]; rfl⟩
    · rw [hsteps]
      obtain ⟨f, hf, hstep⟩ | ⟨after, hone, hafter⟩ := step_cases hinv (Nat.lt_of_succ_le hn)
      · exact .inl ⟨f, hf, hstep⟩
      · refine .inr ⟨after, hone.step_eq, hafter, fun k hk => ?_⟩
        rcases Nat.lt_succ_iff_lt_or_eq.1 hk with hk | rfl
        · exact hsmooth k hk
        · exact ⟨before, after, hsteps, hone⟩

/-- How many ticks are to be run: those of all phases, if nothing is said. -/
def tickCount (d : Deployment) : Option Nat → Except Fault Nat
  | some n => .ok n
  | none => d.scenario.totalTicks

lemma run_eq {d : Deployment} {ticks : Option Nat} (hp : d.settings.toPolicy = .ok p)
    (hn : tickCount d ticks = .ok n) :
    run d ticks = (steps d.scenario n 0 ⟨.ofPolicy p, d.scenario.cluster⟩).map fun final =>
      ⟨final.scaler.history, final.cluster.roster, final.cluster.retired.length⟩ := by
  have hscaler : Scaler.ofSettings d.settings = .ok (.ofPolicy p) := by
    unfold Scaler.ofSettings
    rw [hp]
    rfl
  unfold run
  rw [hscaler]
  cases ticks with
  | some m =>
    cases hn
    simp only [Except.mapError, bind, Except.bind, pure, Except.pure]
    cases steps d.scenario n 0 ⟨.ofPolicy p, d.scenario.cluster⟩ <;> rfl
  | none =>
    have htotal : d.scenario.totalTicks = .ok n := hn
    simp only [htotal, Except.mapError, bind, Except.bind, pure, Except.pure]
    cases steps d.scenario n 0 ⟨.ofPolicy p, d.scenario.cluster⟩ <;> rfl

/-- With valid settings and no more ticks than the log has room for, where no overflow and no
division by zero ends it, a simulation returns a report and each of its ticks is `Smooth`. The
`replay` of its history from the number of workers at the start leads to the size of the final plan,
and each growth in it is one. Its `removals` have nobody in common, and all who are let go are
retired. -/
theorem run_replays {d : Deployment} {ticks : Option Nat} (hp : d.settings.toPolicy = .ok p)
    (hn : tickCount d ticks = .ok n) (hle : n ≤ 10000)
    (hf : ∀ f, f.isArithmetic = true → run d ticks ≠ .error (.fault f)) :
    ∃ report, run d ticks = .ok report ∧
      (∀ k < n, ∃ before after,
        steps d.scenario k 0 ⟨.ofPolicy p, d.scenario.cluster⟩ = .ok before ∧
        Smooth d.scenario k before after) ∧
      Recommendation.replay d.scenario.workers report.history.events = report.roster.plan.size ∧
      (∀ past m, past ++ [.up m] <+: report.history.events →
        Recommendation.replay d.scenario.workers past < m) ∧
      (∀ past ws, past ++ [.down ws] <+: report.history.events →
        ws.size ≤ Recommendation.replay d.scenario.workers past) ∧
      (Recommendation.removals report.history.events).Pairwise (fun a b => ∀ w ∈ a, ¬ w ∈ b) ∧
      report.retired =
        total ((Recommendation.removals report.history.events).map IdSet.size) := by
  have hrun := run_eq hp hn
  obtain ⟨f, hfault, hsteps⟩ | ⟨final, hsteps, hinv, hsmooth⟩ :=
    steps_cases (s := d.scenario) (n := n) hp hle
  · rw [hsteps] at hrun
    exact absurd hrun (hf f hfault)
  · rw [hsteps] at hrun
    have haccounted := hinv.accounted
    exact ⟨_, hrun, hsmooth, haccounted.size_eq, haccounted.grows, haccounted.leaves,
      haccounted.disjoint, haccounted.retired⟩

/-- Three workers, of which one is enough. -/
def oneOfThree : Deployment := ⟨Settings.downToOne, ⟨"z", 3, 100, []⟩⟩

lemma steps_oneOfThree :
    ∃ final, steps oneOfThree.scenario 2 0
        ⟨.ofPolicy { Policy.standard with minimum := 1, waitCount := 1 },
          oneOfThree.scenario.cluster⟩ = .ok final ∧
      final.scaler.history.events = [.down (.ofList ["z-seed-0", "z-seed-1"])] :=
  ⟨_, by rfl, by rfl⟩

/-- Two of three workers are let go in the first of two ticks, and both are retired. -/
theorem run_replays_oneOfThree :
    ∃ report, (Settings.downToOne.toPolicy =
          .ok { Policy.standard with minimum := 1, waitCount := 1 } ∧
        tickCount oneOfThree (some 2) = .ok 2 ∧ 2 ≤ 10000 ∧
        ∀ f, f.isArithmetic = true → run oneOfThree (some 2) ≠ .error (.fault f)) ∧
      run oneOfThree (some 2) = .ok report ∧ report.roster.plan.size = 1 ∧ report.retired = 2 := by
  have hp : oneOfThree.settings.toPolicy = .ok _ := Settings.toPolicy_downToOne
  have hn : tickCount oneOfThree (some 2) = .ok 2 := rfl
  obtain ⟨final, hsteps, hevents⟩ := steps_oneOfThree
  have hrun := run_eq hp hn
  rw [hsteps] at hrun
  have hf : ∀ f, f.isArithmetic = true → run oneOfThree (some 2) ≠ .error (.fault f) := by
    intro f _ he
    rw [hrun] at he
    cases he
  obtain ⟨report, hr, -, hsize, -, -, -, hretired⟩ := run_replays hp hn (by decide) hf
  have hlog : report.history.events = [.down (.ofList ["z-seed-0", "z-seed-1"])] := by
    have hreport := Except.ok.inj (hrun.symm.trans hr)
    rw [← hreport]
    exact hevents
  rw [hlog] at hsize hretired
  refine ⟨report, ⟨hp, hn, by decide, hf⟩, hr, ?_, ?_⟩
  · rw [← hsize]
    decide +kernel
  · rw [hretired]
    decide +kernel

end Simulation

end Fleet
