import Fleet.Proofs.Tick

/-! The remote calls of a tick, on any host: which ones it makes, in which order and with which
arguments, and after which one it makes no more. -/
namespace Fleet

/-- A call that was made and what came of it. -/
structure CallRecord where
  call : Call
  reply : Except Fault call.Reply

/-- The call has been answered, and in time. -/
def CallRecord.succeeded : CallRecord → Bool
  | ⟨.reconcile _, .ok (.ok .timedOut)⟩ => false
  | ⟨_, .ok (.ok _)⟩ => true
  | ⟨_, _⟩ => false

namespace Exchange

variable {α β σ : Type}

/-- The calls that a run makes, in order, with what came of them. -/
def records (h : Host σ) : Exchange α → σ → List CallRecord
  | done _, _ => []
  | halt _, _ => []
  | look next, x => (next (h.view x)).records h x
  | ask c next, x =>
    ⟨c, (h.serve c x).2⟩ :: match h.serve c x with
      | (y, .ok r) => (next r).records h y
      | (_, .error _) => []

@[simp] lemma records_pure (h : Host σ) (a : α) (x : σ) : (pure a : Exchange α).records h x = [] := rfl

@[simp] lemma records_check (h : Host σ) (e : Except Fault α) (x : σ) :
    (check e).records h x = [] := by
  cases e <;> rfl

@[simp] lemma records_call (h : Host σ) (c : Call) (x : σ) :
    (call c).records h x = [⟨c, (h.serve c x).2⟩] := by
  simp only [call, records]
  rcases h.serve c x with ⟨y, f | r⟩ <;> rfl

@[simp] lemma records_view_bind (h : Host σ) (f : View → Exchange α) (x : σ) :
    (view >>= f).records h x = (f (h.view x)).records h x := rfl

/-- The calls of the first part of a program come first, and those of the second part follow if the
first one has come to its end. -/
theorem records_bind (h : Host σ) (p : Exchange α) (f : α → Exchange β) (x : σ) :
    (p >>= f).records h x = p.records h x ++
      match p.run h x with
      | (y, .ok a) => (f a).records h y
      | (_, .error _) => [] := by
  change (p.bind f).records h x = _
  induction p generalizing x with
  | done a => rfl
  | halt e => rfl
  | look next ih => exact ih _ x
  | ask c next ih =>
    simp only [bind, records, run, List.cons_append]
    rcases h.serve c x with ⟨y, e | r⟩
    · rfl
    · simp only [ih]

lemma records_bind_of_silent {h : Host σ} {f : α → Exchange β}
    (hf : ∀ a y, (f a).records h y = []) (p : Exchange α) (x : σ) :
    (p >>= f).records h x = p.records h x := by
  rw [records_bind]
  rcases p.run h x with ⟨y, e | a⟩
  · exact List.append_nil _
  · exact (congrArg _ (hf a y)).trans (List.append_nil _)

end Exchange

lemma Estimator.records_drain {σ : Type} (h : Host σ) (window : Duration) (x : σ) :
    (drain window).target.records h x =
      [⟨.drainEstimate window, (h.serve (.drainEstimate window) x).2⟩] :=
  Exchange.records_call h (.drainEstimate window) x

/-- The query for the candidates that bring the plan down to a target. -/
def Policy.closeQuery (p : Policy) (target : Nat) : CloseQuery :=
  ⟨target, p.workerKey, "name", p.closeOptions⟩

/-- The scheduler has to be asked for candidates: there are too many workers, and they come from the
scheduler alone or not enough of them are awaited. -/
def Policy.AsksFor (p : Policy) (target : Nat) (r : Roster) : Prop :=
  target < r.plan.size ∧
    (p.strategy.source = .scheduler ∨ r.pending.size < r.plan.size - target)

namespace Protocol

variable {σ : Type}

/-- The calls for an estimate. It comes to a number and to the state it is found in, or to nothing.
-/
inductive Estimate (h : Host σ) (p : Policy) (x : σ) : List CallRecord → Option (Nat × σ) → Prop where
  | drained {y : σ} {n : Nat} (hp : p.strategy = .duration)
    (hc : h.serve (.drainEstimate p.targetDuration) x = (y, .ok (.ok n))) :
    Estimate h p x [⟨.drainEstimate p.targetDuration, .ok (.ok n)⟩] (some (n, y))
  | undrained {y : σ} {reply : Except Fault (Call.drainEstimate p.targetDuration).Reply}
    (hp : p.strategy = .duration) (hc : h.serve (.drainEstimate p.targetDuration) x = (y, reply))
    (hr : CallRecord.succeeded ⟨_, reply⟩ = false) :
    Estimate h p x [⟨.drainEstimate p.targetDuration, reply⟩] none
  | counted {y z : σ} {tasks : List Task} {workers : List Worker} {n : Nat}
    (hp : p.strategy = .queue) (ht : h.serve .tasks x = (y, .ok (.ok tasks)))
    (hw : h.serve .workers y = (z, .ok (.ok workers)))
    (hn : QueueEstimate.target tasks workers (h.view z).roster.observed.size = .ok n) :
    Estimate h p x [⟨.tasks, .ok (.ok tasks)⟩, ⟨.workers, .ok (.ok workers)⟩] (some (n, z))
  | uncountable {y z : σ} {tasks : List Task} {workers : List Worker} {f : Fault}
    (hp : p.strategy = .queue) (ht : h.serve .tasks x = (y, .ok (.ok tasks)))
    (hw : h.serve .workers y = (z, .ok (.ok workers)))
    (hn : QueueEstimate.target tasks workers (h.view z).roster.observed.size = .error f) :
    Estimate h p x [⟨.tasks, .ok (.ok tasks)⟩, ⟨.workers, .ok (.ok workers)⟩] none
  | noTasks {y : σ} {reply : Except Fault Call.tasks.Reply} (hp : p.strategy = .queue)
    (ht : h.serve .tasks x = (y, reply)) (hr : CallRecord.succeeded ⟨_, reply⟩ = false) :
    Estimate h p x [⟨.tasks, reply⟩] none
  | noWorkers {y z : σ} {tasks : List Task} {reply : Except Fault Call.workers.Reply}
    (hp : p.strategy = .queue) (ht : h.serve .tasks x = (y, .ok (.ok tasks)))
    (hw : h.serve .workers y = (z, reply)) (hr : CallRecord.succeeded ⟨_, reply⟩ = false) :
    Estimate h p x [⟨.tasks, .ok (.ok tasks)⟩, ⟨.workers, reply⟩] none

/-- The call that settles the roster. It comes to the roster seen after it, or to nothing. -/
inductive Settle (h : Host σ) (p : Policy) (x : σ) : List CallRecord → Option (Roster × σ) → Prop where
  | level (hl : (h.view x).roster.plan.size = (h.view x).roster.requested.size) :
    Settle h p x [] (some ((h.view x).roster, x))
  | reconciled {y : σ} (hl : (h.view x).roster.plan.size ≠ (h.view x).roster.requested.size)
    (hc : h.serve (.reconcile p.reconcileTimeout) x = (y, .ok (.ok .finished))) :
    Settle h p x [⟨.reconcile p.reconcileTimeout, .ok (.ok .finished)⟩]
      (some ((h.view y).roster, y))
  | unreconciled {y : σ} {reply : Except Fault (Call.reconcile p.reconcileTimeout).Reply}
    (hl : (h.view x).roster.plan.size ≠ (h.view x).roster.requested.size)
    (hc : h.serve (.reconcile p.reconcileTimeout) x = (y, reply))
    (hr : CallRecord.succeeded ⟨_, reply⟩ = false) :
    Settle h p x [⟨.reconcile p.reconcileTimeout, reply⟩] none

/-- The call for candidates. It comes to the state after it, or to nothing. -/
inductive Consult (h : Host σ) (p : Policy) (target : Nat) (r : Roster) (x : σ) :
    List CallRecord → Option σ → Prop where
  | content (ha : ¬ p.AsksFor target r) : Consult h p target r x [] (some x)
  | answered {y : σ} {ids : List Id} (ha : p.AsksFor target r)
    (hc : h.serve (.closeCandidates (p.closeQuery target)) x = (y, .ok (.ok ids))) :
    Consult h p target r x [⟨.closeCandidates (p.closeQuery target), .ok (.ok ids)⟩] (some y)
  | refused {y : σ} {reply : Except Fault (Call.closeCandidates (p.closeQuery target)).Reply}
    (ha : p.AsksFor target r)
    (hc : h.serve (.closeCandidates (p.closeQuery target)) x = (y, reply))
    (hr : CallRecord.succeeded ⟨_, reply⟩ = false) :
    Consult h p target r x [⟨.closeCandidates (p.closeQuery target), reply⟩] none

/-- The calls that carry a decision out. Workers that have been asked to retire are removed whether
that was refused or not. -/
inductive CarryOut (h : Host σ) (target : Nat) (r : Roster) (x : σ) : List CallRecord → Prop where
  | nothing (ht : target ≤ r.plan.size) : CarryOut h target r x []
  | scaled {y : σ} {reply : Except Fault (Call.scale target).Reply} (ht : r.plan.size < target)
    (hc : h.serve (.scale target) x = (y, reply)) :
    CarryOut h target r x [⟨.scale target, reply⟩]
  | removed {y z : σ} {ids : List Id} {asked : (Call.retire (.close ids)).Reply}
    {reply : Except Fault (Call.scaleDown ids).Reply} (ht : target < r.plan.size)
    (hne : ids ≠ []) (hids : ids.Pairwise (· < ·))
    (hr : h.serve (.retire (.close ids)) x = (y, .ok asked))
    (hc : h.serve (.scaleDown ids) y = (z, reply)) :
    CarryOut h target r x [⟨.retire (.close ids), .ok asked⟩, ⟨.scaleDown ids, reply⟩]
  | stopped {y : σ} {ids : List Id} {f : Fault} (ht : target < r.plan.size)
    (hne : ids ≠ []) (hids : ids.Pairwise (· < ·))
    (hr : h.serve (.retire (.close ids)) x = (y, .error f)) :
    CarryOut h target r x [⟨.retire (.close ids), .error f⟩]

/-- The calls of a decision: for candidates, and if these have come to something, to carry the
decision out. -/
inductive Act (h : Host σ) (p : Policy) (target : Nat) (r : Roster) (x : σ) :
    List CallRecord → Prop where
  | unadvised {cs : List CallRecord} (hc : Consult h p target r x cs none) : Act h p target r x cs
  | decided {y : σ} {cs ds : List CallRecord} (hc : Consult h p target r x cs (some y))
    (hd : CarryOut h target r y ds) : Act h p target r x (cs ++ ds)

/-- The calls of a tick: for an estimate, to settle the roster, and of a decision. Each of them
comes after the ones before have come to something. -/
inductive Tick (h : Host σ) (p : Policy) (x : σ) : List CallRecord → Prop where
  | skipped (hx : (h.view x).status.isRunning = false) : Tick h p x []
  | unestimated {es : List CallRecord} (hx : (h.view x).status.isRunning = true)
    (he : Estimate h p x es none) : Tick h p x es
  | unbounded {y : σ} {es : List CallRecord} {raw : Nat} {f : Fault}
    (hx : (h.view x).status.isRunning = true) (he : Estimate h p x es (some (raw, y)))
    (ht : p.clamp raw = .error f) : Tick h p x es
  | unsettled {y : σ} {es ss : List CallRecord} {raw target : Nat}
    (hx : (h.view x).status.isRunning = true) (he : Estimate h p x es (some (raw, y)))
    (ht : p.clamp raw = .ok target) (hs : Settle h p y ss none) : Tick h p x (es ++ ss)
  | acted {y z : σ} {es ss ds : List CallRecord} {raw target : Nat} {r : Roster}
    (hx : (h.view x).status.isRunning = true) (he : Estimate h p x es (some (raw, y)))
    (ht : p.clamp raw = .ok target) (hs : Settle h p y ss (some (r, z)))
    (ha : Act h p target r z ds) : Tick h p x (es ++ (ss ++ ds))

/-- Nothing is called after a failure, but that workers are removed who could not be asked to
retire. -/
def StopsAtFailure (es : List CallRecord) : Prop :=
  ∀ before e after, es = before ++ e :: after → e.succeeded = false →
    after = [] ∨ ∃ ids reply, e.call = .retire (.close ids) ∧ after = [⟨.scaleDown ids, reply⟩]

lemma stopsAtFailure_nil : StopsAtFailure [] := by
  intro before e after h
  simp at h

lemma stopsAtFailure_singleton (e : CallRecord) : StopsAtFailure [e] := by
  intro before e' after h _
  cases before with
  | nil => exact .inl (List.cons.inj h).2.symm
  | cons e'' before => simp at h

lemma StopsAtFailure.cons {e : CallRecord} {es : List CallRecord} (hs : StopsAtFailure es)
    (he : e.succeeded = true) : StopsAtFailure (e :: es) := by
  intro before e' after h hf
  cases before with
  | nil =>
    obtain ⟨rfl, -⟩ := List.cons.inj h
    rw [he] at hf
    cases hf
  | cons e'' before => exact hs before e' after (List.cons.inj h).2 hf

lemma StopsAtFailure.append {es fs : List CallRecord} (hs : StopsAtFailure fs)
    (hes : ∀ e ∈ es, e.succeeded = true) : StopsAtFailure (es ++ fs) := by
  induction es with
  | nil => exact hs
  | cons e es ih =>
    have hrest := ih fun e' he' => hes e' (List.mem_cons_of_mem e he')
    exact hrest.cons (hes e List.mem_cons_self)

section Failures

variable {h : Host σ} {p : Policy} {x : σ} {target : Nat} {r : Roster} {es : List CallRecord}

lemma Estimate.succeeded {a : Nat × σ} (he : Estimate h p x es (some a)) :
    ∀ e ∈ es, e.succeeded = true := by
  cases he with
  | drained => simp [CallRecord.succeeded]
  | counted => simp [CallRecord.succeeded]

lemma Estimate.stopsAtFailure {a : Option (Nat × σ)} (he : Estimate h p x es a) :
    StopsAtFailure es := by
  cases he with
  | drained => exact stopsAtFailure_singleton _
  | undrained => exact stopsAtFailure_singleton _
  | counted => exact (stopsAtFailure_singleton _).cons rfl
  | uncountable => exact (stopsAtFailure_singleton _).cons rfl
  | noTasks => exact stopsAtFailure_singleton _
  | noWorkers => exact (stopsAtFailure_singleton _).cons rfl

lemma Settle.succeeded {a : Roster × σ} (hs : Settle h p x es (some a)) :
    ∀ e ∈ es, e.succeeded = true := by
  cases hs with
  | level => simp
  | reconciled => simp [CallRecord.succeeded]

lemma Settle.stopsAtFailure (hs : Settle h p x es none) : StopsAtFailure es := by
  cases hs with
  | unreconciled => exact stopsAtFailure_singleton _

lemma Consult.succeeded {y : σ} (hc : Consult h p target r x es (some y)) :
    ∀ e ∈ es, e.succeeded = true := by
  cases hc with
  | content => simp
  | answered => simp [CallRecord.succeeded]

lemma Consult.stopsAtFailure (hc : Consult h p target r x es none) : StopsAtFailure es := by
  cases hc with
  | refused => exact stopsAtFailure_singleton _

lemma CarryOut.stopsAtFailure (hd : CarryOut h target r x es) : StopsAtFailure es := by
  cases hd with
  | nothing => exact stopsAtFailure_nil
  | scaled => exact stopsAtFailure_singleton _
  | stopped => exact stopsAtFailure_singleton _
  | @removed y z ids asked reply =>
    intro before e after h hf
    cases before with
    | nil =>
      obtain ⟨rfl, rfl⟩ := List.cons.inj h
      exact .inr ⟨ids, reply, rfl, rfl⟩
    | cons e' before =>
      exact stopsAtFailure_singleton _ before e after (List.cons.inj h).2 hf

lemma Act.stopsAtFailure (ha : Act h p target r x es) : StopsAtFailure es := by
  cases ha with
  | unadvised hc => exact hc.stopsAtFailure
  | decided hc hd => exact hd.stopsAtFailure.append hc.succeeded

/-- A tick by the protocol stops at a failure, because each of its parts does and no other part
comes after one with a failure. -/
theorem Tick.stopsAtFailure (ht : Tick h p x es) : StopsAtFailure es := by
  cases ht with
  | skipped => exact stopsAtFailure_nil
  | unestimated hx he => exact he.stopsAtFailure
  | unbounded hx he => exact he.stopsAtFailure
  | unsettled hx he ht hs => exact hs.stopsAtFailure.append he.succeeded
  | acted hx he ht hs ha => exact (ha.stopsAtFailure.append hs.succeeded).append he.succeeded

end Failures

/-- What the rest of a tick has to go on with after a part of it. -/
def gained {α ε : Type} : σ × Except Fault (Except ε α) → Option (α × σ)
  | (x, .ok (.ok a)) => some (a, x)
  | (_, _) => none

variable (h : Host σ) (p : Policy) (x : σ)

/-- The estimator of a policy asks for an estimate by the protocol. -/
theorem estimate_target :
    Estimate h p x ((Estimator.ofPolicy p).target.records h x)
      (gained ((Estimator.ofPolicy p).target.run h x)) := by
  cases hp : p.strategy with
  | duration =>
    have hdrain : Estimator.ofPolicy p = .drain p.targetDuration := by
      simp only [Estimator.ofPolicy, hp]
    rw [hdrain, Estimator.run_drain, Estimator.records_drain]
    rcases hc : h.serve (.drainEstimate p.targetDuration) x with ⟨y, f | e | n⟩
    · exact .undrained hp hc rfl
    · exact .undrained hp hc rfl
    · exact .drained hp hc
  | queue =>
    have hqueue : Estimator.ofPolicy p = .queue := by
      simp only [Estimator.ofPolicy, hp]
    rw [hqueue, Estimator.target, Estimator.queueTarget, Exchange.records_bind, Exchange.run_bind,
      Exchange.records_call, Exchange.run_call]
    rcases ht : h.serve .tasks x with ⟨y, f | e | tasks⟩
    · exact .noTasks hp ht rfl
    · exact .noTasks hp ht rfl
    · dsimp only
      rw [Exchange.records_bind, Exchange.run_bind, Exchange.records_call, Exchange.run_call]
      rcases hw : h.serve .workers y with ⟨z, f | e | workers⟩
      · exact .noWorkers hp ht hw rfl
      · exact .noWorkers hp ht hw rfl
      · dsimp only
        rw [Exchange.records_view_bind, Exchange.run_bind_ok (Exchange.run_view h z),
          Exchange.records_bind, Exchange.run_bind, Exchange.records_check, Exchange.run_check]
        cases hn : QueueEstimate.target tasks workers (h.view z).roster.observed.size with
        | error f => exact .uncountable hp ht hw hn
        | ok n => exact .counted hp ht hw hn

/-- A scaler settles its roster by the protocol. -/
theorem settle_settledRoster (s : Scaler) :
    Settle h s.policy x (s.settledRoster.records h x) (gained (s.settledRoster.run h x)) := by
  rw [Scaler.run_settledRoster, Scaler.settledRoster, Exchange.records_view_bind]
  by_cases hl : (h.view x).roster.plan.size = (h.view x).roster.requested.size
  · have hr : (h.view x).roster.isReconciled = true := by
      simp only [Roster.isReconciled, hl, beq_self_eq_true]
    rw [if_pos hr, if_pos hr]
    exact .level hl
  · have hr : ¬ (h.view x).roster.isReconciled = true := by
      simpa only [Roster.isReconciled, beq_iff_eq] using hl
    rw [if_neg hr, if_neg hr, Exchange.records_bind, Exchange.records_call, Exchange.run_call]
    rcases hc : h.serve (.reconcile s.policy.reconcileTimeout) x with ⟨y, f | e | _ | _⟩
    · exact .unreconciled hl hc rfl
    · exact .unreconciled hl hc rfl
    · exact .reconciled hl hc
    · exact .unreconciled hl hc rfl

/-- An advisor by a policy, with any counts. -/
def advisor (d : Debounce) : Advisor := { Advisor.ofPolicy p with debounce := d }

variable (d : Debounce) (target : Nat) (r : Roster)

lemma asksFor_iff {p : Policy} {d : Debounce} {target : Nat} {r : Roster}
    (hlt : target < r.plan.size) :
    p.AsksFor target r ↔ (advisor p d).asksScheduler target r = true := by
  unfold Policy.AsksFor Advisor.asksScheduler Advisor.pendingShare
  have hsource : (advisor p d).source = p.strategy.source := rfl
  rw [hsource]
  cases p.strategy.source with
  | pendingFirst =>
    simp only [IdSet.size_take, decide_eq_true_eq, reduceCtorEq, false_or]
    omega
  | scheduler => simp [hlt]

/-- An advisor asks for candidates by the protocol. -/
theorem consult_round :
    Consult h p target r x (((advisor p d).round target r).records h x)
      ((gained (((advisor p d).round target r).run h x)).map Prod.snd) := by
  by_cases hle : r.plan.size ≤ target
  · have hround : (advisor p d).round target r = pure (.ok ∅) := by
      unfold Advisor.round
      rw [if_pos hle]
    have hquiet : ¬ p.AsksFor target r := fun ha => Nat.not_lt.2 hle ha.1
    rw [hround]
    exact .content hquiet
  · have hround : (advisor p d).round target r = (advisor p d).candidates target r := by
      unfold Advisor.round
      rw [if_neg hle]
    rw [hround, Advisor.candidates]
    dsimp only
    split
    · rename_i hq
      have ha := (asksFor_iff (Nat.not_le.1 hle)).2 hq
      rw [Exchange.records_bind, Exchange.run_bind, Exchange.records_call, Exchange.run_call]
      rcases hc : h.serve (.closeCandidates { (advisor p d).query with target := target }) x with
        ⟨y, f | e | ids⟩
      · exact .refused ha hc rfl
      · exact .refused ha hc rfl
      · exact .answered ha hc
    · rename_i hq
      exact .content fun ha => hq ((asksFor_iff (Nat.not_le.1 hle)).1 ha)

lemma records_execute_up (n : Nat) :
    (Scaler.execute (.up n)).records h x = [⟨.scale n, (h.serve (.scale n) x).2⟩] := by
  rw [Scaler.execute, Exchange.records_bind_of_silent fun _ _ => rfl, Executor.scaleUp,
    Exchange.records_bind_of_silent fun reply _ => by cases reply <;> rfl, Exchange.records_call]

lemma records_execute_down {ws : IdSet} (hws : ws.isEmpty = false) :
    (Scaler.execute (.down ws)).records h x =
      ⟨.retire (.close ws.toList), (h.serve (.retire (.close ws.toList)) x).2⟩ ::
        match h.serve (.retire (.close ws.toList)) x with
        | (y, .ok _) => [⟨.scaleDown ws.toList, (h.serve (.scaleDown ws.toList) y).2⟩]
        | (_, .error _) => [] := by
  rw [Scaler.execute, Exchange.records_bind_of_silent fun _ _ => rfl, Executor.scaleDown,
    if_neg (by simp [hws]), Exchange.records_bind, Exchange.records_call, Exchange.run_call]
  rcases h.serve (.retire (.close ws.toList)) x with ⟨y, f | asked⟩
  · rfl
  · dsimp only
    rw [Exchange.records_bind_of_silent fun _ _ => rfl, Exchange.records_call]
    rfl

/-- A decision on the candidates of a round is carried out by the protocol. -/
theorem carryOut_execute {a : Advisor} {y z : σ} {ws : IdSet}
    (hround : (a.round target r).run h y = (z, .ok (.ok ws))) :
    CarryOut h target r x ((Scaler.execute (a.verdict target r ws)).records h x) := by
  rcases Nat.lt_trichotomy r.plan.size target with hlt | heq | hlt
  · have hup : a.verdict target r ws = .up target := by
      unfold Advisor.verdict
      rw [if_pos hlt]
    rw [hup, records_execute_up]
    exact .scaled hlt rfl
  · have hsame : a.verdict target r ws = .same := by
      rw [Advisor.run_round_of_le (Nat.le_of_eq heq)] at hround
      cases hround
      unfold Advisor.verdict
      rw [if_neg (by omega)]
      rfl
    rw [hsame]
    exact .nothing (Nat.le_of_eq heq.symm)
  · cases hv : a.verdict target r ws with
    | same => exact .nothing (Nat.le_of_lt hlt)
    | up n =>
      obtain ⟨hup, -⟩ := Advisor.verdict_eq_up hv
      omega
    | down gone =>
      obtain ⟨-, hne⟩ := Advisor.verdict_eq_down hv
      have hids : gone.toList ≠ [] := fun he => by simp [IdSet.isEmpty, he] at hne
      rw [records_execute_down h x hne]
      rcases hc : h.serve (.retire (.close gone.toList)) x with ⟨y, f | asked⟩
      · exact .stopped hlt hids gone.ascending hc
      · exact .removed hlt hids gone.ascending hc rfl

end Protocol

/-- Deciding makes the calls of a round of candidates. -/
theorem Advisor.records_recommend {σ : Type} (h : Host σ) (a : Advisor) (target : Nat) (r : Roster)
    (x : σ) : (a.recommend target r).records h x = (a.round target r).records h x := by
  unfold recommend round
  by_cases hle : r.plan.size ≤ target
  · rw [if_pos hle]
    split
    · rfl
    · rw [if_pos (by omega)]
      rfl
  · rw [if_neg hle, if_neg (by omega), if_neg (by omega),
      Exchange.records_bind_of_silent fun reply _ => by cases reply <;> rfl]

namespace Scaler

variable {σ : Type} (h : Host σ) (x : σ) (s : Scaler) (target : Nat) (r : Roster)

/-- The calls of the second half of a tick are those for candidates and those that carry the
decision out. -/
theorem records_act :
    (s.act target r).records h x = (s.advisor.round target r).records h x ++
      match (s.advisor.round target r).run h x with
      | (y, .ok (.ok ws)) => (execute (s.advisor.verdict target r ws)).records h y
      | (_, _) => [] := by
  rw [act, Exchange.records_bind, Advisor.records_recommend, Advisor.run_recommend]
  rcases (s.advisor.round target r).run h x with ⟨y, f | e | ws⟩
  · rfl
  · rfl
  · dsimp only
    rw [Exchange.records_bind_of_silent fun _ _ => rfl]

/-- The calls of the first half of a tick are those for an estimate and the one that settles the
roster. -/
theorem records_prepare :
    s.prepare.records h x = s.estimator.target.records h x ++
      match s.safeTarget.run h x with
      | (y, .ok (.ok _)) => s.settledRoster.records h y
      | (_, _) => [] := by
  have hsafe : s.safeTarget.records h x = s.estimator.target.records h x := by
    rw [safeTarget, Exchange.records_bind_of_silent]
    rintro (e | raw) y
    · rfl
    · rw [Exchange.records_bind_of_silent fun _ _ => rfl, Exchange.records_check]
  rw [prepare, Exchange.records_bind, hsafe]
  rcases s.safeTarget.run h x with ⟨y, f | e | target⟩
  · rfl
  · rfl
  · dsimp only
    rw [Exchange.records_bind_of_silent fun reply _ => by cases reply <;> rfl]

/-- The calls of a tick of a running cluster are those of its two halves. -/
theorem records_tick_of_running (hx : (h.view x).status.isRunning = true) :
    s.tick.records h x = s.prepare.records h x ++
      match s.prepare.run h x with
      | (y, .ok (.ok (target, r))) => (s.act target r).records h y
      | (_, _) => [] := by
  rw [tick_eq, Exchange.records_view_bind, if_pos hx, Exchange.records_bind]
  rcases s.prepare.run h x with ⟨y, f | e | ⟨target, r⟩⟩ <;> rfl

/-- A scaler with an advisor by the policy acts by the protocol. -/
theorem act_by_protocol {p : Policy} {d : Debounce} (hs : s.advisor = Protocol.advisor p d) :
    Protocol.Act h p target r x ((s.act target r).records h x) := by
  have hc := Protocol.consult_round h p x d target r
  rw [records_act, hs]
  rcases hround : ((Protocol.advisor p d).round target r).run h x with ⟨y, f | e | ws⟩
  · rw [hround] at hc
    simpa using Protocol.Act.unadvised hc
  · rw [hround] at hc
    simpa using Protocol.Act.unadvised hc
  · rw [hround] at hc
    exact .decided hc (Protocol.carryOut_execute h y target r hround)

/-- The calls of every tick of a scaler by a policy, whatever it has counted and logged, are those
of a `Protocol.Tick`, and it `StopsAtFailure`: after a failure there is no call, but that workers
are removed who could not be asked to retire. -/
theorem tick_keeps_protocol (p : Policy) (d : Debounce) (log : History) :
    let s : Scaler := { ofPolicy p with advisor := Protocol.advisor p d, history := log }
    Protocol.Tick h p x (s.tick.records h x) ∧ Protocol.StopsAtFailure (s.tick.records h x) := by
  intro s
  suffices htick : Protocol.Tick h p x (s.tick.records h x) from ⟨htick, htick.stopsAtFailure⟩
  cases hx : (h.view x).status.isRunning with
  | false =>
    have hskip : s.tick.records h x = [] := by
      rw [tick_eq, Exchange.records_view_bind, hx]
      rfl
    rw [hskip]
    exact .skipped hx
  | true =>
    have he : Protocol.Estimate h p x (s.estimator.target.records h x)
        (Protocol.gained (s.estimator.target.run h x)) := Protocol.estimate_target h p x
    have hpolicy : s.policy = p := rfl
    rw [records_tick_of_running h x s hx, records_prepare, run_prepare, run_safeTarget, hpolicy]
    rcases hest : s.estimator.target.run h x with ⟨y, f | e | raw⟩
    · rw [hest] at he
      simpa using Protocol.Tick.unestimated hx he
    · rw [hest] at he
      simpa using Protocol.Tick.unestimated hx he
    · rw [hest] at he
      dsimp only
      cases ht : p.clamp raw with
      | error f => simpa [Except.map] using Protocol.Tick.unbounded hx he ht
      | ok target =>
        have hs : Protocol.Settle h p y (s.settledRoster.records h y)
            (Protocol.gained (s.settledRoster.run h y)) := Protocol.settle_settledRoster h y s
        dsimp only [Except.map]
        rw [List.append_assoc]
        rcases hset : s.settledRoster.run h y with ⟨z, f | e | r⟩
        · rw [hset] at hs
          simpa using Protocol.Tick.unsettled hx he ht hs
        · rw [hset] at hs
          simpa using Protocol.Tick.unsettled hx he ht hs
        · rw [hset] at hs
          exact .acted hx he ht hs (act_by_protocol h z s target r rfl)

end Scaler

end Fleet
