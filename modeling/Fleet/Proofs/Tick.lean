import Fleet.Proofs.Decision
import Fleet.Scaling.Scaler

/-! Runs of a tick, on any host. A tick prepares, which finds a target and a settled roster, then
decides, and then carries the decision out; a run keeps what every call that it may make keeps. -/
namespace Fleet

variable {α β σ : Type}

namespace Exchange

/-- Every call that the program may make is of one of the given methods. -/
def Only (M : Method → Prop) : Exchange α → Prop
  | done _ => True
  | halt _ => True
  | look next => ∀ v, (next v).Only M
  | ask c next => M c.method ∧ ∀ r, (next r).Only M

variable {M : Method → Prop}

@[simp] lemma only_view : view.Only M := fun _ => trivial

@[simp] lemma only_call {c : Call} : (call c).Only M ↔ M c.method :=
  ⟨fun h => h.1, fun h => ⟨h, fun _ => trivial⟩⟩

@[simp] lemma only_check (e : Except Fault α) : (check e).Only M := by
  cases e <;> trivial

lemma only_any (p : Exchange α) : p.Only fun _ => True := by
  induction p with
  | done a => trivial
  | halt e => trivial
  | look next ih => exact ih
  | ask c next ih => exact ⟨trivial, ih⟩

lemma Only.mono {N : Method → Prop} {p : Exchange α} (hp : p.Only M) (h : ∀ m, M m → N m) :
    p.Only N := by
  induction p with
  | done a => trivial
  | halt e => trivial
  | look next ih => exact fun v => ih v (hp v)
  | ask c next ih => exact ⟨h _ hp.1, fun r => ih r (hp.2 r)⟩

lemma Only.bind {p : Exchange α} {f : α → Exchange β} (hp : p.Only M) (hf : ∀ a, (f a).Only M) :
    (p >>= f).Only M := by
  change (p.bind f).Only M
  induction p with
  | done a => exact hf a
  | halt e => exact hp
  | look next ih => exact fun v => ih v (hp v)
  | ask c next ih => exact ⟨hp.1, fun r => ih r (hp.2 r)⟩

/-- What every such call keeps, the whole run keeps. -/
theorem Only.keeps {h : Host σ} {p : Exchange α} (hp : p.Only M) {P : σ → Prop}
    (hs : ∀ c x, M c.method → P x → P (h.serve c x).1) {x : σ} (hx : P x) : P (p.run h x).1 := by
  induction p generalizing x with
  | done a => exact hx
  | halt e => exact hx
  | look next ih => exact ih _ (hp _) hx
  | ask c next ih =>
    have hc := hs c x hp.1 hx
    simp only [run]
    split
    · rename_i y r he
      rw [he] at hc
      exact ih r (hp.2 r) hc
    · rename_i y f he
      rw [he] at hc
      exact hc

/-- Two hosts that show the same and serve every such call alike run the program alike. -/
theorem Only.run_congr {g h : Host σ} {p : Exchange α} (hp : p.Only M) (hv : g.view = h.view)
    (hs : ∀ c x, M c.method → g.serve c x = h.serve c x) (x : σ) : p.run g x = p.run h x := by
  induction p generalizing x with
  | done a => rfl
  | halt e => rfl
  | look next ih =>
    simp only [run, hv]
    exact ih _ (hp _) x
  | ask c next ih =>
    simp only [run, hs c x hp.1]
    rcases h.serve c x with ⟨y, f | r⟩
    · rfl
    · exact ih r (hp.2 r) y

end Exchange

namespace Method

/-- The methods that find out how many workers are needed. -/
def Estimates : Method → Prop
  | drainEstimate | tasks | workers | estimate => True
  | scale | scaleDown | reconcile | closeCandidates | retire => False

/-- The methods that carry a decision out. -/
def Executes : Method → Prop
  | scale | retire | scaleDown => True
  | reconcile | closeCandidates | drainEstimate | tasks | workers | estimate => False

end Method

lemma Estimator.only_target (e : Estimator) : e.target.Only Method.Estimates := by
  cases e with
  | drain window => exact Exchange.only_call.2 trivial
  | outside => exact Exchange.only_call.2 trivial
  | queue =>
    refine (Exchange.only_call.2 trivial).bind fun reply => ?_
    cases reply with
    | error e => trivial
    | ok tasks =>
      refine (Exchange.only_call.2 trivial).bind fun reply => ?_
      cases reply with
      | error e => trivial
      | ok workers =>
        exact Exchange.only_view.bind fun v => (Exchange.only_check _).bind fun _ => trivial

lemma Estimator.run_drain (h : Host σ) (window : Duration) (x : σ) :
    (drain window).target.run h x = h.serve (.drainEstimate window) x :=
  Exchange.run_call h (.drainEstimate window) x

lemma Advisor.only_candidates (a : Advisor) (target : Nat) (r : Roster) :
    (a.candidates target r).Only (· = .closeCandidates) := by
  unfold candidates
  dsimp only
  split
  · refine ((Exchange.only_call (M := (· = .closeCandidates))).2 rfl).bind fun reply => ?_
    cases reply <;> trivial
  · trivial

lemma Advisor.only_round (a : Advisor) (target : Nat) (r : Roster) :
    (a.round target r).Only (· = .closeCandidates) := by
  unfold round
  split
  · trivial
  · exact a.only_candidates target r

namespace Scaler

variable {h : Host σ} {s s' : Scaler} {x y : σ} {result : Except TickError Outcome}

/-- The part of a tick before it decides: finds a target and settles the roster. -/
def prepare (s : Scaler) : Exchange (Except TickError (Nat × Roster)) := do
  match ← s.safeTarget with
  | .error e => return .error e
  | .ok target =>
    match ← s.settledRoster with
    | .error e => return .error e
    | .ok roster => return .ok (target, roster)

/-- The target is what the estimator answers, within the bounds. -/
theorem run_safeTarget (h : Host σ) (s : Scaler) (x : σ) :
    s.safeTarget.run h x =
      match s.estimator.target.run h x with
      | (y, .error f) => (y, .error f)
      | (y, .ok (.error e)) => (y, .ok (.error (.estimate e)))
      | (y, .ok (.ok raw)) => (y, (s.policy.clamp raw).map .ok) := by
  unfold safeTarget
  rw [Exchange.run_bind]
  rcases s.estimator.target.run h x with ⟨y, f | e | raw⟩
  · rfl
  · rfl
  · simp only [Exchange.run_bind, Exchange.run_check]
    cases s.policy.clamp raw <;> rfl

/-- The roster is what the cluster shows, after it has been asked to reconcile if need be. -/
theorem run_settledRoster (h : Host σ) (s : Scaler) (x : σ) :
    s.settledRoster.run h x =
      if (h.view x).roster.isReconciled then (x, .ok (.ok (h.view x).roster))
      else
        match h.serve (.reconcile s.policy.reconcileTimeout) x with
        | (y, .error f) => (y, .error f)
        | (y, .ok (.error e)) => (y, .ok (.error (.reconcile e)))
        | (y, .ok (.ok .timedOut)) =>
          (y, .ok (.error (.reconcileTimeout s.policy.reconcileTimeout)))
        | (y, .ok (.ok .finished)) => (y, .ok (.ok (h.view y).roster)) := by
  unfold settledRoster
  rw [Exchange.run_bind, Exchange.run_view]
  dsimp only
  split
  · rfl
  · rw [Exchange.run_bind, Exchange.run_call]
    rcases h.serve (.reconcile s.policy.reconcileTimeout) x with ⟨y, f | e | _ | _⟩ <;> rfl

theorem run_prepare (h : Host σ) (s : Scaler) (x : σ) :
    s.prepare.run h x =
      match s.safeTarget.run h x with
      | (y, .error f) => (y, .error f)
      | (y, .ok (.error e)) => (y, .ok (.error e))
      | (y, .ok (.ok target)) =>
        ((s.settledRoster.run h y).1, (s.settledRoster.run h y).2.map fun reply =>
          reply.map fun roster => (target, roster)) := by
  unfold prepare
  rw [Exchange.run_bind]
  rcases s.safeTarget.run h x with ⟨y, f | e | target⟩
  · rfl
  · rfl
  · simp only [Exchange.run_bind]
    rcases s.settledRoster.run h y with ⟨z, f | e | roster⟩ <;> rfl

/-- A tick of a running cluster prepares and then acts. -/
theorem tick_eq (s : Scaler) :
    s.tick = (do
      let view ← Exchange.view
      if view.status.isRunning then
        match ← s.prepare with
        | .error e => return (s, .error e)
        | .ok (target, roster) => s.act target roster
      else return (s, .ok .skipped)) := by
  unfold tick prepare
  refine congrArg _ (funext fun view => ?_)
  split
  · rw [bind_assoc]
    refine congrArg _ (funext fun reply => ?_)
    cases reply with
    | error e => rfl
    | ok target =>
      dsimp only
      rw [bind_assoc]
      refine congrArg _ (funext fun reply => ?_)
      cases reply <;> rfl
  · rfl

theorem run_tick_of_not_running (hr : (h.view x).status.isRunning = false) :
    s.tick.run h x = (x, .ok (s, .ok .skipped)) := by
  unfold tick
  rw [Exchange.run_bind, Exchange.run_view]
  dsimp only
  rw [hr]
  rfl

theorem run_tick_of_running (hr : (h.view x).status.isRunning = true) :
    s.tick.run h x =
      match s.prepare.run h x with
      | (y, .error f) => (y, .error f)
      | (y, .ok (.error e)) => (y, .ok (s, .error e))
      | (y, .ok (.ok (target, roster))) => (s.act target roster).run h y := by
  rw [tick_eq, Exchange.run_bind, Exchange.run_view]
  dsimp only
  rw [hr, if_pos rfl, Exchange.run_bind]
  rcases s.prepare.run h x with ⟨y, f | e | ⟨target, roster⟩⟩ <;> rfl

/-- Acting is deciding and then carrying the decision out; an error ends it before that. -/
theorem run_act (h : Host σ) (s : Scaler) (target : Nat) (r : Roster) (x : σ) :
    (s.act target r).run h x =
      match (s.advisor.recommend target r).run h x with
      | (y, .error f) => (y, .error f)
      | (y, .ok (a, .error e)) => (y, .ok ({ s with advisor := a }, .error e))
      | (y, .ok (a, .ok decision)) =>
        (((execute decision).run h y).1, ((execute decision).run h y).2.map fun result =>
          (({ s with advisor := a } : Scaler).note decision, result)) := by
  unfold act
  rw [Exchange.run_bind]
  rcases (s.advisor.recommend target r).run h x with ⟨y, f | ⟨a, e | decision⟩⟩
  · rfl
  · rfl
  · simp only [Exchange.run_bind]
    rcases (execute decision).run h y with ⟨z, f | result⟩ <;> rfl

theorem run_execute_up (n : Nat) :
    (execute (.up n)).run h x =
      ((h.serve (.scale n) x).1, (h.serve (.scale n) x).2.map fun reply =>
        match reply with
        | .ok _ => .ok (.scaledUp n)
        | .error e => .error (.scaleUp n e)) := by
  unfold execute Executor.scaleUp
  simp only [Exchange.run_bind, Exchange.run_call]
  rcases h.serve (.scale n) x with ⟨y, f | e | _⟩ <;> rfl

/-- Scaling down drains the workers and then removes them, whatever is answered. -/
theorem run_execute_down {ws : IdSet} (hws : ws.isEmpty = false) :
    (execute (.down ws)).run h x =
      match h.serve (.retire (.close ws.toList)) x with
      | (y, .error f) => (y, .error f)
      | (y, .ok _) =>
        ((h.serve (.scaleDown ws.toList) y).1,
          (h.serve (.scaleDown ws.toList) y).2.map fun _ => .ok (.scaledDown ws)) := by
  unfold execute Executor.scaleDown
  simp only [hws, Exchange.run_bind]
  simp only [Bool.false_eq_true, if_false, Exchange.run_bind, Exchange.run_call]
  rcases h.serve (.retire (.close ws.toList)) x with ⟨y, f | reply⟩
  · rfl
  · dsimp only
    rcases h.serve (.scaleDown ws.toList) y with ⟨z, f | reply⟩ <;> rfl

theorem prepare_eq_ok {target : Nat} {r : Roster}
    (hp : s.prepare.run h x = (y, .ok (.ok (target, r)))) :
    ∃ x' raw, s.estimator.target.run h x = (x', .ok (.ok raw)) ∧
      s.policy.clamp raw = .ok target ∧ s.settledRoster.run h x' = (y, .ok (.ok r)) := by
  rw [run_prepare, run_safeTarget] at hp
  rcases he : s.estimator.target.run h x with ⟨x', f | e | raw⟩
  · rw [he] at hp
    cases hp
  · rw [he] at hp
    cases hp
  · rw [he] at hp
    dsimp only at hp
    cases hc : s.policy.clamp raw with
    | error f =>
      rw [hc] at hp
      cases hp
    | ok target' =>
      rw [hc] at hp
      rcases hr : s.settledRoster.run h x' with ⟨y', f | e | r'⟩
      · simp [Except.map, hr] at hp
      · simp [Except.map, hr] at hp
      · simp only [Except.map, hr, Prod.mk.injEq, Except.ok.injEq] at hp
        obtain ⟨rfl, rfl, rfl⟩ := hp
        exact ⟨x', raw, rfl, hc, hr⟩

/-- A settled roster is shown by the cluster, and it is reconciled or a call has seen to it. -/
theorem settledRoster_eq_ok {r : Roster}
    (hp : s.settledRoster.run h x = (y, .ok (.ok r))) :
    r = (h.view y).roster ∧
      (x = y ∧ r.isReconciled = true ∨
        h.serve (.reconcile s.policy.reconcileTimeout) x = (y, .ok (.ok .finished))) := by
  rw [run_settledRoster] at hp
  split at hp
  · rename_i hr
    cases hp
    exact ⟨rfl, .inl ⟨rfl, hr⟩⟩
  · rcases hc : h.serve (.reconcile s.policy.reconcileTimeout) x with ⟨z, f | e | _ | _⟩
    · rw [hc] at hp
      cases hp
    · rw [hc] at hp
      cases hp
    · rw [hc] at hp
      cases hp
      exact ⟨rfl, .inr rfl⟩
    · rw [hc] at hp
      cases hp

lemma only_settledRoster (s : Scaler) : s.settledRoster.Only (· = .reconcile) := by
  unfold settledRoster
  refine Exchange.only_view.bind fun v => ?_
  split
  · trivial
  · refine ((Exchange.only_call (M := (· = .reconcile))).2 rfl).bind fun reply => ?_
    rcases reply with e | _ | _
    · trivial
    · exact Exchange.only_view.bind fun _ => trivial
    · trivial

/-- A tick has come to a decision, even one that it could not carry out. -/
def decided : Except TickError Outcome → Bool
  | .ok .skipped => false
  | .ok _ | .error (.scaleUp _ _) => true
  | .error _ => false

/-- The scaler after a round of candidates. -/
def counted (s : Scaler) (ws : IdSet) : Scaler :=
  { s with advisor := { s.advisor with debounce := s.debounce.observe ws } }

/-- The results that carrying a decision out can have; only growth can fail. -/
def Yields (result : Except TickError Outcome) : Recommendation → Prop
  | .same => result = .ok .unchanged
  | .up n => result = .ok (.scaledUp n) ∨ ∃ e, result = .error (.scaleUp n e)
  | .down ws => result = .ok (.scaledDown ws)

theorem execute_yields {d : Recommendation} (he : (execute d).run h x = (y, .ok result)) :
    Yields result d := by
  cases d with
  | same =>
    cases he
    exact rfl
  | up n =>
    rw [run_execute_up] at he
    rcases hc : (h.serve (.scale n) x).2 with f | e | u
    · simp [hc, Except.map] at he
    · simp only [hc, Except.map, Prod.mk.injEq, Except.ok.injEq] at he
      exact .inr ⟨e, he.2.symm⟩
    · simp only [hc, Except.map, Prod.mk.injEq, Except.ok.injEq] at he
      exact .inl he.2.symm
  | down ws =>
    unfold execute at he
    rw [Exchange.run_bind] at he
    rcases hd : (Executor.scaleDown ws).run h x with ⟨z, f | u⟩
    · rw [hd] at he
      cases he
    · rw [hd] at he
      cases he
      exact rfl

lemma Yields.decided {d : Recommendation} (hr : Yields result d) : decided result = true := by
  cases d with
  | same => rw [hr]; rfl
  | up n => obtain rfl | ⟨e, rfl⟩ := hr <;> rfl
  | down ws => rw [hr]; rfl

/-- Preparing ends in an estimate that failed or in a reconciliation that failed or took too long.
-/
lemma error_of_prepare {e : TickError} (hp : s.prepare.run h x = (y, .ok (.error e))) :
    (∃ e', e = .estimate e') ∨ (∃ e', e = .reconcile e') ∨ ∃ limit, e = .reconcileTimeout limit := by
  rw [run_prepare, run_safeTarget] at hp
  rcases ht : s.estimator.target.run h x with ⟨z, f | e' | raw⟩
  · rw [ht] at hp
    cases hp
  · rw [ht] at hp
    cases hp
    exact .inl ⟨e', rfl⟩
  · rw [ht] at hp
    dsimp only at hp
    cases hc : s.policy.clamp raw with
    | error f =>
      rw [hc] at hp
      cases hp
    | ok target =>
      rw [hc] at hp
      simp only [Except.map, run_settledRoster] at hp
      split at hp
      · cases hp
      · rcases hr : h.serve (.reconcile s.policy.reconcileTimeout) z with ⟨z', f | e' | _ | _⟩
        · rw [hr] at hp
          cases hp
        · rw [hr] at hp
          cases hp
          exact .inr (.inl ⟨e', rfl⟩)
        · rw [hr] at hp
          cases hp
        · rw [hr] at hp
          cases hp
          exact .inr (.inr ⟨_, rfl⟩)

lemma not_decided_of_prepare {e : TickError} (hp : s.prepare.run h x = (y, .ok (.error e))) :
    decided (.error e) = false := by
  obtain ⟨e', rfl⟩ | ⟨e', rfl⟩ | ⟨limit, rfl⟩ := error_of_prepare hp
  · rfl
  · rfl
  · rfl

/-- What a tick that returns may have done: it has left the scaler as it is, or it has counted a
round of candidates, noted the decision and carried it out. -/
theorem tick_cases (ht : s.tick.run h x = (y, .ok (s', result))) :
    (decided result = false ∧ s' = s) ∨
    ∃ x₁ target r x₂ ws, decided result = true ∧
      s.prepare.run h x = (x₁, .ok (.ok (target, r))) ∧
      (s.advisor.round target r).run h x₁ = (x₂, .ok (.ok ws)) ∧
      (execute (s.advisor.verdict target r ws)).run h x₂ = (y, .ok result) ∧
      s' = (s.counted ws).note (s.advisor.verdict target r ws) := by
  cases hv : (h.view x).status.isRunning with
  | false =>
    rw [run_tick_of_not_running hv] at ht
    cases ht
    exact .inl ⟨rfl, rfl⟩
  | true =>
    rw [run_tick_of_running hv] at ht
    rcases hp : s.prepare.run h x with ⟨x₁, f | e | ⟨target, r⟩⟩
    · rw [hp] at ht
      cases ht
    · rw [hp] at ht
      cases ht
      exact .inl ⟨not_decided_of_prepare hp, rfl⟩
    · rw [hp] at ht
      dsimp only at ht
      rw [run_act, Advisor.run_recommend] at ht
      rcases hd : (s.advisor.round target r).run h x₁ with ⟨x₂, f | e | ws⟩
      · rw [hd] at ht
        cases ht
      · rw [hd] at ht
        cases ht
        exact .inl ⟨rfl, rfl⟩
      · rw [hd] at ht
        dsimp only at ht
        rcases he : (execute (s.advisor.verdict target r ws)).run h x₂ with ⟨z, f | result'⟩
        · rw [he] at ht
          cases ht
        · rw [he] at ht
          cases ht
          exact .inr ⟨x₁, target, r, x₂, ws, (execute_yields he).decided, rfl, hd, he, rfl⟩

/-- A tick that lets workers go has counted them as candidates long enough. -/
theorem tick_scaledDown {ws : IdSet} (ht : s.tick.run h x = (y, .ok (s', .ok (.scaledDown ws)))) :
    ∃ x₁ target r x₂ proposed, s.prepare.run h x = (x₁, .ok (.ok (target, r))) ∧
      (s.advisor.round target r).run h x₁ = (x₂, .ok (.ok proposed)) ∧
      (execute (.down ws)).run h x₂ = (y, .ok (.ok (.scaledDown ws))) ∧
      ws = s.debounce.due proposed ∧ ws.isEmpty = false := by
  obtain ⟨hr, -⟩ | ⟨x₁, target, r, x₂, proposed, -, hp, hround, he, -⟩ := tick_cases ht
  · cases hr
  · refine ⟨x₁, target, r, x₂, proposed, hp, hround, ?_⟩
    have hyields := execute_yields he
    cases hv : s.advisor.verdict target r proposed with
    | same =>
      rw [hv] at hyields
      cases hyields
    | up n =>
      rw [hv] at hyields
      obtain hup | ⟨e, hup⟩ := hyields <;> cases hup
    | down gone =>
      rw [hv] at he hyields
      cases hyields
      exact ⟨he, Advisor.verdict_eq_down hv⟩

/-- A tick changes nothing about a scaler but the history and the counts, and these by one round at
most. -/
theorem tick_recounts (hr : (s.tick.run h x).2 = .ok (s', result)) :
    ∃ d log, (d = s.debounce ∨ ∃ ws, d = s.debounce.observe ws) ∧
      s' = { s with advisor := { s.advisor with debounce := d }, history := log } := by
  obtain ⟨-, rfl⟩ | ⟨x₁, target, r, x₂, ws, -, -, -, -, rfl⟩ := tick_cases (Prod.ext rfl hr)
  · exact ⟨_, _, .inl rfl, rfl⟩
  · refine ⟨_, ((s.counted ws).note (s.advisor.verdict target r ws)).history, .inr ⟨ws, rfl⟩, ?_⟩
    unfold note
    split <;> rfl

lemma only_safeTarget (s : Scaler) : s.safeTarget.Only Method.Estimates := by
  refine s.estimator.only_target.bind fun reply => ?_
  cases reply with
  | error e => trivial
  | ok raw => exact (Exchange.only_check _).bind fun _ => trivial

/-- Before it decides, a tick asks for nothing but estimates and a reconciliation. -/
theorem only_prepare (s : Scaler) :
    s.prepare.Only fun m => m.Estimates ∨ m = .reconcile := by
  refine (s.only_safeTarget.mono fun _ => .inl).bind fun reply => ?_
  cases reply with
  | error e => trivial
  | ok target =>
    refine (s.only_settledRoster.mono fun _ => .inr).bind fun reply => ?_
    cases reply <;> trivial

lemma only_execute {d : Recommendation} (hd : ∀ n, d ≠ .up n) :
    (execute d).Only fun m => m = .retire ∨ m = .scaleDown := by
  cases d with
  | same => trivial
  | up n => exact absurd rfl (hd n)
  | down ws =>
    refine Exchange.Only.bind ?_ fun _ => trivial
    unfold Executor.scaleDown
    split
    · trivial
    · refine (Exchange.only_call.2 (.inl rfl)).bind fun _ => ?_
      exact (Exchange.only_call.2 (.inr rfl)).bind fun _ => trivial

/-- A tick does not scale except to more workers than the host shows as planned, and does nothing
after it. So it keeps what all other calls keep, up to such a call. -/
theorem tick_reaches {P Q : σ → Prop} (hPQ : ∀ x, P x → Q x)
    (hs : ∀ c x, c.method ≠ .scale → P x → P (h.serve c x).1)
    (hup : ∀ n x, (h.view x).roster.plan.size < n → P x → Q (h.serve (.scale n) x).1)
    (hx : P x) : Q (s.tick.run h x).1 := by
  cases hv : (h.view x).status.isRunning with
  | false =>
    rw [run_tick_of_not_running hv]
    exact hPQ x hx
  | true =>
    rw [run_tick_of_running hv]
    have hy : P (s.prepare.run h x).1 := by
      refine s.only_prepare.keeps (fun c x hc => hs c x ?_) hx
      rintro he
      rw [he] at hc
      obtain hc | hc := hc <;> cases hc
    rcases hp : s.prepare.run h x with ⟨y, f | e | ⟨target, r⟩⟩
    · rw [hp] at hy
      exact hPQ y hy
    · rw [hp] at hy
      exact hPQ y hy
    · rw [hp] at hy
      obtain ⟨x', raw, -, -, hr⟩ := prepare_eq_ok hp
      obtain ⟨rfl, -⟩ := settledRoster_eq_ok hr
      have hz : P ((s.advisor.round target (h.view y).roster).run h y).1 :=
        (Advisor.only_round _ _ _).keeps (fun c x hc => hs c x (hc ▸ Method.noConfusion)) hy
      dsimp only
      rw [run_act, Advisor.run_recommend]
      rcases hd : (s.advisor.round target (h.view y).roster).run h y with ⟨z, f | e | ws⟩
      · rw [hd] at hz
        exact hPQ z hz
      · rw [hd] at hz
        exact hPQ z hz
      · rw [hd] at hz
        dsimp only at hz ⊢
        cases hverdict : s.advisor.verdict target (h.view y).roster ws with
        | up n =>
          obtain ⟨hlt, rfl⟩ := Advisor.verdict_eq_up hverdict
          rw [Advisor.run_round_of_le (Nat.le_of_lt hlt)] at hd
          cases hd
          rw [run_execute_up]
          exact hup n y hlt hy
        | same => exact hPQ z hz
        | down gone =>
          refine hPQ _ ((only_execute (d := .down gone) fun _ => Recommendation.noConfusion).keeps
            (fun c x hc => hs c x ?_) hz)
          obtain hc | hc := hc <;> exact hc ▸ Method.noConfusion

/-- What the scaling call and all other calls keep is kept by a tick. -/
theorem tick_keeps {P : σ → Prop} (hs : ∀ c x, c.method ≠ .scale → P x → P (h.serve c x).1)
    (hup : ∀ n x, (h.view x).roster.plan.size < n → P x → P (h.serve (.scale n) x).1)
    (hx : P x) : P (s.tick.run h x).1 :=
  tick_reaches (fun _ => id) hs hup hx

end Scaler

end Fleet
