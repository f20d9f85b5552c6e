import Fleet.Scaling.Advisor
import Fleet.Proofs.SetSize

/-! Runs of the program that decides, on any host. A decision recounts the proposals of its round,
and nobody is let go who is not a candidate of it. -/
namespace Fleet

variable {α β σ : Type}

namespace Exchange

@[simp] lemma run_view (h : Host σ) (x : σ) : view.run h x = (x, .ok (h.view x)) := rfl

@[simp] lemma run_call (h : Host σ) (c : Call) (x : σ) : (call c).run h x = h.serve c x := by
  simp only [call, run]
  rcases h.serve c x with ⟨x', f | r⟩ <;> rfl

@[simp] lemma run_check (h : Host σ) (e : Except Fault α) (x : σ) : (check e).run h x = (x, e) := by
  cases e <;> rfl

lemma run_bind_ok {h : Host σ} {p : Exchange α} {f : α → Exchange β} {x x' : σ} {a : α}
    (hp : p.run h x = (x', .ok a)) : (p >>= f).run h x = (f a).run h x' := by
  rw [run_bind, hp]

end Exchange

namespace Debounce

lemma bounds_of_get?_observe {d : Debounce} {s : IdSet} {w : Id} {n : Nat}
    (h : (d.observe s).counts.get? w = some n) : 1 ≤ n ∧ n < d.waitCount := by
  rw [observe, Dict.get?_filter, raised, Dict.get?_ofKeys] at h
  obtain ⟨hs, hlt⟩ := Option.filter_eq_some_iff.1 h
  by_cases hw : w ∈ s
  · rw [if_pos hw, Option.some.injEq] at hs
    exact ⟨by omega, by simpa using hlt⟩
  · simp [hw] at hs

lemma mem_of_mem_due {d : Debounce} {s : IdSet} {w : Id} (h : w ∈ d.due s) : w ∈ s :=
  (mem_due.1 h).1

end Debounce

namespace Advisor

/-- The query for candidates that brings the plan down to a target. -/
def queryFor (a : Advisor) (target : Nat) : CloseQuery := { a.query with target := target }

/-- A target that is not below the plan is followed without a look at anything. -/
theorem run_recommend_of_le {h : Host σ} {a : Advisor} {target : Nat} {r : Roster} {x : σ}
    (hle : r.plan.size ≤ target) :
    (a.recommend target r).run h x =
      (x, .ok ({ a with debounce := a.debounce.observe ∅ },
        .ok (if r.plan.size < target then .up target else .same))) := by
  unfold recommend
  by_cases he : target = r.plan.size
  · rw [if_pos he, if_neg (by omega)]
    rfl
  · have hlt : r.plan.size < target := by omega
    rw [if_neg he, if_pos hlt, if_pos hlt]
    rfl

/-- What becomes of an advisor whose candidates have been looked for. -/
def settle (a : Advisor) : Except RemoteError IdSet → Advisor × Except TickError Recommendation
  | .ok s => ((a.conclude s).1, .ok (a.conclude s).2)
  | .error e => (a, .error (.candidates e))

/-- Below the plan the candidates are looked for and concluded on. -/
theorem run_recommend_of_lt {h : Host σ} {a : Advisor} {target : Nat} {r : Roster} {x : σ}
    (hlt : target < r.plan.size) :
    (a.recommend target r).run h x =
      (((a.candidates target r).run h x).1, ((a.candidates target r).run h x).2.map a.settle) := by
  have hb : a.recommend target r =
      a.candidates target r >>= fun reply => pure (a.settle reply) := by
    unfold recommend
    rw [if_neg (by omega), if_neg (by omega)]
    congr 1
    funext reply
    cases reply <;> rfl
  rw [hb, Exchange.run_bind]
  rcases (a.candidates target r).run h x with ⟨x', f | reply⟩ <;> rfl

/-- Where the scheduler is not asked, the pending workers are the candidates. -/
theorem run_candidates_of_pending {h : Host σ} {a : Advisor} {target : Nat} {r : Roster} {x : σ}
    (hq : a.asksScheduler target r = false) :
    (a.candidates target r).run h x = (x, .ok (.ok (a.pendingShare target r))) := by
  unfold candidates
  simp only [hq]
  rfl

theorem run_candidates_of_query {h : Host σ} {a : Advisor} {target : Nat} {r : Roster} {x : σ}
    (hq : a.asksScheduler target r = true) :
    (a.candidates target r).run h x =
      ((h.serve (.closeCandidates (a.queryFor target)) x).1,
        (h.serve (.closeCandidates (a.queryFor target)) x).2.map fun reply =>
          reply.map fun ids => (a.pendingShare target r).union (.ofList ids)) := by
  unfold candidates
  simp only [hq, if_true, Exchange.run_bind, Exchange.run_call, queryFor]
  rcases h.serve (.closeCandidates { a.query with target := target }) x with ⟨x', f | e | ids⟩ <;>
    rfl

/-- The search for candidates does not look at the counts. -/
theorem run_candidates_recount (h : Host σ) (a : Advisor) (d : Debounce) (target : Nat)
    (r : Roster) (x : σ) :
    (({ a with debounce := d } : Advisor).candidates target r).run h x =
      (a.candidates target r).run h x := by
  cases hq : a.asksScheduler target r with
  | false =>
    rw [run_candidates_of_pending hq, run_candidates_of_pending (a := { a with debounce := d }) hq]
    rfl
  | true =>
    rw [run_candidates_of_query hq, run_candidates_of_query (a := { a with debounce := d }) hq]
    rfl

lemma size_pendingShare_le (a : Advisor) (target : Nat) (r : Roster) :
    (a.pendingShare target r).size ≤ r.plan.size - target := by
  unfold pendingShare
  cases a.source with
  | pendingFirst => simp
  | scheduler => simp

/-- Pending workers and offered ones together are no more than the plan has too many, where the
offer is no more than the target leaves of the connected workers. -/
theorem size_candidates_le {h : Host σ} {a : Advisor} {target : Nat} {r : Roster} {x : σ}
    (hr : r.isReconciled = true) (ho : ∀ w ∈ r.observed, w ∈ r.requested)
    (hlt : target < r.plan.size)
    (hq : ∀ ids, (h.serve (.closeCandidates (a.queryFor target)) x).2 = .ok (.ok ids) →
      ids.length ≤ r.observed.size - target) {s : IdSet}
    (hs : ((a.candidates target r).run h x).2 = .ok (.ok s)) :
    s.size ≤ r.plan.size - target := by
  have hsize : r.plan.size = r.requested.size := by simpa [Roster.isReconciled] using hr
  have hpending : r.pending.size + r.observed.size = r.requested.size :=
    IdSet.size_diff_add ho
  have hshare := a.size_pendingShare_le target r
  cases ha : a.asksScheduler target r with
  | false =>
    rw [run_candidates_of_pending ha] at hs
    cases hs
    exact hshare
  | true =>
    rw [run_candidates_of_query ha] at hs
    rcases he : (h.serve (.closeCandidates (a.queryFor target)) x).2 with f | e | ids
    · simp [he, Except.map] at hs
    · simp [he, Except.map] at hs
    · simp only [he, Except.map, Except.ok.injEq] at hs
      subst hs
      have hids := hq ids he
      have hunion := IdSet.size_union_le (a.pendingShare target r) (.ofList ids)
      have hlist := IdSet.size_ofList_le ids
      -- a query is only made when all pending workers are candidates already
      have hroom : (a.pendingShare target r).size + (r.observed.size - target) ≤
          r.plan.size - target := by
        unfold asksScheduler pendingShare at ha
        unfold pendingShare
        cases hsrc : a.source with
        | pendingFirst =>
          simp only [hsrc, IdSet.size_take, decide_eq_true_eq] at ha ⊢
          omega
        | scheduler =>
          simp only [IdSet.size_empty]
          omega
      omega

lemma conclude_cases (a : Advisor) (s : IdSet) :
    (a.conclude s).2 = .same ∨
      ((a.conclude s).2 = .down (a.debounce.due s) ∧ (a.debounce.due s).isEmpty = false) := by
  simp only [conclude]
  split
  · exact .inl rfl
  · rename_i hne
    exact .inr ⟨rfl, by simpa using hne⟩

/-- The candidates of a round of decisions: nobody, if the target is not below the plan. -/
def round (a : Advisor) (target : Nat) (r : Roster) : Exchange (Except RemoteError IdSet) :=
  if r.plan.size ≤ target then pure (.ok ∅) else a.candidates target r

/-- The decision on the candidates of a round. -/
def verdict (a : Advisor) (target : Nat) (r : Roster) (ws : IdSet) : Recommendation :=
  if r.plan.size < target then .up target
  else if (a.debounce.due ws).isEmpty then .same
  else .down (a.debounce.due ws)

lemma run_round_of_le {h : Host σ} {a : Advisor} {target : Nat} {r : Roster} {x : σ}
    (hle : r.plan.size ≤ target) : (a.round target r).run h x = (x, .ok (.ok ∅)) := by
  unfold round
  rw [if_pos hle]
  rfl

lemma run_round_of_lt {h : Host σ} {a : Advisor} {target : Nat} {r : Roster} {x : σ}
    (hlt : target < r.plan.size) :
    (a.round target r).run h x = (a.candidates target r).run h x := by
  unfold round
  rw [if_neg (Nat.not_le.2 hlt)]

/-- Where the scheduler alone names the candidates, they are those that it offers. -/
theorem run_round_of_scheduler {h : Host σ} {a : Advisor} {target : Nat} {r : Roster} {x : σ}
    (hs : a.source = .scheduler) (hlt : target < r.plan.size) :
    (a.round target r).run h x =
      ((h.serve (.closeCandidates (a.queryFor target)) x).1,
        (h.serve (.closeCandidates (a.queryFor target)) x).2.map fun reply =>
          reply.map IdSet.ofList) := by
  have hshare : a.pendingShare target r = ∅ := by
    unfold pendingShare
    rw [hs]
  have hq : a.asksScheduler target r = true := by
    unfold asksScheduler
    rw [hs]
  have hunion : ∀ ids : List Id, (∅ : IdSet).union (.ofList ids) = .ofList ids :=
    fun ids => IdSet.ext_mem fun w => by simp
  rw [run_round_of_lt hlt, run_candidates_of_query hq, hshare]
  simp only [hunion]

/-- A round whose candidates are known is counted and decided on. -/
theorem run_recommend (h : Host σ) (a : Advisor) (target : Nat) (r : Roster) (x : σ) :
    (a.recommend target r).run h x =
      match (a.round target r).run h x with
      | (y, .error f) => (y, .error f)
      | (y, .ok (.error e)) => (y, .ok (a, .error (.candidates e)))
      | (y, .ok (.ok ws)) =>
        (y, .ok ({ a with debounce := a.debounce.observe ws }, .ok (a.verdict target r ws))) := by
  by_cases hle : r.plan.size ≤ target
  · rw [run_recommend_of_le hle, run_round_of_le hle]
    rfl
  · have hverdict : ∀ ws, a.verdict target r ws = (a.conclude ws).2 := by
      intro ws
      unfold verdict
      rw [if_neg (by omega)]
      rfl
    rw [run_recommend_of_lt (by omega), run_round_of_lt (by omega)]
    rcases (a.candidates target r).run h x with ⟨y, f | e | ws⟩
    · rfl
    · rfl
    · simp only [hverdict]
      rfl

lemma verdict_eq_up {a : Advisor} {target n : Nat} {r : Roster} {ws : IdSet}
    (hv : a.verdict target r ws = .up n) : r.plan.size < target ∧ n = target := by
  unfold verdict at hv
  split at hv
  · cases hv
    exact ⟨‹_›, rfl⟩
  · split at hv <;> cases hv

lemma verdict_eq_down {a : Advisor} {target : Nat} {r : Roster} {ws gone : IdSet}
    (hv : a.verdict target r ws = .down gone) :
    gone = a.debounce.due ws ∧ gone.isEmpty = false := by
  unfold verdict at hv
  split at hv
  · cases hv
  · split at hv
    · cases hv
    · rename_i hne
      cases hv
      exact ⟨rfl, by simpa using hne⟩

/-- Every candidate is awaited or has been offered by the scheduler. -/
theorem mem_round {h : Host σ} {a : Advisor} {target : Nat} {r : Roster} {x : σ} {ws : IdSet}
    (hr : ((a.round target r).run h x).2 = .ok (.ok ws)) {w : Id} (hw : w ∈ ws) :
    w ∈ r.pending ∨
      ∃ ids : List Id,
        (h.serve (.closeCandidates (a.queryFor target)) x).2 = .ok (.ok ids) ∧ w ∈ ids := by
  have hshare : w ∈ a.pendingShare target r → w ∈ r.pending := by
    unfold pendingShare
    cases a.source with
    | pendingFirst => exact IdSet.mem_of_mem_take
    | scheduler => exact fun h => absurd h IdSet.not_mem_empty
  by_cases hle : r.plan.size ≤ target
  · rw [run_round_of_le hle] at hr
    cases hr
    exact absurd hw IdSet.not_mem_empty
  · rw [run_round_of_lt (by omega)] at hr
    cases hq : a.asksScheduler target r with
    | false =>
      rw [run_candidates_of_pending hq] at hr
      cases hr
      exact .inl (hshare hw)
    | true =>
      rw [run_candidates_of_query hq] at hr
      rcases hc : (h.serve (.closeCandidates (a.queryFor target)) x).2 with f | e | ids
      · simp [hc, Except.map] at hr
      · simp [hc, Except.map] at hr
      · simp only [hc, Except.map, Except.ok.injEq] at hr
        subst hr
        rcases IdSet.mem_union.1 hw with hp | ho
        · exact .inl (hshare hp)
        · exact .inr ⟨ids, rfl, IdSet.mem_ofList.1 ho⟩

end Advisor

end Fleet
