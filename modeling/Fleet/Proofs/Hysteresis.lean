import Fleet.Proofs.Decision

/-! Hysteresis over whole runs of decisions. A worker is let go on every round that completes a
multiple of the wait in unbroken proposals; its count is what is left over. -/
namespace Fleet

namespace Debounce

/-- For how many rounds in a row, up to the last one, a worker has been proposed. -/
def streak (w : Id) (rounds : List IdSet) : Nat :=
  (rounds.reverse.takeWhile fun s => decide (w ∈ s)).length

@[simp] lemma streak_nil (w : Id) : streak w [] = 0 := rfl

@[simp] lemma streak_concat (w : Id) (rounds : List IdSet) (s : IdSet) :
    streak w (rounds ++ [s]) = if w ∈ s then streak w rounds + 1 else 0 := by
  unfold streak
  rw [List.reverse_append, List.reverse_singleton, List.singleton_append, List.takeWhile_cons]
  by_cases h : w ∈ s <;> simp [h]

lemma succ_mod {n m : Nat} (hm : 0 < m) :
    (n + 1) % m = if n % m + 1 < m then n % m + 1 else 0 := by
  have hlt := Nat.mod_lt n hm
  rw [Nat.add_mod_eq_add_mod_right 1 (Nat.mod_mod n m).symm]
  split_ifs with h
  · exact Nat.mod_eq_of_lt h
  · have he : n % m + 1 = m := by omega
    rw [he, Nat.mod_self]

/-- The counts are those of a counter that has gone through the given rounds. -/
structure Follows (d : Debounce) (rounds : List IdSet) : Prop where
  count_eq : ∀ w, d.count w = streak w rounds % d.waitCount
  bounds : ∀ w n, d.counts.get? w = some n → 1 ≤ n ∧ n < d.waitCount

lemma follows_create (W : Nat) : (create W).Follows [] := by
  constructor
  · intro w
    simp
  · intro w n h
    cases h

/-- One more round is one more step of every streak. -/
theorem Follows.observe {d : Debounce} {rounds : List IdSet} (h : d.Follows rounds)
    (hd : 0 < d.waitCount) (s : IdSet) : (d.observe s).Follows (rounds ++ [s]) := by
  constructor
  · intro w
    rw [count_observe, h.count_eq, streak_concat, waitCount_observe]
    by_cases hw : w ∈ s
    · rw [if_pos hw, succ_mod hd]
      simp [hw]
    · simp [hw]
  · intro w n hn
    have hbounds := bounds_of_get?_observe hn
    exact hbounds

theorem Follows.mem_due_iff {d : Debounce} {rounds : List IdSet} (h : d.Follows rounds)
    (hd : 0 < d.waitCount) (s : IdSet) (w : Id) :
    w ∈ d.due s ↔
      0 < streak w (rounds ++ [s]) ∧ d.waitCount ∣ streak w (rounds ++ [s]) := by
  rw [mem_due, streak_concat, h.count_eq]
  by_cases hw : w ∈ s
  · rw [if_pos hw, Nat.dvd_iff_mod_eq_zero, succ_mod hd]
    have hlt := Nat.mod_lt (streak w rounds) hd
    by_cases hl : streak w rounds % d.waitCount + 1 < d.waitCount
    · simp [hw, hl]
    · simp [hw, hl]
      omega
  · simp [hw]

end Debounce

/-- One call for a decision: the target, the roster it is made on, and what the scheduler answers
to a query for candidates. -/
structure Consultation where
  target : Nat
  roster : Roster
  answer : CloseQuery → Except RemoteError (List Id)

/-- A scheduler that answers queries for candidates and nothing else. -/
def Consultation.scheduler (q : Consultation) : Host Unit where
  view _ := ⟨.running, q.roster⟩
  serve c _ :=
    match c with
    | .closeCandidates query => ((), .ok (q.answer query))
    | _ => ((), .ok (.error (.connection "not served")))

namespace Advisor

/-- What a consultation makes of an advisor, and the decision. -/
def consult (a : Advisor) (q : Consultation) :
    Except Fault (Advisor × Except TickError Recommendation) :=
  ((a.recommend q.target q.roster).run q.scheduler ()).2

def consultAll (a : Advisor) : List Consultation → Except Fault Advisor
  | [] => .ok a
  | q :: rest => a.consult q >>= fun answer => answer.1.consultAll rest

/-- The candidates of a consultation: nobody unless the target is below the plan, and no set at all
when the scheduler fails. They do not depend on the counts. -/
def proposed (a : Advisor) (q : Consultation) : Option IdSet :=
  if q.roster.plan.size ≤ q.target then some ∅
  else
    match ((a.candidates q.target q.roster).run q.scheduler ()).2 with
    | .ok (.ok s) => some s
    | _ => none

lemma proposed_recount (a : Advisor) (d : Debounce) (q : Consultation) :
    ({ a with debounce := d } : Advisor).proposed q = a.proposed q := by
  unfold proposed
  rw [run_candidates_recount]

/-- The candidates of the consultations of a run that came to a decision. -/
def proposals (a : Advisor) (run : List Consultation) : List IdSet := run.filterMap a.proposed

lemma candidates_ok (a : Advisor) (q : Consultation) :
    ∃ reply, ((a.candidates q.target q.roster).run q.scheduler ()).2 = .ok reply := by
  cases hq : a.asksScheduler q.target q.roster with
  | false => exact ⟨_, by rw [run_candidates_of_pending hq]⟩
  | true => exact ⟨_, by rw [run_candidates_of_query hq]; rfl⟩

/-- A round of proposals is counted and concluded on. -/
theorem consult_of_proposed {a : Advisor} {q : Consultation} {s : IdSet}
    (h : a.proposed q = some s) :
    a.consult q = .ok ({ a with debounce := a.debounce.observe s },
      .ok (if q.roster.plan.size < q.target then .up q.target
        else if (a.debounce.due s).isEmpty then .same else .down (a.debounce.due s))) := by
  unfold proposed at h
  unfold consult
  by_cases hle : q.roster.plan.size ≤ q.target
  · rw [if_pos hle, Option.some.injEq] at h
    subst h
    rw [run_recommend_of_le hle]
    rfl
  · rw [if_neg hle] at h
    obtain ⟨reply, hr⟩ := a.candidates_ok q
    rw [run_recommend_of_lt (by omega), if_neg (by omega)]
    rw [hr] at h ⊢
    cases reply with
    | error e => cases h
    | ok t =>
      cases h
      rfl

/-- A scheduler that fails leaves the advisor as it is. -/
theorem consult_of_not_proposed {a : Advisor} {q : Consultation} (h : a.proposed q = none) :
    ∃ e, a.consult q = .ok (a, .error (.candidates e)) := by
  unfold proposed at h
  unfold consult
  by_cases hle : q.roster.plan.size ≤ q.target
  · rw [if_pos hle] at h
    cases h
  · rw [if_neg hle] at h
    obtain ⟨reply, hr⟩ := a.candidates_ok q
    rw [run_recommend_of_lt (by omega)]
    rw [hr] at h ⊢
    cases reply with
    | error e => exact ⟨e, rfl⟩
    | ok t => cases h

/-- A run changes nothing but the counts, and these follow its proposals. -/
theorem consultAll_follows (a : Advisor) (d : Debounce) (rounds : List IdSet)
    (run : List Consultation) (hd : 0 < d.waitCount) (h : d.Follows rounds) :
    ∃ d', ({ a with debounce := d }).consultAll run = .ok { a with debounce := d' } ∧
      d'.waitCount = d.waitCount ∧ d'.Follows (rounds ++ a.proposals run) := by
  -- on the run; a round that is counted moves from what is to come to what the counts follow
  induction run generalizing d rounds with
  | nil => exact ⟨d, rfl, rfl, by simpa [proposals] using h⟩
  | cons q rest ih =>
    cases hq : a.proposed q with
    | none =>
      obtain ⟨e, he⟩ := consult_of_not_proposed ((a.proposed_recount d q).trans hq)
      obtain ⟨d', hr, hw, hf⟩ := ih d rounds hd h
      refine ⟨d', ?_, hw, ?_⟩
      · rw [consultAll, he]
        exact hr
      · simpa [proposals, hq] using hf
    | some s =>
      have hs := consult_of_proposed ((a.proposed_recount d q).trans hq)
      obtain ⟨d', hr, hw, hf⟩ := ih (d.observe s) (rounds ++ [s]) hd (h.observe hd s)
      refine ⟨d', ?_, hw, ?_⟩
      · rw [consultAll, hs]
        exact hr
      · simpa [proposals, hq] using hf

/-- Over any run of an advisor that starts afresh: a consultation without a `proposed` set fails and
changes nothing, and any other answers by the `streak`s alone. A target above the plan is followed.
Else exactly those are let go whose streak is a positive multiple of the wait, so nobody before a
whole wait. What is left of each streak is the count, and so no count that is kept reaches the wait.
-/
theorem consult_hysteresis {a : Advisor} {W : Nat} (hW : 1 ≤ W) (ha : a.debounce = .create W)
    (past : List Consultation) (q : Consultation) :
    ∃ now next result, a.consultAll past = .ok now ∧ now.consult q = .ok (next, result) ∧
      (∀ w n, now.debounce.counts.get? w = some n → 1 ≤ n ∧ n < W) ∧
      (W < Word.shortLimit → ∀ w, now.debounce.count w + 1 < Word.shortLimit) ∧
      match a.proposed q with
      | none => next = now ∧ ∃ e, result = .error (.candidates e)
      | some _ =>
        let rounds := a.proposals (past ++ [q])
        (∀ w, next.debounce.count w = Debounce.streak w rounds % W) ∧
        ∃ closed : IdSet,
          (∀ w, w ∈ closed ↔ 0 < Debounce.streak w rounds ∧ W ∣ Debounce.streak w rounds) ∧
          (∀ w, Debounce.streak w rounds < W → ¬ w ∈ closed) ∧
          result = .ok (if q.roster.plan.size < q.target then .up q.target
            else if closed.isEmpty then .same else .down closed) := by
  obtain ⟨d, hrun, hwait, hd⟩ :=
    a.consultAll_follows (.create W) [] past hW (Debounce.follows_create W)
  rw [← ha] at hrun
  rw [List.nil_append] at hd
  have hw : d.waitCount = W := hwait
  have hpos : 0 < d.waitCount := by omega
  have hcount : ∀ w, d.count w < W := fun w => by
    rw [hd.count_eq, hw]
    exact Nat.mod_lt _ hW
  have hshort : W < Word.shortLimit → ∀ w, d.count w + 1 < Word.shortLimit := fun h w => by
    have := hcount w
    omega
  have hbounds : ∀ w n, d.counts.get? w = some n → 1 ≤ n ∧ n < W := hw ▸ hd.bounds
  cases hq : a.proposed q with
  | none =>
    obtain ⟨e, he⟩ := consult_of_not_proposed ((a.proposed_recount d q).trans hq)
    exact ⟨_, _, _, hrun, he, hbounds, hshort, rfl, e, rfl⟩
  | some s =>
    have hs := consult_of_proposed ((a.proposed_recount d q).trans hq)
    have hrounds : a.proposals (past ++ [q]) = a.proposals past ++ [s] := by
      simp [proposals, hq]
    have hdue := hd.mem_due_iff hpos s
    rw [hw] at hdue
    refine ⟨_, _, _, hrun, hs, hbounds, hshort, ?_, d.due s, ?_, ?_, rfl⟩
    · intro w
      rw [hrounds, (hd.observe hpos s).count_eq, Debounce.waitCount_observe, hw]
    · intro w
      rw [hrounds, hdue]
    · intro w hlt hmem
      rw [hrounds] at hlt
      obtain ⟨h0, hdvd⟩ := (hdue w).1 hmem
      exact absurd (Nat.le_of_dvd h0 hdvd) (by omega)

/-- Asks two workers down to one, of a scheduler with the given answer. -/
def oneOfTwo (answer : Except RemoteError (List Id)) : Consultation where
  target := 1
  roster := ⟨.ofList ["w1", "w2"], .ofList ["w1", "w2"], .ofList ["w1", "w2"]⟩
  answer _ := answer

/-- With a wait of two, a failing scheduler between two proposals does not save the worker. -/
theorem consult_hysteresis_across_failure :
    (1 ≤ 2 ∧ (⟨.scheduler, .byName 0, .create 2⟩ : Advisor).debounce = .create 2) ∧
      ∃ now next, (⟨.scheduler, .byName 0, .create 2⟩ : Advisor).consultAll
          [oneOfTwo (.ok ["w1"]), oneOfTwo (.error .notRunning)] = .ok now ∧
        now.consult (oneOfTwo (.ok ["w1"])) = .ok (next, .ok (.down (.ofList ["w1"]))) := by
  refine ⟨⟨by omega, rfl⟩, ?_⟩
  obtain ⟨now, next, result, hnow, hnext, -, -, hlast⟩ :=
    consult_hysteresis (a := ⟨.scheduler, .byName 0, .create 2⟩) (W := 2) (by omega) rfl
      [oneOfTwo (.ok ["w1"]), oneOfTwo (.error .notRunning)] (oneOfTwo (.ok ["w1"]))
  have hrounds : (⟨.scheduler, .byName 0, .create 2⟩ : Advisor).proposals
      ([oneOfTwo (.ok ["w1"]), oneOfTwo (.error .notRunning)] ++ [oneOfTwo (.ok ["w1"])]) =
        [.ofList ["w1"], .ofList ["w1"]] := by decide
  have hq : (⟨.scheduler, .byName 0, .create 2⟩ : Advisor).proposed (oneOfTwo (.ok ["w1"])) =
      some (.ofList ["w1"]) := by decide
  rw [hq, hrounds] at hlast
  obtain ⟨-, closed, hclosed, -, hresult⟩ := hlast
  have he : closed = .ofList ["w1"] := by
    refine IdSet.ext_mem fun w => ?_
    rw [hclosed, IdSet.mem_ofList, List.mem_singleton]
    by_cases hw : w = "w1"
    · subst hw
      decide
    · simp [Debounce.streak, hw]
  subst he
  exact ⟨now, next, hnow, by rw [hnext, hresult]; rfl⟩

end Advisor

end Fleet
