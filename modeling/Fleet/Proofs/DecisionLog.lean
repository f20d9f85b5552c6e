import Fleet.Proofs.Serving
import Fleet.Rehearsal.Stage
import Mathlib.Data.List.DropRight

/-! The log of decisions over a run of ticks. It keeps the latest decisions, as many as it has room
for, and so also those that could not be carried out: it is the log of what has been done exactly as
long as every decision could be. -/
namespace Fleet

section Latest

variable {α : Type}

lemma filterMap_concat {β : Type} (f : α → Option β) (l : List α) (a : α) :
    (l ++ [a]).filterMap f = l.filterMap f ++ (f a).toList := by
  rw [List.filterMap_append, List.filterMap_cons]
  cases f a <;> rfl

lemma rtake_rtake_append (l m : List α) (k : Nat) :
    (l.rtake k ++ m).rtake k = (l ++ m).rtake k := by
  simp only [List.rtake_eq_reverse_take_reverse, List.reverse_append, List.reverse_reverse,
    List.take_append, List.take_take]
  rw [Nat.min_eq_left (Nat.sub_le _ _)]

lemma eq_replicate_of_concat_eq_cons {l : List α} {a b : α} (h : l ++ [a] = b :: l) :
    b :: l = List.replicate (l.length + 1) a := by
  induction l generalizing b with
  | nil =>
    cases h
    rfl
  | cons c l ih =>
    obtain ⟨rfl, hl⟩ := List.cons.inj h
    have hc := ih hl
    obtain ⟨hca, -⟩ := List.cons.inj hc
    rw [List.length_cons, List.replicate_succ, ← hc, hca]

/-- A full list stays the same when an item pushes the oldest one out, exactly if all are alike. -/
lemma rtake_concat_eq_self_iff {l : List α} {a : α} {k : Nat} (hl : l.length ≤ k) :
    (l ++ [a]).rtake k = l ↔ l = List.replicate k a := by
  cases k with
  | zero =>
    have hnil : l = [] := List.eq_nil_of_length_eq_zero (by omega)
    simp [hnil]
  | succ k =>
    constructor
    · intro h
      rw [List.rtake_concat_succ] at h
      cases l with
      | nil => simp at h
      | cons b l =>
        have hlen : l.length = k := by
          have := congrArg List.length h
          simp only [List.length_append, List.rtake, List.length_drop, List.length_cons,
            List.length_nil] at this hl
          omega
        have hdrop : (b :: l).rtake k = l := by
          rw [List.rtake, List.length_cons, hlen, Nat.add_sub_cancel_left, List.drop_one,
            List.tail_cons]
        rw [hdrop] at h
        rw [eq_replicate_of_concat_eq_cons h, hlen]
    · rintro rfl
      rw [List.rtake_concat_succ, List.rtake, List.length_replicate, List.drop_replicate,
        Nat.add_sub_cancel_left, Nat.add_sub_cancel, ← List.replicate_succ']

end Latest

namespace History

@[simp] lemma capacity_record (h : History) (r : Recommendation) :
    (h.record r).capacity = h.capacity := by
  unfold record
  split
  · rfl
  · split
    · unfold dropOldest
      split <;> rfl
    · rfl

lemma size_record_le {h : History} (hs : h.size ≤ h.capacity) (r : Recommendation) :
    (h.record r).size ≤ (h.record r).capacity := by
  rw [size_eq_length, events_record h r hs, capacity_record, List.length_drop, List.length_append,
    ← size_eq_length, List.length_singleton]
  omega

/-- After any number of records a log holds the latest ones, as many as it has room for. -/
theorem events_foldl_record {h : History} (hs : h.size ≤ h.capacity) (rs : List Recommendation) :
    (rs.foldl record h).events = (h.events ++ rs).rtake h.capacity := by
  induction rs generalizing h with
  | nil =>
    rw [List.append_nil, List.rtake, ← size_eq_length, Nat.sub_eq_zero_of_le hs]
    rfl
  | cons r rs ih =>
    have hone : (h.record r).events = (h.events ++ [r]).rtake h.capacity := by
      rw [events_record h r hs, List.rtake, List.length_append, ← size_eq_length]
      rfl
    rw [List.foldl_cons, ih (size_record_le hs r), capacity_record, hone, rtake_rtake_append,
      List.append_assoc, List.singleton_append]

/-- A new log has, after any number of records, the latest ones in their order: all of them as long
as there is room, and none where there is no room at all. What it tells of itself is read off these,
and it never has more than it may. -/
theorem keeps_newest (capacity : Nat) (rs : List Recommendation) :
    ∃ log, rs.foldl record (empty capacity) = log ∧
      log.events = rs.rtake (min capacity rs.length) ∧
      log.size = log.events.length ∧ log.isEmpty = log.events.isEmpty ∧
      log.first? = log.events.head? ∧ log.last? = log.events.getLast? ∧ log.size ≤ capacity := by
  have hevents : (rs.foldl record (empty capacity)).events =
      rs.rtake (min capacity rs.length) := by
    have hdropped : rs.length - capacity = rs.length - min capacity rs.length := by omega
    rw [events_foldl_record (Nat.zero_le _), events_empty, List.nil_append]
    exact congrArg rs.drop hdropped
  refine ⟨_, rfl, hevents, size_eq_length _, isEmpty_eq _, first?_eq _, last?_eq _, ?_⟩
  rw [size_eq_length, hevents, List.rtake, List.length_drop]
  omega

end History

namespace Scaler

variable {σ : Type} {h : Host σ} {s s' : Scaler} {x y : σ} {result : Except TickError Outcome}
  {results : List (Except TickError Outcome)}

/-- What a tick has decided on, if it has decided on a change. -/
def decision? : Except TickError Outcome → Option Recommendation
  | .ok (.scaledUp n) | .error (.scaleUp n _) => some (.up n)
  | .ok (.scaledDown ws) => some (.down ws)
  | _ => none

/-- What a tick has done, if it has changed anything. -/
def action? : Except TickError Outcome → Option Recommendation
  | .ok (.scaledUp n) => some (.up n)
  | .ok (.scaledDown ws) => some (.down ws)
  | _ => none

lemma action?_eq_decision? (hr : ∀ n e, result ≠ .error (.scaleUp n e)) :
    action? result = decision? result := by
  rcases result with e | _ | _ | n | ws
  · cases e with
    | scaleUp n e => exact absurd rfl (hr n e)
    | estimate e => rfl
    | reconcile e => rfl
    | reconcileTimeout limit => rfl
    | candidates e => rfl
  · rfl
  · rfl
  · rfl
  · rfl

lemma decision?_of_not_decided (hr : decided result = false) : decision? result = none := by
  rcases result with e | _ | _ | n | ws
  · cases e with
    | scaleUp n e => cases hr
    | estimate e => rfl
    | reconcile e => rfl
    | reconcileTimeout limit => rfl
    | candidates e => rfl
  · rfl
  · cases hr
  · cases hr
  · cases hr

lemma decision?_of_execute {d : Recommendation} (he : (execute d).run h x = (y, .ok result)) :
    decision? result = if d = .same then none else some d := by
  have hr := execute_yields he
  cases d with
  | same =>
    rw [hr]
    rfl
  | up n =>
    obtain rfl | ⟨e, rfl⟩ := hr
    · rfl
    · rfl
  | down ws =>
    rw [hr]
    rfl

/-- A tick that returns has recorded its decision. -/
theorem history_tick (ht : s.tick.run h x = (y, .ok (s', result))) :
    s'.history = (decision? result).toList.foldl History.record s.history := by
  obtain ⟨hr, rfl⟩ | ⟨x₁, target, r, x₂, ws, -, -, -, he, rfl⟩ := tick_cases ht
  · rw [decision?_of_not_decided hr]
    rfl
  · rw [decision?_of_execute he]
    unfold note
    split <;> rfl

/-- Runs of ticks that return, with their results in order. Every tick may be on a host of its own
in any state, so nothing is assumed of what the calls of a run are answered. -/
inductive Run (s : Scaler) : List (Except TickError Outcome) → Scaler → Prop
  | start : Run s [] s
  | tick {σ : Type} {h : Host σ} {x : σ} {results t t' result} (past : Run s results t)
      (ht : (t.tick.run h x).2 = .ok (t', result)) : Run s (results ++ [result]) t'

theorem Run.history_eq (hr : s.Run results s') :
    s'.history = (results.filterMap decision?).foldl History.record s.history := by
  induction hr with
  | start => rfl
  | @tick σ h x results t t' result past ht ih =>
    rw [history_tick (Prod.ext rfl ht), ih, filterMap_concat, List.foldl_append]

/-- The latest decisions and the latest actions of some ticks, no more than `k`, are the same. -/
def Agree (k : Nat) (results : List (Except TickError Outcome)) : Prop :=
  (results.filterMap decision?).rtake k = (results.filterMap action?).rtake k

/-- One more tick keeps them the same, unless it decides on a growth that fails. Then all that have
been kept have to be of this kind, so that the new one is not seen. -/
theorem agree_concat_iff {k : Nat} (hr : Agree k results) :
    Agree k (results ++ [result]) ↔ ∀ n e, result = .error (.scaleUp n e) →
      (results.filterMap decision?).rtake k = List.replicate k (.up n) := by
  have hlatest : ∀ f : Except TickError Outcome → Option Recommendation,
      ((results ++ [result]).filterMap f).rtake k =
        ((results.filterMap f).rtake k ++ (f result).toList).rtake k := by
    intro f
    rw [rtake_rtake_append, filterMap_concat]
  unfold Agree at hr ⊢
  rw [hlatest, hlatest, ← hr]
  by_cases hup : ∃ n e, result = .error (.scaleUp n e)
  · obtain ⟨n, e, rfl⟩ := hup
    have hlen : ((results.filterMap decision?).rtake k).length ≤ k := by
      rw [List.rtake, List.length_drop]
      omega
    have hkept : (((results.filterMap decision?).rtake k) ++ []).rtake k =
        (results.filterMap decision?).rtake k := by
      rw [rtake_rtake_append, List.append_nil]
    change (_ ++ [_]).rtake k = (_ ++ []).rtake k ↔ _
    rw [hkept, rtake_concat_eq_self_iff hlen]
    constructor
    · intro hall n' e' he
      cases he
      exact hall
    · intro hall
      exact hall n e rfl
  · have hno : ∀ n e, result ≠ .error (.scaleUp n e) := fun n e he => hup ⟨n, e, he⟩
    rw [action?_eq_decision? hno]
    exact iff_of_true rfl fun n e he => absurd he (hno n e)

theorem agree_prefixes_iff {k : Nat} (results : List (Except TickError Outcome)) :
    (∀ past, past <+: results → Agree k past) ↔
      ∀ past n e, past ++ [.error (.scaleUp n e)] <+: results →
        (past.filterMap decision?).rtake k = List.replicate k (.up n) := by
  -- on the run from its end; the last tick adds one prefix and at most one failed growth
  induction results using List.reverseRecOn with
  | nil =>
    refine iff_of_true (fun past hp => ?_) fun past n e hp => ?_
    · rw [List.prefix_nil.1 hp]
      rfl
    · simp at hp
  | append_singleton results result ih =>
    constructor
    · intro h past n e hp
      have hbefore := h results (List.prefix_append _ _)
      have hlast := h (results ++ [result]) List.prefix_rfl
      rcases List.prefix_concat_iff.1 hp with he | hp
      · obtain ⟨hpast, hfailed⟩ := List.append_inj' he rfl
        rw [hpast]
        exact (agree_concat_iff hbefore).1 hlast n e (List.cons.inj hfailed).1.symm
      · exact ih.1 (fun past hp => h past (hp.trans (List.prefix_append _ _))) past n e hp
    · intro h past hp
      have hbefore := ih.2 fun past n e hp => h past n e (hp.trans (List.prefix_append _ _))
      rcases List.prefix_concat_iff.1 hp with rfl | hp
      · refine (agree_concat_iff (hbefore results List.prefix_rfl)).2 fun n e he => ?_
        exact h results n e (he ▸ List.prefix_rfl)
      · exact hbefore past hp

lemma Run.exists_of_prefix {past : List (Except TickError Outcome)} (hr : s.Run results s')
    (hp : past <+: results) : ∃ t, s.Run past t := by
  induction hr with
  | start => exact ⟨s, List.prefix_nil.1 hp ▸ .start⟩
  | tick run ht ih =>
    rcases List.prefix_concat_iff.1 hp with rfl | hp
    · exact ⟨_, .tick run ht⟩
    · exact ih hp

lemma Run.events_eq (hs : s.history = .empty History.standardCapacity) (hr : s.Run results s') :
    s'.history.events = (results.filterMap decision?).rtake History.standardCapacity := by
  rw [hr.history_eq, hs, History.events_foldl_record (Nat.zero_le _), History.events_empty,
    List.nil_append]
  rfl

/-- Whatever the calls are answered, the log holds the latest decisions (`decision?`). It holds the
latest actions (`action?`) after every tick of a run exactly if each growth that fails finds the log
full of growths to the very same number. -/
theorem log_holds_actions_iff (hs : s.history = .empty History.standardCapacity)
    (hr : s.Run results s') :
    s'.history.events = (results.filterMap decision?).rtake History.standardCapacity ∧
    ((∀ past t, past <+: results → s.Run past t →
        t.history.events = (past.filterMap action?).rtake History.standardCapacity) ↔
      ∀ past t n e, past ++ [.error (.scaleUp n e)] <+: results → s.Run past t →
        t.history.events = List.replicate History.standardCapacity (.up n)) := by
  refine ⟨hr.events_eq hs, ?_⟩
  have hagree := agree_prefixes_iff (k := History.standardCapacity) results
  constructor
  · intro h past t n e hp ht
    rw [ht.events_eq hs]
    refine hagree.1 (fun before hb => ?_) past n e hp
    obtain ⟨u, hu⟩ := hr.exists_of_prefix hb
    exact (hu.events_eq hs).symm.trans (h before u hb hu)
  · intro h past t hp ht
    rw [ht.events_eq hs]
    refine hagree.2 (fun before n e hb => ?_) past hp
    obtain ⟨u, hu⟩ := hr.exists_of_prefix ((List.prefix_append _ _).trans hb)
    exact (hu.events_eq hs).symm.trans (h before u n e hb hu)

end Scaler

namespace Settings

/-- Keeps two workers at least. -/
def twoAtLeast : Settings := { standard with minimum := 2 }

lemma toPolicy_twoAtLeast : twoAtLeast.toPolicy = .ok { Policy.standard with minimum := 2 } :=
  toPolicy_eq_ok (by decide +kernel) rfl (by decide) (by decide) (by decide +kernel)
    (by decide +kernel)

end Settings

namespace Scaler

/-- Keeps two workers at least. -/
def twoAtLeast : Scaler := .ofPolicy { Policy.standard with minimum := 2 }

def oneWorker : Stage :=
  .start (Operation.applyAll (.create "z" 100) [.addWorker (.idle "w0" 0 100)]) [] [] false

/-- One worker, and no connection to ask for more. -/
def cutOff : Stage :=
  oneWorker.setOutage .scale (some ⟨none, false, 0, some (.connection "reset"), none⟩)

def refusedGrowth : Except TickError Outcome := .error (.scaleUp 2 (.connection "reset"))

lemma run_refused_then_grown :
    ∃ t s', twoAtLeast.Run [refusedGrowth] t ∧
      twoAtLeast.Run [refusedGrowth, .ok (.scaledUp 2)] s' := by
  obtain ⟨t, ht⟩ : ∃ t, (twoAtLeast.tick.run Stage.host cutOff).2 = .ok (t, refusedGrowth) :=
    ⟨_, by rfl⟩
  obtain ⟨s', hs'⟩ : ∃ s', (t.tick.run Stage.host oneWorker).2 = .ok (s', .ok (.scaledUp 2)) := by
    cases ht
    exact ⟨_, by rfl⟩
  exact ⟨t, s', .tick .start ht, .tick (.tick .start ht) hs'⟩

/-- A growth that fails and its repetition are both in the log. -/
theorem log_holds_actions_iff_refused :
    ∃ s', (twoAtLeast.history = .empty History.standardCapacity ∧
      twoAtLeast.Run [refusedGrowth, .ok (.scaledUp 2)] s') ∧
      s'.history.events = [.up 2, .up 2] := by
  obtain ⟨-, s', -, hr⟩ := run_refused_then_grown
  exact ⟨s', ⟨rfl, hr⟩, (log_holds_actions_iff rfl hr).1⟩

/-- With valid settings and an empty log at the start, the log after one tick holds what the tick
has failed to do. -/
theorem log_holds_more_than_actions :
    ∃ s', (Settings.twoAtLeast.toPolicy = .ok twoAtLeast.policy ∧
      twoAtLeast.history = .empty History.standardCapacity ∧
      twoAtLeast.Run [refusedGrowth] s') ∧
      ¬ s'.history.events =
        ([refusedGrowth].filterMap action?).rtake History.standardCapacity := by
  obtain ⟨s', -, hr, -⟩ := run_refused_then_grown
  refine ⟨s', ⟨Settings.toPolicy_twoAtLeast, rfl, hr⟩, ?_⟩
  rw [hr.events_eq rfl]
  decide +kernel

end Scaler

end Fleet
