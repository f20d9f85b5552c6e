import Fleet.Proofs.Groups
import Fleet.Proofs.PlanBounds

/-! Remote calls that fail, whose answers get lost, or that somebody else answers. Each call takes
effect or does not, so the cluster stays coherent, and only scaling changes its plan. A
reconciliation, an offer and a removal that nobody disturbs are those of the cluster itself. -/
namespace Fleet

/-- The methods whose calls may fail and those whose calls may be answered in the cluster's stead.
-/
structure Disturbance where
  failing : Method → Prop
  feigned : Method → Prop

/-- Every call may fail and may be feigned. -/
def Disturbance.any : Disturbance := ⟨fun _ => True, fun _ => True⟩

/-- Every call is served. -/
def Disturbance.none : Disturbance := ⟨fun _ => False, fun _ => False⟩

namespace Cluster

/-- How a call may end: it is served; it fails without effect, or its answer gets lost; a
reconciliation takes too long; or the call is given an answer and never reaches the cluster. -/
inductive Replies (d : Disturbance) :
    (call : Call) → Cluster → Cluster → Except Fault call.Reply → Prop where
  | served (call : Call) (c : Cluster) : Replies d call c (serve call c).1 (serve call c).2
  | failed (call : Call) (c : Cluster) (e : RemoteError) (may : d.failing call.method) :
    Replies d call c c (.ok (.error e))
  | lost (call : Call) (c : Cluster) (e : RemoteError) (may : d.failing call.method) :
    Replies d call c (serve call c).1 (.ok (.error e))
  | late (limit : Duration) (c : Cluster) (may : d.failing .reconcile) :
    Replies d (.reconcile limit) c c (.ok (.ok .timedOut))
  | feigned (call : Call) (c : Cluster) (r : call.Result) (may : d.feigned call.method) :
    Replies d call c c (.ok (.ok r))

end Cluster

/-- The host shows the cluster behind it, and its calls end in one of these ways. -/
structure Host.Relays {σ : Type} (h : Host σ) (d : Disturbance) (cluster : σ → Cluster) : Prop where
  view_eq : ∀ x, h.view x = (cluster x).view
  replies : ∀ call x,
    Cluster.Replies d call (cluster x) (cluster (h.serve call x).1) (h.serve call x).2

lemma Cluster.relays_host (d : Disturbance) : host.Relays d fun c => c :=
  ⟨fun _ => rfl, fun call c => .served call c⟩

/-- The cluster as a host of which the calls of some methods fail without effect. -/
def Cluster.hostFailing (fails : Method → Option RemoteError) : Host Cluster where
  view := view
  serve call c :=
    match fails call.method with
    | some e => (c, .ok (.error e))
    | none => serve call c

lemma Cluster.relays_hostFailing (fails : Method → Option RemoteError) :
    (hostFailing fails).Relays ⟨fun m => fails m ≠ none, fun _ => False⟩ fun c => c := by
  refine ⟨fun _ => rfl, fun call c => ?_⟩
  simp only [hostFailing]
  split
  · rename_i e he
    exact .failed call c e (by simp [he])
  · exact .served call c

namespace Cluster.Replies

variable {d : Disturbance} {c c' : Cluster}

/-- A call takes effect or it does not. -/
theorem reaches {call : Call} {reply : Except Fault call.Reply}
    (hr : Replies d call c c' reply) : c' = c ∨ c' = (serve call c).1 := by
  cases hr with
  | served => exact .inr rfl
  | failed => exact .inl rfl
  | lost => exact .inr rfl
  | late => exact .inl rfl
  | feigned => exact .inl rfl

theorem coherent {call : Call} {reply : Except Fault call.Reply} (hr : Replies d call c c' reply)
    (hc : c.Coherent) : c'.Coherent := by
  obtain rfl | rfl := hr.reaches
  · exact hc
  · exact hc.serve call

theorem kept {call : Call} {reply : Except Fault call.Reply} (hr : Replies d call c c' reply)
    (hup : call.method ≠ .scale) (hdown : call.method ≠ .scaleDown) : c'.plan = c.plan := by
  obtain rfl | rfl := hr.reaches
  · rfl
  · exact plan_serve hup hdown

theorem reconciled {limit : Duration} (hd : ¬ d.feigned .reconcile)
    (hr : Replies d (.reconcile limit) c c' (.ok (.ok .finished))) : c' = c.reconcile := by
  cases hr with
  | served => rfl
  | feigned _ _ _ may => exact absurd may hd

theorem offered {q : CloseQuery} {ids : List Id} {reply : Except Fault (Call.closeCandidates q).Reply}
    (hd : ¬ d.feigned .closeCandidates) (hr : Replies d (.closeCandidates q) c c' reply)
    (hids : reply = .ok (.ok ids)) : c.closeCandidates q = .ok ids := by
  cases hr with
  | served =>
    simp only [serve] at hids
    cases hq : c.closeCandidates q with
    | error f => simp [hq, Except.map] at hids
    | ok offer =>
      simp only [hq, Except.map] at hids
      cases hids
      rfl
  | failed => cases hids
  | lost => cases hids
  | feigned _ _ _ may => exact absurd may hd

theorem removed {ids : List Id} {reply : Except Fault (Call.scaleDown ids).Reply}
    (hfail : ¬ d.failing .scaleDown) (hfeign : ¬ d.feigned .scaleDown)
    (hr : Replies d (.scaleDown ids) c c' reply) : c' = c.scaleDown ids := by
  cases hr with
  | served => rfl
  | failed _ _ _ may => exact absurd may hfail
  | lost _ _ _ may => exact absurd may hfail
  | feigned _ _ _ may => exact absurd may hfeign

end Cluster.Replies

namespace Host.Relays

variable {σ : Type} {h : Host σ} {cluster : σ → Cluster} {d : Disturbance} {s : Scaler} {x y : σ}
  {target : Nat} {r : Roster}

lemma frames (hh : h.Relays d cluster) : h.Frames cluster where
  view_eq := hh.view_eq
  coherent call x := (hh.replies call x).coherent
  kept call x := (hh.replies call x).kept

/-- Unless the reconciliation was feigned, a tick goes on with a roster whose plan and request are
of the same size. -/
theorem prepared (hh : h.Relays d cluster) (hd : ¬ d.feigned .reconcile)
    (hp : s.prepare.run h x = (y, .ok (.ok (target, r)))) :
    r = (cluster y).roster ∧ r.isReconciled = true := by
  obtain ⟨rfl, hrec | ⟨x', limit, hrec⟩⟩ := hh.frames.prepared hp
  · exact ⟨rfl, hrec⟩
  · have hreplies := hh.replies (.reconcile limit) x'
    rw [hrec] at hreplies
    refine ⟨rfl, ?_⟩
    rw [hreplies.reconciled hd]
    exact Cluster.isReconciled_reconcile _

/-- Every candidate is awaited when the scheduler is asked, or it is one of an idle group, unless
the scheduler's answer was feigned. -/
theorem candidate (hh : h.Relays d cluster) (hd : ¬ d.feigned .closeCandidates)
    (hx : (cluster x).Coherent) {a : Advisor} {ws : IdSet}
    (hr : ((a.round target (cluster x).roster).run h x).2 = .ok (.ok ws)) {w : Id} (hw : w ∈ ws) :
    w ∈ (cluster x).awaited ∨ (cluster x).IdleGroup a.query.key w := by
  obtain hpending | ⟨ids, hids, hmem⟩ := Advisor.mem_round hr hw
  · exact .inl hpending
  · have hoffer := (hh.replies (.closeCandidates (a.queryFor target)) x).offered hd hids
    have hidle := hx.idleGroup_of_offered (q := a.queryFor target) hoffer hmem
    exact .inr hidle

end Host.Relays

end Fleet
