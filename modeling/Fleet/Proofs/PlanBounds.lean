import Fleet.Proofs.PlanLaws
import Fleet.Proofs.Serving
import Fleet.Remote.ClusterHost

/-! Plan bounds under scaling. Calls reach the cluster or fail; then every tick follows its target,
and no run of ticks takes the plan further away from the bounds of the policy. -/
namespace Fleet

variable {σ : Type} {h : Host σ} {cluster : σ → Cluster} {s : Scaler} {x : σ} {target : Nat}

/-- How a call may end: it is served, it fails without effect, a reconciliation takes too long, or
an estimator from outside answers any number. -/
inductive Cluster.Handles :
    (call : Call) → Cluster → Cluster → Except Fault call.Reply → Prop where
  | served (call : Call) (c : Cluster) : Handles call c (serve call c).1 (serve call c).2
  | failed (call : Call) (c : Cluster) (e : RemoteError) : Handles call c c (.ok (.error e))
  | late (limit : Duration) (c : Cluster) : Handles (.reconcile limit) c c (.ok (.ok .timedOut))
  | estimated (n : Nat) (c : Cluster) : Handles .estimate c c (.ok (.ok n))

/-- The host shows the cluster behind it, and no call is answered that has not reached it. -/
structure Host.Conveys (h : Host σ) (cluster : σ → Cluster) : Prop where
  view_eq : ∀ x, h.view x = (cluster x).view
  handles : ∀ call x,
    Cluster.Handles call (cluster x) (cluster (h.serve call x).1) (h.serve call x).2

lemma Cluster.conveys_host : host.Conveys fun c => c :=
  ⟨fun _ => rfl, fun call c => .served call c⟩

namespace Cluster

variable {c c' : Cluster}

theorem Coherent.serve (hc : c.Coherent) (call : Call) : (serve call c).1.Coherent := by
  cases call with
  | scale n =>
    simp only [Cluster.serve]
    split
    · rename_i c' hs
      exact hc.scale hs
    · exact hc
  | scaleDown ids => exact hc.scaleDown ids
  | reconcile limit => exact hc.reconcile
  | retire request => exact hc.retire request
  | drainEstimate window => exact hc
  | closeCandidates query => exact hc
  | workers => exact hc
  | tasks => exact hc
  | estimate => exact hc

lemma retireOne_frame (c : Cluster) (id : Id) :
    ∃ ws gone, c.retireOne id = { c with workers := ws, retired := gone } := by
  unfold retireOne
  split
  · exact ⟨_, _, rfl⟩
  · exact ⟨_, _, rfl⟩

/-- Draining changes who is connected and who has been retired only. -/
lemma retire_frame (c : Cluster) (r : Retirement) :
    ∃ ws gone, c.retire r = { c with workers := ws, retired := gone } := by
  unfold retire
  split
  · induction r.names generalizing c with
    | nil => exact ⟨_, _, rfl⟩
    | cons id ids ih =>
      obtain ⟨ws, gone, he⟩ := c.retireOne_frame id
      obtain ⟨ws', gone', he'⟩ := ih (c.retireOne id)
      rw [List.foldl_cons, he', he]
      exact ⟨_, _, rfl⟩
  · exact ⟨_, _, rfl⟩

@[simp] lemma plan_retire (c : Cluster) (r : Retirement) : (c.retire r).plan = c.plan := by
  obtain ⟨ws, gone, he⟩ := c.retire_frame r
  rw [he]

@[simp] lemma requested_retire (c : Cluster) (r : Retirement) :
    (c.retire r).requested = c.requested := by
  obtain ⟨ws, gone, he⟩ := c.retire_frame r
  rw [he]

lemma plan_serve {call : Call} (hup : call.method ≠ .scale) (hdown : call.method ≠ .scaleDown) :
    (serve call c).1.plan = c.plan := by
  cases call with
  | scale n => exact absurd rfl hup
  | scaleDown ids => exact absurd rfl hdown
  | reconcile limit => exact plan_reconcile c
  | retire request => exact plan_retire c request
  | drainEstimate window => rfl
  | closeCandidates query => rfl
  | workers => rfl
  | tasks => rfl
  | estimate => rfl

lemma isReconciled_reconcile (c : Cluster) : c.reconcile.roster.isReconciled = true := by
  simp [Roster.isReconciled, roster]

namespace Handles

theorem coherent {call : Call} {reply : Except Fault call.Reply} (hh : Handles call c c' reply)
    (hc : c.Coherent) : c'.Coherent := by
  cases hh with
  | served => exact hc.serve call
  | failed e => exact hc
  | late limit => exact hc
  | estimated n => exact hc

theorem kept {call : Call} {reply : Except Fault call.Reply} (hh : Handles call c c' reply)
    (hup : call.method ≠ .scale) (hdown : call.method ≠ .scaleDown) : c'.plan = c.plan := by
  cases hh with
  | served => exact plan_serve hup hdown
  | failed e => rfl
  | late limit => rfl
  | estimated n => rfl

theorem scaled {n : Nat} {reply : Except Fault (Call.scale n).Reply}
    (hh : Handles (.scale n) c c' reply) :
    (reply ≠ .ok (.ok ()) ∧ c'.plan = c.plan) ∨ (reply = .ok (.ok ()) ∧ c'.plan.size = n) := by
  cases hh with
  | served =>
    simp only [serve]
    split
    · rename_i d hd
      exact .inr ⟨rfl, size_scale hd⟩
    · exact .inl ⟨by rintro ⟨⟩, rfl⟩
  | failed e => exact .inl ⟨by rintro ⟨⟩, rfl⟩

theorem removed {ids : List Id} {reply : Except Fault (Call.scaleDown ids).Reply}
    (hh : Handles (.scaleDown ids) c c' reply) :
    c'.plan = c.plan ∨ (reply = .ok (.ok ()) ∧ c'.plan = c.plan.eraseAll ids) := by
  cases hh with
  | served => exact .inr ⟨rfl, rfl⟩
  | failed e => exact .inl rfl

theorem reconciled {limit : Duration} (hh : Handles (.reconcile limit) c c' (.ok (.ok .finished))) :
    c'.roster.isReconciled = true := by
  cases hh with
  | served => exact c.isReconciled_reconcile

theorem length_offer_le {q : CloseQuery} {ids : List Id}
    {reply : Except Fault (Call.closeCandidates q).Reply}
    (hh : Handles (.closeCandidates q) c c' reply) (hr : reply = .ok (.ok ids)) :
    ids.length ≤ c.observed.size - q.target := by
  cases hh with
  | served =>
    simp only [serve] at hr
    cases hq : c.closeCandidates q with
    | error f => simp [hq, Except.map] at hr
    | ok offered =>
      simp only [hq, Except.map] at hr
      cases hr
      have hlen := length_closeCandidates_le hq
      rwa [closeLimit, ← Dict.size_keys] at hlen
  | failed e => cases hr

end Handles

end Cluster

namespace Host.Conveys

theorem planLaws (hh : h.Conveys cluster) : h.PlanLaws cluster where
  view_eq := hh.view_eq
  coherent call x hx := (hh.handles call x).coherent hx
  kept call x := (hh.handles call x).kept
  scaled n x := (hh.handles (.scale n) x).scaled
  removed ids x := (hh.handles (.scaleDown ids) x).removed
  reconciled limit x hr := (hr ▸ hh.handles (.reconcile limit) x).reconciled

theorem frugal (hh : h.Conveys cluster) (s : Scaler) (target : Nat) (x : σ) :
    s.Frugal h cluster target x :=
  fun _ hr => (hh.handles _ x).length_offer_le hr

end Host.Conveys

/-- The workers that a plan is short of the minimum or has above the maximum. -/
def Policy.excess (p : Policy) (plan : IdSet) : Nat :=
  (p.minimum - plan.size) + (plan.size - p.maximum)

namespace Scaler

/-- A number of ticks one after another. -/
def ticks (s : Scaler) : Nat → Exchange Scaler
  | 0 => pure s
  | n + 1 => do
    let (s, _) ← s.tick
    s.ticks n

theorem excess_tick_le (hh : h.Conveys cluster) (s : Scaler) (hx : (cluster x).Coherent) :
    s.policy.excess (cluster (s.tick.run h x).1).plan ≤ s.policy.excess (cluster x).plan := by
  rcases hh.planLaws.tick hx fun y target _ _ => hh.frugal s target y with
    ⟨y, target, r, hp, ha⟩ | ⟨hplan, -⟩
  · obtain ⟨x', raw, -, hc, -⟩ := prepare_eq_ok hp
    obtain ⟨hbounds, ht⟩ := Word.clamp_eq_ok_iff.1 hc
    obtain ⟨hlow, hhigh⟩ := ha.size_between
    unfold Policy.excess
    omega
  · rw [hplan]

/-- No number of ticks takes the plan further away from the bounds. -/
theorem excess_ticks_le (hh : h.Conveys cluster) (s : Scaler) (hx : (cluster x).Coherent)
    (n : Nat) :
    s.policy.excess (cluster ((s.ticks n).run h x).1).plan ≤ s.policy.excess (cluster x).plan := by
  -- on the number of ticks; the first one leaves the cluster coherent and the policy as it is
  induction n generalizing s x with
  | zero => exact Nat.le_refl _
  | succ n ih =>
    have hone := excess_tick_le hh s hx
    have hcoherent := hh.planLaws.frames.coherent_run s.tick hx
    unfold ticks
    rw [Exchange.run_bind]
    rcases ht : s.tick.run h x with ⟨y, f | ⟨s', result⟩⟩
    · rw [ht] at hone
      exact hone
    · rw [ht] at hone hcoherent
      have hrest := ih s' hcoherent
      obtain ⟨d, log, -, rfl⟩ := tick_recounts (congrArg Prod.snd ht)
      exact hrest.trans hone

/-- From every `Reachable` state, on a host that `Conveys` the calls to the cluster, with any
advisor and any answer of the estimator: a tick that scales up ends with the target, which is above
the plan. One that scales down lets somebody go, but no more than the plan has above the target,
which is not below the minimum. Any other tick keeps the plan. So ticks never raise the `excess` of
the plan over the bounds, and a plan within the bounds stays there. -/
theorem tick_plan_bounds (hh : h.Conveys cluster) (hx : (cluster x).Reachable) (s : Scaler) :
    (match (s.tick.run h x).2 with
      | .ok (_, .ok (.scaledUp n)) =>
        ∃ raw target, (s.estimator.target.run h x).2 = .ok (.ok raw) ∧
          s.policy.clamp raw = .ok target ∧ n = target ∧ (cluster x).plan.size < target ∧
          (cluster (s.tick.run h x).1).plan.size = target
      | .ok (_, .ok (.scaledDown ws)) =>
        ∃ raw target, (s.estimator.target.run h x).2 = .ok (.ok raw) ∧
          s.policy.clamp raw = .ok target ∧ 1 ≤ ws.size ∧
          ws.size ≤ (cluster x).plan.size - target ∧
          target ≤ (cluster (s.tick.run h x).1).plan.size ∧ s.policy.minimum ≤ target
      | _ => (cluster (s.tick.run h x).1).plan = (cluster x).plan) ∧
    ∀ n,
      s.policy.excess (cluster ((s.ticks n).run h x).1).plan ≤ s.policy.excess (cluster x).plan ∧
      (s.policy.minimum ≤ (cluster x).plan.size → (cluster x).plan.size ≤ s.policy.maximum →
        s.policy.minimum ≤ (cluster ((s.ticks n).run h x).1).plan.size ∧
        (cluster ((s.ticks n).run h x).1).plan.size ≤ s.policy.maximum) := by
  constructor
  · rcases hh.planLaws.tick hx.coherent fun y target _ _ => hh.frugal s target y with
      ⟨y, target, r, hp, ha⟩ | ⟨hplan, hskip⟩
    · obtain ⟨x', raw, he, hc, -⟩ := prepare_eq_ok hp
      have hest : (s.estimator.target.run h x).2 = .ok (.ok raw) := congrArg Prod.snd he
      rcases ht : (s.tick.run h x).2 with f | ⟨s', e | _ | _ | n | ws⟩
      · rwa [ht] at ha
      · rwa [ht] at ha
      · rwa [ht] at ha
      · rwa [ht] at ha
      · rw [ht] at ha
        exact ⟨raw, target, hest, hc, ha⟩
      · rw [ht] at ha
        obtain ⟨hpos, hsize, hle, -⟩ := ha
        have hmin := (Word.clamp_eq_ok_iff.1 hc).2
        exact ⟨raw, target, hest, hc, hpos, by omega, hle, by omega⟩
    · rcases ht : (s.tick.run h x).2 with f | ⟨s', e | _ | _ | n | ws⟩
      · exact hplan
      · exact hplan
      · exact hplan
      · exact hplan
      · cases hskip _ _ ht
      · cases hskip _ _ ht
  · intro n
    have hexcess := excess_ticks_le hh s hx.coherent n
    refine ⟨hexcess, fun hmin hmax => ?_⟩
    unfold Policy.excess at hexcess
    omega

/-- Two workers are connected and one is awaited. -/
def partlyConnected : Cluster :=
  Operation.applyAll (.create "z" 100) [.scale 2, .reconcile, .arriveAll, .scale 3, .reconcile]

/-- The awaited worker and one connected worker are let go when one worker is enough. -/
theorem tick_plan_bounds_partlyConnected :
    ((Cluster.host.Conveys fun c => c) ∧ partlyConnected.Reachable) ∧
      ∃ s' ws, (downToOne.tick.run Cluster.host partlyConnected).2 =
          .ok (s', .ok (.scaledDown ws)) ∧
        ws = .ofList ["z-worker-0", "z-worker-2"] ∧ ws.size ≤ partlyConnected.plan.size - 1 := by
  have hreach : partlyConnected.Reachable := ⟨_, _, _, rfl⟩
  refine ⟨⟨Cluster.conveys_host, hreach⟩, ?_⟩
  obtain ⟨s', hs'⟩ : ∃ s', (downToOne.tick.run Cluster.host partlyConnected).2 =
      .ok (s', .ok (.scaledDown (.ofList ["z-worker-0", "z-worker-2"]))) := ⟨_, by rfl⟩
  have hbounds := (tick_plan_bounds Cluster.conveys_host hreach downToOne).1
  rw [hs'] at hbounds
  obtain ⟨raw, target, -, -, -, hsize, -, hmin⟩ := hbounds
  have hone : 1 ≤ target := hmin
  refine ⟨s', _, hs', rfl, ?_⟩
  omega

end Scaler

end Fleet
