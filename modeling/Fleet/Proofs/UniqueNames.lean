import Fleet.Proofs.Books
import Fleet.Proofs.Nesting

/-! Names are given once. From the start of a scenario on, a worker that has left the plan is never
planned again, and one that is neither planned nor requested any more is never seen again. -/
namespace Fleet

namespace Cluster

variable {c c' c'' : Cluster} {w : Id}

/-- The worker is planned or requested. -/
def Wants (c : Cluster) (w : Id) : Prop := w ∈ c.plan ∨ w ∈ c.requested

/-- The worker is planned, requested or connected. -/
def Knows (c : Cluster) (w : Id) : Prop := c.Wants w ∨ w ∈ c.observed

lemma Coherent.wants_of_knows (hc : c.Coherent) (h : c.Knows w) : c.Wants w :=
  h.elim id fun hw => .inr (hc.requested_of_observed w hw)

/-- All that is new in `c'` has a name that was given on the way. -/
structure Leads (c c' : Cluster) : Prop where
  name_eq : c'.name = c.name
  nextId_le : c.nextId ≤ c'.nextId
  planned : ∀ w ∈ c'.plan, w ∈ c.plan ∨ c.Named c' w
  known : ∀ w, c'.Knows w → c.Knows w ∨ c.Named c' w

namespace Leads

lemma refl (c : Cluster) : c.Leads c :=
  ⟨rfl, Nat.le_refl _, fun _ => .inl, fun _ => .inl⟩

lemma unused (h : c.Leads c') (hw : c'.Unused w) : c.Unused w :=
  hw.of_le h.name_eq h.nextId_le

/-- Names that are given on the first part of a way or on the second are given on the way. -/
lemma named_of_left (h : c'.Leads c'') (hw : c.Named c' w) : c.Named c'' w := by
  obtain ⟨k, hk, hlt, rfl⟩ := hw
  exact ⟨k, hk, hlt.trans_le h.nextId_le, rfl⟩

lemma named_of_right (h : c.Leads c') (hw : c'.Named c'' w) : c.Named c'' w := by
  obtain ⟨k, hk, hlt, rfl⟩ := hw
  exact ⟨k, h.nextId_le.trans hk, hlt, by rw [nameAt, nameAt, h.name_eq]⟩

theorem trans (h : c.Leads c') (h' : c'.Leads c'') : c.Leads c'' := by
  refine ⟨h'.name_eq.trans h.name_eq, h.nextId_le.trans h'.nextId_le, ?_, ?_⟩
  · intro w hw
    obtain hold | hnew := h'.planned w hw
    · exact (h.planned w hold).imp_right h'.named_of_left
    · exact .inr (h.named_of_right hnew)
  · intro w hw
    obtain hold | hnew := h'.known w hw
    · exact (h.known w hold).imp_right h'.named_of_left
    · exact .inr (h.named_of_right hnew)

end Leads

/-- Nobody has a name that is still to be given. -/
def Clear (c : Cluster) : Prop := ∀ w, c.Knows w → ¬ c.Unused w

/-- A name that has been given is not given again. -/
lemma Named.not_unused (hname : c'.name = c.name) (h : c.Named c' w) : ¬ c'.Unused w := by
  obtain ⟨k, -, hlt, rfl⟩ := h
  rintro ⟨j, hj, hsame⟩
  have hfun : c'.nameAt j = c.nameAt j := by rw [nameAt, nameAt, hname]
  have hkj := c.nameAt_injective (hsame.trans hfun)
  omega

theorem Clear.leads (hc : c.Clear) (h : c.Leads c') : c'.Clear := by
  intro w hw hunused
  obtain hold | hnew := h.known w hw
  · exact hc w hold (h.unused hunused)
  · exact hnew.not_unused h.name_eq hunused

end Cluster

namespace Operation

variable {c c' : Cluster} {op : Operation}

/-- An operation that adds nobody brings no worker but those it gives a name to. -/
theorem Books.leads (h : op.Books c c') (hop : op.AddsNobody) : c.Leads c' := by
  cases h with
  | kept hadd hremove hgrow same hobserved =>
    refine ⟨same.name_eq, same.nextId_eq.ge, ?_, fun w hw => .inl ?_⟩
    · rw [same.plan_eq]
      exact fun w => .inl
    · rw [Cluster.Knows, Cluster.Wants, same.plan_eq, same.requested_eq] at hw
      obtain hw | hw := hw
      · exact .inl hw
      · exact (hobserved w hw).elim .inr fun hr => .inl (.inr hr)
  | added w => exact False.elim hop
  | grown n =>
    have hplan : ∀ w ∈ (c.grow n).plan, w ∈ c.plan ∨ c.Named (c.grow n) w := by
      intro w hw
      obtain ⟨hnamed, -⟩ | ⟨-, hold, -⟩ := c.grow_entries n w
      · exact .inr hnamed
      · exact .inl (hold.1 hw)
    refine ⟨c.name_grow n, c.nextId_le_grow n, hplan, fun w hw => ?_⟩
    rw [Cluster.Knows, Cluster.Wants, Cluster.requested_grow, Cluster.observed,
      Cluster.workers_grow] at hw
    obtain (hw | hw) | hw := hw
    · exact (hplan w hw).imp_left fun hw => .inl (.inl hw)
    · exact .inl (.inl (.inr hw))
    · exact .inl (.inr hw)
  | shrunk n =>
    refine ⟨rfl, Nat.le_refl _, fun w hw => .inl (Cluster.mem_plan_shrink hw), fun w hw => .inl ?_⟩
    exact hw.imp_left fun hw => hw.imp_left Cluster.mem_plan_shrink
  | removed ids =>
    refine ⟨rfl, Nat.le_refl _, fun w hw => .inl (IdSet.eraseAll_subset hw), fun w hw => .inl ?_⟩
    exact hw.imp (fun hw => hw.imp IdSet.eraseAll_subset IdSet.eraseAll_subset) fun ho =>
      (Cluster.mem_observed_scaleDown.1 ho).1
  | reconciled =>
    refine ⟨rfl, Nat.le_refl _, fun w => .inl, fun w hw => .inl ?_⟩
    obtain (hw | hw) | hw := hw
    · exact .inl (.inl hw)
    · exact .inl (.inl (by rwa [Cluster.requested_reconcile] at hw))
    · exact .inr (Cluster.mem_observed_reconcile.1 hw).1

end Operation

namespace Cluster

variable {c c' c₁ c₂ c₃ : Cluster} {w : Id}

/-- A call changes a cluster as an operation does that adds nobody, or not at all. -/
lemma serve_operates (call : Call) (c : Cluster) :
    (serve call c).1 = c ∨ ∃ op : Operation, op.AddsNobody ∧ (serve call c).1 = (op.apply c).1 := by
  cases call with
  | scale n =>
    refine .inr ⟨.scale n, trivial, ?_⟩
    cases hc : c.scale n <;> simp only [serve, Operation.apply, hc]
  | scaleDown ids => exact .inr ⟨.scaleDown ids, trivial, rfl⟩
  | reconcile limit => exact .inr ⟨.reconcile, trivial, rfl⟩
  | retire request => exact .inr ⟨.retire request, trivial, rfl⟩
  | drainEstimate window => exact .inl rfl
  | closeCandidates query => exact .inl rfl
  | workers => exact .inl rfl
  | tasks => exact .inl rfl
  | estimate => exact .inl rfl

lemma leads_serve (call : Call) (c : Cluster) : c.Leads (serve call c).1 := by
  obtain he | ⟨op, hop, he⟩ := serve_operates call c
  · rw [he]
    exact .refl c
  · rw [he]
    exact (op.books c).leads hop

/-- What may happen to a cluster after its start: an operation that adds nobody, or a tick of a
scaler with any of its calls disturbed. -/
inductive Step : Cluster → Cluster → Prop where
  | operate (c : Cluster) (op : Operation) (hop : op.AddsNobody) : Step c (op.apply c).1
  | tick {σ : Type} {h : Host σ} {d : Disturbance} {cluster : σ → Cluster} (hh : h.Relays d cluster)
    (s : Scaler) (x : σ) : Step (cluster x) (cluster (s.tick.run h x).1)

/-- The cluster comes to be another one, step by step. -/
abbrev Later : Cluster → Cluster → Prop := Relation.ReflTransGen Step

end Cluster

/-- A run of any program brings no worker but those it gives a name to. -/
lemma Host.Relays.leads_run {σ α : Type} {h : Host σ} {d : Disturbance} {cluster : σ → Cluster}
    (hh : h.Relays d cluster) (p : Exchange α) (x : σ) :
    (cluster x).Leads (cluster (p.run h x).1) := by
  refine p.only_any.keeps (P := fun y => (cluster x).Leads (cluster y)) (fun call y _ hy => ?_)
    (.refl _)
  obtain he | he := (hh.replies call y).reaches
  · rwa [he]
  · rw [he]
    exact hy.trans (Cluster.leads_serve call _)

namespace Cluster

variable {c c' c₁ c₂ c₃ : Cluster} {w : Id}

lemma Step.leads (h : Step c c') : c.Leads c' := by
  cases h with
  | operate c op hop => exact (op.books c).leads hop
  | tick hh s x => exact hh.leads_run s.tick x

lemma Step.coherent (h : Step c c') (hc : c.Coherent) : c'.Coherent := by
  cases h with
  | operate c op hop => exact hc.apply op
  | tick hh s x => exact hh.frames.coherent_run s.tick hc

theorem Later.leads (h : c.Later c') : c.Leads c' := by
  induction h with
  | refl => exact .refl c
  | tail _ step ih => exact ih.trans step.leads

theorem Later.coherent (h : c.Later c') (hc : c.Coherent) : c'.Coherent := by
  induction h with
  | refl => exact hc
  | tail _ step ih => exact step.coherent ih

/-- Whoever has left the plan is not planned again, as no old name is given. -/
lemma Leads.not_replanned (h : c.Leads c') (hw : ¬ c.Unused w) (hleft : ¬ w ∈ c.plan) :
    ¬ w ∈ c'.plan := by
  intro hback
  obtain hold | hnew := h.planned w hback
  · exact hleft hold
  · exact hw hnew.unused

/-- Whoever is neither planned nor requested is not seen again. -/
lemma Leads.not_seen (h : c.Leads c') (hc : c.Coherent) (hw : ¬ c.Unused w)
    (hgone : ¬ c.Wants w) : ¬ c'.Knows w := by
  intro hback
  obtain hold | hnew := h.known w hback
  · exact hgone (hc.wants_of_knows hold)
  · exact hw hnew.unused

end Cluster

namespace Host.Relays

variable {σ : Type} {h : Host σ} {d : Disturbance} {cluster : σ → Cluster} {s s' : Scaler} {x y : σ}
  {ws : IdSet} {w : Id}

/-- Workers that are let go are removed in the end, if the removal is not disturbed. -/
lemma removed_execute_down (hh : h.Relays d cluster) (hfail : ¬ d.failing .scaleDown)
    (hfeign : ¬ d.feigned .scaleDown) (hws : ws.isEmpty = false) {result : Except TickError Outcome}
    (he : (Scaler.execute (.down ws)).run h x = (y, .ok result)) :
    ∃ c : Cluster, cluster y = c.scaleDown ws.toList := by
  rw [Scaler.run_execute_down hws] at he
  rcases hc : h.serve (.retire (.close ws.toList)) x with ⟨z, f | reply⟩
  · rw [hc] at he
    cases he
  · rw [hc] at he
    obtain rfl := congrArg Prod.fst he
    exact ⟨cluster z, (hh.replies (.scaleDown ws.toList) z).removed hfail hfeign⟩

/-- A worker that a tick lets go has had its name before, and is neither planned nor requested after
the tick. -/
theorem let_go (hh : h.Relays d cluster) (hd : ¬ d.feigned .closeCandidates)
    (hfail : ¬ d.failing .scaleDown) (hfeign : ¬ d.feigned .scaleDown)
    (hc : (cluster x).Coherent) (hclear : (cluster x).Clear)
    (ht : s.tick.run h x = (y, .ok (s', .ok (.scaledDown ws)))) (hw : w ∈ ws) :
    ¬ (cluster y).Wants w ∧ ¬ (cluster y).Unused w := by
  obtain ⟨x₁, target, r, x₂, proposed, hp, hround, he, hdue, hws⟩ := Scaler.tick_scaledDown ht
  constructor
  · obtain ⟨c, hy⟩ := hh.removed_execute_down hfail hfeign hws he
    rw [hy]
    rintro (hplan | hrequested)
    · exact (IdSet.mem_eraseAll.1 hplan).2 hw
    · exact (IdSet.mem_eraseAll.1 hrequested).2 hw
  · have hprepare := hh.leads_run s.prepare x
    have hcoherent := hh.frames.coherent_run s.prepare hc
    have hdecide := hh.leads_run (s.advisor.round target r) x₁
    have hexecute := hh.leads_run (Scaler.execute (.down ws)) x₂
    rw [hp] at hprepare hcoherent
    rw [hround] at hdecide
    rw [he] at hexecute
    obtain ⟨rfl, -⟩ := hh.frames.prepared hp
    rw [hdue] at hw
    -- candidates are awaited or connected when the decision is made, so their names are old
    have hknown : (cluster x₁).Knows w := by
      obtain hawaited | hidle := hh.candidate hd hcoherent (congrArg Prod.snd hround)
        (Debounce.mem_of_mem_due hw)
      · exact .inl (.inr (IdSet.mem_diff.1 hawaited).1)
      · exact .inr hidle.mem_observed
    intro hunused
    exact hclear.leads hprepare w hknown ((hdecide.trans hexecute).unused hunused)

end Host.Relays

namespace Scenario

open Cluster

variable {c₁ c₂ c₃ : Cluster}

lemma clear_seeded (s : Scenario) (m : Nat) : (s.seeded m).Clear := by
  intro w hw hunused
  have hsteady := s.steady_seeded m
  refine s.fresh_seeded m w hunused ?_
  obtain (hw | hw) | hw := hw
  · exact hw
  · exact hsteady.requested_eq ▸ hw
  · exact hsteady.observed_eq ▸ hw

lemma clear_cluster (s : Scenario) : s.cluster.Clear := s.clear_seeded s.workers

/-- From the start of a scenario on, each state being a `Later` one than that before it: whoever has
been planned and is not planned any more is not planned later. Whoever the cluster `Knows` and
neither plans nor requests any more is not known later. So nobody comes back whom a tick has let go,
if the cluster itself named the candidates and the removal was not disturbed. -/
theorem workers_never_return (s : Scenario) (h₁ : s.cluster.Later c₁) (h₂ : c₁.Later c₂)
    (h₃ : c₂.Later c₃) :
    (∀ w ∈ c₁.plan, ¬ w ∈ c₂.plan → ¬ w ∈ c₃.plan) ∧
    (∀ w, c₁.Knows w → ¬ w ∈ c₂.plan → ¬ w ∈ c₂.requested → ¬ c₃.Knows w) ∧
    ∀ (σ : Type) (h : Host σ) (d : Disturbance) (cluster : σ → Cluster) (scaler scaler' : Scaler)
      (x y : σ) (ws : IdSet), h.Relays d cluster → ¬ d.feigned .closeCandidates →
      ¬ d.failing .scaleDown → ¬ d.feigned .scaleDown → cluster x = c₁ → cluster y = c₂ →
      scaler.tick.run h x = (y, .ok (scaler', .ok (.scaledDown ws))) →
      ∀ w ∈ ws, ¬ c₃.Knows w := by
  have hclear₁ := s.clear_cluster.leads h₁.leads
  have hcoherent₁ := h₁.coherent (s.coherent_seeded s.workers)
  have hcoherent₂ := h₂.coherent hcoherent₁
  have hold : ∀ w, c₁.Knows w → ¬ c₂.Unused w :=
    fun w hw hunused => hclear₁ w hw (h₂.leads.unused hunused)
  refine ⟨fun w hw hleft => ?_, fun w hw hplan hrequested => ?_, ?_⟩
  · exact h₃.leads.not_replanned (hold w (.inl (.inl hw))) hleft
  · refine h₃.leads.not_seen hcoherent₂ (hold w hw) ?_
    rintro (hw | hw)
    · exact hplan hw
    · exact hrequested hw
  · rintro σ h d cluster scaler scaler' x y ws hh hd hfail hfeign rfl rfl ht w hw
    obtain ⟨hgone, hused⟩ := hh.let_go hd hfail hfeign hcoherent₁ hclear₁ ht hw
    exact h₃.leads.not_seen hcoherent₂ hused hgone

/-- Two workers at the start. -/
def pair : Scenario := ⟨"z", 2, 100, []⟩

/-- One of two workers is let go by a tick and another one is launched in its place; it is a new
one. -/
theorem workers_never_return_pair :
    ∃ c₂ c₃ scaler', Scaler.downToOne.tick.run Cluster.host pair.cluster =
        (c₂, .ok (scaler', .ok (.scaledDown (.ofList ["z-seed-0"])))) ∧
      pair.cluster.Later c₂ ∧ c₂.Later c₃ ∧ ¬ c₃.Knows "z-seed-0" ∧
      c₃.plan = .ofList ["z-seed-1", "z-worker-0"] := by
  obtain ⟨c₂, scaler', ht⟩ : ∃ c₂ scaler', Scaler.downToOne.tick.run Cluster.host pair.cluster =
      (c₂, .ok (scaler', .ok (.scaledDown (.ofList ["z-seed-0"])))) := ⟨_, _, by rfl⟩
  have hhost := relays_host .none
  have h₂ : pair.cluster.Later c₂ := by
    have hstep := Step.tick hhost Scaler.downToOne pair.cluster
    rw [ht] at hstep
    exact .single hstep
  have h₃ : c₂.Later (Operation.applyAll c₂ [.scale 2, .reconcile, .arriveAll]) :=
    ((Relation.ReflTransGen.single (.operate c₂ (.scale 2) trivial)).tail
      (.operate _ .reconcile trivial)).tail (.operate _ .arriveAll trivial)
  obtain ⟨-, -, htick⟩ := pair.workers_never_return .refl h₂ h₃
  have hgone := htick Cluster host .none id Scaler.downToOne scaler' _ _ _ hhost id id id rfl rfl ht
    "z-seed-0" (by decide)
  refine ⟨c₂, _, scaler', ht, h₂, h₃, hgone, ?_⟩
  cases ht
  decide +kernel

end Scenario

end Fleet
