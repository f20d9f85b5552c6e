import Fleet.Proofs.Idleness

/-! Groups of workers and the counts of single ones. The scheduler names whole groups, but each
worker is counted by itself, so a tick that lets workers go divides a group unless every other
worker of it is still connected and has been counted as often. -/
namespace Fleet

/-- Where the scheduler alone names the candidates, they are nobody or those it offers. -/
lemma Advisor.round_of_scheduler {σ : Type} {h : Host σ} {a : Advisor} {target : Nat} {r : Roster}
    {x : σ} {ws : IdSet} (hs : a.source = .scheduler)
    (hr : ((a.round target r).run h x).2 = .ok (.ok ws)) :
    ws = ∅ ∨ ∃ ids : List Id,
      (h.serve (.closeCandidates (a.queryFor target)) x).2 = .ok (.ok ids) ∧ ws = .ofList ids := by
  by_cases hle : r.plan.size ≤ target
  · rw [run_round_of_le hle] at hr
    cases hr
    exact .inl rfl
  · rw [run_round_of_scheduler hs (Nat.not_le.1 hle)] at hr
    rcases hc : (h.serve (.closeCandidates (a.queryFor target)) x).2 with f | e | ids
    · simp [hc, Except.map] at hr
    · simp [hc, Except.map] at hr
    · simp only [hc, Except.map, Except.ok.injEq] at hr
      exact .inr ⟨ids, rfl, hr.symm⟩

namespace Host.Relays

variable {σ : Type} {h : Host σ} {d : Disturbance} {cluster : σ → Cluster} {s : Scaler} {x : σ}

/-- Preparing changes nothing about the workers that stay connected. -/
theorem get?_prepared (hh : h.Relays d cluster) (s : Scaler) (x : σ) {w : Id} {v : Worker}
    (hv : (cluster (s.prepare.run h x).1).workers.get? w = some v) :
    (cluster x).workers.get? w = some v := by
  have hkeep : ∀ w v, (cluster (s.prepare.run h x).1).workers.get? w = some v →
      (cluster x).workers.get? w = some v := by
    refine s.only_prepare.keeps
      (P := fun y => ∀ w v, (cluster y).workers.get? w = some v → (cluster x).workers.get? w = some v)
      (fun call y hm hy w v hv => hy w v ?_) fun w v hv => hv
    rcases (hh.replies call y).reaches with he | he
    · rwa [he] at hv
    · rw [he] at hv
      cases call with
      | reconcile limit =>
        simp only [Cluster.serve, Cluster.reconcile, Dict.get?_eraseAll] at hv
        split at hv
        · cases hv
        · exact hv
      | drainEstimate window => exact hv
      | workers => exact hv
      | tasks => exact hv
      | estimate => exact hv
      | closeCandidates query => exact hv
      | scale n => rcases hm with hm | hm <;> cases hm
      | scaleDown ids => rcases hm with hm | hm <;> cases hm
      | retire request => rcases hm with hm | hm <;> cases hm
  exact hkeep w v hv

/-- Candidates that the scheduler alone names are connected, and they come in whole groups. -/
theorem candidates_whole (hh : h.Relays d cluster) (hd : ¬ d.feigned .closeCandidates)
    (hx : (cluster x).Coherent) {a : Advisor} (hs : a.source = .scheduler) {target : Nat}
    {r : Roster} {ws : IdSet} (hr : ((a.round target r).run h x).2 = .ok (.ok ws)) {u : Id}
    (hu : u ∈ ws) :
    u ∈ (cluster x).observed ∧ ∀ v, (cluster x).Together a.query.key u v → v ∈ ws := by
  obtain rfl | ⟨ids, hids, rfl⟩ := Advisor.round_of_scheduler hs hr
  · exact absurd hu IdSet.not_mem_empty
  · have hoffer := (hh.replies (.closeCandidates (a.queryFor target)) x).offered hd hids
    rw [IdSet.mem_ofList] at hu
    refine ⟨(hx.idleGroup_of_offered hoffer hu).mem_observed, fun v huv => ?_⟩
    exact IdSet.mem_ofList.2 (hx.offered_together hoffer hu huv)

end Host.Relays

namespace Scaler

variable {p : Policy} {rounds : List Cluster} {s s' : Scaler} {c : Cluster}

/-- Ticks do not change where candidates come from. -/
lemma Course.source (hc : Course p rounds s c) : s.advisor.source = p.strategy.source := by
  induction hc with
  | start e name memoryLimit => rfl
  | operate past op ih => exact ih
  | tick hh hd past ht ih =>
    obtain ⟨d, log, -, rfl⟩ := tick_recounts (congrArg Prod.snd ht)
    exact ih
  | fault hh hd past ht ih => exact ih

section Tick

variable {σ : Type} {h : Host σ} {d : Disturbance} {cluster : σ → Cluster} {x x₁ y : σ}
  {target : Nat} {r : Roster} {ws : IdSet} {u v : Id}

/-- The candidates of a prepared tick are connected, and they come in whole groups. -/
lemma Course.candidates_whole (hc : Course p rounds s (cluster x)) (hh : h.Relays d cluster)
    (hd : ¬ d.feigned .closeCandidates) (hs : p.strategy.source = .scheduler)
    (hp : s.prepare.run h x = (x₁, .ok (.ok (target, r))))
    (hround : ((s.advisor.round target r).run h x₁).2 = .ok (.ok ws)) (hu : u ∈ ws) :
    u ∈ (cluster x₁).observed ∧ ∀ v, (cluster x₁).Together p.workerKey u v → v ∈ ws := by
  have hcoherent := hh.frames.coherent_run s.prepare hc.inv.coherent
  rw [hp] at hcoherent
  rw [← hc.inv.key]
  exact hh.candidates_whole hd hcoherent (hc.source.trans hs) hround hu

end Tick

/-- Workers that were together at every decision that found one of them connected have been counted
equally often. -/
theorem Course.counts_agree (hc : Course p rounds s c) (hs : p.strategy.source = .scheduler)
    {u v : Id} (hall : ∀ d ∈ rounds, u ∈ d.observed ∨ v ∈ d.observed → d.Together p.workerKey u v) :
    s.debounce.count u = s.debounce.count v := by
  -- on the run; a decision has both of them as candidates or neither
  induction hc with
  | start e name memoryLimit => rfl
  | operate past op ih => exact ih hall
  | fault hh hd past ht ih => exact ih hall
  | @tick σ h d cluster x y rounds s s' result hh hd past ht ih =>
    have hcount := ih fun e he => hall e (List.mem_append_left _ he)
    obtain ⟨-, rfl⟩ | ⟨x₁, target, r, x₂, ws, hr, hp, hround, -, rfl⟩ := tick_cases ht
    · exact hcount
    · have hnow := hall (cluster x₁) (by simp [hr, hp])
      have hwhole : ∀ {w}, w ∈ ws →
          w ∈ (cluster x₁).observed ∧ ∀ z, (cluster x₁).Together p.workerKey w z → z ∈ ws :=
        past.candidates_whole hh hd hs hp (congrArg Prod.snd hround)
      have hboth : u ∈ ws ↔ v ∈ ws := by
        constructor
        · intro hu
          exact (hwhole hu).2 v (hnow (.inl (hwhole hu).1))
        · intro hv
          exact (hwhole hv).2 u (hnow (.inr (hwhole hv).1)).symm
      have hcounts : ∀ w, ((s.counted ws).note (s.advisor.verdict target r ws)).debounce.count w =
          if w ∈ ws ∧ s.debounce.count w + 1 < s.debounce.waitCount then s.debounce.count w + 1
          else 0 := by
        intro w
        rw [debounce, advisor_note]
        exact Debounce.count_observe _ _ _
      rw [hcounts, hcounts, hcount]
      simp only [hboth]

section LettingGo

variable {σ : Type} {h : Host σ} {d : Disturbance} {cluster : σ → Cluster} {x y : σ} {ws : IdSet}

/-- Among those who are connected at the decision, whoever is together with one who is let go goes
as well, if it has been counted as often. -/
theorem Course.mem_of_together (hh : h.Relays d cluster) (hd : ¬ d.feigned .closeCandidates)
    (hc : Course p rounds s (cluster x)) (hs : p.strategy.source = .scheduler)
    (ht : s.tick.run h x = (y, .ok (s', .ok (.scaledDown ws)))) {u : Id} (hu : u ∈ ws) :
    u ∈ (cluster (s.prepare.run h x).1).observed ∧
      ∀ v, (cluster (s.prepare.run h x).1).Together p.workerKey u v →
        (v ∈ ws ↔ p.waitCount ≤ s.debounce.count v + 1) := by
  obtain ⟨x₁, target, r, x₂, proposed, hp, hround, -, rfl, -⟩ := tick_scaledDown ht
  have hwhole := hc.candidates_whole hh hd hs hp (congrArg Prod.snd hround)
    (Debounce.mem_of_mem_due hu)
  rw [hp]
  refine ⟨hwhole.1, fun v huv => ?_⟩
  rw [Debounce.mem_due, hc.inv.waitCount]
  exact and_iff_right (hwhole.2 v huv)

/-- Where the scheduler alone names the candidates, the workers that a tick lets go at the end of a
`Course` leave the groups that are connected when it begins `Undivided` exactly if every worker of
their groups is still connected at the decision and has been counted as often. So they divide no
group that is connected at the decision, if workers are let go at once, or if those who are
`Together` then have been so at every earlier decision that found one of them connected. -/
theorem Course.groups_kept_iff (hh : h.Relays d cluster) (hd : ¬ d.feigned .closeCandidates)
    (hc : Course p rounds s (cluster x)) (hs : p.strategy.source = .scheduler)
    (ht : s.tick.run h x = (y, .ok (s', .ok (.scaledDown ws)))) :
    ((cluster x).Undivided p.workerKey ws ↔
      ∀ u v, (cluster x).Together p.workerKey u v → u ∈ ws →
        v ∈ (cluster (s.prepare.run h x).1).observed ∧ p.waitCount ≤ s.debounce.count v + 1) ∧
    (p.waitCount ≤ 1 → (cluster (s.prepare.run h x).1).Undivided p.workerKey ws) ∧
    ((∀ c ∈ rounds, ∀ u v, (cluster (s.prepare.run h x).1).Together p.workerKey u v →
        u ∈ c.observed ∨ v ∈ c.observed → c.Together p.workerKey u v) →
      (cluster (s.prepare.run h x).1).Undivided p.workerKey ws) := by
  have hgone : ∀ {u}, u ∈ ws → u ∈ (cluster (s.prepare.run h x).1).observed ∧
      ∀ v, (cluster (s.prepare.run h x).1).Together p.workerKey u v →
        (v ∈ ws ↔ p.waitCount ≤ s.debounce.count v + 1) := hc.mem_of_together hh hd hs ht
  have hcoherent := hh.frames.coherent_run s.prepare hc.inv.coherent
  -- those who are together at first and still connected are together at the decision
  have hstill : ∀ {u v}, (cluster x).Together p.workerKey u v →
      u ∈ (cluster (s.prepare.run h x).1).observed →
      v ∈ (cluster (s.prepare.run h x).1).observed →
      (cluster (s.prepare.run h x).1).Together p.workerKey u v := by
    rintro u v ⟨a, b, ha, hb, hname⟩ hu hv
    obtain ⟨a', ha'⟩ := Option.isSome_iff_exists.1 (Cluster.mem_observed.1 hu)
    obtain ⟨b', hb'⟩ := Option.isSome_iff_exists.1 (Cluster.mem_observed.1 hv)
    have hsamea := hh.get?_prepared s x ha'
    have hsameb := hh.get?_prepared s x hb'
    rw [ha, Option.some.injEq] at hsamea
    rw [hb, Option.some.injEq] at hsameb
    subst hsamea hsameb
    exact ⟨a, b, ha', hb', hname⟩
  refine ⟨?_, fun hwait => ?_, fun hsteady => ?_⟩
  · rw [hc.inv.coherent.undivided_iff]
    constructor
    · intro hkept u v huv hu
      have hv := hkept u v huv hu
      have hobserved := (hgone hv).1
      exact ⟨hobserved, ((hgone hu).2 v (hstill huv (hgone hu).1 hobserved)).1 hv⟩
    · intro hcounted u v huv hu
      obtain ⟨hobserved, hcount⟩ := hcounted u v huv hu
      exact ((hgone hu).2 v (hstill huv (hgone hu).1 hobserved)).2 hcount
  · rw [hcoherent.undivided_iff]
    intro u v huv hu
    exact ((hgone hu).2 v huv).2 (by omega)
  · rw [hcoherent.undivided_iff]
    intro u v huv hu
    have hself : (cluster (s.prepare.run h x).1).Together p.workerKey u u := by
      obtain ⟨a, -, ha, -, -⟩ := huv
      exact ⟨a, a, ha, ha, rfl⟩
    have hcount := hc.counts_agree hs fun c hmem => hsteady c hmem u v huv
    have hdue := ((hgone hu).2 u hself).1 hu
    rw [hcount] at hdue
    exact ((hgone hu).2 v huv).2 hdue

end LettingGo

end Scaler

namespace Settings

/-- Lets the workers of a host go when they have been candidates twice in a row, and asks the
scheduler alone for them. -/
def hostsTwice : Settings :=
  { standard with waitCount := 2, strategy := .queue, workerKey := some .host }

lemma toPolicy_hostsTwice :
    hostsTwice.toPolicy = .ok { Policy.standard with
      waitCount := 2, strategy := .queue, workerKey := some .host } :=
  toPolicy_eq_ok (by decide +kernel) rfl (by decide) (by decide) (by decide +kernel)
    (by decide +kernel)

end Settings

namespace Scaler

/-- The policy of these settings. -/
def hostsTwice : Policy :=
  { Policy.standard with waitCount := 2, strategy := .queue, workerKey := some .host }

/-- A worker of a host. -/
def onHost (host id : String) (processing : Nat) : Worker :=
  { Worker.idle id 0 100 with host := host, processing := processing }

/-- Two idle workers of one host. -/
def oneHost : Cluster :=
  Operation.applyAll (.create "z" 100) [.addWorker (onHost "h" "a" 0), .addWorker (onHost "h" "b" 0)]

/-- Two idle workers of one host go together at the second tick. -/
theorem groups_kept_oneHost :
    ∃ s c' s', Course hostsTwice [oneHost] s oneHost ∧
      s.tick.run Cluster.host oneHost =
        (c', .ok (s', .ok (.scaledDown (.ofList ["a", "b"])))) ∧
      (s.prepare.run Cluster.host oneHost).1.Undivided (some .host) (.ofList ["a", "b"]) := by
  have hstart : Course hostsTwice [] (ofPolicy hostsTwice) oneHost :=
    .operate (.operate (.start .queue "z" 100) (.addWorker (onHost "h" "a" 0)))
      (.addWorker (onHost "h" "b" 0))
  obtain ⟨s₁, h₁⟩ : ∃ s₁, (ofPolicy hostsTwice).tick.run Cluster.host oneHost =
      (oneHost, .ok (s₁, .ok .unchanged)) := ⟨_, by rfl⟩
  have hcourse : Course hostsTwice [oneHost] s₁ oneHost :=
    Course.tick (Cluster.relays_host .none) id hstart h₁
  have hnow : (s₁.prepare.run Cluster.host oneHost).1 = oneHost := by
    cases h₁
    rfl
  obtain ⟨c', s', h₂⟩ : ∃ c' s', s₁.tick.run Cluster.host oneHost =
      (c', .ok (s', .ok (.scaledDown (.ofList ["a", "b"])))) := by
    cases h₁
    exact ⟨_, _, by rfl⟩
  have hkept := Course.groups_kept_iff (Cluster.relays_host .none) id hcourse rfl h₂
  refine ⟨s₁, c', s', hcourse, h₂, hkept.2.2 fun c hc u v huv _ => ?_⟩
  rw [List.mem_singleton.1 hc]
  rw [hnow] at huv
  exact huv

/-- An idle worker of one host and a busy one of another. -/
def twoHosts : Cluster :=
  Operation.applyAll (.create "z" 100) [.addWorker (onHost "h" "a" 0), .addWorker (onHost "i" "k" 1)]

/-- A worker that is added to a host between two ticks stays when the other one of the host goes,
because it has been a candidate once less. -/
theorem groups_divided_by_newcomer :
    Settings.hostsTwice.toPolicy = .ok hostsTwice ∧
      ∃ rounds s c c' s', Course hostsTwice rounds s c ∧
        s.tick.run Cluster.host c = (c', .ok (s', .ok (.scaledDown (.ofList ["a"])))) ∧
        ¬ c.Undivided (some .host) (.ofList ["a"]) := by
  have hstart : Course hostsTwice [] (ofPolicy hostsTwice) twoHosts :=
    .operate (.operate (.start .queue "z" 100) (.addWorker (onHost "h" "a" 0)))
      (.addWorker (onHost "i" "k" 1))
  obtain ⟨c₁, s₁, h₁⟩ : ∃ c₁ s₁, (ofPolicy hostsTwice).tick.run Cluster.host twoHosts =
      (c₁, .ok (s₁, .ok .unchanged)) := ⟨_, _, by rfl⟩
  have hcourse := (Course.tick (Cluster.relays_host .none) id hstart h₁).operate
    (.addWorker (onHost "h" "b" 0))
  obtain ⟨c', s', h₂⟩ : ∃ c' s',
      s₁.tick.run Cluster.host ((Operation.addWorker (onHost "h" "b" 0)).apply c₁).1 =
        (c', .ok (s', .ok (.scaledDown (.ofList ["a"])))) := by
    cases h₁
    exact ⟨_, _, by rfl⟩
  refine ⟨Settings.toPolicy_hostsTwice, _, s₁, _, c', s', hcourse, h₂, fun hkept => ?_⟩
  rw [hcourse.inv.coherent.undivided_iff] at hkept
  have htogether : ((Operation.addWorker (onHost "h" "b" 0)).apply c₁).1.Together (some .host)
      "a" "b" := by
    cases h₁
    exact ⟨onHost "h" "a" 0, onHost "h" "b" 0, by rfl, by rfl, rfl⟩
  exact absurd (hkept "a" "b" htogether (by decide)) (by decide)

end Scaler

end Fleet
