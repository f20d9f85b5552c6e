import Fleet.Proofs.Disturbance
import Mathlib.Data.List.DropRight

/-! Runs of ticks on a cluster to which anything is done between them. Whoever is let go has been
awaited, or idle with a whole group, in as many rounds of decisions as the wait tells. -/
namespace Fleet

lemma mem_rtake_of_le {α : Type} {l : List α} {a : α} {m n : Nat} (hmn : m ≤ n)
    (ha : a ∈ l.rtake m) : a ∈ l.rtake n :=
  (List.drop_sublist_drop_left l (Nat.sub_le_sub_left hmn l.length)).subset ha

namespace Debounce

variable {α : Type} {P : α → Id → Prop} {rounds : List α} {d : Debounce} {now : α} {ws : IdSet}
  {w : Id}

/-- Each worker is counted for no more than the last rounds that speak for it. -/
def Backed (P : α → Id → Prop) (rounds : List α) (d : Debounce) : Prop :=
  ∀ w, d.count w ≤ rounds.length ∧ ∀ a ∈ rounds.rtake (d.count w), P a w

lemma backed_create (W : Nat) : (create W).Backed P [] := by
  intro w
  simp

lemma Backed.concat (h : d.Backed P rounds) (hw : P now w) :
    d.count w + 1 ≤ (rounds ++ [now]).length ∧
      ∀ a ∈ (rounds ++ [now]).rtake (d.count w + 1), P a w := by
  obtain ⟨hlen, hpast⟩ := h w
  constructor
  · rw [List.length_append, List.length_singleton]
    omega
  · intro a ha
    rw [List.rtake_concat_succ] at ha
    rcases List.mem_append.1 ha with ha | ha
    · exact hpast a ha
    · rwa [List.mem_singleton.1 ha]

/-- A round that speaks for all its candidates backs the counts it leads to. -/
theorem Backed.observe (h : d.Backed P rounds) (hws : ∀ w ∈ ws, P now w) :
    (d.observe ws).Backed P (rounds ++ [now]) := by
  intro w
  rw [count_observe]
  split_ifs with hw
  · exact h.concat (hws w hw.1)
  · simp

/-- Whoever is let go has as many of the last rounds behind it as the wait tells. -/
theorem Backed.due (h : d.Backed P rounds) (hws : ∀ w ∈ ws, P now w) (hw : w ∈ d.due ws) :
    P now w ∧ d.waitCount ≤ (rounds ++ [now]).length ∧
      ∀ a ∈ (rounds ++ [now]).rtake d.waitCount, P a w := by
  obtain ⟨hmem, hle⟩ := mem_due.1 hw
  obtain ⟨hlen, hlast⟩ := h.concat (hws w hmem)
  exact ⟨hws w hmem, hle.trans hlen, fun a ha => hlast a (mem_rtake_of_le hle ha)⟩

end Debounce

/-- Nothing runs on the worker: it is awaited, or its whole group is idle. -/
def Cluster.Dispensable (key : Option GroupKey) (c : Cluster) (w : Id) : Prop :=
  w ∈ c.awaited ∨ c.IdleGroup key w

namespace Scaler

variable {p : Policy} {rounds : List Cluster} {s s' : Scaler} {c : Cluster}

@[simp] lemma advisor_note (s : Scaler) (d : Recommendation) : (s.note d).advisor = s.advisor := by
  unfold note
  split <;> rfl

/-- Runs of a scaler by a policy, with any estimator. Operations change the cluster between the
ticks, and any call of a tick may be disturbed, but nobody answers queries for candidates in the
cluster's stead. The list holds the cluster as it was at each decision, in order. A tick that meets
an arithmetic step without a result has not decided and leaves the scaler as it was. -/
inductive Course (p : Policy) : List Cluster → Scaler → Cluster → Prop where
  | start (e : Estimator) (name : String) (memoryLimit : Nat) :
    Course p [] { ofPolicy p with estimator := e } (.create name memoryLimit)
  | operate {rounds : List Cluster} {s : Scaler} {c : Cluster} (past : Course p rounds s c)
    (op : Operation) : Course p rounds s (op.apply c).1
  | tick {σ : Type} {h : Host σ} {d : Disturbance} {cluster : σ → Cluster} {x y : σ}
    {rounds : List Cluster} {s s' : Scaler} {result : Except TickError Outcome}
    (hh : h.Relays d cluster) (hd : ¬ d.feigned .closeCandidates)
    (past : Course p rounds s (cluster x)) (ht : s.tick.run h x = (y, .ok (s', result))) :
    Course p (rounds ++ if decided result then [cluster (s.prepare.run h x).1] else []) s'
      (cluster y)
  | fault {σ : Type} {h : Host σ} {d : Disturbance} {cluster : σ → Cluster} {x y : σ}
    {rounds : List Cluster} {s : Scaler} {f : Fault} (hh : h.Relays d cluster)
    (hd : ¬ d.feigned .closeCandidates) (past : Course p rounds s (cluster x))
    (ht : s.tick.run h x = (y, .error f)) : Course p rounds s (cluster y)

/-- The cluster is coherent, and the scaler goes by the policy, with counts that are backed. -/
structure Course.Inv (p : Policy) (rounds : List Cluster) (s : Scaler) (c : Cluster) : Prop where
  coherent : c.Coherent
  key : s.advisor.query.key = p.workerKey
  waitCount : s.debounce.waitCount = p.waitCount
  backed : s.debounce.Backed (Cluster.Dispensable p.workerKey) rounds

section Tick

variable {σ : Type} {h : Host σ} {d : Disturbance} {cluster : σ → Cluster} {x x₁ y : σ}
  {target : Nat} {r : Roster}

/-- The candidates of a prepared tick are dispensable. -/
lemma Course.Inv.candidates (hi : Course.Inv p rounds s (cluster x)) (hh : h.Relays d cluster)
    (hd : ¬ d.feigned .closeCandidates) (hp : s.prepare.run h x = (x₁, .ok (.ok (target, r))))
    {ws : IdSet} (hround : ((s.advisor.round target r).run h x₁).2 = .ok (.ok ws)) :
    ∀ w ∈ ws, (cluster (s.prepare.run h x).1).Dispensable p.workerKey w := by
  intro w hw
  have hcoherent := hh.frames.coherent_run s.prepare hi.coherent
  rw [hp] at hcoherent ⊢
  obtain ⟨rfl, -⟩ := hh.frames.prepared hp
  rw [← hi.key]
  exact hh.candidate hd hcoherent hround hw

theorem Course.Inv.tick (hi : Course.Inv p rounds s (cluster x)) (hh : h.Relays d cluster)
    (hd : ¬ d.feigned .closeCandidates) {result : Except TickError Outcome}
    (ht : s.tick.run h x = (y, .ok (s', result))) :
    Course.Inv p (rounds ++ if decided result then [cluster (s.prepare.run h x).1] else []) s'
      (cluster y) := by
  have hcoherent := hh.frames.coherent_run s.tick hi.coherent
  rw [ht] at hcoherent
  obtain ⟨hr, rfl⟩ | ⟨x₁, target, r, x₂, ws, hr, hp, hround, -, rfl⟩ := tick_cases ht
  · rw [hr, if_neg Bool.false_ne_true, List.append_nil]
    exact ⟨hcoherent, hi.key, hi.waitCount, hi.backed⟩
  · rw [hr, if_pos rfl]
    have hws := hi.candidates hh hd hp (congrArg Prod.snd hround)
    constructor
    · exact hcoherent
    · rw [advisor_note]
      exact hi.key
    · rw [debounce, advisor_note]
      exact hi.waitCount
    · rw [debounce, advisor_note]
      exact hi.backed.observe hws

end Tick

theorem Course.inv (hc : Course p rounds s c) : Course.Inv p rounds s c := by
  -- on the run; operations keep the counts, so only a tick that decides needs a round to back them
  induction hc with
  | start e name memoryLimit =>
    exact ⟨Cluster.coherent_create name memoryLimit, rfl, rfl, Debounce.backed_create _⟩
  | operate past op ih => exact ⟨ih.coherent.apply op, ih.key, ih.waitCount, ih.backed⟩
  | tick hh hd past ht ih => exact ih.tick hh hd ht
  | @fault σ h d cluster x y rounds s f hh hd past ht ih =>
    have hcoherent := hh.frames.coherent_run s.tick ih.coherent
    rw [ht] at hcoherent
    exact ⟨hcoherent, ih.key, ih.waitCount, ih.backed⟩

/-- Whoever is let go at the end of a `Course` was `Dispensable` at this decision and at the latest
ones, as many as the wait tells. -/
theorem Course.let_go_dispensable {σ : Type} {h : Host σ} {d : Disturbance}
    {cluster : σ → Cluster} {x y : σ} {ws : IdSet} {w : Id} (hh : h.Relays d cluster)
    (hd : ¬ d.feigned .closeCandidates) (hc : Course p rounds s (cluster x))
    (ht : s.tick.run h x = (y, .ok (s', .ok (.scaledDown ws)))) (hw : w ∈ ws) :
    (cluster (s.prepare.run h x).1).Dispensable p.workerKey w ∧
      p.waitCount ≤ (rounds ++ [cluster (s.prepare.run h x).1]).length ∧
      ∀ c ∈ (rounds ++ [cluster (s.prepare.run h x).1]).rtake p.waitCount,
        c.Dispensable p.workerKey w := by
  obtain ⟨x₁, target, r, x₂, proposed, hp, hround, -, rfl, -⟩ := tick_scaledDown ht
  have hws := hc.inv.candidates hh hd hp (congrArg Prod.snd hround)
  have hdue := hc.inv.backed.due hws hw
  rwa [hc.inv.waitCount] at hdue

/-- Lets workers go when they have been candidates twice in a row. -/
def patient : Policy := { Policy.standard with waitCount := 2 }

def twoIdle : Cluster :=
  Operation.applyAll (.create "z" 100) [.addWorker (.idle "w0" 0 100), .addWorker (.idle "w1" 0 100)]

lemma course_twoIdle : Course patient [] (ofPolicy patient) twoIdle :=
  .operate (.operate (.start (.ofPolicy patient) "z" 100) (.addWorker (.idle "w0" 0 100)))
    (.addWorker (.idle "w1" 0 100))

/-- Of two workers that are candidates once, one gets a task. The other one is let go the next time,
having been dispensable twice. -/
theorem let_go_dispensable_twoIdle :
    ∃ rounds s c c' s', (Course patient rounds s c ∧ (Cluster.host.Relays .none fun c => c) ∧
        s.tick.run Cluster.host c = (c', .ok (s', .ok (.scaledDown (.ofList ["w0"]))))) ∧
      rounds.length = 1 ∧ ∀ d ∈ rounds, d.Dispensable none "w0" := by
  obtain ⟨c₁, s₁, h₁⟩ : ∃ c₁ s₁, (ofPolicy patient).tick.run Cluster.host twoIdle =
      (c₁, .ok (s₁, .ok .unchanged)) := ⟨_, _, by rfl⟩
  have hcourse := (Course.tick (Cluster.relays_host .none) id course_twoIdle h₁).operate
    (.setLoad "w1" 0 1)
  obtain ⟨c', s', h₂⟩ : ∃ c' s', s₁.tick.run Cluster.host ((Operation.setLoad "w1" 0 1).apply c₁).1 =
      (c', .ok (s', .ok (.scaledDown (.ofList ["w0"])))) := by
    cases h₁
    exact ⟨_, _, by rfl⟩
  obtain ⟨-, -, hlast⟩ := Course.let_go_dispensable (w := "w0") (Cluster.relays_host .none) id
    hcourse h₂ (by decide)
  have hboth : ∀ a b : Cluster, a ∈ ([a] ++ [b]).rtake 2 := by simp [List.rtake]
  refine ⟨_, _, _, c', s', ⟨hcourse, Cluster.relays_host .none, h₂⟩, rfl, fun d hd => ?_⟩
  obtain rfl := List.mem_singleton.1 hd
  exact hlast _ (hboth _ _)

end Scaler

end Fleet
