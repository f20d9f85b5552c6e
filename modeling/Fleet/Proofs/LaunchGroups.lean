import Fleet.Proofs.Launches

/-! Groups of workers that were launched together. From the start of a scenario on, they are the
requests that the workers came with, except that those of the start and those of the first request
after it share one group. -/
namespace Fleet

namespace Cluster

variable {c c' c'' : Cluster} {x : Id} {op : Operation}

/-- What is newly planned on the way from `c` to `c'`, as one request. Nothing is no request. -/
def provisions (c c' : Cluster) : List IdSet :=
  if (c'.plan.diff c.plan).isEmpty then [] else [c'.plan.diff c.plan]

lemma exists_mem_provisions : (∃ ws ∈ c.provisions c', x ∈ ws) ↔ x ∈ c'.plan ∧ ¬ x ∈ c.plan := by
  unfold provisions
  split
  · rename_i hnone
    have hempty : (c'.plan.diff c.plan).toList = [] := List.isEmpty_iff.1 hnone
    rw [← IdSet.mem_diff, IdSet.mem_def, hempty]
    simp
  · simp

lemma provisions_eq_nil_iff : c.provisions c' = [] ↔ ∀ x ∈ c'.plan, x ∈ c.plan := by
  constructor
  · intro hnone x hx
    by_contra hnot
    obtain ⟨ws, hws, -⟩ := exists_mem_provisions.2 ⟨hx, hnot⟩
    rw [hnone] at hws
    cases hws
  · intro hsub
    have hempty : (c'.plan.diff c.plan).isEmpty = true := by
      rw [← IdSet.size_eq_zero_iff, ← IdSet.size_empty]
      refine congrArg IdSet.size (IdSet.ext_mem fun x => ?_)
      simpa using hsub x
    rw [provisions, if_pos hempty]

lemma length_provisions_le (c c' : Cluster) : (c.provisions c').length ≤ 1 := by
  unfold provisions
  split <;> simp

/-- What comes to be wanted on the way from `c` to `c'` is entered under the next launch, and all
else stays on record as it was. -/
structure Provides (c c' : Cluster) : Prop where
  leads : c.Leads c'
  recorded : c'.Recorded
  nextBatch_eq : c'.nextBatch = c.nextBatch + (c.provisions c').length
  new_or_kept : ∀ x, c'.Wants x →
    ((x ∈ c'.plan ∧ ¬ x ∈ c.plan) ∧ c'.batches.get? x = some c.nextBatch) ∨
    (c.Wants x ∧ ¬ (x ∈ c'.plan ∧ ¬ x ∈ c.plan) ∧ c'.batches.get? x = c.batches.get? x)

namespace Provides

lemma refl (hc : c.Recorded) : c.Provides c := by
  have hnone : c.provisions c = [] := provisions_eq_nil_iff.2 fun _ => id
  refine ⟨.refl c, hc, by rw [hnone]; rfl, fun x hx => .inr ⟨hx, ?_, rfl⟩⟩
  rintro ⟨hin, hnot⟩
  exact hnot hin

/-- Where nobody was planned on the first part of a way, the second one tells who is new. -/
lemma new_iff (hc : c.Clear) (h : c.Provides c') (hnone : c.provisions c' = [])
    (h' : c'.Provides c'') : (x ∈ c''.plan ∧ ¬ x ∈ c.plan) ↔ (x ∈ c''.plan ∧ ¬ x ∈ c'.plan) := by
  have hsub := provisions_eq_nil_iff.1 hnone
  constructor
  · rintro ⟨hx, hnot⟩
    exact ⟨hx, fun hin => hnot (hsub x hin)⟩
  · rintro ⟨hx, hnot⟩
    refine ⟨hx, fun hold => ?_⟩
    have hused : ¬ c'.Unused x := fun hu => hc x (.inl (.inl hold)) (h.leads.unused hu)
    exact h'.leads.not_replanned hused hnot hx

theorem trans (hc : c.Clear) (h : c.Provides c') (hnone : c.provisions c' = [])
    (h' : c'.Provides c'') : c.Provides c'' := by
  have hnew : ∀ x, (x ∈ c''.plan ∧ ¬ x ∈ c.plan) ↔ (x ∈ c''.plan ∧ ¬ x ∈ c'.plan) :=
    fun _ => new_iff hc h hnone h'
  have hdiff : c''.plan.diff c.plan = c''.plan.diff c'.plan :=
    IdSet.ext_mem fun x => by rw [IdSet.mem_diff, IdSet.mem_diff, hnew]
  have hbatch : c'.nextBatch = c.nextBatch := by
    rw [h.nextBatch_eq, hnone]
    rfl
  refine ⟨h.leads.trans h'.leads, h'.recorded, ?_, fun x hx => ?_⟩
  · rw [h'.nextBatch_eq, hbatch, provisions, provisions, hdiff]
  · rw [hnew, ← hbatch]
    obtain hplanned | ⟨hwants, hkept, hsame⟩ := h'.new_or_kept x hx
    · exact .inl hplanned
    · obtain ⟨⟨hin, hnot⟩, -⟩ | ⟨hwants', -, hsame'⟩ := h.new_or_kept x hwants
      · exact absurd (provisions_eq_nil_iff.1 hnone x hin) hnot
      · exact .inr ⟨hwants', hkept, hsame.trans hsame'⟩

end Provides

/-- An operation plans somebody new exactly if it makes the plan grow. -/
lemma length_provisions (hbooks : op.Books c c') (hop : op.AddsNobody) :
    (c.provisions c').length = if op.grows c then 1 else 0 := by
  have hnone : op.grows c = false → (∀ x ∈ c'.plan, x ∈ c.plan) →
      (c.provisions c').length = if op.grows c then 1 else 0 := by
    intro hgrow hsub
    rw [hgrow, provisions_eq_nil_iff.2 hsub]
    rfl
  cases hbooks with
  | kept hadd hremove hgrow same => exact hnone hgrow fun x hx => same.plan_eq ▸ hx
  | added w => exact False.elim hop
  | grown n hgrow =>
    rw [if_pos hgrow]
    refine Nat.le_antisymm (length_provisions_le _ _) (Nat.pos_of_ne_zero fun hzero => ?_)
    have hlt : c.plan.size < n := by
      simp only [Operation.grows, Bool.and_eq_true, decide_eq_true_eq] at hgrow
      exact hgrow.2
    have hsize := IdSet.size_le_of_subset
      (provisions_eq_nil_iff.1 (List.eq_nil_of_length_eq_zero hzero))
    rw [size_grow (Nat.le_of_lt hlt)] at hsize
    omega
  | shrunk n hgrow => exact hnone hgrow fun x => mem_plan_shrink
  | removed ids => exact hnone rfl fun x => IdSet.eraseAll_subset
  | reconciled => exact hnone rfl fun x => id

namespace Recorded

theorem provides_apply (h : c.Recorded) (hop : op.AddsNobody) : c.Provides (op.apply c).1 := by
  have hbooks := op.books c
  have hspares : op.Spares c.name := by
    cases op with
    | addWorker w => exact False.elim hop
    | _ => trivial
  have hplans : ∀ x, op.Plans c (op.apply c).1 x ↔ x ∈ (op.apply c).1.plan ∧ ¬ x ∈ c.plan := by
    intro x
    constructor
    · rintro (⟨w, rfl, -⟩ | ⟨hnot, hin⟩)
      · exact False.elim hop
      · exact ⟨hin, hnot⟩
    · rintro ⟨hin, hnot⟩
      exact .inr ⟨hnot, hin⟩
  have hlaunch : op.launch c.nextBatch = c.nextBatch := by
    cases op with
    | addWorker w => exact False.elim hop
    | _ => rfl
  refine ⟨hbooks.leads hop, h.apply hspares, ?_, fun x hx => ?_⟩
  · rw [length_provisions hbooks hop, hbooks.nextBatch_eq]
  · obtain ⟨hp, hbatch⟩ | ⟨hnot, hwants, hsame⟩ := h.planned_or_kept hbooks hx
    · exact .inl ⟨(hplans x).1 hp, hbatch.trans (congrArg some hlaunch)⟩
    · exact .inr ⟨hwants, fun hnew => hnot ((hplans x).2 hnew), hsame⟩

lemma provides_serve (h : c.Recorded) (call : Call) : c.Provides (serve call c).1 := by
  obtain he | ⟨op, hop, he⟩ := serve_operates call c
  · rw [he]
    exact .refl h
  · rw [he]
    exact h.provides_apply hop

end Recorded

lemma provisions_serve {call : Call} (hup : call.method ≠ .scale) (c : Cluster) :
    c.provisions (serve call c).1 = [] := by
  refine provisions_eq_nil_iff.2 fun x hx => ?_
  cases call with
  | scale n => exact absurd rfl hup
  | scaleDown ids => exact IdSet.eraseAll_subset hx
  | _ =>
    rwa [plan_serve hup Method.noConfusion] at hx

end Cluster

namespace Host.Relays

variable {σ : Type} {h : Host σ} {d : Disturbance} {cluster : σ → Cluster}

/-- A tick plans at its very end, if at all, and with one call. -/
theorem provides_tick (hh : h.Relays d cluster) (s : Scaler) {x : σ}
    (hx : (cluster x).Recorded) : (cluster x).Provides (cluster (s.tick.run h x).1) := by
  have hcall : ∀ call y, (cluster x).Provides (cluster y) → (cluster x).provisions (cluster y) = [] →
      (cluster x).Provides (cluster (h.serve call y).1) := by
    intro call y hy hnone
    obtain he | he := (hh.replies call y).reaches
    · rwa [he]
    · rw [he]
      exact hy.trans hx.clear hnone (hy.recorded.provides_serve call)
  refine Scaler.tick_reaches
    (P := fun y => (cluster x).Provides (cluster y) ∧ (cluster x).provisions (cluster y) = [])
    (Q := fun y => (cluster x).Provides (cluster y)) (fun _ hy => hy.1) ?_ ?_ ?_
  · rintro call y hup ⟨hy, hnone⟩
    refine ⟨hcall call y hy hnone, Cluster.provisions_eq_nil_iff.2 fun w hw => ?_⟩
    apply Cluster.provisions_eq_nil_iff.1 hnone
    obtain he | he := (hh.replies call y).reaches
    · rwa [he] at hw
    · rw [he] at hw
      exact Cluster.provisions_eq_nil_iff.1 (Cluster.provisions_serve hup _) w hw
  · rintro n y - ⟨hy, hnone⟩
    exact hcall (.scale n) y hy hnone
  · exact ⟨.refl hx, Cluster.provisions_eq_nil_iff.2 fun _ => id⟩

end Host.Relays

namespace Cluster

variable {c c' : Cluster} {requests : List IdSet} {x y : Id}

theorem Step.provides (h : Step c c') (hc : c.Recorded) : c.Provides c' := by
  cases h with
  | operate c op hop => exact hc.provides_apply hop
  | tick hh s x => exact hh.provides_tick s hc

/-- Each request has its own workers and its own launch, but the first two have one launch. -/
structure Ledger (requests : List IdSet) (c : Cluster) : Prop where
  recorded : c.Recorded
  length_eq : requests.length = c.nextBatch + 1
  used : ∀ ws ∈ requests, ∀ x ∈ ws, ¬ c.Unused x
  apart : requests.Pairwise fun ws ws' => ∀ x ∈ ws, ¬ x ∈ ws'
  covered : ∀ x, c.Wants x → ∃ ws ∈ requests, x ∈ ws
  launch_eq : ∀ i ws, requests[i]? = some ws → ∀ x ∈ ws, c.Wants x →
    c.batches.get? x = some (i - 1)

namespace Ledger

/-- Nobody of an earlier request is newly planned. -/
lemma not_new (h : Ledger requests c) (hp : c.Provides c') {ws : IdSet} (hws : ws ∈ requests)
    (hx : x ∈ ws) : ¬ (x ∈ c'.plan ∧ ¬ x ∈ c.plan) := by
  rintro ⟨hin, hnot⟩
  have hused : ¬ c.Unused x := h.used ws hws x hx
  exact hp.leads.not_replanned hused hnot hin

theorem step (h : Ledger requests c) (hp : c.Provides c') :
    Ledger (requests ++ c.provisions c') c' := by
  have hnew : ∀ ws ∈ c.provisions c', ∀ x ∈ ws, x ∈ c'.plan ∧ ¬ x ∈ c.plan :=
    fun ws hws x hx => exists_mem_provisions.1 ⟨ws, hws, hx⟩
  refine ⟨hp.recorded, ?_, ?_, ?_, ?_, ?_⟩
  · rw [List.length_append, h.length_eq, hp.nextBatch_eq]
    omega
  · intro ws hws x hx
    obtain hold | hws := List.mem_append.1 hws
    · exact fun hu => h.used ws hold x hx (hp.leads.unused hu)
    · exact hp.recorded.clear x (.inl (.inl (hnew ws hws x hx).1))
  · refine List.pairwise_append.2 ⟨h.apart, ?_, ?_⟩
    · unfold provisions
      split <;> simp
    · intro ws hws ws' hws' x hx hx'
      exact h.not_new hp hws hx (hnew ws' hws' x hx')
  · intro x hx
    obtain ⟨hplanned, -⟩ | ⟨hwants, -⟩ := hp.new_or_kept x hx
    · obtain ⟨ws, hws, hmem⟩ := exists_mem_provisions.2 hplanned
      exact ⟨ws, List.mem_append_right _ hws, hmem⟩
    · obtain ⟨ws, hws, hmem⟩ := h.covered x hwants
      exact ⟨ws, List.mem_append_left _ hws, hmem⟩
  · intro i ws hi x hx hwants
    by_cases hlt : i < requests.length
    · rw [List.getElem?_append_left hlt] at hi
      have hold := h.not_new hp (List.mem_of_getElem? hi) hx
      obtain ⟨hplanned, -⟩ | ⟨hwants', -, hsame⟩ := hp.new_or_kept x hwants
      · exact absurd hplanned hold
      · exact hsame.trans (h.launch_eq i ws hi x hx hwants')
    · rw [List.getElem?_append_right (Nat.not_lt.1 hlt)] at hi
      have hplanned := hnew ws (List.mem_of_getElem? hi) x hx
      -- the new request is the last one, so the next launch has its number less one
      have hlast : i = requests.length := by
        have hi' := (List.getElem?_eq_some_iff.1 hi).1
        have hle := length_provisions_le c c'
        omega
      obtain ⟨-, hbatch⟩ | ⟨-, hnot, -⟩ := hp.new_or_kept x hwants
      · rw [hbatch, hlast, h.length_eq, Nat.add_sub_cancel]
      · exact absurd hplanned hnot

/-- A worker is of one request only. -/
lemma index_unique (h : Ledger requests c) {i j : Nat} {ws ws' : IdSet}
    (hi : requests[i]? = some ws) (hj : requests[j]? = some ws') (hx : x ∈ ws) (hx' : x ∈ ws') :
    i = j := by
  obtain ⟨hi', rfl⟩ := List.getElem?_eq_some_iff.1 hi
  obtain ⟨hj', rfl⟩ := List.getElem?_eq_some_iff.1 hj
  have hapart := List.pairwise_iff_getElem.1 h.apart
  obtain hlt | heq | hlt := Nat.lt_trichotomy i j
  · exact absurd hx' (hapart i j hi' hj' hlt x hx)
  · exact heq
  · exact absurd hx (hapart j i hj' hi' hlt x hx')

/-- A connected worker is of the request that its launch belongs to. -/
lemma exists_index (h : Ledger requests c) {w : Worker} (hw : c.workers.get? x = some w) :
    ∃ i ws, requests[i]? = some ws ∧ x ∈ ws ∧ w.launchBatch = i - 1 := by
  have hobserved : x ∈ c.observed := mem_observed.2 (hw ▸ rfl)
  have hwants : c.Wants x := .inr (h.recorded.coherent.requested_of_observed x hobserved)
  obtain ⟨ws, hws, hx⟩ := h.covered x hwants
  obtain ⟨i, hi⟩ := List.mem_iff_getElem?.1 hws
  have hbatch := h.launch_eq i ws hi x hx hwants
  rw [h.recorded.launch_eq x w hw] at hbatch
  exact ⟨i, ws, hi, hx, Option.some.inj hbatch⟩

end Ledger

end Cluster

/-- The two came with one request. -/
def OneRequest (requests : List IdSet) (x y : Id) : Prop := ∃ ws ∈ requests, x ∈ ws ∧ y ∈ ws

/-- One of the two came with the first request, and the other with the second. -/
def FirstAndSecond (requests : List IdSet) (x y : Id) : Prop :=
  ∃ first second rest, requests = first :: second :: rest ∧
    (x ∈ first ∧ y ∈ second ∨ x ∈ second ∧ y ∈ first)

namespace Scenario

open Cluster

variable {s : Scenario} {c : Cluster} {requests : List IdSet}

/-- What a scenario comes to step by step, with the workers that each request so far asked for. The
workers of the start are the first request. -/
inductive Provisioned (s : Scenario) : List IdSet → Cluster → Prop where
  | start : Provisioned s [s.cluster.plan] s.cluster
  | step {requests : List IdSet} {c c' : Cluster} (past : Provisioned s requests c)
    (h : c.Step c') : Provisioned s (requests ++ c.provisions c') c'

/-- The workers of the start are on record under the launch that they report. -/
lemma recorded_seeded (s : Scenario) (m : Nat) : (s.seeded m).Recorded := by
  induction m with
  | zero => exact recorded_create s.name s.memoryLimit
  | succ m ih =>
    refine ⟨s.coherent_seeded (m + 1), s.clear_seeded (m + 1), ?_⟩
    rw [seeded_succ]
    exact fun x w => ih.launch_eq_apply (.addWorker (s.seed m))

lemma ledger_cluster (s : Scenario) : Ledger [s.cluster.plan] s.cluster := by
  have hrecorded : s.cluster.Recorded := s.recorded_seeded s.workers
  have hsteady := s.steady_seeded s.workers
  have hbatch : s.cluster.nextBatch = 0 := s.nextBatch_seeded s.workers
  refine ⟨hrecorded, by rw [hbatch]; rfl, ?_, List.pairwise_singleton _ _, ?_, ?_⟩
  · intro ws hws x hx
    rw [List.mem_singleton] at hws
    rw [hws] at hx
    exact hrecorded.clear x (.inl (.inl hx))
  · intro x hx
    have hrequested : s.cluster.requested = s.cluster.plan := hsteady.requested_eq
    rw [Wants, hrequested, or_self] at hx
    exact ⟨_, List.mem_singleton_self _, hx⟩
  · rintro i ws hi x hx -
    obtain ⟨hlt, rfl⟩ := List.getElem?_eq_some_iff.1 hi
    obtain rfl : i = 0 := Nat.lt_one_iff.1 hlt
    obtain ⟨w, hw⟩ := Option.isSome_iff_exists.1 (mem_observed.1 (hsteady.observed_eq ▸ hx))
    obtain ⟨k, -, rfl⟩ := exists_seed_of_get? hw
    exact hrecorded.launch_eq x _ hw

theorem Provisioned.ledger (h : s.Provisioned requests c) : Ledger requests c := by
  induction h with
  | start => exact s.ledger_cluster
  | step past hstep ih => exact ih.step (hstep.provides ih.recorded)

/-- The places of their requests tell whether two workers are of one, or of the first two. -/
lemma Provisioned.index_iff (h : s.Provisioned requests c) {i j : Nat} {ws ws' : IdSet}
    {x y : Id} (hi : requests[i]? = some ws) (hj : requests[j]? = some ws') (hx : x ∈ ws)
    (hy : y ∈ ws') :
    (OneRequest requests x y ↔ i = j) ∧
      (FirstAndSecond requests x y ↔ i = 0 ∧ j = 1 ∨ i = 1 ∧ j = 0) := by
  have hledger := h.ledger
  constructor
  · constructor
    · rintro ⟨both, hboth, hxb, hyb⟩
      obtain ⟨k, hk⟩ := List.mem_iff_getElem?.1 hboth
      rw [hledger.index_unique hi hk hx hxb, hledger.index_unique hj hk hy hyb]
    · rintro rfl
      obtain rfl : ws = ws' := Option.some.inj (hi.symm.trans hj)
      exact ⟨ws, List.mem_of_getElem? hi, hx, hy⟩
  · constructor
    · rintro ⟨first, second, rest, rfl, ⟨hxf, hys⟩ | ⟨hxs, hyf⟩⟩
      · exact .inl ⟨hledger.index_unique hi (j := 0) rfl hx hxf,
          hledger.index_unique hj (j := 1) rfl hy hys⟩
      · exact .inr ⟨hledger.index_unique hi (j := 1) rfl hx hxs,
          hledger.index_unique hj (j := 0) rfl hy hyf⟩
    · intro hij
      obtain ⟨first, second, rest, rfl⟩ : ∃ first second rest, requests = first :: second :: rest := by
        match requests, hi, hj with
        | [], hi, _ => cases hi
        | [_], hi, hj =>
          have hi' := (List.getElem?_eq_some_iff.1 hi).1
          have hj' := (List.getElem?_eq_some_iff.1 hj).1
          simp only [List.length_singleton] at hi' hj'
          omega
        | first :: second :: rest, _, _ => exact ⟨first, second, rest, rfl⟩
      refine ⟨first, second, rest, rfl, ?_⟩
      obtain ⟨rfl, rfl⟩ | ⟨rfl, rfl⟩ := hij
      · cases hi
        cases hj
        exact .inl ⟨hx, hy⟩
      · cases hi
        cases hj
        exact .inr ⟨hx, hy⟩

/-- What a scenario has `Provisioned`: no worker is of two requests, and every connected one is of
some request. Two connected workers are `Together` in a launch exactly if they came with
`OneRequest`, or if they are `FirstAndSecond`, one there at the start and the other of the first
request after it; and these two are not of one request. -/
theorem launched_together_iff (h : s.Provisioned requests c) :
    (requests.Pairwise fun ws ws' => ∀ x ∈ ws, ¬ x ∈ ws') ∧
    (∀ x ∈ c.observed, ∃ ws ∈ requests, x ∈ ws) ∧
    ∀ x ∈ c.observed, ∀ y ∈ c.observed,
      (c.Together (some .launchBatch) x y ↔
        OneRequest requests x y ∨ FirstAndSecond requests x y) ∧
      ((c.Together (some .launchBatch) x y ↔ OneRequest requests x y) ↔
        ¬ FirstAndSecond requests x y) := by
  have hledger := h.ledger
  have hknown : ∀ x ∈ c.observed, c.Wants x :=
    fun x hx => .inr (hledger.recorded.coherent.requested_of_observed x hx)
  refine ⟨hledger.apart, fun x hx => hledger.covered x (hknown x hx), fun x hx y hy => ?_⟩
  obtain ⟨a, ha⟩ := Option.isSome_iff_exists.1 (mem_observed.1 hx)
  obtain ⟨b, hb⟩ := Option.isSome_iff_exists.1 (mem_observed.1 hy)
  obtain ⟨i, ws, hi, hxi, hai⟩ := hledger.exists_index ha
  obtain ⟨j, ws', hj, hyj, hbj⟩ := hledger.exists_index hb
  obtain ⟨hone, hfirst⟩ := h.index_iff hi hj hxi hyj
  have htogether : c.Together (some .launchBatch) x y ↔ i - 1 = j - 1 := by
    constructor
    · rintro ⟨a', b', ha', hb', hname⟩
      obtain rfl : a = a' := Option.some.inj (ha.symm.trans ha')
      obtain rfl : b = b' := Option.some.inj (hb.symm.trans hb')
      rw [← hai, ← hbj]
      exact Nat.repr_injective hname
    · intro he
      refine ⟨a, b, ha, hb, ?_⟩
      change toString a.launchBatch = toString b.launchBatch
      rw [hai, hbj, he]
  rw [htogether, hone, hfirst]
  constructor <;> omega

/-- What each of the operations, done one after another, newly plans. -/
def requestsOf (c : Cluster) : List Operation → List IdSet
  | [] => []
  | op :: ops => c.provisions (op.apply c).1 ++ requestsOf (op.apply c).1 ops

lemma Provisioned.applyAll (h : s.Provisioned requests c) (ops : List Operation)
    (hops : ∀ op ∈ ops, op.AddsNobody) :
    s.Provisioned (requests ++ requestsOf c ops) (Operation.applyAll c ops) := by
  induction ops generalizing requests c with
  | nil => rwa [requestsOf, List.append_nil]
  | cons op ops ih =>
    have hstep := h.step (.operate c op (hops op List.mem_cons_self))
    rw [requestsOf, ← List.append_assoc]
    exact ih hstep fun o ho => hops o (List.mem_cons_of_mem op ho)

/-- Scales to three workers and then to four, each time until the new one has connected. -/
def oneByOne : List Operation :=
  [.scale 3, .reconcile, .arriveAll, .scale 4, .reconcile, .arriveAll]

/-- Of two workers at the start and two that came one by one, the last one is launched alone. -/
theorem launched_together_oneByOne :
    ∃ requests c, pair.Provisioned requests c ∧
      requests.map IdSet.toList = [["z-seed-0", "z-seed-1"], ["z-worker-0"], ["z-worker-1"]] ∧
      c.Together (some .launchBatch) "z-seed-0" "z-seed-1" ∧
      c.Together (some .launchBatch) "z-seed-0" "z-worker-0" ∧
      ¬ c.Together (some .launchBatch) "z-worker-0" "z-worker-1" := by
  have h : pair.Provisioned (pair.cluster.plan :: requestsOf pair.cluster oneByOne)
      (Operation.applyAll pair.cluster oneByOne) :=
    Provisioned.start.applyAll oneByOne (by simp [oneByOne, Operation.AddsNobody])
  have hrequests : pair.cluster.plan :: requestsOf pair.cluster oneByOne =
      [.ofList ["z-seed-0", "z-seed-1"], .ofList ["z-worker-0"], .ofList ["z-worker-1"]] := by
    decide +kernel
  rw [hrequests] at h
  obtain ⟨-, -, htogether⟩ := launched_together_iff h
  refine ⟨_, _, h, by decide +kernel, ?_, ?_, fun hlast => ?_⟩
  · refine (htogether _ (by decide +kernel) _ (by decide +kernel)).1.2 (.inl ?_)
    exact ⟨_, List.mem_cons_self, by decide +kernel, by decide +kernel⟩
  · refine (htogether _ (by decide +kernel) _ (by decide +kernel)).1.2 (.inr ?_)
    exact ⟨_, _, _, rfl, .inl ⟨by decide +kernel, by decide +kernel⟩⟩
  · obtain hone | hfirst := (htogether _ (by decide +kernel) _ (by decide +kernel)).1.1 hlast
    · revert hone
      simp [OneRequest]
    · obtain ⟨first, second, rest, he, hor⟩ := hfirst
      cases he
      revert hor
      simp

/-- A worker that came with the first scaling is in one group with those of the start, though they
are of two requests. So it cannot be closed without them. -/
theorem first_scaling_joins_the_start :
    ∃ requests c, pair.Provisioned requests c ∧
      requests.map IdSet.toList = [["z-seed-0", "z-seed-1"], ["z-worker-0"]] ∧
      c.Together (some .launchBatch) "z-seed-0" "z-worker-0" ∧
      ¬ OneRequest requests "z-seed-0" "z-worker-0" ∧
      c.closeCandidates ⟨2, some .launchBatch, "name", ∅⟩ = .ok [] := by
  have h : pair.Provisioned (pair.cluster.plan :: requestsOf pair.cluster (oneByOne.take 3))
      (Operation.applyAll pair.cluster (oneByOne.take 3)) :=
    Provisioned.start.applyAll (oneByOne.take 3) (by simp [oneByOne, Operation.AddsNobody])
  have hrequests : pair.cluster.plan :: requestsOf pair.cluster (oneByOne.take 3) =
      [.ofList ["z-seed-0", "z-seed-1"], .ofList ["z-worker-0"]] := by
    decide +kernel
  rw [hrequests] at h
  refine ⟨_, _, h, by decide +kernel, ⟨_, _, rfl, rfl, by decide +kernel⟩, ?_, by decide +kernel⟩
  simp [OneRequest]

end Scenario

end Fleet
