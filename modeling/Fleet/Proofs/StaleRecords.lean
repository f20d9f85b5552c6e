import Fleet.Proofs.UniqueNames

/-! Records of launches that nobody needs. A record is left behind by scaling down workers that have
not been requested yet, and only planning them again or removing them by name mends that. -/
namespace Fleet

namespace Cluster

/-- There is a record of the worker, which is neither planned nor requested. -/
def Stale (c : Cluster) (x : Id) : Prop := x ∈ c.batches.keys ∧ ¬ c.Wants x

end Cluster

namespace Operation

variable {c c' : Cluster} {op : Operation} {ops : List Operation} {x : Id}

/-- The operation, which makes `c'` of `c`, is a scaling that gives the worker up before it has been
requested. -/
def Strands (c c' : Cluster) (x : Id) (op : Operation) : Prop :=
  (∃ n, op = .scale n) ∧ x ∈ c.plan ∧ ¬ x ∈ c.requested ∧ ¬ x ∈ c'.plan

/-- The worker is planned after the operation, or the operation removes it by name. -/
def Mends (c' : Cluster) (x : Id) (op : Operation) : Prop :=
  x ∈ c'.plan ∨ ∃ ids, op = .scaleDown ids ∧ x ∈ ids

namespace Books

/-- An operation that leaves the entries of a worker as they are does so with its stale record. -/
lemma stale_iff_of_same (hremove : op.RemovesNobody) (hplan : x ∈ c'.plan ↔ x ∈ c.plan)
    (hrequested : x ∈ c'.requested ↔ x ∈ c.requested)
    (hrecord : c'.batches.get? x = c.batches.get? x) :
    c'.Stale x ↔ (c.Stale x ∧ ¬ op.Mends c' x) ∨ op.Strands c c' x := by
  have hstale : c'.Stale x ↔ c.Stale x := by
    rw [Cluster.Stale, Cluster.Stale, Cluster.Wants, Cluster.Wants, hplan, hrequested,
      Dict.mem_keys, Dict.mem_keys, hrecord]
  have hstrand : ¬ op.Strands c c' x := by
    rintro ⟨-, hin, -, hout⟩
    exact hout (hplan.2 hin)
  have hmend : c.Stale x → ¬ op.Mends c' x := by
    rintro ⟨-, hnot⟩ (hin | ⟨ids, rfl, -⟩)
    · exact hnot (.inl (hplan.1 hin))
    · exact hremove
  rw [or_iff_left hstrand, hstale, and_iff_left_of_imp hmend]

/-- After an operation a record is stale if it has been so and the operation has not mended it, or
if the operation has stranded the worker. -/
theorem stale_iff (h : op.Books c c') (hc : c.Coherent) :
    c'.Stale x ↔ (c.Stale x ∧ ¬ op.Mends c' x) ∨ op.Strands c c' x := by
  cases h with
  | kept hadd hremove hgrow same =>
    refine stale_iff_of_same hremove ?_ ?_ ?_
    · rw [same.plan_eq]
    · rw [same.requested_eq]
    · rw [same.batches_eq]
  | added w =>
    simp only [Cluster.Stale, Cluster.Wants, Mends, Strands, Cluster.addWorker, Dict.keys_insert,
      IdSet.mem_insert, reduceCtorEq, false_and, exists_false]
    tauto
  | grown n =>
    obtain ⟨-, hplan, -⟩ | ⟨-, hplan, hrecord⟩ := c.grow_entries n x
    · refine iff_of_false (fun hx => hx.2 (.inl hplan)) ?_
      rintro (⟨-, hnot⟩ | ⟨-, -, -, hout⟩)
      · exact hnot (.inl hplan)
      · exact hout hplan
    · exact stale_iff_of_same trivial hplan (by rw [Cluster.requested_grow]) hrecord
  | shrunk n =>
    -- what has been planned is on record, so a worker that is given up leaves its record behind
    have hrecord : x ∈ c.plan → x ∈ c.batches.keys := fun hin => hc.batch_of_known x (.inl hin)
    have hplan : x ∈ (c.shrink n).plan → x ∈ c.plan := Cluster.mem_plan_shrink
    have hbatches : (c.shrink n).batches = c.batches := rfl
    have hrequested : (c.shrink n).requested = c.requested := rfl
    simp only [Cluster.Stale, Cluster.Wants, Mends, Strands, hbatches, hrequested, reduceCtorEq,
      false_and, exists_false, or_false, scale.injEq, exists_eq', true_and]
    tauto
  | removed ids =>
    simp only [Cluster.Stale, Cluster.Wants, Mends, Strands, Cluster.scaleDown,
      Dict.mem_keys_eraseAll, IdSet.mem_eraseAll, scaleDown.injEq, exists_eq_left', reduceCtorEq,
      exists_false, false_and]
    tauto
  | reconciled =>
    have hkeys : x ∈ c.reconcile.batches.keys ↔
        x ∈ c.batches.keys ∧ ¬ (x ∈ c.requested ∧ ¬ x ∈ c.plan) := by
      rw [Cluster.reconcile, Dict.mem_keys_eraseAll, ← IdSet.mem_def, IdSet.mem_diff]
    simp only [Cluster.Stale, Cluster.Wants, Mends, Strands, hkeys, Cluster.requested_reconcile,
      Cluster.plan_reconcile, reduceCtorEq, exists_false, false_and]
    tauto

end Books

/-- None of the operations, done one after another, plans the worker or removes it by name. -/
def Ignored (x : Id) : Cluster → List Operation → Prop
  | _, [] => True
  | c, op :: ops => ¬ op.Mends (op.apply c).1 x ∧ Ignored x (op.apply c).1 ops

/-- An operation of the run strands the worker, and none of those after it mends that. -/
def LeftBehind (c : Cluster) (ops : List Operation) (x : Id) : Prop :=
  ∃ before op after, ops = before ++ op :: after ∧
    op.Strands (applyAll c before) (applyAll c (before ++ [op])) x ∧
    Ignored x (applyAll c (before ++ [op])) after

lemma not_leftBehind_nil (c : Cluster) (x : Id) : ¬ LeftBehind c [] x := by
  rintro ⟨before, op, after, he, -⟩
  exact absurd he.symm (by simp)

lemma leftBehind_cons :
    LeftBehind c (op :: ops) x ↔
      (op.Strands c (op.apply c).1 x ∧ Ignored x (op.apply c).1 ops) ∨
        LeftBehind (op.apply c).1 ops x := by
  constructor
  · rintro ⟨_ | ⟨first, before⟩, o, after, he, hstrand, hrest⟩
    · cases he
      exact .inl ⟨hstrand, hrest⟩
    · cases he
      exact .inr ⟨before, o, after, rfl, hstrand, hrest⟩
  · rintro (⟨hstrand, hrest⟩ | ⟨before, o, after, rfl, hstrand, hrest⟩)
    · exact ⟨[], op, ops, rfl, hstrand, hrest⟩
    · exact ⟨op :: before, o, after, rfl, hstrand, hrest⟩

/-- The stale records after a run are those that nothing in it has mended and those of the workers
that it has left behind. -/
theorem stale_applyAll_iff (hc : c.Coherent) (ops : List Operation) :
    (applyAll c ops).Stale x ↔ (c.Stale x ∧ Ignored x c ops) ∨ LeftBehind c ops x := by
  -- on the run; what its first operation makes stale counts as stale from the start for the others
  induction ops generalizing c with
  | nil =>
    rw [or_iff_left (not_leftBehind_nil c x)]
    exact (and_iff_left trivial).symm
  | cons op ops ih =>
    change (applyAll (op.apply c).1 ops).Stale x ↔ _
    rw [ih (hc.apply op), (op.books c).stale_iff hc, leftBehind_cons, Ignored]
    tauto

/-- In a state that a new cluster has come to, there is a record of just the workers that are
planned or requested and of those that are `LeftBehind`. So the records are of planned and requested
workers only as long as every worker that was given up before it was requested has later been
removed by name or planned again. -/
theorem records_current_iff (name : String) (memoryLimit : Nat) (ops : List Operation) :
    let start := Cluster.create name memoryLimit
    let c := applyAll start ops
    (∀ x, x ∈ c.batches.keys ↔ (x ∈ c.plan ∨ x ∈ c.requested) ∨ LeftBehind start ops x) ∧
    ((∀ x ∈ c.batches.keys, x ∈ c.plan ∨ x ∈ c.requested) ↔ ∀ x, ¬ LeftBehind start ops x) := by
  intro start c
  have hstart : start.Coherent := Cluster.coherent_create name memoryLimit
  have hstale : ∀ x, c.Stale x ↔ LeftBehind start ops x := by
    intro x
    rw [stale_applyAll_iff hstart ops]
    refine or_iff_right ?_
    rintro ⟨⟨hrecord, -⟩, -⟩
    exact IdSet.not_mem_empty hrecord
  have hwants := (hstart.applyAll ops).batch_of_known
  refine ⟨fun x => ?_, ⟨fun h x hx => ?_, fun h x hx => ?_⟩⟩
  · rw [← hstale]
    refine ⟨fun hx => or_iff_not_imp_left.2 fun hnot => ⟨hx, hnot⟩, ?_⟩
    rintro (hx | hx)
    · exact hwants x hx
    · exact hx.1
  · obtain ⟨hrecord, hnot⟩ := (hstale x).2 hx
    exact hnot (h x hrecord)
  · by_contra hnot
    exact h x ((hstale x).1 ⟨hx, hnot⟩)

/-- A worker is planned and given up at once. Neither planned nor requested, it is on record. -/
theorem record_left_behind :
    let c := applyAll (Cluster.create "z" 100) [.scale 1, .scale 0]
    c.Reachable ∧ "z-worker-0" ∈ c.batches.keys ∧ ¬ "z-worker-0" ∈ c.plan ∧
      ¬ "z-worker-0" ∈ c.requested := by
  refine ⟨⟨"z", 100, _, rfl⟩, ?_⟩
  decide +kernel

/-- A running cluster without workers that is scaled to one and back has one record more. -/
lemma applyAll_upAndDown (hrun : c.status.isRunning = true) (hplan : c.plan = ∅) :
    applyAll c [.scale 1, .scale 0] =
      { c with
        nextId := c.nextId + 1
        nextBatch := c.nextBatch + 1
        batches := c.batches.insert c.nextName c.nextBatch } := by
  obtain ⟨up, hup⟩ : ∃ up : Cluster,
      up = ({ c with nextBatch := c.nextBatch + 1 } : Cluster).planNext c.nextBatch := ⟨_, rfl⟩
  have hscale : c.scale 1 = .ok up := by
    simp [Cluster.scale, hrun, Cluster.grow, Cluster.planUpTo, hplan, hup]
  have hback : up.scale 0 = .ok (up.shrink 0) := by
    have hrun' : up.status.isRunning = true := hup ▸ hrun
    simp [Cluster.scale, hrun']
  have hempty : (up.shrink 0).plan = c.plan := by
    have hsize := Cluster.size_shrink (Nat.zero_le up.plan.size)
    rw [hplan]
    exact (IdSet.eq_of_subset_of_size_le (fun x hx => absurd hx IdSet.not_mem_empty) hsize.le).symm
  calc applyAll c [.scale 1, .scale 0]
      = up.shrink 0 := by
        simp only [applyAll, List.foldl_cons, List.foldl_nil, apply, hscale, hback]
    _ = { up with plan := (up.shrink 0).plan } := rfl
    _ = { up with plan := c.plan } := by rw [hempty]
    _ = { c with
          nextId := c.nextId + 1
          nextBatch := c.nextBatch + 1
          batches := c.batches.insert c.nextName c.nextBatch } := by
        rw [hup]
        rfl

lemma upAndDown_pileUp (rounds : Nat) (hrun : c.status.isRunning = true) (hplan : c.plan = ∅)
    (hrequested : c.requested = ∅) (hnew : ∀ k, c.nextId ≤ k → ¬ c.nameAt k ∈ c.batches.keys) :
    let c' := applyAll c (List.replicate rounds [scale 1, scale 0]).flatten
    c'.plan = ∅ ∧ c'.requested = ∅ ∧ c'.batches.size = c.batches.size + rounds := by
  induction rounds generalizing c with
  | zero => exact ⟨hplan, hrequested, rfl⟩
  | succ rounds ih =>
    rw [List.replicate_succ, List.flatten_cons, applyAll_append, applyAll_upAndDown hrun hplan]
    have hname : ¬ c.nextName ∈ c.batches.keys := hnew c.nextId (Nat.le_refl _)
    have hlater : ∀ k, c.nextId + 1 ≤ k →
        ¬ c.nameAt k ∈ (c.batches.insert c.nextName c.nextBatch).keys := by
      intro k hk
      rw [Dict.keys_insert, IdSet.mem_insert, not_or]
      refine ⟨fun hsame => ?_, hnew k (Nat.le_of_succ_le hk)⟩
      have hid : k = c.nextId := c.nameAt_injective hsame
      omega
    have hmore : (c.batches.insert c.nextName c.nextBatch).size = c.batches.size + 1 := by
      rw [← Dict.size_keys, Dict.keys_insert, IdSet.size_insert, if_neg hname, Dict.size_keys]
    obtain ⟨hplan', hrequested', hsize⟩ := ih (c := { c with
      nextId := c.nextId + 1
      nextBatch := c.nextBatch + 1
      batches := c.batches.insert c.nextName c.nextBatch }) hrun hplan hrequested hlater
    refine ⟨hplan', hrequested', hsize.trans ?_⟩
    rw [hmore]
    omega

/-- Scaling a new cluster to one worker and back, again and again, leaves it without workers and
with a record for each time. -/
theorem records_pile_up (name : String) (memoryLimit rounds : Nat) :
    let ops := (List.replicate rounds [scale 1, scale 0]).flatten
    let c := applyAll (Cluster.create name memoryLimit) ops
    c.plan = ∅ ∧ c.requested = ∅ ∧ c.batches.size = rounds := by
  obtain ⟨hplan, hrequested, hsize⟩ := upAndDown_pileUp (c := Cluster.create name memoryLimit)
    rounds rfl rfl rfl fun _ _ => IdSet.not_mem_empty
  exact ⟨hplan, hrequested, hsize.trans (Nat.zero_add rounds)⟩

end Operation

end Fleet
