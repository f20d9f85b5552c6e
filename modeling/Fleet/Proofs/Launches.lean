import Fleet.Proofs.Provisioning
import Fleet.Proofs.UniqueNames

/-! Launches on record. As long as a worker is planned or requested, the record names the launch it
was last planned under, and its own report agrees whenever it is connected. -/
namespace Fleet

namespace Operation

variable {c c' : Cluster} {op : Operation} {x : Id} {name : String}

/-- How many of the operations, done one after another, make the plan grow by scaling. -/
def growths (c : Cluster) : List Operation → Nat
  | [] => 0
  | op :: ops => (if op.grows c then 1 else 0) + growths (op.apply c).1 ops

/-- The operation, which makes `c'` of `c`, adds the worker, or the worker is planned after it and
was not before. -/
def Plans (c c' : Cluster) (x : Id) (op : Operation) : Prop :=
  (∃ w, op = .addWorker w ∧ w.id = x) ∨ ¬ x ∈ c.plan ∧ x ∈ c'.plan

lemma not_plans (hadd : op.AddsNobody) (hx : x ∈ c'.plan → x ∈ c.plan) : ¬ op.Plans c c' x := by
  rintro (⟨w, rfl, -⟩ | ⟨hnot, hin⟩)
  · exact hadd
  · exact hnot (hx hin)

/-- The launch of those whom an operation plans after so many growths. An added worker brings its
own, and growths are numbered from zero. -/
def launch (growths : Nat) : Operation → Nat
  | addWorker w => w.launchBatch
  | _ => growths

/-- The operation adds no worker under a name that growing gives in a cluster of this name. -/
def Spares (name : String) : Operation → Prop
  | addWorker w => ∀ k : Nat, w.id ≠ name ++ "-worker-" ++ toString k
  | _ => True

lemma growths_append (c : Cluster) (ops ops' : List Operation) :
    growths c (ops ++ ops') = growths c ops + growths (applyAll c ops) ops' := by
  induction ops generalizing c with
  | nil => exact (Nat.zero_add _).symm
  | cons op ops ih =>
    simp only [List.cons_append, growths, ih, Nat.add_assoc]
    rfl

namespace Books

lemma name_eq (h : op.Books c c') : c'.name = c.name := by
  cases h with
  | kept hadd hremove hgrow same => exact same.name_eq
  | grown n => exact c.name_grow n
  | added => rfl
  | shrunk => rfl
  | removed => rfl
  | reconciled => rfl

lemma nextId_le (h : op.Books c c') : c.nextId ≤ c'.nextId := by
  cases h with
  | kept hadd hremove hgrow same => exact same.nextId_eq.ge
  | grown n => exact c.nextId_le_grow n
  | added => exact Nat.le_refl _
  | shrunk => exact Nat.le_refl _
  | removed => exact Nat.le_refl _
  | reconciled => exact Nat.le_refl _

/-- The next launch has the number of growths so far. -/
lemma nextBatch_eq (h : op.Books c c') :
    c'.nextBatch = c.nextBatch + if op.grows c then 1 else 0 := by
  cases h with
  | kept hadd hremove hgrow same =>
    rw [same.nextBatch_eq, hgrow]
    rfl
  | grown n hgrow =>
    rw [c.nextBatch_grow, hgrow]
    rfl
  | shrunk n hgrow =>
    rw [hgrow]
    rfl
  | added => rfl
  | removed => rfl
  | reconciled => rfl

/-- Names that are still to be given after an operation were so before. -/
lemma unused (h : op.Books c c') (hx : c'.Unused x) : c.Unused x :=
  hx.of_le h.name_eq h.nextId_le

/-- Nobody is given a name that is still to be given. -/
theorem clear (h : op.Books c c') (hop : op.Spares c.name) (hc : c.Clear) : c'.Clear := by
  obtain hadd | ⟨w, rfl⟩ := op.addsNobody_or
  · exact hc.leads (h.leads hadd)
  · cases h with
    | added =>
      rintro x hx ⟨k, hk, rfl⟩
      have hnot : c.nameAt k ≠ w.id := (hop k).symm
      refine hc (c.nameAt k) ?_ ⟨k, hk, rfl⟩
      obtain (hx | hx) | hx := hx
      · exact .inl (.inl ((IdSet.mem_insert.1 hx).resolve_left hnot))
      · exact .inl (.inr ((IdSet.mem_insert.1 hx).resolve_left hnot))
      · rw [Cluster.observed, Cluster.addWorker, Dict.keys_insert] at hx
        exact .inr ((IdSet.mem_insert.1 hx).resolve_left hnot)
    | kept hadd => exact False.elim hadd

end Books

lemma nextBatch_applyAll (c : Cluster) (ops : List Operation) :
    (applyAll c ops).nextBatch = c.nextBatch + growths c ops := by
  induction ops generalizing c with
  | nil => rfl
  | cons op ops ih =>
    change (applyAll (op.apply c).1 ops).nextBatch = _
    rw [ih, (op.books c).nextBatch_eq, growths, Nat.add_assoc]

lemma name_applyAll (c : Cluster) (ops : List Operation) : (applyAll c ops).name = c.name := by
  induction ops generalizing c with
  | nil => rfl
  | cons op ops ih => exact (ih _).trans (op.books c).name_eq

end Operation

namespace Cluster

open Operation

variable {c c' : Cluster} {op : Operation} {x : Id}

/-- Connected workers report the launch on record, and no name in use is still to be given. -/
structure Recorded (c : Cluster) : Prop where
  coherent : c.Coherent
  clear : c.Clear
  launch_eq : ∀ x w, c.workers.get? x = some w → c.batches.get? x = some w.launchBatch

lemma recorded_create (name : String) (memoryLimit : Nat) : (create name memoryLimit).Recorded := by
  refine ⟨coherent_create name memoryLimit, ?_, fun x w hw => nomatch hw⟩
  rintro w ((hw | hw) | hw)
  · exact absurd hw IdSet.not_mem_empty
  · exact absurd hw IdSet.not_mem_empty
  · exact absurd hw IdSet.not_mem_empty

namespace Recorded

/-- Growing does not touch the record of anybody who is known. -/
lemma get?_batches_grow (h : c.Recorded) (n : Nat) (hx : c.Knows x) :
    (c.grow n).batches.get? x = c.batches.get? x := by
  obtain ⟨hnamed, -⟩ | ⟨-, -, hsame⟩ := c.grow_entries n x
  · exact absurd hnamed.unused (h.clear x hx)
  · exact hsame

/-- Whatever is done, connected workers go on reporting the launch on record. -/
theorem launch_eq_apply (h : c.Recorded) (op : Operation) {w : Worker}
    (hw : (op.apply c).1.workers.get? x = some w) :
    (op.apply c).1.batches.get? x = some w.launchBatch := by
  cases op with
  | addWorker v =>
    simp only [Operation.apply, addWorker, Dict.get?_insert] at hw ⊢
    by_cases hx : x = v.id
    · rw [if_pos hx] at hw ⊢
      cases hw
      rfl
    · rw [if_neg hx] at hw ⊢
      exact h.launch_eq x w hw
  | setTasks tasks => exact h.launch_eq x w hw
  | setLoad id memoryUsed processing =>
    simp only [Operation.apply, setLoad] at hw ⊢
    by_cases hc : c.workers.contains id = true
    · simp only [hc, if_true, Dict.get?_modify] at hw ⊢
      split at hw
      · obtain ⟨v, hv, rfl⟩ := Option.map_eq_some_iff.1 hw
        exact h.launch_eq x v hv
      · exact h.launch_eq x w hw
    · simp only [hc] at hw ⊢
      exact h.launch_eq x w hw
  | arriveAll =>
    change c.arriveAll.workers.get? x = some w at hw
    rw [get?_workers_arriveAll] at hw
    split at hw
    · rename_i hawaited
      cases hw
      exact h.coherent.get?_batches_of_awaited hawaited
    · exact h.launch_eq x w hw
  | setStatus status => exact h.launch_eq x w hw
  | scale n =>
    simp only [Operation.apply, Cluster.scale] at hw ⊢
    by_cases hrun : c.status.isRunning = true
    · by_cases hn : c.plan.size < n
      · simp only [hrun, hn, if_true, workers_grow] at hw ⊢
        rw [h.get?_batches_grow n (.inr (mem_observed.2 (hw ▸ rfl)))]
        exact h.launch_eq x w hw
      · simp only [hrun, hn, if_true, if_false] at hw ⊢
        exact h.launch_eq x w hw
    · simp only [hrun] at hw ⊢
      exact h.launch_eq x w hw
  | scaleDown ids =>
    simp only [Operation.apply, scaleDown, Dict.get?_eraseAll] at hw ⊢
    split at hw
    · cases hw
    · rename_i hx
      rw [if_neg hx]
      exact h.launch_eq x w hw
  | reconcile =>
    simp only [Operation.apply, reconcile, Dict.get?_eraseAll] at hw ⊢
    split at hw
    · cases hw
    · rename_i hx
      rw [if_neg hx]
      exact h.launch_eq x w hw
  | retire r =>
    obtain ⟨ws, gone, he⟩ := c.retire_frame r
    have hbatches : (c.retire r).batches = c.batches := by rw [he]
    change (c.retire r).batches.get? x = _
    rw [hbatches]
    exact h.launch_eq x w (get?_of_get?_retire hw)

theorem apply (h : c.Recorded) (hop : op.Spares c.name) : (op.apply c).1.Recorded :=
  ⟨h.coherent.apply op, (op.books c).clear hop h.clear, fun _ _ => h.launch_eq_apply op⟩

theorem applyAll (h : c.Recorded) {ops : List Operation} (hops : ∀ op ∈ ops, op.Spares c.name) :
    (Operation.applyAll c ops).Recorded := by
  induction ops generalizing c with
  | nil => exact h
  | cons op ops ih =>
    refine ih (h.apply (hops op List.mem_cons_self)) fun o ho => ?_
    rw [(op.books c).name_eq]
    exact hops o (List.mem_cons_of_mem op ho)

/-- Whoever is planned or requested after an operation has been planned by it, and has its launch on
record; or it was planned or requested before, and its record is what it was. -/
theorem planned_or_kept (h : c.Recorded) (hbooks : op.Books c c') (hx : c'.Wants x) :
    (op.Plans c c' x ∧ c'.batches.get? x = some (op.launch c.nextBatch)) ∨
    (¬ op.Plans c c' x ∧ c.Wants x ∧ c'.batches.get? x = c.batches.get? x) := by
  cases hbooks with
  | kept hadd hremove hgrow same =>
    rw [Wants, same.plan_eq, same.requested_eq] at hx
    rw [same.batches_eq]
    exact .inr ⟨not_plans hadd fun hin => same.plan_eq ▸ hin, hx, rfl⟩
  | added w =>
    by_cases he : x = w.id
    · refine .inl ⟨.inl ⟨w, rfl, he.symm⟩, ?_⟩
      rw [addWorker, Dict.get?_insert, if_pos he]
      rfl
    · have hold : ∀ {s : IdSet}, x ∈ s.insert w.id → x ∈ s :=
        fun hin => (IdSet.mem_insert.1 hin).resolve_left he
      refine .inr ⟨?_, hx.imp hold hold, ?_⟩
      · rintro (⟨v, hv, rfl⟩ | ⟨hnot, hin⟩)
        · cases hv
          exact he rfl
        · exact hnot (hold hin)
      · rw [addWorker, Dict.get?_insert, if_neg he]
  | grown n =>
    obtain ⟨hnamed, hplan, hbatch⟩ | ⟨-, hplan, hbatch⟩ := c.grow_entries n x
    · have hnew : ¬ x ∈ c.plan := fun hin => h.clear x (.inl (.inl hin)) hnamed.unused
      exact .inl ⟨.inr ⟨hnew, hplan⟩, hbatch⟩
    · rw [Wants, hplan, requested_grow] at hx
      exact .inr ⟨not_plans trivial hplan.1, hx, hbatch⟩
  | shrunk n =>
    exact .inr ⟨not_plans trivial mem_plan_shrink,
      hx.imp_left mem_plan_shrink, rfl⟩
  | removed ids =>
    have hout : x ∉ ids :=
      hx.elim (fun hx => (IdSet.mem_eraseAll.1 hx).2) fun hx => (IdSet.mem_eraseAll.1 hx).2
    refine .inr ⟨not_plans trivial IdSet.eraseAll_subset,
      hx.imp IdSet.eraseAll_subset IdSet.eraseAll_subset, ?_⟩
    rw [scaleDown, Dict.get?_eraseAll, if_neg hout]
  | reconciled =>
    have hplan : x ∈ c.plan := by
      rwa [Wants, requested_reconcile, plan_reconcile, or_self] at hx
    have hout : x ∉ (c.requested.diff c.plan).toList := fun hd => (IdSet.mem_diff.1 hd).2 hplan
    refine .inr ⟨not_plans trivial id, .inl hplan, ?_⟩
    rw [reconcile, Dict.get?_eraseAll, if_neg hout]

/-- An operation plans nobody whose name has been given, unless it adds it. -/
lemma adds_of_plans (hbooks : op.Books c c') (hp : op.Plans c c' x) (hx : ¬ c.Unused x) :
    ∃ w, op = .addWorker w ∧ w.id = x := by
  obtain hadded | ⟨hnot, hin⟩ := hp
  · exact hadded
  · obtain hadd | ⟨w, rfl⟩ := op.addsNobody_or
    · exact absurd hin ((hbooks.leads hadd).not_replanned hx hnot)
    · cases hbooks with
      | added => exact ⟨w, rfl, ((IdSet.mem_insert.1 hin).resolve_right hnot).symm⟩
      | kept hadd => exact False.elim hadd

/-- What is on record of a worker stays so while nobody is added under its name, for as long as the
worker is planned or requested. -/
theorem record_stays (h : c.Recorded) {ops : List Operation}
    (hops : ∀ op ∈ ops, op.Spares c.name) (hadd : ∀ w, .addWorker w ∈ ops → w.id ≠ x)
    (hold : ¬ c.Unused x) {b : Nat} (hb : c.Wants x → c.batches.get? x = some b)
    (hx : (Operation.applyAll c ops).Wants x) :
    (Operation.applyAll c ops).batches.get? x = some b := by
  induction ops generalizing c with
  | nil => exact hb hx
  | cons op ops ih =>
    have hbooks := op.books c
    have hspares := hops op List.mem_cons_self
    refine ih (c := (op.apply c).1) (h.apply hspares) (fun o ho => ?_)
      (fun w hw => hadd w (List.mem_cons_of_mem op hw)) (fun hu => hold (hbooks.unused hu))
      (fun hx' => ?_) hx
    · rw [hbooks.name_eq]
      exact hops o (List.mem_cons_of_mem op ho)
    · obtain ⟨hp, -⟩ | ⟨-, hwants, hsame⟩ := h.planned_or_kept hbooks hx'
      · obtain ⟨w, rfl, he⟩ := adds_of_plans hbooks hp hold
        exact absurd he (hadd w List.mem_cons_self)
      · rw [hsame, hb hwants]

end Recorded

end Cluster

namespace Operation

variable {start : Cluster} {ops before before' : List Operation} {op : Operation} {x y : Id}

/-- After its part `before` the run plans the worker by `op`, and does not add the worker later. -/
structure Origin (start : Cluster) (ops : List Operation) (x : Id) (before : List Operation)
    (op : Operation) : Prop where
  plans : op.Plans (applyAll start before) (applyAll start (before ++ [op])) x
  last : ∃ after, ops = before ++ op :: after ∧ ∀ w, .addWorker w ∈ after → w.id ≠ x

lemma applyAll_concat (c : Cluster) (ops : List Operation) (op : Operation) :
    applyAll c (ops ++ [op]) = (op.apply (applyAll c ops)).1 := applyAll_append c ops [op]

/-- The record names the launch that the worker was last planned under. -/
theorem Origin.get?_batches (h : Origin start ops x before op) (hstart : start.Recorded)
    (hops : ∀ op ∈ ops, op.Spares start.name) (hx : (applyAll start ops).Wants x) :
    (applyAll start ops).batches.get? x = some (op.launch (applyAll start before).nextBatch) := by
  obtain ⟨hp, after, rfl, hadd⟩ := h
  have hsplit : before ++ op :: after = (before ++ [op]) ++ after := by simp
  have hbefore := hstart.applyAll fun o ho => hops o (List.mem_append_left _ ho)
  have hnow : (applyAll start (before ++ [op])).Recorded :=
    hstart.applyAll fun o ho => hops o (hsplit ▸ List.mem_append_left _ ho)
  have hplanned : x ∈ (applyAll start (before ++ [op])).plan := by
    obtain ⟨w, rfl, rfl⟩ | ⟨-, hin⟩ := hp
    · rw [applyAll_concat]
      exact IdSet.mem_insert.2 (.inl rfl)
    · exact hin
  rw [hsplit, applyAll_append] at hx ⊢
  refine hnow.record_stays (fun o ho => ?_) hadd (hnow.clear x (.inl (.inl hplanned)))
    (fun hwants => ?_) hx
  · rw [name_applyAll]
    exact hops o (hsplit ▸ List.mem_append_right _ ho)
  · rw [applyAll_concat] at hp hwants ⊢
    obtain ⟨-, hbatch⟩ | ⟨hnot, -⟩ := hbefore.planned_or_kept (op.books _) hwants
    · exact hbatch
    · exact absurd hp hnot

/-- Whoever is planned or requested has been planned in the run. -/
theorem exists_origin (hstart : start.Recorded) (hnobody : ∀ x, ¬ start.Wants x)
    (hops : ∀ op ∈ ops, op.Spares start.name) (hx : (applyAll start ops).Wants x) :
    ∃ before op, Origin start ops x before op := by
  -- on the run from its end; the last operation has planned the worker, or it was known before
  induction ops using List.reverseRecOn with
  | nil => exact absurd hx (hnobody x)
  | append_singleton ops op ih =>
    have hspares : ∀ o ∈ ops, o.Spares start.name := fun o ho => hops o (List.mem_append_left _ ho)
    have hpast := hstart.applyAll hspares
    rw [applyAll_concat] at hx
    obtain ⟨hp, -⟩ | ⟨hnot, hwants, -⟩ := hpast.planned_or_kept (op.books _) hx
    · refine ⟨ops, op, ?_, [], rfl, fun w hw => absurd hw List.not_mem_nil⟩
      rw [applyAll_concat]
      exact hp
    · obtain ⟨before, o, hplans, after, rfl, hadd⟩ := ih hspares hwants
      refine ⟨before, o, hplans, after ++ [op], by simp, fun w hw => ?_⟩
      obtain hw | hw := List.mem_append.1 hw
      · exact hadd w hw
      · rintro rfl
        exact hnot (.inl ⟨w, (List.mem_singleton.1 hw).symm, rfl⟩)

/-- Only a growing scaling plans. -/
lemma Books.grows_of_plans {c c' : Cluster} {n : Nat} (hbooks : (scale n).Books c c')
    (hp : (scale n).Plans c c' x) : (scale n).grows c = true := by
  obtain ⟨w, hw, -⟩ | ⟨hnot, hin⟩ := hp
  · cases hw
  · cases hbooks with
    | kept hadd hremove hgrow same => exact absurd (same.plan_eq ▸ hin) hnot
    | grown n hgrow => exact hgrow
    | shrunk n => exact absurd (Cluster.mem_plan_shrink hin) hnot

/-- Of two growths in a run the later one has the larger number. -/
lemma growths_lt (h : before ++ [op] <+: ops) (h' : before' <+: ops)
    (hlt : before.length < before'.length) (hgrow : op.grows (applyAll start before) = true) :
    growths start before < growths start before' := by
  have hlen : (before ++ [op]).length ≤ before'.length := by
    rw [List.length_append]
    exact hlt
  obtain ⟨rest, rfl⟩ := List.prefix_of_prefix_length_le h h' hlen
  rw [growths_append, growths_append]
  simp only [growths, hgrow, if_true]
  omega

/-- Workers that growths have planned are of one launch exactly if it was the same growth. -/
theorem Origin.same_launch_iff {n m : Nat} (hx : Origin start ops x before (.scale n))
    (hy : Origin start ops y before' (.scale m)) :
    growths start before = growths start before' ↔ before.length = before'.length := by
  have hgrow : ∀ {n x before}, Origin start ops x before (.scale n) →
      before ++ [.scale n] <+: ops ∧ (scale n).grows (applyAll start before) = true := by
    rintro n x before ⟨hp, after, rfl, -⟩
    rw [applyAll_concat] at hp
    exact ⟨⟨after, by simp⟩, ((scale n).books _).grows_of_plans hp⟩
  obtain ⟨hpre, hgrows⟩ := hgrow hx
  obtain ⟨hpre', hgrows'⟩ := hgrow hy
  have hpart : before <+: ops := (List.prefix_append _ _).trans hpre
  have hpart' : before' <+: ops := (List.prefix_append _ _).trans hpre'
  rcases Nat.lt_trichotomy before.length before'.length with hlt | heq | hlt
  · have hlater := growths_lt hpre hpart' hlt hgrows
    omega
  · obtain rfl := (List.prefix_of_prefix_length_le hpart hpart' heq.le).eq_of_length heq
    exact iff_of_true rfl rfl
  · have hlater := growths_lt hpre' hpart hlt hgrows'
    omega

/-- What is done to a new cluster, as long as every operation `Spares` the names that growing gives.
Every connected worker reports the launch on record. Everybody who is planned or requested has an
`Origin` in the run, and the record names the launch of the last one: the number of the growth that
planned the worker, or the launch that it was added with. So workers planned by growths have the
same launch on record exactly if one growth has planned both. -/
theorem launches_follow_workers (name : String) (memoryLimit : Nat)
    (hops : ∀ op ∈ ops, op.Spares name) :
    let start := Cluster.create name memoryLimit
    let c := applyAll start ops
    (∀ x w, c.workers.get? x = some w → c.batches.get? x = some w.launchBatch) ∧
    (∀ x, c.Wants x →
      (∃ before op, Origin start ops x before op) ∧
      ∀ before op, Origin start ops x before op →
        c.batches.get? x = some (op.launch (growths start before))) ∧
    ∀ x y before before' n m, c.Wants x → c.Wants y →
      Origin start ops x before (.scale n) → Origin start ops y before' (.scale m) →
      (c.batches.get? x = c.batches.get? y ↔ before.length = before'.length) := by
  intro start c
  have hstart : start.Recorded := Cluster.recorded_create name memoryLimit
  have hnobody : ∀ x, ¬ start.Wants x := by
    rintro x (hx | hx)
    · exact IdSet.not_mem_empty hx
    · exact IdSet.not_mem_empty hx
  have hrecord : ∀ x, c.Wants x → ∀ before op, Origin start ops x before op →
      c.batches.get? x = some (op.launch (growths start before)) := by
    intro x hx before op ho
    have hnumber : (applyAll start before).nextBatch = growths start before :=
      (nextBatch_applyAll start before).trans (Nat.zero_add _)
    rw [← hnumber]
    exact ho.get?_batches hstart hops hx
  refine ⟨(hstart.applyAll hops).launch_eq,
    fun x hx => ⟨exists_origin hstart hnobody hops hx, hrecord x hx⟩, ?_⟩
  intro x y before before' n m hx hy ho ho'
  rw [hrecord x hx _ _ ho, hrecord y hy _ _ ho', Option.some_inj]
  exact ho.same_launch_iff ho'

/-- A worker is added, two are launched and one of them is drained. It comes back with two that are
launched later. -/
def comeback : List Operation :=
  [.addWorker { Worker.idle "a" 0 100 with launchBatch := 7 }, .scale 3, .reconcile, .arriveAll,
    .retire (.close ["z-worker-0"]), .scale 5, .reconcile, .arriveAll]

/-- The worker that comes back is still of the first launch, and those that come with it are of the
next one. -/
theorem launches_follow_workers_comeback :
    (∀ op ∈ comeback, op.Spares "z") ∧
      (applyAll (Cluster.create "z" 100) comeback).batches.get? "z-worker-0" = some 0 ∧
      (applyAll (Cluster.create "z" 100) comeback).batches.get? "z-worker-0" ≠
        (applyAll (Cluster.create "z" 100) comeback).batches.get? "z-worker-3" := by
  have hspares : ∀ op ∈ comeback, op.Spares "z" := by
    intro op hop
    simp only [comeback, List.mem_cons, List.not_mem_nil, or_false] at hop
    rcases hop with rfl | rfl | rfl | rfl | rfl | rfl | rfl | rfl
    · intro k hk
      have hlist := congrArg String.toList hk
      simp [Worker.idle, String.toList_append] at hlist
    all_goals trivial
  obtain ⟨-, hrecord, hsame⟩ := launches_follow_workers "z" 100 hspares
  have hold :
      Origin (Cluster.create "z" 100) comeback "z-worker-0" (comeback.take 1) (.scale 3) := by
    refine ⟨.inr ⟨by decide +kernel, by decide +kernel⟩, comeback.drop 2, rfl, fun w hw => ?_⟩
    simp [comeback] at hw
  have hnew :
      Origin (Cluster.create "z" 100) comeback "z-worker-3" (comeback.take 5) (.scale 5) := by
    refine ⟨.inr ⟨by decide +kernel, by decide +kernel⟩, comeback.drop 6, rfl, fun w hw => ?_⟩
    simp [comeback] at hw
  have hx : (applyAll (Cluster.create "z" 100) comeback).Wants "z-worker-0" :=
    .inl (by decide +kernel)
  have hy : (applyAll (Cluster.create "z" 100) comeback).Wants "z-worker-3" :=
    .inl (by decide +kernel)
  refine ⟨hspares, (hrecord _ hx).2 _ _ hold, ?_⟩
  rw [Ne, hsame _ _ _ _ _ _ hx hy hold hnew]
  decide

end Operation

end Fleet
