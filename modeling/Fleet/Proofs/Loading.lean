import Fleet.Proofs.Simulation

/-! The load that a phase puts on a cluster. Every connected worker carries its share of the tasks
and uses the same memory; the first workers get one task more where the tasks do not divide, and the
same load put on again changes nothing. -/
namespace Fleet

/-- The worker with another load. -/
def Worker.loaded (w : Worker) (memoryUsed processing : Nat) : Worker :=
  { w with memoryUsed := memoryUsed, processing := processing }

/-- The place of a connected worker among all of them. -/
def Cluster.place (c : Cluster) (x : Id) : Nat := c.observed.toList.idxOf x

lemma Cluster.length_values (c : Cluster) : c.workers.values.length = c.observed.size := by
  simp [observed, Dict.values, Dict.keys, IdSet.size]

/-- The places ascend with the ids. -/
lemma Cluster.place_lt_place {c : Cluster} {x y : Id} (hx : x ∈ c.observed) (hy : y ∈ c.observed)
    (hxy : x < y) : c.place x < c.place y := by
  have hat : ∀ {z}, z ∈ c.observed → ∃ hz : c.place z < c.observed.toList.length,
      c.observed.toList[c.place z] = z :=
    fun hz => ⟨List.idxOf_lt_length_of_mem hz, List.getElem_idxOf _⟩
  obtain ⟨hi, hatx⟩ := hat hx
  obtain ⟨hj, haty⟩ := hat hy
  rcases Nat.lt_trichotomy (c.place x) (c.place y) with hlt | heq | hgt
  · exact hlt
  · have hsame : x = y := by
      rw [← hatx, ← haty]
      simp only [heq]
    exact absurd (hsame ▸ hxy) (String.lt_irrefl x)
  · have hyx := List.pairwise_iff_getElem.1 c.observed.ascending _ _ hj hi hgt
    rw [hatx, haty] at hyx
    exact absurd hyx (String.lt_asymm hxy)

namespace Phase

variable {p : Phase} {memoryLimit : Nat} {c c' : Cluster}

lemma length_taskList (p : Phase) : p.taskList.length = p.tasks := by
  simp [taskList]

/-- Every task of a phase is being processed, has the dependents and lasts as long as it says. -/
lemma task_of_mem_taskList {t : Task} (ht : t ∈ p.taskList) :
    t.state = .processing ∧ t.dependents.length = p.dependents ∧
      t.expectedMillis = p.taskMillis := by
  obtain ⟨i, -, rfl⟩ := List.mem_map.1 ht
  exact ⟨rfl, by simp [task], rfl⟩

/-- The cluster has the tasks of the phase, and every worker its share of them. -/
structure Loads (p : Phase) (memoryLimit : Nat) (c : Cluster) : Prop where
  tasks_eq : c.tasks = p.taskList
  memoryUsed_eq : ∀ x w, c.workers.get? x = some w → w.memoryUsed = p.memoryUsed memoryLimit
  processing_eq : ∀ x w, c.workers.get? x = some w →
    w.processing = share p.tasks c.observed.size (c.place x)

/-- Of the workers that are given a load each has its own afterwards, and the others keep theirs. -/
lemma setLoads_eq_ok {used : Nat} {processing : Nat → Nat} {items : List (Id × Nat)}
    (hitems : (items.map Prod.fst).Nodup)
    (h : items.foldlM (fun c e => c.setLoad e.1 used (processing e.2)) c = .ok c') :
    c' = { c with workers := c'.workers } ∧
      (∀ e ∈ items, c'.workers.get? e.1 =
        (c.workers.get? e.1).map fun w => w.loaded used (processing e.2)) ∧
      ∀ x, x ∉ items.map Prod.fst → c'.workers.get? x = c.workers.get? x := by
  induction items generalizing c with
  | nil =>
    cases h
    exact ⟨rfl, fun e he => absurd he List.not_mem_nil, fun _ _ => rfl⟩
  | cons e items ih =>
    obtain ⟨hnew, hrest⟩ := List.nodup_cons.1 hitems
    rw [List.foldlM_cons] at h
    unfold Cluster.setLoad at h
    split at h
    · obtain ⟨hframe, hin, hout⟩ := ih hrest h
      refine ⟨hframe, fun e' he => ?_, fun x hx => ?_⟩
      · rcases List.mem_cons.1 he with rfl | he
        · rw [hout _ hnew, Dict.get?_modify, if_pos rfl]
          rfl
        · have hne : e'.1 ≠ e.1 := fun hsame => hnew (hsame ▸ List.mem_map_of_mem he)
          rw [hin e' he, Dict.get?_modify, if_neg hne]
      · rw [List.map_cons, List.mem_cons, not_or] at hx
        rw [hout x hx.2, Dict.get?_modify, if_neg hx.1]
    · cases h

/-- What the load makes of a connected worker. -/
theorem apply_eq_ok (h : p.apply c memoryLimit = .ok c') :
    c' = { c with tasks := p.taskList, workers := c'.workers } ∧
      ∀ x, c'.workers.get? x = (c.workers.get? x).map fun w =>
        w.loaded (p.memoryUsed memoryLimit) (share p.tasks c.observed.size (c.place x)) := by
  have hkeys : (c.observed.toList.zipIdx.map Prod.fst) = c.observed.toList := by
    rw [List.zipIdx_map_fst]
  obtain ⟨hframe, hin, hout⟩ := setLoads_eq_ok (c := c.setTasks p.taskList)
    (hkeys.symm ▸ c.observed.nodup) h
  refine ⟨hframe, fun x => ?_⟩
  by_cases hx : x ∈ c.observed
  · have hplace : c.place x < c.observed.toList.length := List.idxOf_lt_length_of_mem hx
    have hat : c.observed.toList[c.place x] = x := List.getElem_idxOf hplace
    refine hin (x, c.place x) (List.mem_iff_getElem?.2 ⟨c.place x, ?_⟩)
    rw [List.getElem?_zipIdx, List.getElem?_eq_getElem hplace, hat]
    simp
  · have hnone : c.workers.get? x = none := by
      rw [Cluster.mem_observed] at hx
      simpa using hx
    rw [hout x (hkeys.symm ▸ hx), hnone]
    exact hnone

lemma loads_apply (h : p.apply c memoryLimit = .ok c') : p.Loads memoryLimit c' := by
  obtain ⟨hframe, hget⟩ := apply_eq_ok h
  have hobserved : c'.observed = c.observed := by
    refine IdSet.ext_mem fun x => ?_
    rw [Cluster.mem_observed, Cluster.mem_observed, hget, Option.isSome_map]
  have hloaded : ∀ x w, c'.workers.get? x = some w →
      ∃ v : Worker, w = v.loaded (p.memoryUsed memoryLimit)
        (share p.tasks c'.observed.size (c'.place x)) := by
    intro x w hw
    rw [hget] at hw
    obtain ⟨v, -, rfl⟩ := Option.map_eq_some_iff.1 hw
    refine ⟨v, ?_⟩
    rw [Cluster.place, Cluster.place, hobserved]
  refine ⟨by rw [hframe], fun x w hw => ?_, fun x w hw => ?_⟩
  · obtain ⟨v, rfl⟩ := hloaded x w hw
    rfl
  · obtain ⟨v, rfl⟩ := hloaded x w hw
    rfl

/-- The same load once more leaves a cluster as it is. -/
theorem Loads.apply_eq (h : p.Loads memoryLimit c) : p.apply c memoryLimit = .ok c := by
  obtain ⟨c', hc', -⟩ := p.exists_apply c memoryLimit
  obtain ⟨hframe, hget⟩ := apply_eq_ok hc'
  have hworkers : c'.workers = c.workers := by
    refine Dict.ext_get? fun x => ?_
    rw [hget]
    cases hx : c.workers.get? x with
    | none => rfl
    | some w =>
      rw [Option.map_some, ← h.memoryUsed_eq x w hx, ← h.processing_eq x w hx]
      rfl
  rw [hc', hframe, hworkers, ← h.tasks_eq]

/-- Fewer tasks than workers go to the first ones, one each; else everybody has some. -/
lemma share_eq_zero_iff {tasks count i : Nat} (hi : i < count) :
    share tasks count i = 0 ↔ tasks ≤ i := by
  unfold share
  rcases Nat.lt_or_ge tasks count with hlt | hge
  · rw [Nat.div_eq_of_lt hlt, Nat.mod_eq_of_lt hlt]
    split <;> omega
  · have hpos : 0 < tasks / count := Nat.div_pos hge (by omega)
    split <;> omega

/-- The worker at a place of the list has the share for that place. -/
lemma Loads.processing_getElem (h : p.Loads memoryLimit c) {i : Nat}
    (hi : i < c.workers.values.length) :
    c.workers.values[i].processing = share p.tasks c.observed.size i := by
  have hentry : i < c.workers.entries.length := by simpa [Dict.values] using hi
  have hkey : i < c.observed.toList.length := by
    simpa [Cluster.observed, Dict.keys] using hentry
  have hget : c.workers.get? c.observed.toList[i] = some c.workers.values[i] := by
    refine Dict.get?_eq_some_iff.2 (List.mem_iff_getElem.2 ⟨i, hentry, ?_⟩)
    simp [Cluster.observed, Dict.keys, Dict.values]
  have hplace : c.place c.observed.toList[i] = i := c.observed.nodup.idxOf_getElem i hkey
  rw [h.processing_eq _ _ hget, hplace]

/-- The first workers, as many as there are tasks, have something to do, and the others nothing. -/
theorem Loads.filter_isIdle (h : p.Loads memoryLimit c) :
    c.workers.values.filter Worker.isIdle = c.workers.values.drop p.tasks := by
  have hidle : ∀ i (hi : i < c.workers.values.length),
      c.workers.values[i].isIdle = decide (p.tasks ≤ i) := by
    intro i hi
    have hkey : i < c.observed.size := Cluster.length_values c ▸ hi
    rw [Worker.isIdle, h.processing_getElem hi, Bool.eq_iff_iff, beq_iff_eq, decide_eq_true_eq]
    exact share_eq_zero_iff hkey
  conv_lhs => rw [← List.take_append_drop p.tasks c.workers.values]
  rw [List.filter_append]
  have hbusy : (c.workers.values.take p.tasks).filter Worker.isIdle = [] := by
    refine List.filter_eq_nil_iff.2 fun w hw => ?_
    obtain ⟨i, hi, rfl⟩ := List.mem_iff_getElem.1 hw
    rw [List.length_take] at hi
    rw [List.getElem_take, hidle i (by omega), decide_eq_true_eq]
    omega
  have hrest : (c.workers.values.drop p.tasks).filter Worker.isIdle =
      c.workers.values.drop p.tasks := by
    refine List.filter_eq_self.2 fun w hw => ?_
    obtain ⟨i, hi, rfl⟩ := List.mem_iff_getElem.1 hw
    rw [List.length_drop] at hi
    rw [List.getElem_drop, hidle (p.tasks + i) (by omega), decide_eq_true_eq]
    omega
  rw [hbusy, hrest, List.nil_append]

lemma Loads.length_idle (h : p.Loads memoryLimit c) :
    (c.workers.values.filter Worker.isIdle).length = c.observed.size - p.tasks := by
  rw [h.filter_isIdle, List.length_drop, Cluster.length_values]

/-- There are no more workers with nothing to do than the tasks leave over. -/
lemma Loads.size_idle_le (h : p.Loads memoryLimit c) (hc : c.Coherent) {ws : IdSet}
    (hws : ∀ x ∈ ws, ∃ w, c.workers.get? x = some w ∧ w.processing = 0) :
    ws.size ≤ c.observed.size - p.tasks := by
  have hsub : ∀ x ∈ ws,
      x ∈ IdSet.ofList ((c.workers.values.filter Worker.isIdle).map Worker.id) := by
    intro x hx
    obtain ⟨w, hw, hidle⟩ := hws x hx
    refine IdSet.mem_ofList.2 (List.mem_map.2 ⟨w, ?_, hc.id_of_get? x w hw⟩)
    exact List.mem_filter.2 ⟨Cluster.mem_values_of_get? hw, by simp [Worker.isIdle, hidle]⟩
  have hlength := (IdSet.size_le_of_subset hsub).trans (IdSet.size_ofList_le _)
  rwa [List.length_map, h.length_idle] at hlength

/-! ### The tasks of all workers together -/

lemma share_antitone (tasks count : Nat) {i j : Nat} (hij : i ≤ j) :
    share tasks count j ≤ share tasks count i := by
  unfold share
  split <;> split <;> omega

/-- The first shares together: the quotient for each, and one more as long as something is left. -/
lemma total_shares (tasks count k : Nat) : total ((List.range k).map (share tasks count)) =
    k * (tasks / count) + min k (tasks % count) := by
  induction k with
  | zero => simp
  | succ k ih =>
    rw [List.range_succ, List.map_append, total_append, ih, List.map_singleton, total_cons,
      total_nil, share, Nat.succ_mul]
    split <;> omega

lemma Loads.map_processing (h : p.Loads memoryLimit c) :
    c.workers.values.map Worker.processing =
      (List.range c.observed.size).map (share p.tasks c.observed.size) := by
  refine List.ext_getElem ?_ fun i hi _ => ?_
  · rw [List.length_map, List.length_map, List.length_range, Cluster.length_values]
  · rw [List.getElem_map, List.getElem_map, List.getElem_range]
    exact h.processing_getElem _

/-- Nothing gets lost: with a worker to take them, all tasks are processed. -/
theorem Loads.total_processing (h : p.Loads memoryLimit c) (hc : 0 < c.observed.size) :
    total (c.workers.values.map Worker.processing) = p.tasks := by
  have hrest : p.tasks % c.observed.size < c.observed.size := Nat.mod_lt _ hc
  rw [h.map_processing, total_shares, min_eq_right (Nat.le_of_lt hrest)]
  exact Nat.div_add_mod p.tasks c.observed.size

/-- The share, by a division that a count of zero ends. -/
def checkedShare (tasks count i : Nat) : Except Fault Nat :=
  if count = 0 then .error .zeroDivisor else .ok (share tasks count i)

/-- Gives a worker the share for its place, once that has been worked out. -/
def checkedLoad (p : Phase) (memoryLimit count : Nat) (c : Cluster) (e : Id × Nat) :
    Except Simulation.Failure Cluster := do
  let processing ← (checkedShare p.tasks count e.2).mapError .fault
  (c.setLoad e.1 (p.memoryUsed memoryLimit) processing).mapError .remote

/-- Puts the load of the phase on a cluster with every division checked. -/
def checkedApply (p : Phase) (c : Cluster) (memoryLimit : Nat) :
    Except Simulation.Failure Cluster :=
  let workers := c.observed.toList
  workers.zipIdx.foldlM (p.checkedLoad memoryLimit workers.length) (c.setTasks p.taskList)

lemma checkedLoad_eq {count : Nat} (hcount : count ≠ 0) (c : Cluster) (e : Id × Nat) :
    p.checkedLoad memoryLimit count c e =
      (c.setLoad e.1 (p.memoryUsed memoryLimit) (share p.tasks count e.2)).mapError .remote := by
  unfold checkedLoad checkedShare
  rw [if_neg hcount]
  rfl

lemma foldlM_checkedLoad {items : List (Id × Nat)} {count : Nat} (hcount : items ≠ [] → count ≠ 0)
    (c : Cluster) :
    items.foldlM (p.checkedLoad memoryLimit count) c =
      (items.foldlM (fun (c : Cluster) e =>
        c.setLoad e.1 (p.memoryUsed memoryLimit) (share p.tasks count e.2)) c).mapError
          .remote := by
  induction items generalizing c with
  | nil => rfl
  | cons e items ih =>
    have hpos : count ≠ 0 := hcount (List.cons_ne_nil e items)
    rw [List.foldlM_cons, List.foldlM_cons, checkedLoad_eq hpos]
    cases c.setLoad e.1 (p.memoryUsed memoryLimit) (share p.tasks count e.2) with
    | error e' => rfl
    | ok c' => exact ih (fun _ => hpos) c'

/-- A share is only worked out where there is a worker, and so a number to divide by. -/
theorem checkedApply_eq (p : Phase) (c : Cluster) (memoryLimit : Nat) :
    p.checkedApply c memoryLimit = (p.apply c memoryLimit).mapError .remote := by
  refine foldlM_checkedLoad (fun hne hzero => hne ?_) _
  rw [List.eq_nil_of_length_eq_zero hzero]
  rfl

/-- The load of a phase can be put on every cluster, and no division by zero stands in the way. The
tasks become those of the phase. All of them are processed if anybody is connected; no worker has
more than one task above another, the smaller ids have more, and as many workers are idle as the
tasks leave over. All use the same memory. Where nobody is connected only the tasks change. What
else is known of the cluster and of each worker stays as it was. -/
theorem apply_spreads_evenly (p : Phase) (c : Cluster) (memoryLimit : Nat) :
    ∃ c', p.apply c memoryLimit = .ok c' ∧ p.checkedApply c memoryLimit = .ok c' ∧
      (c'.tasks.length = p.tasks ∧ ∀ t ∈ c'.tasks, t.state = .processing ∧
        t.dependents.length = p.dependents ∧ t.expectedMillis = p.taskMillis) ∧
      (0 < c.observed.size → total (c'.workers.values.map Worker.processing) = p.tasks) ∧
      (∀ x y v w, c'.workers.get? x = some v → c'.workers.get? y = some w →
        v.processing ≤ w.processing + 1 ∧ (x < y → w.processing ≤ v.processing) ∧
        v.memoryUsed = w.memoryUsed) ∧
      (c'.workers.values.filter Worker.isIdle).length = c.observed.size - p.tasks ∧
      (c.observed.size = 0 → c' = c.setTasks c'.tasks) ∧
      (c'.plan = c.plan ∧ c'.requested = c.requested ∧ c'.observed = c.observed ∧
        c'.batches = c.batches ∧ c'.retired = c.retired ∧ c'.status = c.status) ∧
      ∀ x w, c.workers.get? x = some w → ∃ w', c'.workers.get? x = some w' ∧ w'.id = w.id ∧
        w'.host = w.host ∧ w'.labels = w.labels ∧ w'.launchBatch = w.launchBatch ∧
        w'.memoryLimit = w.memoryLimit := by
  obtain ⟨c', happly, hreloaded⟩ := p.exists_apply c memoryLimit
  have hobserved := hreloaded.observed_eq
  have hloads := loads_apply happly
  obtain ⟨hframe, hget⟩ := apply_eq_ok happly
  refine ⟨c', happly, ?_, ⟨?_, fun t ht => ?_⟩, fun hc => ?_, fun x y v w hv hw => ?_, ?_,
    fun hnone => ?_, ?_, fun x w hw => ?_⟩
  · rw [checkedApply_eq, happly]
    rfl
  · rw [hloads.tasks_eq, length_taskList]
  · exact task_of_mem_taskList (hloads.tasks_eq ▸ ht)
  · exact hloads.total_processing (hobserved ▸ hc)
  · have hx : x ∈ c'.observed := Cluster.mem_observed.2 (hv ▸ rfl)
    have hy : y ∈ c'.observed := Cluster.mem_observed.2 (hw ▸ rfl)
    rw [hloads.processing_eq x v hv, hloads.processing_eq y w hw]
    refine ⟨share_le_share_add_one .., fun hxy => ?_, ?_⟩
    · exact share_antitone _ _ (Nat.le_of_lt (Cluster.place_lt_place hx hy hxy))
    · rw [hloads.memoryUsed_eq x v hv, hloads.memoryUsed_eq y w hw]
  · rw [hloads.length_idle, hobserved]
  · have hempty : c'.workers = c.workers := by
      refine Dict.ext_get? fun x => ?_
      have hx : ¬ x ∈ c.observed := by
        rw [IdSet.mem_def, List.eq_nil_of_length_eq_zero hnone]
        exact List.not_mem_nil
      rw [Cluster.mem_observed, Option.not_isSome_iff_eq_none] at hx
      rw [hget, hx]
      rfl
    rw [hframe, hempty]
    rfl
  · rw [hobserved, hframe]
    exact ⟨rfl, rfl, rfl, rfl, rfl, rfl⟩
  · rw [hget, hw]
    exact ⟨_, rfl, rfl, rfl, rfl, rfl, rfl⟩

end Phase

end Fleet
