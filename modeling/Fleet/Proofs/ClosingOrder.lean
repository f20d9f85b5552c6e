import Fleet.Proofs.SteadyTick

/-! The order in which a cluster without a group key gives up idle workers. The candidates of a
round are the first workers in `closingOrder`, as many as the plan has too many. -/
namespace Fleet

namespace Group

variable {f g h : Group} {groups : List Group}

/-- Coming first is a comparison of the memory in use and then of the name. -/
lemma before_iff : g.before h = true ↔
    g.memoryUsed < h.memoryUsed ∨ g.memoryUsed = h.memoryUsed ∧ g.name ≤ h.name := by
  simp [before]

lemma before_total (g h : Group) : g.before h = true ∨ h.before g = true := by
  rw [before_iff, before_iff]
  rcases Nat.lt_trichotomy g.memoryUsed h.memoryUsed with hlt | heq | hlt
  · exact .inl (.inl hlt)
  · rcases String.le_total g.name h.name with hle | hle
    · exact .inl (.inr ⟨heq, hle⟩)
    · exact .inr (.inr ⟨heq.symm, hle⟩)
  · exact .inr (.inl hlt)

lemma before_trans (hfg : f.before g = true) (hgh : g.before h = true) : f.before h = true := by
  rw [before_iff] at hfg hgh ⊢
  rcases hfg with hfg | ⟨hfg, hle⟩
  · left
    omega
  · rcases hgh with hgh | ⟨hgh, hle'⟩
    · left
      omega
    · exact .inr ⟨hfg.trans hgh, String.le_trans hle hle'⟩

lemma pairwise_insertRanked (g : Group) (hs : groups.Pairwise fun a b => a.before b = true) :
    (g.insertRanked groups).Pairwise fun a b => a.before b = true := by
  induction groups with
  | nil => simp [insertRanked]
  | cons h rest ih =>
    obtain ⟨hfirst, hrest⟩ := List.pairwise_cons.1 hs
    unfold insertRanked
    split
    · rename_i hgh
      refine List.pairwise_cons.2 ⟨fun a ha => ?_, hs⟩
      rcases List.mem_cons.1 ha with rfl | ha
      · exact hgh
      · exact before_trans hgh (hfirst a ha)
    · rename_i hgh
      refine List.pairwise_cons.2 ⟨fun a ha => ?_, ih hrest⟩
      rcases List.mem_cons.1 ((insertRanked_perm g rest).mem_iff.1 ha) with rfl | ha
      · exact (before_total a h).resolve_left hgh
      · exact hfirst a ha

theorem pairwise_rank (groups : List Group) :
    (rank groups).Pairwise fun a b => a.before b = true := by
  induction groups with
  | nil => exact .nil
  | cons g rest ih => exact pairwise_insertRanked g ih

/-- A worker as a group of its own. -/
def single (w : Worker) : Group := ⟨w.id, [w]⟩

@[simp] lemma memoryUsed_single (w : Worker) : (single w).memoryUsed = w.memoryUsed := by
  simp [single, memoryUsed]

@[simp] lemma isIdle_single (w : Worker) : (single w).isIdle = w.isIdle := by
  simp [single, isIdle]

/-- Of single workers as many are taken as there is room for. -/
theorem takeFitting_single (limit : Nat) (taken : List Id) (ws : List Worker) :
    takeFitting limit taken (ws.map single) =
      taken ++ (ws.map Worker.id).take (limit - taken.length) := by
  induction ws generalizing taken with
  | nil => simp [takeFitting]
  | cons w ws ih =>
    rw [List.map_cons, takeFitting]
    split
    · rename_i hfull
      have hroom : limit - taken.length = 0 := by
        have : (single w).members.length = 1 := rfl
        omega
      rw [ih, hroom, List.take_zero, List.take_zero]
    · rename_i hfits
      obtain ⟨room, hroom⟩ : ∃ room, limit - taken.length = room + 1 := by
        have : (single w).members.length = 1 := rfl
        exact ⟨limit - taken.length - 1, by omega⟩
      have hnext : limit - (taken ++ (single w).ids).length = room := by
        have : (single w).ids.length = 1 := rfl
        rw [List.length_append]
        omega
      rw [ih, hnext, hroom, List.map_cons, List.take_succ_cons, List.append_assoc]
      rfl

end Group

/-- The workers that are given up first: less memory in use, then the smaller id. -/
def Worker.before (v w : Worker) : Bool :=
  v.memoryUsed < w.memoryUsed || (v.memoryUsed == w.memoryUsed && v.id ≤ w.id)

lemma Worker.before_eq (v w : Worker) : v.before w = (Group.single v).before (Group.single w) := by
  simp only [before, Group.before, Group.memoryUsed_single]
  rfl

namespace Cluster

variable {c : Cluster}

/-- Workers without a common name are collected one by one. -/
lemma get?_collect_of_distinct (name : Worker → String) {ws : List Worker} {d : Dict (List Worker)}
    (hnames : (ws.map name).Nodup) (hnew : ∀ w ∈ ws, d.get? (name w) = none) (n : String) :
    (ws.foldl (fun d w => d.insert (name w) ((d.get? (name w)).getD [] ++ [w])) d).get? n =
      ((ws.find? fun w => name w = n).map fun w => [w]).or (d.get? n) := by
  induction ws generalizing d with
  | nil => simp
  | cons w ws ih =>
    obtain ⟨hw, hws⟩ := List.nodup_cons.1 hnames
    have hrest : ∀ v ∈ ws,
        (d.insert (name w) ((d.get? (name w)).getD [] ++ [w])).get? (name v) = none := by
      intro v hv
      have hne : name v ≠ name w := fun he => hw (he ▸ List.mem_map_of_mem hv)
      rw [Dict.get?_insert, if_neg hne, hnew v (List.mem_cons_of_mem w hv)]
    have hfirst := hnew w List.mem_cons_self
    rw [List.foldl_cons, ih hws hrest, Dict.get?_insert, List.find?_cons]
    by_cases hn : name w = n
    · subst hn
      have hnone : (ws.find? fun v => name v = name w) = none := by
        rw [List.find?_eq_none]
        intro v hv he
        exact hw (of_decide_eq_true he ▸ List.mem_map_of_mem hv)
      simp [hnone, hfirst]
    · have hn' : n ≠ name w := fun he => hn he.symm
      simp [hn, hn']

namespace Coherent

lemma map_id_values (hc : c.Coherent) : c.workers.values.map Worker.id = c.observed.toList := by
  change (c.workers.entries.map Prod.snd).map Worker.id = c.workers.entries.map Prod.fst
  rw [List.map_map]
  refine List.map_congr_left fun e he => ?_
  exact hc.id_of_get? e.1 e.2 (Dict.get?_eq_some_iff.2 he)

lemma find?_values (hc : c.Coherent) (n : Id) :
    (c.workers.values.find? fun w => w.id = n) = c.workers.get? n := by
  cases hn : c.workers.get? n with
  | none =>
    rw [List.find?_eq_none]
    intro w hw he
    have hget := hc.get?_of_mem_values hw
    rw [of_decide_eq_true he, hn] at hget
    cases hget
  | some w =>
    have hid := hc.id_of_get? n w hn
    obtain ⟨v, hv⟩ : ∃ v, (c.workers.values.find? fun w => w.id = n) = some v := by
      rw [← Option.isSome_iff_exists, List.find?_isSome]
      exact ⟨w, mem_values_of_get? hn, by simpa using hid⟩
    have hvid : v.id = n := by simpa using List.find?_some hv
    have hget := hc.get?_of_mem_values (List.mem_of_find?_eq_some hv)
    rw [hvid, hn] at hget
    rw [hv, hget]

/-- Without a key every connected worker is a group of its own. -/
theorem groups_none (hc : c.Coherent) : c.groups none = c.workers.values.map Group.single := by
  have hnames : (c.workers.values.map (groupName none)).Nodup := by
    change (c.workers.values.map Worker.id).Nodup
    rw [hc.map_id_values]
    exact c.observed.nodup
  have hbyName : c.workers.values.foldl (fun d w =>
      d.insert (groupName none w) ((d.get? (groupName none w)).getD [] ++ [w])) ∅ =
      c.workers.mapValues fun w => [w] := by
    refine Dict.ext_get? fun n => ?_
    have hfind : (c.workers.values.find? fun w => groupName none w = n) = c.workers.get? n :=
      hc.find?_values n
    rw [get?_collect_of_distinct _ hnames (fun _ _ => rfl), hfind, Dict.get?_mapValues]
    simp
  unfold groups
  dsimp only
  rw [hbyName]
  change (c.workers.entries.map _).map _ = (c.workers.entries.map Prod.snd).map Group.single
  rw [List.map_map, List.map_map]
  refine List.map_congr_left fun e he => ?_
  have hid := hc.id_of_get? e.1 e.2 (Dict.get?_eq_some_iff.2 he)
  simp [Group.single, hid]

end Coherent

/-- The connected workers in the order in which they are given up. -/
def givingUp (c : Cluster) : List Id := (c.workers.values.mergeSort Worker.before).map Worker.id

lemma pairwise_mergeSort_before (ws : List Worker) :
    (ws.mergeSort Worker.before).Pairwise fun v w => v.before w = true := by
  apply List.pairwise_mergeSort
  · intro u v w huv hvw
    rw [Worker.before_eq] at huv hvw ⊢
    exact Group.before_trans huv hvw
  · intro v w
    rw [Worker.before_eq, Worker.before_eq, Bool.or_eq_true]
    exact Group.before_total _ _

/-- Ranking single workers is sorting them. -/
lemma Coherent.rank_single (hc : c.Coherent) {ws : List Worker}
    (hws : ∀ w ∈ ws, w ∈ c.workers.values) :
    Group.rank (ws.map Group.single) = (ws.mergeSort Worker.before).map Group.single := by
  have hperm := List.mergeSort_perm ws Worker.before
  have hsorted : ((ws.mergeSort Worker.before).map Group.single).Pairwise
      fun g h => g.before h = true := by
    rw [List.pairwise_map]
    exact (pairwise_mergeSort_before _).imp fun {v w} hvw => (v.before_eq w) ▸ hvw
  refine List.Perm.eq_of_pairwise (fun g h hg hh hgh hhg => ?_) (Group.pairwise_rank _) hsorted
    ((Group.rank_perm _).trans (hperm.symm.map _))
  -- workers of the same rank have the same id, and there is only one of that id
  obtain ⟨v, hv, rfl⟩ := List.mem_map.1 ((Group.rank_perm _).mem_iff.1 hg)
  obtain ⟨w, hw, rfl⟩ := List.mem_map.1 hh
  rw [Group.before_iff] at hgh hhg
  simp only [Group.memoryUsed_single] at hgh hhg
  have hvw : v.id ≤ w.id := by
    rcases hgh with hlt | ⟨-, hvw⟩
    · omega
    · exact hvw
  have hwv : w.id ≤ v.id := by
    rcases hhg with hlt | ⟨-, hwv⟩
    · omega
    · exact hwv
  have hgetv := hc.get?_of_mem_values (hws v hv)
  have hgetw := hc.get?_of_mem_values (hws w (hperm.mem_iff.1 hw))
  rw [String.le_antisymm hvw hwv, hgetw] at hgetv
  cases hgetv
  rfl

/-- The connected workers with nothing to do, in the order in which they are given up. -/
def spare (c : Cluster) : List Id :=
  ((c.workers.values.filter Worker.isIdle).mergeSort Worker.before).map Worker.id

/-- Without a key the scheduler offers the first of the idle workers, as many as the target leaves
over. -/
theorem Coherent.closeCandidates_none (hc : c.Coherent)
    (hfit : ∀ w ∈ c.workers.values, w.isIdle = true → w.memoryUsed < Word.limit) {q : CloseQuery}
    (hq : q.key = none) :
    c.closeCandidates q = .ok (c.spare.take (c.workers.size - q.target)) := by
  have hgroups : c.idleGroups q.key =
      (c.workers.values.filter Worker.isIdle).map Group.single := by
    rw [hq, idleGroups, hc.groups_none, List.filter_map]
    refine congrArg _ (List.filter_congr fun w _ => ?_)
    exact Group.isIdle_single w
  have hall : ((c.workers.values.filter Worker.isIdle).map Group.single).all
      (fun g => decide (g.memoryUsed < Word.limit)) = true := by
    rw [List.all_eq_true]
    intro g hg
    obtain ⟨w, hw, rfl⟩ := List.mem_map.1 hg
    rw [Group.memoryUsed_single, decide_eq_true_eq]
    exact hfit w (List.mem_of_mem_filter hw) (List.mem_filter.1 hw).2
  unfold closeCandidates
  dsimp only
  rw [hgroups, if_pos hall, hc.rank_single fun w hw => List.mem_of_mem_filter hw,
    Group.takeFitting_single, List.nil_append]
  rfl

/-- The connected workers could all be given up: nothing runs on them, and the memory in use of each
fits a word. -/
structure AllIdle (c : Cluster) : Prop where
  processing_eq : ∀ w ∈ c.workers.values, w.processing = 0
  memoryUsed_lt : ∀ w ∈ c.workers.values, w.memoryUsed < Word.limit

lemma AllIdle.spare_eq (h : c.AllIdle) : c.spare = c.givingUp := by
  have hall : c.workers.values.filter Worker.isIdle = c.workers.values := by
    rw [List.filter_eq_self]
    intro w hw
    rw [Worker.isIdle, h.processing_eq w hw]
    rfl
  rw [spare, hall, givingUp]

/-- The requested workers in the order in which they are given up: the awaited ones by ascending id,
then the connected ones. -/
def closingOrder (c : Cluster) : List Id := c.awaited.toList ++ c.givingUp

lemma Coherent.givingUp_perm (hc : c.Coherent) : c.givingUp.Perm c.observed.toList := by
  rw [← hc.map_id_values]
  exact (List.mergeSort_perm _ _).map _

/-- All requested workers come in the closing order, each of them once. -/
theorem Coherent.closingOrder_perm (hc : c.Coherent) : c.closingOrder.Perm c.requested.toList := by
  have hnodup : c.closingOrder.Nodup := by
    refine List.nodup_append.2 ⟨c.awaited.nodup, ?_, ?_⟩
    · exact hc.givingUp_perm.nodup_iff.2 c.observed.nodup
    · rintro v hv w hw rfl
      exact (IdSet.mem_diff.1 hv).2 (hc.givingUp_perm.mem_iff.1 hw)
  refine (List.perm_ext_iff_of_nodup hnodup c.requested.nodup).2 fun w => ?_
  rw [closingOrder, List.mem_append, hc.givingUp_perm.mem_iff]
  constructor
  · rintro (hw | hw)
    · exact (IdSet.mem_diff.1 hw).1
    · exact hc.requested_of_observed w hw
  · intro hw
    by_cases ho : w ∈ c.observed
    · exact .inr ho
    · exact .inl (IdSet.mem_diff.2 ⟨hw, ho⟩)

/-- The first workers in the closing order, as many as the plan has above a target. -/
def leavers (c : Cluster) (target : Nat) : IdSet :=
  .ofList (c.closingOrder.take (c.plan.size - target))

lemma Coherent.mem_plan_of_mem_leavers (hc : c.Coherent) (hreq : c.requested = c.plan)
    {target : Nat} {w : Id} (hw : w ∈ c.leavers target) : w ∈ c.plan := by
  have horder := List.mem_of_mem_take (IdSet.mem_ofList.1 hw)
  rw [← hreq]
  exact hc.closingOrder_perm.mem_iff.1 horder

theorem Coherent.size_leavers (hc : c.Coherent) (hreq : c.requested = c.plan) (target : Nat) :
    (c.leavers target).size = c.plan.size - target := by
  have hperm := hc.closingOrder_perm
  have hlength : c.closingOrder.length = c.plan.size := by
    rw [hperm.length_eq, hreq]
    rfl
  have hnodup : (c.closingOrder.take (c.plan.size - target)).Nodup :=
    (hperm.nodup_iff.2 c.requested.nodup).sublist (List.take_sublist _ _)
  rw [leavers, IdSet.size_ofList_of_nodup hnodup, List.length_take, hlength]
  omega

end Cluster

namespace Advisor

variable {c : Cluster} {a : Advisor} {target : Nat}

/-- Below the plan, and with all connected workers idle, the candidates are the first workers in the
closing order. A scheduler alone can name them only if all are connected. -/
theorem run_round_idle (hc : c.Coherent) (hidle : c.AllIdle) (hreq : c.requested = c.plan)
    (hkey : a.query.key = none) (hsource : a.source = .scheduler → c.observed = c.plan)
    (hlt : target < c.plan.size) :
    (a.round target c.roster).run Cluster.host c = (c, .ok (.ok (c.leavers target))) := by
  have hsizes : c.awaited.size + c.observed.size = c.plan.size := by
    rw [← hreq]
    exact IdSet.size_diff_add hc.requested_of_observed
  have htake : c.closingOrder.take (c.plan.size - target) =
      c.awaited.toList.take (c.plan.size - target) ++
        c.givingUp.take (c.plan.size - target - c.awaited.size) := List.take_append
  -- the share of the awaited workers is their share of the closing order
  have hshare : ∀ w, w ∈ a.pendingShare target c.roster ↔
      w ∈ c.awaited.toList.take (c.plan.size - target) := by
    intro w
    unfold pendingShare
    cases hs : a.source with
    | pendingFirst => rfl
    | scheduler =>
      have hnone : c.awaited.size = 0 := by
        rw [hsource hs] at hsizes
        omega
      have hnil : c.awaited.toList = [] := List.eq_nil_of_length_eq_zero hnone
      simp [hnil]
  rw [run_round_of_lt hlt]
  cases hq : a.asksScheduler target c.roster with
  | false =>
    have henough : c.plan.size - target ≤ c.awaited.size := by
      unfold asksScheduler pendingShare at hq
      cases hs : a.source with
      | pendingFirst =>
        simp only [hs, IdSet.size_take, decide_eq_false_iff_not] at hq
        change ¬ target < c.plan.size - min (c.plan.size - target) c.awaited.size at hq
        omega
      | scheduler =>
        rw [hs] at hq
        cases hq
    have hleavers : a.pendingShare target c.roster = c.leavers target := by
      refine IdSet.ext_mem fun w => ?_
      rw [Cluster.leavers, IdSet.mem_ofList, htake, Nat.sub_eq_zero_of_le henough, List.take_zero,
        List.append_nil]
      exact hshare w
    rw [run_candidates_of_pending hq, hleavers]
  | true =>
    have hroom : c.workers.size - target = c.plan.size - target - c.awaited.size := by
      have hworkers : c.workers.size = c.observed.size := (Dict.size_keys _).symm
      omega
    have hoffer : c.closeCandidates (a.queryFor target) =
        .ok (c.givingUp.take (c.plan.size - target - c.awaited.size)) := by
      rw [← hroom, ← hidle.spare_eq]
      exact hc.closeCandidates_none (fun w hw _ => hidle.memoryUsed_lt w hw) hkey
    have hserve : Cluster.host.serve (.closeCandidates (a.queryFor target)) c =
        (c, (c.closeCandidates (a.queryFor target)).map .ok) := rfl
    have hleavers : (a.pendingShare target c.roster).union
        (.ofList (c.givingUp.take (c.plan.size - target - c.awaited.size))) = c.leavers target := by
      refine IdSet.ext_mem fun w => ?_
      rw [IdSet.mem_union, hshare, IdSet.mem_ofList, Cluster.leavers, IdSet.mem_ofList, htake,
        List.mem_append]
    rw [run_candidates_of_query hq, hserve, hoffer]
    simp only [Except.map, hleavers]

end Advisor

end Fleet
