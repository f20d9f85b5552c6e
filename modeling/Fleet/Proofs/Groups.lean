import Fleet.Cluster.CloseCandidates
import Fleet.Proofs.Coherence

/-! Groups of connected workers and the offers made of them. A scheduler offers only workers of
groups that are idle as a whole, and it offers whole groups. -/
namespace Fleet

namespace Group

variable {g h : Group} {groups : List Group} {w : Id}

lemma insertRanked_perm (g : Group) (groups : List Group) :
    (g.insertRanked groups).Perm (g :: groups) := by
  induction groups with
  | nil => rfl
  | cons h rest ih =>
    unfold insertRanked
    split
    · rfl
    · exact (ih.cons h).trans (.swap g h rest)

theorem rank_perm (groups : List Group) : (rank groups).Perm groups := by
  induction groups with
  | nil => rfl
  | cons g rest ih => exact (insertRanked_perm g (rank rest)).trans (ih.cons g)

/-- Whoever is taken was taken before or belongs to one of the groups. -/
theorem mem_takeFitting {limit : Nat} {taken : List Id}
    (hw : w ∈ takeFitting limit taken groups) : w ∈ taken ∨ ∃ g ∈ groups, w ∈ g.ids := by
  induction groups generalizing taken with
  | nil => exact .inl hw
  | cons g rest ih =>
    have hrest : (∃ g ∈ rest, w ∈ g.ids) → ∃ h ∈ g :: rest, w ∈ h.ids := by
      rintro ⟨h, hh, hm⟩
      exact ⟨h, List.mem_cons_of_mem g hh, hm⟩
    unfold takeFitting at hw
    split at hw
    · exact (ih hw).imp_right hrest
    · rcases ih hw with ht | ht
      · rcases List.mem_append.1 ht with ht | ht
        · exact .inl ht
        · exact .inr ⟨g, List.mem_cons_self, ht⟩
      · exact .inr (hrest ht)

/-- What is taken are whole groups, in the order of the list. -/
theorem exists_takeFitting (limit : Nat) (taken : List Id) (groups : List Group) :
    ∃ fitting : List Group, fitting.Sublist groups ∧
      takeFitting limit taken groups = taken ++ fitting.flatMap Group.ids := by
  induction groups generalizing taken with
  | nil => exact ⟨[], .slnil, (List.append_nil taken).symm⟩
  | cons g rest ih =>
    unfold takeFitting
    split
    · obtain ⟨fitting, hsub, he⟩ := ih taken
      exact ⟨fitting, hsub.cons g, he⟩
    · obtain ⟨fitting, hsub, he⟩ := ih (taken ++ g.ids)
      refine ⟨g :: fitting, hsub.cons_cons g, ?_⟩
      rw [he, List.flatMap_cons, List.append_assoc]

end Group

namespace Cluster

variable {c : Cluster} {key : Option GroupKey} {g : Group}

/-- Collecting workers by name puts those of a name behind the ones that are there already. -/
lemma getD_get?_collect (name : Worker → String) (ws : List Worker) (d : Dict (List Worker))
    (n : String) :
    ((ws.foldl (fun d w => d.insert (name w) ((d.get? (name w)).getD [] ++ [w])) d).get? n).getD [] =
      (d.get? n).getD [] ++ ws.filter fun w => name w = n := by
  induction ws generalizing d with
  | nil => simp
  | cons w ws ih =>
    rw [List.foldl_cons, ih, Dict.get?_insert]
    by_cases hn : n = name w
    · subst hn
      simp
    · rw [if_neg hn, List.filter_cons_of_neg (by simpa using Ne.symm hn)]

/-- A group has all the connected workers of its name. -/
theorem members_of_mem_groups (hg : g ∈ c.groups key) :
    g.members = c.workers.values.filter fun w => groupName key w = g.name := by
  have hcollect := getD_get?_collect (groupName key) c.workers.values ∅ g.name
  unfold groups at hg
  obtain ⟨⟨name, members⟩, he, rfl⟩ := List.mem_map.1 hg
  rw [Dict.get?_eq_some_iff.2 he] at hcollect
  simpa using hcollect

/-- Somebody works under the id, nothing runs on it, and nothing runs on any connected worker of
its group. -/
def IdleGroup (key : Option GroupKey) (c : Cluster) (w : Id) : Prop :=
  ∃ v, c.workers.get? w = some v ∧ v.processing = 0 ∧
    ∀ x u, c.workers.get? x = some u → groupName key u = groupName key v → u.processing = 0

lemma Coherent.get?_of_mem_values (hc : c.Coherent) {v : Worker} (hv : v ∈ c.workers.values) :
    c.workers.get? v.id = some v := by
  obtain ⟨⟨x, u⟩, he, rfl⟩ := List.mem_map.1 hv
  have hget := Dict.get?_eq_some_iff.2 he
  rwa [← hc.id_of_get? x u hget] at hget

lemma mem_values_of_get? {x : Id} {u : Worker} (hu : c.workers.get? x = some u) :
    u ∈ c.workers.values :=
  List.mem_map.2 ⟨(x, u), Dict.get?_eq_some_iff.1 hu, rfl⟩

/-- An offer holds only connected workers whose whole group is idle. -/
theorem Coherent.idleGroup_of_offered (hc : c.Coherent) {q : CloseQuery} {ids : List Id} {w : Id}
    (hq : c.closeCandidates q = .ok ids) (hw : w ∈ ids) : c.IdleGroup q.key w := by
  simp only [closeCandidates] at hq
  split at hq
  · cases hq
    obtain ht | ⟨g, hg, hm⟩ := Group.mem_takeFitting hw
    · cases ht
    · obtain ⟨hgroup, hidle⟩ := List.mem_filter.1 ((Group.rank_perm _).mem_iff.1 hg)
      have hzero : ∀ u ∈ g.members, u.processing = 0 := by
        intro u hu
        simpa [Worker.isIdle] using List.all_eq_true.1 hidle u hu
      have hmembers := members_of_mem_groups hgroup
      obtain ⟨v, hv, rfl⟩ := List.mem_map.1 hm
      have hmem := hv
      rw [hmembers, List.mem_filter, decide_eq_true_eq] at hmem
      refine ⟨v, hc.get?_of_mem_values hmem.1, hzero v hv, fun x u hu hname => hzero u ?_⟩
      rw [hmembers, List.mem_filter, decide_eq_true_eq]
      exact ⟨mem_values_of_get? hu, hname.trans hmem.2⟩
  · cases hq

/-- Two connected workers of one group. -/
def Together (key : Option GroupKey) (c : Cluster) (u v : Id) : Prop :=
  ∃ a b, c.workers.get? u = some a ∧ c.workers.get? v = some b ∧
    groupName key a = groupName key b

lemma Together.symm {u v : Id} (h : c.Together key u v) : c.Together key v u := by
  obtain ⟨a, b, ha, hb, hname⟩ := h
  exact ⟨b, a, hb, ha, hname.symm⟩

/-- A group holds those who are together with one of it. -/
lemma Coherent.mem_ids_of_together (hc : c.Coherent) {u v : Id} (hg : g ∈ c.groups key)
    (hu : u ∈ g.ids) (h : c.Together key u v) : v ∈ g.ids := by
  obtain ⟨a, b, ha, hb, hname⟩ := h
  obtain ⟨w, hw, rfl⟩ := List.mem_map.1 hu
  have hmembers := members_of_mem_groups hg
  rw [hmembers, List.mem_filter, decide_eq_true_eq] at hw
  obtain rfl : w = a := by
    rw [hc.get?_of_mem_values hw.1] at ha
    exact Option.some.inj ha
  refine List.mem_map.2 ⟨b, ?_, hc.id_of_get? v b hb⟩
  rw [hmembers, List.mem_filter, decide_eq_true_eq]
  exact ⟨mem_values_of_get? hb, hname.symm.trans hw.2⟩

/-- Those who are in one group are together. -/
lemma Coherent.together_of_mem_ids (hc : c.Coherent) {u v : Id} (hg : g ∈ c.groups key)
    (hu : u ∈ g.ids) (hv : v ∈ g.ids) : c.Together key u v := by
  obtain ⟨a, ha, rfl⟩ := List.mem_map.1 hu
  obtain ⟨b, hb, rfl⟩ := List.mem_map.1 hv
  have hmembers := members_of_mem_groups hg
  rw [hmembers, List.mem_filter, decide_eq_true_eq] at ha hb
  exact ⟨a, b, hc.get?_of_mem_values ha.1, hc.get?_of_mem_values hb.1, ha.2.trans hb.2.symm⟩

/-- Every connected worker is in a group. -/
lemma Coherent.exists_mem_groups (hc : c.Coherent) (key : Option GroupKey) {u : Id} {a : Worker}
    (ha : c.workers.get? u = some a) : ∃ g ∈ c.groups key, u ∈ g.ids := by
  have hcollect := getD_get?_collect (groupName key) c.workers.values ∅ (groupName key a)
  have hmem : a ∈ c.workers.values.filter fun w => groupName key w = groupName key a := by
    rw [List.mem_filter, decide_eq_true_eq]
    exact ⟨mem_values_of_get? ha, rfl⟩
  cases hget : (c.workers.values.foldl (fun (d : Dict (List Worker)) w => d.insert (groupName key w)
      ((d.get? (groupName key w)).getD [] ++ [w])) ∅).get? (groupName key a) with
  | none =>
    simp only [hget, Dict.get?_empty, Option.getD_none, List.nil_append] at hcollect
    rw [← hcollect] at hmem
    cases hmem
  | some members =>
    simp only [hget, Dict.get?_empty, Option.getD_none, Option.getD_some, List.nil_append] at hcollect
    refine ⟨⟨groupName key a, members⟩, List.mem_map.2 ⟨_, Dict.get?_eq_some_iff.1 hget, rfl⟩, ?_⟩
    rw [← hcollect] at hmem
    exact List.mem_map.2 ⟨a, hmem, hc.id_of_get? u a ha⟩

/-- Each group of connected workers is a part of the set or disjoint from it. -/
def Undivided (key : Option GroupKey) (c : Cluster) (ws : IdSet) : Prop :=
  ∀ g ∈ c.groups key, (∀ w ∈ g.ids, w ∈ ws) ∨ ∀ w ∈ g.ids, ¬ w ∈ ws

lemma Coherent.undivided_iff (hc : c.Coherent) {ws : IdSet} :
    c.Undivided key ws ↔ ∀ u v, c.Together key u v → u ∈ ws → v ∈ ws := by
  constructor
  · intro h u v huv hu
    obtain ⟨a, b, ha, -⟩ := id huv
    obtain ⟨g, hg, hmem⟩ := hc.exists_mem_groups key ha
    rcases h g hg with hall | hnone
    · exact hall v (hc.mem_ids_of_together hg hmem huv)
    · exact absurd hu (hnone u hmem)
  · intro h g hg
    by_cases hsome : ∃ u ∈ g.ids, u ∈ ws
    · obtain ⟨u, hmem, hu⟩ := hsome
      exact .inl fun v hv => h u v (hc.together_of_mem_ids hg hmem hv) hu
    · exact .inr fun w hw hws => hsome ⟨w, hw, hws⟩

/-- An offer that holds a worker holds all who are together with it. -/
theorem Coherent.offered_together (hc : c.Coherent) {q : CloseQuery} {ids : List Id} {u v : Id}
    (hq : c.closeCandidates q = .ok ids) (hu : u ∈ ids) (h : c.Together q.key u v) : v ∈ ids := by
  simp only [closeCandidates] at hq
  split at hq
  · cases hq
    obtain ⟨fitting, hsub, he⟩ := Group.exists_takeFitting (c.closeLimit q.target) []
      (Group.rank (c.idleGroups q.key))
    rw [he, List.nil_append, List.mem_flatMap] at hu ⊢
    obtain ⟨g, hg, hmem⟩ := hu
    have hgroup := (List.mem_filter.1 ((Group.rank_perm _).mem_iff.1 (hsub.subset hg))).1
    exact ⟨g, hg, hc.mem_ids_of_together hgroup hmem h⟩
  · cases hq

lemma IdleGroup.mem_observed {w : Id} (hw : c.IdleGroup key w) : w ∈ c.observed := by
  obtain ⟨v, hv, -⟩ := hw
  rw [Cluster.mem_observed, hv]
  rfl

end Cluster

end Fleet
