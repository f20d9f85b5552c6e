import Fleet.Proofs.ClosingOrder

/-! The offer of a scheduler in full. It goes through the idle groups in their order and takes each
one that fits beside those taken before: whole groups in this order, none left out that would fit,
and without a key the beginning of one list. -/
namespace Fleet

namespace Group

variable {g h : Group} {groups groups' : List Group} {limit used : Nat}

/-- Comes first strictly: less memory in use, or as much and the smaller name. -/
def Precedes (g h : Group) : Prop :=
  g.memoryUsed < h.memoryUsed ∨ g.memoryUsed = h.memoryUsed ∧ g.name < h.name

lemma precedes_of_before (hgh : g.before h = true) (hname : g.name ≠ h.name) : g.Precedes h := by
  obtain hlt | ⟨heq, hle⟩ := before_iff.1 hgh
  · exact .inl hlt
  · exact .inr ⟨heq, String.not_le.1 fun hge => hname (String.le_antisymm hle hge)⟩

/-- How many workers the groups have together. -/
def count (groups : List Group) : Nat := (groups.flatMap ids).length

@[simp] lemma count_nil : count [] = 0 := rfl

@[simp] lemma count_cons (g : Group) (groups : List Group) :
    count (g :: groups) = g.members.length + count groups := by
  simp [count]

@[simp] lemma count_append (groups groups' : List Group) :
    count (groups ++ groups') = count groups + count groups' := by
  simp [count]

/-- The groups that are taken when so many workers have been taken before. -/
def fitting (limit : Nat) : (used : Nat) → List Group → List Group
  | _, [] => []
  | used, g :: rest =>
    if limit < used + g.members.length then fitting limit used rest
    else g :: fitting limit (used + g.members.length) rest

lemma takeFitting_eq (limit : Nat) (taken : List Id) (groups : List Group) :
    takeFitting limit taken groups = taken ++ (fitting limit taken.length groups).flatMap ids := by
  induction groups generalizing taken with
  | nil => simp [takeFitting, fitting]
  | cons g rest ih =>
    unfold takeFitting fitting
    split
    · exact ih taken
    · simp [ih]

lemma fitting_sublist (limit used : Nat) (groups : List Group) :
    (fitting limit used groups).Sublist groups := by
  induction groups generalizing used with
  | nil => exact .slnil
  | cons g rest ih =>
    unfold fitting
    split
    · exact (ih used).cons g
    · exact (ih _).cons_cons g

lemma fitting_append (limit used : Nat) (groups groups' : List Group) :
    fitting limit used (groups ++ groups') = fitting limit used groups ++
      fitting limit (used + count (fitting limit used groups)) groups' := by
  induction groups generalizing used with
  | nil => simp [fitting]
  | cons g rest ih =>
    rw [List.cons_append, fitting, fitting]
    split
    · exact ih used
    · simp [ih, Nat.add_assoc]

/-- A group that is left out did not fit beside those of the groups before it that are taken. -/
theorem fitting_split (hleft : ¬ g ∈ fitting limit used (groups ++ g :: groups')) :
    fitting limit used (groups ++ g :: groups') = fitting limit used groups ++
        fitting limit (used + count (fitting limit used groups)) groups' ∧
      limit < used + count (fitting limit used groups) + g.members.length := by
  rw [fitting_append, fitting] at hleft ⊢
  split at hleft
  · rename_i hlarge
    exact ⟨by rw [if_pos hlarge], hlarge⟩
  · exact absurd (List.mem_append_right _ List.mem_cons_self) hleft

end Group

namespace Cluster

variable {c : Cluster} {key : Option GroupKey} {g h : Group} {w : Id}

/-- All connected workers of a name, by ascending id; there is at least one. -/
def IsGroup (key : Option GroupKey) (c : Cluster) (g : Group) : Prop :=
  g.members ≠ [] ∧ g.members = c.workers.values.filter fun w => groupName key w = g.name

/-- Nobody is collected under a name without being put behind it. -/
lemma ne_nil_of_get?_collect (name : Worker → String) {ws : List Worker} {d : Dict (List Worker)}
    {n : String} {members : List Worker} (hd : ∀ n, d.get? n ≠ some [])
    (hget : (ws.foldl (fun d w => d.insert (name w) ((d.get? (name w)).getD [] ++ [w])) d).get? n =
      some members) : members ≠ [] := by
  induction ws generalizing d with
  | nil =>
    rintro rfl
    exact hd n hget
  | cons w ws ih =>
    refine ih (fun n' => ?_) hget
    rw [Dict.get?_insert]
    split
    · simp
    · exact hd n'

/-- Under a name all workers of the name are collected, if there are any. -/
lemma get?_collect_eq_some_iff (name : Worker → String) (ws : List Worker) {n : String}
    {members : List Worker} :
    (ws.foldl (fun (d : Dict (List Worker)) w =>
      d.insert (name w) ((d.get? (name w)).getD [] ++ [w])) ∅).get? n = some members ↔
      members ≠ [] ∧ members = ws.filter fun w => name w = n := by
  have hcollect := getD_get?_collect name ws ∅ n
  have hsome := fun found (hfound : (ws.foldl (fun (d : Dict (List Worker)) w =>
      d.insert (name w) ((d.get? (name w)).getD [] ++ [w])) ∅).get? n = some found) =>
    ne_nil_of_get?_collect name (by simp) hfound
  generalize ws.foldl (fun (d : Dict (List Worker)) w =>
    d.insert (name w) ((d.get? (name w)).getD [] ++ [w])) ∅ = d at hcollect hsome ⊢
  rw [Dict.get?_empty, Option.getD_none, List.nil_append] at hcollect
  cases hd : d.get? n with
  | none => simp [← hcollect, hd]
  | some found =>
    rw [← hcollect, hd]
    constructor
    · rintro ⟨⟩
      exact ⟨hsome _ hd, rfl⟩
    · rintro ⟨-, rfl⟩
      rfl

/-- The groups that are collected are the groups. -/
theorem mem_groups_iff : g ∈ c.groups key ↔ c.IsGroup key g := by
  constructor
  · intro hg
    obtain ⟨⟨name, members⟩, he, rfl⟩ := List.mem_map.1 hg
    exact (get?_collect_eq_some_iff _ _).1 (Dict.get?_eq_some_iff.2 he)
  · intro hg
    refine List.mem_map.2 ⟨(g.name, g.members), Dict.get?_eq_some_iff.1 ?_, rfl⟩
    exact (get?_collect_eq_some_iff _ _).2 hg

lemma names_groups (c : Cluster) (key : Option GroupKey) :
    ((c.groups key).map Group.name).Pairwise (· < ·) := by
  unfold groups
  dsimp only
  rw [List.map_map]
  exact Dict.ascending _

/-- Two groups of one name are the same. -/
lemma IsGroup.eq_of_name (hg : c.IsGroup key g) (hh : c.IsGroup key h) (hname : g.name = h.name) :
    g = h := by
  obtain ⟨name, members⟩ := g
  obtain ⟨name', members'⟩ := h
  obtain rfl : name = name' := hname
  obtain rfl : members = members' := hg.2.trans hh.2.symm
  rfl

/-- Nothing runs on any worker of the group. -/
def IsIdleGroup (key : Option GroupKey) (c : Cluster) (g : Group) : Prop :=
  c.IsGroup key g ∧ ∀ w ∈ g.members, w.processing = 0

lemma mem_idleGroups_iff : g ∈ c.idleGroups key ↔ c.IsIdleGroup key g := by
  rw [idleGroups, List.mem_filter, mem_groups_iff, Group.isIdle, List.all_eq_true]
  simp [IsIdleGroup, Worker.isIdle]

/-- The ranked groups come in strictly ascending order. -/
lemma pairwise_ranked (c : Cluster) (key : Option GroupKey) :
    (Group.rank (c.idleGroups key)).Pairwise Group.Precedes := by
  have hnames : (c.idleGroups key).Pairwise fun g h => g.name ≠ h.name := by
    have hgroups := (List.pairwise_map.1 (c.names_groups key)).sublist
      (List.filter_sublist (p := Group.isIdle))
    refine hgroups.imp fun {g h} hlt he => ?_
    rw [he] at hlt
    exact String.lt_irrefl _ hlt
  have hranked := (Group.rank_perm (c.idleGroups key)).symm.pairwise hnames
    fun {g h} hne he => hne he.symm
  exact ((Group.pairwise_rank _).and hranked).imp fun hgh =>
    Group.precedes_of_before hgh.1 hgh.2

namespace Coherent

lemma ids_sublist (hc : c.Coherent) (hg : c.IsGroup key g) : g.ids.Sublist c.observed.toList := by
  rw [← hc.map_id_values, Group.ids, hg.2]
  exact List.filter_sublist.map _

/-- No worker is in two groups. -/
lemma eq_of_mem_ids (hc : c.Coherent) (hg : c.IsGroup key g) (hh : c.IsGroup key h)
    (hwg : w ∈ g.ids) (hwh : w ∈ h.ids) : g = h := by
  obtain ⟨a, ha, rfl⟩ := List.mem_map.1 hwg
  obtain ⟨b, hb, hid⟩ := List.mem_map.1 hwh
  rw [hg.2, List.mem_filter, decide_eq_true_eq] at ha
  rw [hh.2, List.mem_filter, decide_eq_true_eq] at hb
  have hgeta := hc.get?_of_mem_values ha.1
  have hgetb := hc.get?_of_mem_values hb.1
  rw [hid, hgeta] at hgetb
  cases hgetb
  exact hg.eq_of_name hh (ha.2.symm.trans hb.2)

/-- An offer of groups names nobody twice. -/
lemma nodup_flatMap_ids (hc : c.Coherent) {chosen : List Group}
    (hgroups : ∀ g ∈ chosen, c.IsGroup key g) (horder : chosen.Pairwise Group.Precedes) :
    (chosen.flatMap Group.ids).Nodup := by
  rw [List.nodup_flatMap]
  refine ⟨fun g hg => c.observed.nodup.sublist (hc.ids_sublist (hgroups g hg)), ?_⟩
  refine horder.imp_of_mem fun {g h} hg hh hgh => ?_
  intro w hwg hwh
  obtain rfl := hc.eq_of_mem_ids (hgroups g hg) (hgroups h hh) hwg hwh
  obtain hlt | ⟨-, hlt⟩ := hgh
  · exact Nat.lt_irrefl _ hlt
  · exact String.lt_irrefl _ hlt

end Coherent

/-- The chosen groups are idle ones in their order, and go into the room. One that is left out does
not go beside the chosen ones that precede it. -/
structure Chooses (key : Option GroupKey) (room : Nat) (c : Cluster) (chosen : List Group) :
    Prop where
  idle : ∀ g ∈ chosen, c.IsIdleGroup key g
  ordered : chosen.Pairwise Group.Precedes
  fits : Group.count chosen ≤ room
  left : ∀ g, c.IsIdleGroup key g → ¬ g ∈ chosen → ∃ first rest, chosen = first ++ rest ∧
    (∀ h ∈ first, h.Precedes g) ∧ (∀ h ∈ rest, g.Precedes h) ∧
    room < Group.count first + g.members.length

/-- A group that is left out is larger than the room that remains. -/
lemma Chooses.lt_of_left {room : Nat} {chosen : List Group} (h : c.Chooses key room chosen)
    (hg : c.IsIdleGroup key g) (hleft : ¬ g ∈ chosen) :
    room - Group.count chosen < g.members.length := by
  obtain ⟨first, rest, rfl, -, -, hroom⟩ := h.left g hg hleft
  have hsome := List.length_pos_of_ne_nil hg.1.1
  rw [Group.count_append]
  omega

/-- Going through the ranked groups chooses. -/
theorem chooses_fitting (c : Cluster) (key : Option GroupKey) (room : Nat) :
    c.Chooses key room (Group.fitting room 0 (Group.rank (c.idleGroups key))) := by
  have horder := c.pairwise_ranked key
  have hmem : ∀ g, g ∈ Group.rank (c.idleGroups key) ↔ c.IsIdleGroup key g :=
    fun g => (Group.rank_perm _).mem_iff.trans mem_idleGroups_iff
  generalize Group.rank (c.idleGroups key) = ranked at horder hmem ⊢
  have hsub := Group.fitting_sublist room 0 ranked
  refine ⟨fun g hg => (hmem g).1 (hsub.subset hg), horder.sublist hsub, ?_, fun g hg hleft => ?_⟩
  · have hlength : (Group.takeFitting room [] ranked).length ≤ room :=
      Group.length_takeFitting_le ranked (Nat.zero_le room)
    rwa [Group.takeFitting_eq, List.nil_append] at hlength
  · obtain ⟨first, rest, rfl⟩ := List.append_of_mem ((hmem g).2 hg)
    obtain ⟨-, htail, hcross⟩ := List.pairwise_append.1 horder
    obtain ⟨hsplit, hroom⟩ := Group.fitting_split hleft
    refine ⟨_, _, hsplit, fun h hh => ?_, fun h hh => ?_, by rwa [Nat.zero_add] at hroom⟩
    · exact hcross h ((Group.fitting_sublist _ _ _).subset hh) g List.mem_cons_self
    · exact (List.pairwise_cons.1 htail).1 h ((Group.fitting_sublist _ _ _).subset hh)

/-- If the memory of each idle group fits a word, the scheduler makes an offer. It names whole idle
groups. -/
theorem closeCandidates_eq {q : CloseQuery}
    (hfits : ∀ g, c.IsIdleGroup q.key g → g.memoryUsed < Word.limit) :
    c.closeCandidates q =
      .ok ((Group.fitting (c.closeLimit q.target) 0 (Group.rank (c.idleGroups q.key))).flatMap
        Group.ids) := by
  have hall : (c.idleGroups q.key).all (fun g => g.memoryUsed < Word.limit) = true := by
    rw [List.all_eq_true]
    intro g hg
    exact decide_eq_true (hfits g (mem_idleGroups_iff.1 hg))
  unfold closeCandidates
  dsimp only
  rw [if_pos hall, Group.takeFitting_eq]
  rfl

/-- Without a key every worker is a group of its own. -/
lemma Coherent.isIdleGroup_single (hc : c.Coherent) {w : Worker} (hw : w ∈ c.workers.values)
    (hidle : w.isIdle = true) : c.IsIdleGroup none (Group.single w) := by
  rw [← mem_idleGroups_iff, idleGroups, hc.groups_none, List.mem_filter, Group.isIdle_single]
  exact ⟨List.mem_map_of_mem hw, hidle⟩

/-- In every `Reachable` state, and whatever is asked for: if the memory of each idle group fits a
word, the scheduler `Chooses` groups and offers their members, group by group and each by ascending
id. They are whole groups without a running task, they come in the order of their memory and name,
and all their workers are connected, none is named twice, and there are no more of them than the
target leaves over. A group without a running task that is left out is larger than the room that
remains, and did not fit beside the chosen ones that precede it. Without a key the offer is the
beginning of the `spare` workers, in the order of their memory and id, so that a smaller target
prolongs it. -/
theorem Reachable.offer_whole_maximal (h : c.Reachable) (q : CloseQuery)
    (hfits : ∀ g, c.IsIdleGroup q.key g → g.memoryUsed < Word.limit) :
    (∃ chosen, c.closeCandidates q = .ok (chosen.flatMap Group.ids) ∧
      c.Chooses q.key (c.observed.size - q.target) chosen ∧
      (∀ g ∈ chosen, g.ids.Pairwise (· < ·)) ∧
      (chosen.flatMap Group.ids).Nodup ∧
      (∀ w ∈ chosen.flatMap Group.ids, w ∈ c.observed) ∧
      (chosen.flatMap Group.ids).length ≤ c.observed.size - q.target ∧
      ∀ g, c.IsIdleGroup q.key g → ¬ g ∈ chosen →
        c.observed.size - q.target - (chosen.flatMap Group.ids).length < g.members.length) ∧
    (q.key = none →
      c.closeCandidates q = .ok (c.spare.take (c.observed.size - q.target)) ∧
      ∀ target ≤ q.target, ∃ ids more, c.closeCandidates q = .ok ids ∧
        c.closeCandidates { q with target := target } = .ok more ∧ ids <+: more) := by
  have hc := h.coherent
  have hsize : c.observed.size = c.workers.size := Dict.size_keys _
  constructor
  · have hchooses := c.chooses_fitting q.key (c.closeLimit q.target)
    have hoffer := closeCandidates_eq hfits
    rw [hsize]
    generalize Group.fitting (c.closeLimit q.target) 0 (Group.rank (c.idleGroups q.key)) = chosen
      at hchooses hoffer
    have hgroups : ∀ g ∈ chosen, c.IsGroup q.key g := fun g hg => (hchooses.idle g hg).1
    refine ⟨chosen, hoffer, hchooses, fun g hg => ?_, hc.nodup_flatMap_ids hgroups hchooses.ordered,
      fun w hw => ?_, hchooses.fits, fun g hg hleft => hchooses.lt_of_left hg hleft⟩
    · exact c.observed.ascending.sublist (hc.ids_sublist (hgroups g hg))
    · obtain ⟨g, hg, hmem⟩ := List.mem_flatMap.1 hw
      exact (hc.ids_sublist (hgroups g hg)).subset hmem
  · intro hkey
    have hfit : ∀ w ∈ c.workers.values, w.isIdle = true → w.memoryUsed < Word.limit := by
      intro w hw hidle
      rw [← Group.memoryUsed_single]
      exact hfits _ (hkey ▸ hc.isIdleGroup_single hw hidle)
    rw [hsize, hc.closeCandidates_none hfit hkey]
    refine ⟨rfl, fun target htarget => ⟨_, _, rfl, hc.closeCandidates_none hfit hkey, ?_⟩⟩
    exact List.take_isPrefix_take.2 (.inl (Nat.sub_le_sub_left htarget _))

/-- Two idle workers on one host, one on another and a busy one on a third. -/
def hosted : Cluster :=
  Operation.applyAll (create "z" 100)
    [.addWorker { Worker.idle "a" 1 100 with host := "h" },
      .addWorker { Worker.idle "b" 1 100 with host := "h" },
      .addWorker { Worker.idle "c" 5 100 with host := "i" },
      .addWorker { Worker.idle "d" 0 100 with host := "j", processing := 1 }]

/-- Only one may go, so the first group is passed over for the second one. -/
theorem offer_whole_maximal_hosted :
    hosted.Reachable ∧ (∀ g, hosted.IsIdleGroup (some .host) g → g.memoryUsed < Word.limit) ∧
      ∃ chosen, hosted.closeCandidates ⟨3, some .host, "name", ∅⟩ = .ok (chosen.flatMap Group.ids) ∧
        hosted.Chooses (some .host) 1 chosen ∧ chosen.flatMap Group.ids = ["c"] := by
  have hreach : hosted.Reachable := ⟨"z", 100, _, rfl⟩
  have hfits : ∀ g, hosted.IsIdleGroup (some .host) g → g.memoryUsed < Word.limit := by
    have hall : ∀ g ∈ hosted.idleGroups (some .host), g.memoryUsed < Word.limit := by
      decide +kernel
    exact fun g hg => hall g (mem_idleGroups_iff.2 hg)
  obtain ⟨⟨chosen, hoffer, hchooses, -⟩, -⟩ :=
    hreach.offer_whole_maximal ⟨3, some .host, "name", ∅⟩ hfits
  refine ⟨hreach, hfits, chosen, hoffer, hchooses, ?_⟩
  have hnamed : hosted.closeCandidates ⟨3, some .host, "name", ∅⟩ = .ok ["c"] := by decide +kernel
  rw [hnamed] at hoffer
  exact (Except.ok.inj hoffer).symm

end Cluster

end Fleet
