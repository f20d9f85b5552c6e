import Fleet.Proofs.DecisionLog
import Fleet.Proofs.Naming

/-! Events that account for a cluster. A decision that is carried out to the full is accounted for
by its entry in the log. -/
namespace Fleet

namespace Recommendation

/-- The size of a plan once the decision has been carried out. -/
def resize (size : Nat) : Recommendation → Nat
  | same => size
  | up n => n
  | down ws => size - ws.size

def removed? : Recommendation → Option IdSet
  | down ws => some ws
  | same | up _ => none

/-- The entries that a log gets for the decision. -/
def noted : Recommendation → List Recommendation
  | same => []
  | up n => [.up n]
  | down ws => [.down ws]

/-- The size that decisions, one after another, take a plan to. -/
def replay (size : Nat) (events : List Recommendation) : Nat := events.foldl resize size

/-- The sets of workers that decisions let go. -/
def removals (events : List Recommendation) : List IdSet := events.filterMap removed?

@[simp] lemma replay_concat (size : Nat) (events : List Recommendation) (d : Recommendation) :
    replay size (events ++ [d]) = d.resize (replay size events) := by
  unfold replay
  rw [List.foldl_append]
  rfl

@[simp] lemma removals_concat (events : List Recommendation) (d : Recommendation) :
    removals (events ++ [d]) = removals events ++ d.removed?.toList :=
  filterMap_concat _ _ _

end Recommendation

namespace Cluster

open Recommendation

variable {c c' : Cluster} {size : Nat} {events : List Recommendation} {d : Recommendation}

/-- Of workers that are drained the connected ones leave and are retired, each of them once. -/
theorem retire_close {ids : List Id} (hids : ids.Nodup) :
    c.retire (.close ids) = { c with
      workers := c.workers.eraseAll ids
      retired := c.retired ++ ids.filter c.workers.contains } := by
  change ids.foldl retireOne c = _
  -- on the names; as none comes twice, draining the first one leaves the others as they were
  induction ids generalizing c with
  | nil => simp [Dict.eraseAll]
  | cons id ids ih =>
    obtain ⟨hnew, hids⟩ := List.nodup_cons.1 hids
    have hothers : ids.filter (c.workers.erase id).contains = ids.filter c.workers.contains := by
      refine List.filter_congr fun w hw => ?_
      have hne : w ≠ id := fun he => hnew (he ▸ hw)
      rw [Dict.contains, Dict.get?_erase, if_neg hne]
      rfl
    rw [List.foldl_cons, ih hids]
    unfold retireOne
    by_cases hid : c.workers.contains id = true
    · simp only [hid, if_true, hothers, List.filter_cons_of_pos hid, List.append_assoc,
        List.singleton_append]
      rfl
    · have hgone : c.workers.erase id = c.workers :=
        Dict.erase_eq_self fun hin => hid (Dict.contains_iff_mem_keys.2 hin)
      have hrest : c.workers.eraseAll (id :: ids) = c.workers.eraseAll ids := by
        rw [Dict.eraseAll, List.foldl_cons, hgone]
        rfl
      simp only [hid, List.filter_cons_of_neg hid, hrest]
      rfl

/-- Connected workers that are drained have been retired, each of them once. -/
theorem retired_retire {ids : List Id} (hids : ids.Nodup) (hall : ∀ w ∈ ids, w ∈ c.observed) :
    (c.retire (.close ids)).retired = c.retired ++ ids := by
  have hconnected : ids.filter c.workers.contains = ids :=
    List.filter_eq_self.2 fun w hw => Dict.contains_iff_mem_keys.2 (hall w hw)
  rw [retire_close hids, hconnected]

/-- The events account for the cluster: they replay to the size of its plan, each growth is one, no
more are let go than there are, and whoever was let go is gone for good and has been retired. -/
structure Accounted (size : Nat) (events : List Recommendation) (c : Cluster) : Prop where
  coherent : c.Coherent
  running : c.status.isRunning = true
  fresh : c.Fresh
  size_eq : replay size events = c.plan.size
  grows : ∀ past n, past ++ [.up n] <+: events → replay size past < n
  leaves : ∀ past ws, past ++ [.down ws] <+: events → ws.size ≤ replay size past
  gone : ∀ ws ∈ removals events, ∀ w ∈ ws, ¬ w ∈ c.plan ∧ ¬ c.Unused w
  disjoint : (removals events).Pairwise fun a b => ∀ w ∈ a, ¬ w ∈ b
  retired : c.retired.length = total ((removals events).map IdSet.size)

namespace Accounted

lemma grow (h : Accounted size events c) {n : Nat} (hn : c.plan.size < n) :
    Accounted size (events ++ [.up n]) (c.grow n) := by
  obtain ⟨k, b, p, hframe⟩ := c.grow_frame n
  have hremovals : removals (events ++ [.up n]) = removals events := by simp [removed?]
  constructor
  · exact h.coherent.scale (scale_eq_grow h.running hn)
  · rw [hframe]
    exact h.running
  · exact h.fresh.grow n
  · rw [replay_concat, size_grow (Nat.le_of_lt hn)]
    rfl
  · intro past m hp
    rcases List.prefix_concat_iff.1 hp with he | hp
    · obtain ⟨rfl, hm⟩ := List.append_inj' he rfl
      cases hm
      rw [h.size_eq]
      exact hn
    · exact h.grows past m hp
  · intro past ws hp
    rcases List.prefix_concat_iff.1 hp with he | hp
    · obtain ⟨-, hws⟩ := List.append_inj' he rfl
      cases hws
    · exact h.leaves past ws hp
  · intro ws hws w hw
    rw [hremovals] at hws
    obtain ⟨hplan, hunused⟩ := h.gone ws hws w hw
    refine ⟨fun hmem => ?_, fun hu => hunused hu.of_grow⟩
    rcases mem_plan_grow hmem with hold | ⟨k, hk, -, rfl⟩
    · exact hplan hold
    · exact hunused ⟨k, hk, rfl⟩
  · rw [hremovals]
    exact h.disjoint
  · rw [hremovals, hframe]
    exact h.retired

lemma letGo (h : Accounted size events c) (hsteady : c.Steady) {ws : IdSet}
    (hws : ∀ w ∈ ws, w ∈ c.plan) :
    Accounted size (events ++ [.down ws]) ((c.retire (.close ws.toList)).scaleDown ws.toList) := by
  have hremovals : removals (events ++ [.down ws]) = removals events ++ [ws] := by simp [removed?]
  have hretired := retired_retire (c := c) ws.nodup fun w hw => hsteady.observed_eq ▸ hws w hw
  have hcoherent := (h.coherent.retire (.close ws.toList)).scaleDown ws.toList
  obtain ⟨workers, gone, hframe⟩ := c.retire_frame (.close ws.toList)
  rw [hframe] at hretired hcoherent ⊢
  have hplan : ∀ w, w ∈ c.plan.eraseAll ws.toList ↔ w ∈ c.plan ∧ ¬ w ∈ ws := fun w =>
    IdSet.mem_eraseAll
  constructor
  · exact hcoherent
  · exact h.running
  · exact fun w hw hmem => h.fresh w hw ((hplan w).1 hmem).1
  · have hsize := IdSet.size_eraseAll_add ws.nodup hws
    rw [replay_concat, h.size_eq]
    exact Nat.sub_eq_of_eq_add hsize.symm
  · intro past m hp
    rcases List.prefix_concat_iff.1 hp with he | hp
    · obtain ⟨-, hm⟩ := List.append_inj' he rfl
      cases hm
    · exact h.grows past m hp
  · intro past gone hp
    rcases List.prefix_concat_iff.1 hp with he | hp
    · obtain ⟨rfl, hgone⟩ := List.append_inj' he rfl
      cases hgone
      rw [h.size_eq]
      exact IdSet.size_le_of_subset hws
    · exact h.leaves past gone hp
  · intro old hold w hw
    rw [hremovals] at hold
    rcases List.mem_append.1 hold with hold | hold
    · obtain ⟨hnot, hunused⟩ := h.gone old hold w hw
      exact ⟨fun hmem => hnot ((hplan w).1 hmem).1, hunused⟩
    · rw [List.mem_singleton.1 hold] at hw
      exact ⟨fun hmem => ((hplan w).1 hmem).2 hw, fun hu => h.fresh w hu (hws w hw)⟩
  · rw [hremovals]
    refine List.pairwise_append.2 ⟨h.disjoint, List.pairwise_singleton _ _, ?_⟩
    intro old hold new hnew w hw hmem
    rw [List.mem_singleton.1 hnew] at hmem
    exact (h.gone old hold w hw).1 (hws w hmem)
  · change gone = _ at hretired
    change gone.length = _
    rw [hremovals, hretired, List.map_append, total_append, List.length_append, h.retired]
    rfl

/-- A decision that fits is accounted for by its entry in the log. -/
theorem carryOut (h : Accounted size events c) (hsteady : c.Steady) (hd : c.Fits d) :
    Accounted size (events ++ d.noted) (c.carryOut d) := by
  cases d with
  | same => rwa [noted, List.append_nil]
  | up n => exact h.grow hd
  | down ws => exact h.letGo hsteady hd.2

/-- Reconciling and arriving change neither the plan nor the names to be given. -/
lemma reconcile_arriveAll (h : Accounted size events c) :
    Accounted size events c.reconcile.arriveAll where
  coherent := h.coherent.reconcile.arriveAll
  running := h.running
  fresh := h.fresh
  size_eq := h.size_eq
  grows := h.grows
  leaves := h.leaves
  gone := h.gone
  disjoint := h.disjoint
  retired := h.retired

end Accounted

end Cluster

end Fleet
