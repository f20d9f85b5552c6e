import Fleet.Proofs.Resizing

/-! The order in which a plan gives workers up when it has to become smaller. Scaling gives up the
first workers of the order, and two steps give up the same ones as a single step. -/
namespace Fleet

namespace IdSet

lemma eraseAll_append (s : IdSet) (xs ys : List Id) :
    s.eraseAll (xs ++ ys) = (s.eraseAll xs).eraseAll ys := List.foldl_append

end IdSet

namespace Cluster

variable {c : Cluster} {m n k : Nat} {x y : Id} {order order' : List Id}

/-- One worker goes before another: a missing one before a connected one, of two missing ones the
one with the smaller name, and of two connected ones the one with the larger name. -/
inductive GoesBefore (observed : IdSet) (x y : Id) : Prop where
  | missing (hx : ¬ x ∈ observed) (hy : ¬ y ∈ observed) (hlt : x < y)
  | mixed (hx : ¬ x ∈ observed) (hy : y ∈ observed)
  | connected (hx : x ∈ observed) (hy : y ∈ observed) (hlt : y < x)

lemma GoesBefore.asymm {observed : IdSet} (h : GoesBefore observed x y) :
    ¬ GoesBefore observed y x := by
  intro h'
  cases h with
  | missing hx hy hlt =>
    cases h' with
    | missing _ _ hgt => exact String.lt_asymm hlt hgt
    | mixed _ hx' => exact hx hx'
    | connected hy' => exact hy hy'
  | mixed hx hy =>
    cases h' with
    | missing hy' => exact hy' hy
    | mixed hy' => exact hy' hy
    | connected _ hx' => exact hx hx'
  | connected hx hy hlt =>
    cases h' with
    | missing hy' => exact hy' hy
    | mixed hy' => exact hy' hy
    | connected _ _ hgt => exact String.lt_asymm hlt hgt

/-- The planned workers in the order in which they go. -/
structure GoingOrder (c : Cluster) (order : List Id) : Prop where
  sorted : order.Pairwise (GoesBefore c.observed)
  mem_iff : ∀ x, x ∈ order ↔ x ∈ c.plan

namespace GoingOrder

lemma nodup (h : c.GoingOrder order) : order.Nodup := by
  refine h.sorted.imp fun hxy hsame => ?_
  subst hsame
  exact hxy.asymm hxy

/-- There is only one such order. -/
lemma unique (h : c.GoingOrder order) (h' : c.GoingOrder order') : order = order' := by
  have hperm : order.Perm order' := by
    refine (List.perm_ext_iff_of_nodup h.nodup h'.nodup).2 fun x => ?_
    rw [h.mem_iff, h'.mem_iff]
  exact hperm.eq_of_pairwise (fun x y _ _ hxy hyx => absurd hyx hxy.asymm) h.sorted h'.sorted

lemma mem_drop_iff (h : c.GoingOrder order) (k : Nat) :
    x ∈ order.drop k ↔ x ∈ c.plan ∧ x ∉ order.take k := by
  have hsplit : x ∈ order ↔ x ∈ order.take k ∨ x ∈ order.drop k := by
    rw [← List.mem_append, List.take_append_drop]
  have hapart : x ∈ order.take k → x ∉ order.drop k :=
    fun ht hd => List.disjoint_take_drop h.nodup (Nat.le_refl k) ht hd
  rw [← h.mem_iff]
  tauto

/-- Whoever goes before one of the first workers is one of them, too. -/
lemma mem_take_of_goesBefore (h : c.GoingOrder order) (hx : x ∈ order.take k) (hy : y ∈ c.plan)
    (hyx : GoesBefore c.observed y x) : y ∈ order.take k := by
  by_contra hlate
  have hrest : y ∈ order.drop k := (h.mem_drop_iff k).2 ⟨hy, hlate⟩
  have hsorted := h.sorted
  rw [← List.take_append_drop k order, List.pairwise_append] at hsorted
  exact hyx.asymm (hsorted.2.2 x hx y hrest)

end GoingOrder

lemma goingOrder_surplus (c : Cluster) : c.GoingOrder c.surplus := by
  have hmissing : ∀ x ∈ c.plan.toList.filter (fun id => !c.workers.contains id),
      ¬ x ∈ c.observed := by
    intro x hx hxo
    simp [Dict.contains_iff_mem_keys.2 hxo] at hx
  have hconnected : ∀ x ∈ c.plan.toList.reverse.filter (fun id => c.workers.contains id),
      x ∈ c.observed :=
    fun x hx => Dict.contains_iff_mem_keys.1 (List.mem_filter.1 hx).2
  have hdescending : c.plan.toList.reverse.Pairwise fun x y => y < x :=
    List.pairwise_reverse.2 c.plan.ascending
  refine ⟨List.pairwise_append.2 ⟨?_, ?_, ?_⟩, fun x => c.surplus_perm.mem_iff⟩
  · exact (c.plan.ascending.filter _).imp_of_mem
      fun hx hy hlt => .missing (hmissing _ hx) (hmissing _ hy) hlt
  · exact (hdescending.filter _).imp_of_mem
      fun hx hy hlt => .connected (hconnected _ hx) (hconnected _ hy) hlt
  · exact fun x hx y hy => .mixed (hmissing x hx) (hconnected y hy)

/-- The first ones of the order are given up, and the order of the others stays. -/
lemma GoingOrder.shrink (h : c.GoingOrder order) (n : Nat) :
    (c.shrink n).GoingOrder (order.drop (c.plan.size - n)) := by
  obtain rfl := h.unique c.goingOrder_surplus
  refine ⟨h.sorted.sublist (List.drop_sublist _ _), fun x => ?_⟩
  rw [h.mem_drop_iff]
  exact IdSet.mem_eraseAll.symm

lemma surplus_shrink (c : Cluster) (n : Nat) :
    (c.shrink n).surplus = c.surplus.drop (c.plan.size - n) :=
  (c.shrink n).goingOrder_surplus.unique (c.goingOrder_surplus.shrink n)

/-- Two steps down give up the same workers as one. -/
theorem shrink_shrink (hmn : m ≤ n) (hn : n ≤ c.plan.size) :
    (c.shrink n).shrink m = c.shrink m := by
  have hsplit : c.surplus.take (c.plan.size - m) = c.surplus.take (c.plan.size - n) ++
      (c.surplus.drop (c.plan.size - n)).take (n - m) := by
    rw [← List.take_add]
    congr 1
    omega
  have hplan : ((c.shrink n).shrink m).plan = (c.shrink m).plan := by
    calc ((c.shrink n).shrink m).plan
        = (c.shrink n).plan.eraseAll ((c.surplus.drop (c.plan.size - n)).take (n - m)) := by
          rw [Cluster.shrink, surplus_shrink, size_shrink hn]
      _ = c.plan.eraseAll (c.surplus.take (c.plan.size - m)) := by
          rw [hsplit, IdSet.eraseAll_append]
          rfl
  exact congrArg (fun plan => ({ c with plan := plan } : Cluster)) hplan

/-- A running cluster that is to have no more workers than it plans gives up the first ones of its
only `GoingOrder`, as many as are too many, and nothing else changes. So it gives up a connected
worker only with all the missing ones. If it is then to have still fewer workers, it comes to the
same as if that had been asked for at once. -/
theorem scale_gives_up_first (hrun : c.status.isRunning = true) (hn : n ≤ c.plan.size) :
    ∃ c' order, c.scale n = .ok c' ∧ c' = { c with plan := c'.plan } ∧
      c.GoingOrder order ∧ (∀ other, c.GoingOrder other → other = order) ∧
      (∀ x, x ∈ c'.plan ↔ x ∈ c.plan ∧ x ∉ order.take (c.plan.size - n)) ∧
      (∀ x ∈ c.plan, x ∉ c'.plan → x ∈ c.observed →
        ∀ y ∈ c.plan, ¬ y ∈ c.observed → ¬ y ∈ c'.plan) ∧
      ∀ m ≤ n, c'.scale m = c.scale m := by
  have horder := c.goingOrder_surplus
  have hgone : ∀ x, x ∈ (c.shrink n).plan ↔
      x ∈ c.plan ∧ x ∉ c.surplus.take (c.plan.size - n) := fun x => IdSet.mem_eraseAll
  refine ⟨c.shrink n, c.surplus, scale_of_le hrun hn, rfl, horder,
    fun other hother => hother.unique horder, hgone, ?_, fun m hmn => ?_⟩
  · intro x hx hxgone hxo y hy hyo hykept
    have hfirst : x ∈ c.surplus.take (c.plan.size - n) := by
      by_contra hlate
      exact hxgone ((hgone x).2 ⟨hx, hlate⟩)
    exact ((hgone y).1 hykept).2 (horder.mem_take_of_goesBefore hfirst hy (.mixed hyo hxo))
  · have hsmaller : m ≤ (c.shrink n).plan.size := by
      rw [size_shrink hn]
      exact hmn
    rw [scale_of_le hrun (hmn.trans hn), scale_of_le (c := c.shrink n) hrun hsmaller,
      shrink_shrink hmn hn]

/-- Two workers are connected, and two more are planned. -/
def halfConnected : Cluster :=
  Operation.applyAll (create "z" 100)
    [.addWorker (.idle "a" 0 100), .addWorker (.idle "b" 0 100), .scale 4]

/-- The two missing workers go first, then the second one of those that are connected. -/
theorem scale_gives_up_first_halfConnected :
    halfConnected.Reachable ∧ halfConnected.status.isRunning = true ∧
    3 ≤ halfConnected.plan.size ∧
    ∃ c', halfConnected.scale 3 = .ok c' ∧ c'.plan.toList = ["a", "b", "z-worker-1"] ∧
      halfConnected.GoingOrder ["z-worker-0", "z-worker-1", "b", "a"] ∧
      c'.scale 1 = halfConnected.scale 1 := by
  have hrun : halfConnected.status.isRunning = true := by decide +kernel
  have hsize : 3 ≤ halfConnected.plan.size := by decide +kernel
  obtain ⟨c', order, hscale, -, horder, honly, -, -, hagain⟩ := scale_gives_up_first hrun hsize
  have hsurplus : halfConnected.surplus = ["z-worker-0", "z-worker-1", "b", "a"] := by
    decide +kernel
  obtain rfl := honly _ halfConnected.goingOrder_surplus
  refine ⟨⟨_, _, _, rfl⟩, hrun, hsize, c', hscale, ?_, hsurplus ▸ horder, hagain 1 (by decide)⟩
  rw [scale_of_le hrun hsize] at hscale
  cases hscale
  decide +kernel

end Cluster

end Fleet
