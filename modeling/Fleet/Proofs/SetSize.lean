import Fleet.IdSet
import Mathlib.Data.Finset.Card

/-! Sizes of sets of identifiers, read off the finite sets with the same members: what inserting,
joining and taking apart do to them. -/
namespace Fleet.IdSet

/-- The set as a finite set, for counting. -/
def toFinset (s : IdSet) : Finset Id := s.toList.toFinset

@[simp] lemma mem_toFinset {s : IdSet} {x : Id} : x ∈ s.toFinset ↔ x ∈ s := List.mem_toFinset

@[simp] lemma card_toFinset (s : IdSet) : s.toFinset.card = s.size :=
  List.toFinset_card_of_nodup s.nodup

lemma size_eq_card {s : IdSet} {t : Finset Id} (h : ∀ x, x ∈ s ↔ x ∈ t) : s.size = t.card := by
  rw [← card_toFinset]
  congr 1
  ext x
  rw [mem_toFinset, h]

@[simp] lemma size_empty : (∅ : IdSet).size = 0 := rfl

lemma size_eq_zero_iff {s : IdSet} : s.size = 0 ↔ s.isEmpty = true := by
  simp [size, isEmpty]

lemma size_pos_iff {s : IdSet} : 0 < s.size ↔ s.isEmpty = false := by
  rw [Nat.pos_iff_ne_zero, Ne, size_eq_zero_iff, Bool.not_eq_true]

theorem size_le_of_subset {s t : IdSet} (h : ∀ x ∈ s, x ∈ t) : s.size ≤ t.size := by
  rw [← card_toFinset s, ← card_toFinset t]
  apply Finset.card_le_card
  intro x hx
  exact mem_toFinset.2 (h x (mem_toFinset.1 hx))

/-- A part that is no smaller than the whole is the whole. -/
theorem eq_of_subset_of_size_le {s t : IdSet} (h : ∀ x ∈ s, x ∈ t) (hs : t.size ≤ s.size) :
    s = t := by
  rw [← card_toFinset s, ← card_toFinset t] at hs
  have he : s.toFinset = t.toFinset :=
    Finset.eq_of_subset_of_card_le (fun x hx => mem_toFinset.2 (h x (mem_toFinset.1 hx))) hs
  refine ext_mem fun x => ?_
  rw [← mem_toFinset, he, mem_toFinset]

lemma insert_of_mem {s : IdSet} {x : Id} (h : x ∈ s) : s.insert x = s := by
  refine ext_mem fun z => ?_
  rw [mem_insert]
  constructor
  · rintro (rfl | hz)
    · exact h
    · exact hz
  · exact Or.inr

theorem size_insert (s : IdSet) (x : Id) :
    (s.insert x).size = if x ∈ s then s.size else s.size + 1 := by
  split_ifs with h
  · rw [insert_of_mem h]
  · have hc : (s.insert x).size = (Insert.insert x s.toFinset).card :=
      size_eq_card (by simp)
    rw [hc, Finset.card_insert_of_notMem (by simpa using h), card_toFinset]

theorem size_union_le (s t : IdSet) : (s.union t).size ≤ s.size + t.size := by
  have hc : (s.union t).size = (s.toFinset ∪ t.toFinset).card := size_eq_card (by simp)
  rw [hc, ← card_toFinset s, ← card_toFinset t]
  exact Finset.card_union_le _ _

theorem size_ofList_le (l : List Id) : (ofList l).size ≤ l.length := by
  have hc : (ofList l).size = l.toFinset.card := size_eq_card (by simp)
  rw [hc]
  exact List.toFinset_card_le l

lemma size_ofList_of_nodup {l : List Id} (hl : l.Nodup) : (ofList l).size = l.length := by
  have hc : (ofList l).size = l.toFinset.card := size_eq_card (by simp)
  rw [hc, List.toFinset_card_of_nodup hl]

@[simp] lemma size_take (s : IdSet) (n : Nat) : (s.take n).size = min n s.size := by
  simp [take, size]

lemma mem_of_mem_take {s : IdSet} {n : Nat} {x : Id} (h : x ∈ s.take n) : x ∈ s :=
  List.mem_of_mem_take h

theorem size_diff_add {s t : IdSet} (h : ∀ x ∈ t, x ∈ s) : (s.diff t).size + t.size = s.size := by
  have hc : (s.diff t).size = (s.toFinset \ t.toFinset).card := size_eq_card (by simp)
  have hs : t.toFinset ⊆ s.toFinset := fun x hx => mem_toFinset.2 (h x (mem_toFinset.1 hx))
  rw [hc, ← card_toFinset s, ← card_toFinset t]
  exact Finset.card_sdiff_add_card_eq_card hs

/-- Erasing loses no more than what is erased. -/
theorem size_le_size_eraseAll_add (s : IdSet) (xs : List Id) :
    s.size ≤ (s.eraseAll xs).size + xs.length := by
  have hc : (s.eraseAll xs).size = (s.toFinset \ xs.toFinset).card := size_eq_card (by simp)
  have hd := Finset.le_card_sdiff xs.toFinset s.toFinset
  have hx := List.toFinset_card_le xs
  rw [card_toFinset] at hd
  omega

/-- Erasing loses exactly what is erased, if that is a part and has no repetition. -/
theorem size_eraseAll_add {s : IdSet} {xs : List Id} (hx : xs.Nodup) (h : ∀ x ∈ xs, x ∈ s) :
    (s.eraseAll xs).size + xs.length = s.size := by
  have hc : (s.eraseAll xs).size = (s.toFinset \ xs.toFinset).card := size_eq_card (by simp)
  have hs : xs.toFinset ⊆ s.toFinset :=
    fun x hm => mem_toFinset.2 (h x (List.mem_toFinset.1 hm))
  rw [hc, ← card_toFinset s, ← List.toFinset_card_of_nodup hx]
  exact Finset.card_sdiff_add_card_eq_card hs

lemma eraseAll_subset {s : IdSet} {xs : List Id} {x : Id} (h : x ∈ s.eraseAll xs) : x ∈ s :=
  (mem_eraseAll.1 h).1

end Fleet.IdSet
