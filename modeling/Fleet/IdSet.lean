/-!
Finite sets of identifiers, kept as strictly ascending lists. Sets with the same members are equal,
and every operation is described by the members of its result.
-/
namespace Fleet

/-- The name of a worker, of a group of workers or of a field. -/
abbrev Id := String

/-- A set of identifiers, listed in the order of code points and without repetition. -/
@[ext] structure IdSet where
  toList : List Id
  ascending : toList.Pairwise (· < ·)
  deriving DecidableEq

namespace IdSet

instance : Membership Id IdSet := ⟨fun s x => x ∈ s.toList⟩

theorem mem_def {s : IdSet} {x : Id} : x ∈ s ↔ x ∈ s.toList := Iff.rfl

instance (x : Id) (s : IdSet) : Decidable (x ∈ s) := inferInstanceAs (Decidable (x ∈ s.toList))

def empty : IdSet := ⟨[], .nil⟩

instance : EmptyCollection IdSet := ⟨empty⟩
instance : Inhabited IdSet := ⟨empty⟩

def size (s : IdSet) : Nat := s.toList.length

def isEmpty (s : IdSet) : Bool := s.toList.isEmpty

/-- Puts `x` before the first larger entry; an entry equal to `x` stays the only one. -/
def insertAscending (x : Id) : List Id → List Id
  | [] => [x]
  | y :: rest =>
    if x < y then x :: y :: rest
    else if y < x then y :: insertAscending x rest
    else y :: rest

theorem mem_insertAscending {x z : Id} {l : List Id} :
    z ∈ insertAscending x l ↔ z = x ∨ z ∈ l := by
  induction l with
  | nil => simp [insertAscending]
  | cons y rest ih =>
    unfold insertAscending
    split
    · simp
    · split
      · simp [ih]; grind
      · have same : x = y := String.le_antisymm (String.not_lt.1 ‹_›) (String.not_lt.1 ‹_›)
        simp [same]

theorem pairwise_insertAscending {x : Id} {l : List Id} (h : l.Pairwise (· < ·)) :
    (insertAscending x l).Pairwise (· < ·) := by
  induction l with
  | nil => simp [insertAscending]
  | cons y rest ih =>
    have ⟨below, tail⟩ := List.pairwise_cons.1 h
    unfold insertAscending
    split
    · refine List.pairwise_cons.2 ⟨fun z hz => ?_, h⟩
      rcases List.mem_cons.1 hz with rfl | hz
      · assumption
      · exact String.lt_trans ‹_› (below z hz)
    · split
      · refine List.pairwise_cons.2 ⟨fun z hz => ?_, ih tail⟩
        rcases mem_insertAscending.1 hz with rfl | hz
        · assumption
        · exact below z hz
      · exact h

def insert (s : IdSet) (x : Id) : IdSet :=
  ⟨insertAscending x s.toList, pairwise_insertAscending s.ascending⟩

def filter (s : IdSet) (keep : Id → Bool) : IdSet :=
  ⟨s.toList.filter keep, s.ascending.filter keep⟩

def erase (s : IdSet) (x : Id) : IdSet := s.filter (· != x)

def eraseAll (s : IdSet) (xs : List Id) : IdSet := xs.foldl erase s

def union (s t : IdSet) : IdSet := t.toList.foldl insert s

def diff (s t : IdSet) : IdSet := s.filter (fun x => !decide (x ∈ t))

def ofList (l : List Id) : IdSet := l.foldl insert ∅

def take (s : IdSet) (n : Nat) : IdSet :=
  ⟨s.toList.take n, s.ascending.sublist (List.take_sublist n _)⟩

/-! ### Members -/

@[simp] theorem not_mem_empty {x : Id} : ¬ x ∈ (∅ : IdSet) := List.not_mem_nil

@[simp] theorem mem_insert {s : IdSet} {x z : Id} : z ∈ s.insert x ↔ z = x ∨ z ∈ s :=
  mem_insertAscending

@[simp] theorem mem_filter {s : IdSet} {keep : Id → Bool} {x : Id} :
    x ∈ s.filter keep ↔ x ∈ s ∧ keep x := List.mem_filter

@[simp] theorem mem_erase {s : IdSet} {x z : Id} : z ∈ s.erase x ↔ z ∈ s ∧ z ≠ x := by
  simp [erase]

@[simp] theorem mem_diff {s t : IdSet} {x : Id} : x ∈ s.diff t ↔ x ∈ s ∧ ¬ x ∈ t := by
  simp [diff]

theorem mem_foldl_insert {l : List Id} {s : IdSet} {x : Id} :
    x ∈ l.foldl insert s ↔ x ∈ s ∨ x ∈ l := by
  induction l generalizing s with
  | nil => simp
  | cons y rest ih => simp [ih]; grind

@[simp] theorem mem_union {s t : IdSet} {x : Id} : x ∈ s.union t ↔ x ∈ s ∨ x ∈ t :=
  mem_foldl_insert

@[simp] theorem mem_ofList {l : List Id} {x : Id} : x ∈ ofList l ↔ x ∈ l := by
  simp [ofList, mem_foldl_insert]

@[simp] theorem mem_eraseAll {s : IdSet} {xs : List Id} {x : Id} :
    x ∈ s.eraseAll xs ↔ x ∈ s ∧ x ∉ xs := by
  induction xs generalizing s with
  | nil => simp [eraseAll]
  | cons y rest ih => simp only [eraseAll, List.foldl_cons] at ih ⊢; simp [ih]; grind

theorem nodup_of_ascending {l : List Id} (h : l.Pairwise (· < ·)) : l.Nodup := by
  refine h.imp ?_
  rintro x y hlt rfl
  exact String.lt_irrefl x hlt

theorem nodup (s : IdSet) : s.toList.Nodup := nodup_of_ascending s.ascending

theorem eq_of_ascending {l m : List Id} (hl : l.Pairwise (· < ·)) (hm : m.Pairwise (· < ·))
    (h : ∀ x, x ∈ l ↔ x ∈ m) : l = m := by
  refine List.Perm.eq_of_pairwise (fun x y _ _ hxy hyx => ?_) hl hm ?_
  · exact absurd hyx (String.lt_asymm hxy)
  · exact (List.perm_ext_iff_of_nodup (nodup_of_ascending hl) (nodup_of_ascending hm)).2 h

theorem ext_mem {s t : IdSet} (h : ∀ x, x ∈ s ↔ x ∈ t) : s = t :=
  IdSet.ext (eq_of_ascending s.ascending t.ascending h)

example : (ofList ["w10", "w2", "w1", "w2"]).toList = ["w1", "w10", "w2"] := by decide

end IdSet

end Fleet
