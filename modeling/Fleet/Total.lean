/-!
Sums of lists of numbers. The sum of two lists put together is the sum of their sums, the order of
the items does not count, and leaving items out makes it no larger.
-/
namespace Fleet

def total : List Nat → Nat
  | [] => 0
  | x :: rest => x + total rest

@[simp] theorem total_nil : total [] = 0 := rfl

@[simp] theorem total_cons (x : Nat) (rest : List Nat) :
    total (x :: rest) = x + total rest := rfl

theorem total_eq_foldr (xs : List Nat) : total xs = xs.foldr (· + ·) 0 := by
  induction xs with
  | nil => rfl
  | cons x rest ih => rw [total_cons, List.foldr_cons, ih]

@[simp] theorem total_append (xs ys : List Nat) : total (xs ++ ys) = total xs + total ys := by
  simp only [total_eq_foldr]
  exact List.sum_append_nat

theorem total_perm {xs ys : List Nat} (h : xs.Perm ys) : total xs = total ys := by
  simp only [total_eq_foldr]
  exact h.sum_nat

theorem total_le_of_sublist {xs ys : List Nat} (h : xs.Sublist ys) : total xs ≤ total ys := by
  obtain ⟨rest, hperm⟩ := h.exists_perm_append
  rw [total_perm hperm, total_append]
  exact Nat.le_add_right _ _

end Fleet
