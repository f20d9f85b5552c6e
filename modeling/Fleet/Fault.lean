import Fleet.Total

/-!
Arithmetic in machine words: the steps that have no result, and sums and products that are checked.
A checked sum or product succeeds exactly when its value fits a word.
-/
namespace Fleet

/-- An arithmetic step without a result. It ends the computation that meets it. -/
inductive Fault where
  | sumTooLarge
  | productTooLarge
  | zeroDivisor
  | crossedBounds (minimum maximum : Nat)
  | instantTooLate
  deriving DecidableEq

namespace Fault

def message : Fault → String
  | sumTooLarge => "attempt to add with overflow"
  | productTooLarge => "attempt to multiply with overflow"
  | zeroDivisor => "attempt to divide by zero"
  | crossedBounds minimum maximum =>
    "min > max. min = " ++ toString minimum ++ ", max = " ++ toString maximum
  | instantTooLate => "overflow when adding duration to instant"

end Fault

namespace Word

/-- The numbers of a 64-bit word lie below: two to the 64th. -/
def limit : Nat := 18446744073709551616

/-- The numbers of a 32-bit word lie below: two to the 32nd. -/
def shortLimit : Nat := 4294967296

def isSigned (n : Int) : Bool := -9223372036854775808 ≤ n && n < 9223372036854775808

def largest : Nat := limit - 1

/-- The sum, if it and so every partial sum stays below `bound`. -/
def sum (bound : Nat) (xs : List Nat) : Except Fault Nat :=
  if total xs < bound then .ok (total xs) else .error .sumTooLarge

/-- The product, if it is a 64-bit word. -/
def mul (x y : Nat) : Except Fault Nat :=
  if x * y < limit then .ok (x * y) else .error .productTooLarge

def divUp (x y : Nat) : Except Fault Nat :=
  if y = 0 then .error .zeroDivisor else .ok ((x + (y - 1)) / y)

/-- The nearest number to `x` from `minimum` to `maximum`. -/
def clamp (minimum maximum x : Nat) : Except Fault Nat :=
  if maximum < minimum then .error (.crossedBounds minimum maximum)
  else .ok (max minimum (min x maximum))

theorem sum_eq_ok_iff {bound : Nat} {xs : List Nat} {n : Nat} :
    sum bound xs = .ok n ↔ total xs < bound ∧ total xs = n := by
  unfold sum; split <;> rename_i fits <;> simp [fits]

theorem mul_eq_ok_iff {x y n : Nat} : mul x y = .ok n ↔ x * y < limit ∧ x * y = n := by
  unfold mul; split <;> rename_i fits <;> simp [fits]

theorem divUp_eq_ok_iff {x y n : Nat} :
    divUp x y = .ok n ↔ y ≠ 0 ∧ (x + (y - 1)) / y = n := by
  unfold divUp; split <;> rename_i zero <;> simp [zero]

theorem clamp_eq_ok_iff {minimum maximum x n : Nat} :
    clamp minimum maximum x = .ok n ↔
      minimum ≤ maximum ∧ max minimum (min x maximum) = n := by
  unfold clamp
  split
  · rename_i crossed
    simp [Nat.not_le.2 crossed]
  · rename_i ordered
    simp [Nat.not_lt.1 ordered]

end Word

end Fleet
