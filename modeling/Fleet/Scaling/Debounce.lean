import Fleet.Dict

/-!
How often in a row a worker has been proposed for removal. A worker is let go once it has been
proposed `waitCount` times without a break, and is not counted any longer then.
-/
namespace Fleet

/-- The counts of the workers that were proposed last time and have not been let go. -/
structure Debounce where
  waitCount : Nat
  counts : Dict Nat
  deriving DecidableEq

namespace Debounce

def create (waitCount : Nat) : Debounce := ⟨waitCount, ∅⟩

/-- The count of a worker; one that is not counted has none. -/
def count (d : Debounce) (id : Id) : Nat := (d.counts.get? id).getD 0

def size (d : Debounce) : Nat := d.counts.size

def isEmpty (d : Debounce) : Bool := d.counts.isEmpty

def clear (d : Debounce) : Debounce := { d with counts := ∅ }

/-- The counts with one more for each candidate; the other workers are forgotten. -/
def raised (d : Debounce) (candidates : IdSet) : Dict Nat :=
  Dict.ofKeys candidates fun id => d.count id + 1

/-- The candidates that are let go now. -/
def due (d : Debounce) (candidates : IdSet) : IdSet :=
  ((d.raised candidates).filter fun _ n => d.waitCount ≤ n).keys

/-- The counts after a round of proposals, without those that are let go. -/
def observe (d : Debounce) (candidates : IdSet) : Debounce :=
  { d with counts := (d.raised candidates).filter fun _ n => n < d.waitCount }

@[simp] theorem count_create (waitCount : Nat) (id : Id) : (create waitCount).count id = 0 := rfl

@[simp] theorem count_clear (d : Debounce) (id : Id) : d.clear.count id = 0 := rfl

@[simp] theorem waitCount_clear (d : Debounce) : d.clear.waitCount = d.waitCount := rfl

@[simp] theorem waitCount_observe (d : Debounce) (s : IdSet) :
    (d.observe s).waitCount = d.waitCount := rfl

theorem count_observe (d : Debounce) (candidates : IdSet) (id : Id) :
    (d.observe candidates).count id =
      if id ∈ candidates ∧ d.count id + 1 < d.waitCount then d.count id + 1 else 0 := by
  simp only [count, observe, Dict.get?_filter, raised, Dict.get?_ofKeys]
  by_cases member : id ∈ candidates
  · simp only [member, ite_true, true_and]
    by_cases few : (d.counts.get? id).getD 0 + 1 < d.waitCount <;>
      simp [Option.filter, few]
  · simp [member]

theorem mem_due {d : Debounce} {candidates : IdSet} {id : Id} :
    id ∈ d.due candidates ↔ id ∈ candidates ∧ d.waitCount ≤ d.count id + 1 := by
  simp only [due, Dict.mem_keys, Dict.get?_filter, raised, Dict.get?_ofKeys]
  by_cases member : id ∈ candidates <;> simp [member, Option.filter]

end Debounce

end Fleet
