import Fleet.Scaling.Recommendation

/-!
The log of decisions, which forgets the oldest ones when it is full. It is a queue of two lists, so
that recording takes constant time on the whole; recording appends to `events` and drops from its
front what exceeds the capacity.
-/
namespace Fleet

/-- The latest `capacity` decisions: those in `front` from the oldest on, then those in `back` from
the newest on. -/
structure History where
  capacity : Nat
  front : List Recommendation
  back : List Recommendation
  size : Nat
  size_eq : size = front.length + back.length
  deriving DecidableEq

namespace History

/-- The number of decisions a log keeps if nothing else is said. -/
def standardCapacity : Nat := 10000

def empty (capacity : Nat) : History := ⟨capacity, [], [], 0, rfl⟩

instance : Inhabited History := ⟨empty standardCapacity⟩

def events (h : History) : List Recommendation := h.front ++ h.back.reverse

def isEmpty (h : History) : Bool := h.size == 0

def first? (h : History) : Option Recommendation :=
  match h.front with
  | r :: _ => some r
  | [] => h.back.getLast?

def last? (h : History) : Option Recommendation :=
  match h.back with
  | r :: _ => some r
  | [] => h.front.getLast?

/-- Appends a decision, whatever the capacity. -/
def append (h : History) (r : Recommendation) : History where
  capacity := h.capacity
  front := h.front
  back := r :: h.back
  size := h.size + 1
  size_eq := by simp [h.size_eq]; omega

def dropOldest (h : History) : History :=
  match nonempty : h.front with
  | _ :: front =>
    ⟨h.capacity, front, h.back, h.size - 1, by simp [h.size_eq, nonempty, Nat.add_right_comm]⟩
  | [] => ⟨h.capacity, h.back.reverse.tail, [], h.size - 1, by simp [h.size_eq, nonempty]⟩

/-- Records a decision; the oldest one gives way when the log is full. -/
def record (h : History) (r : Recommendation) : History :=
  if h.capacity = 0 then h
  else if h.size = h.capacity then h.dropOldest.append r
  else h.append r

@[simp] theorem events_empty (capacity : Nat) : (empty capacity).events = [] := rfl

theorem size_eq_length (h : History) : h.size = h.events.length := by
  simp [events, h.size_eq]

@[simp] theorem events_append (h : History) (r : Recommendation) :
    (h.append r).events = h.events ++ [r] := by
  simp [events, append]

@[simp] theorem events_dropOldest (h : History) : h.dropOldest.events = h.events.tail := by
  unfold dropOldest events
  split <;> simp_all

theorem first?_eq (h : History) : h.first? = h.events.head? := by
  unfold first? events
  split <;> simp_all

theorem last?_eq (h : History) : h.last? = h.events.getLast? := by
  unfold last? events
  split <;> simp_all

theorem isEmpty_eq (h : History) : h.isEmpty = h.events.isEmpty := by
  unfold isEmpty
  rw [size_eq_length]
  cases h.events <;> rfl

/-- The events after recording, for a log that is no fuller than it may be. -/
theorem events_record (h : History) (r : Recommendation) (room : h.size ≤ h.capacity) :
    (h.record r).events = (h.events ++ [r]).drop (h.size + 1 - h.capacity) := by
  unfold record
  have length := h.size_eq_length
  split
  · rename_i none
    have : h.events = [] := List.eq_nil_of_length_eq_zero (by omega)
    simp [this, none]
  · split
    · rename_i full
      obtain ⟨first, rest, e⟩ : ∃ first rest, h.events = first :: rest := by
        cases e : h.events with
        | nil => simp [e] at length; omega
        | cons first rest => exact ⟨first, rest, rfl⟩
      have : h.size + 1 - h.capacity = 1 := by omega
      simp [e, this]
    · have : h.size + 1 - h.capacity = 0 := by omega
      simp [this]

end History

end Fleet
