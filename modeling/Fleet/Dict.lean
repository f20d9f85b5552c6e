import Fleet.IdSet

/-!
Finite maps from identifiers, kept as lists in ascending order of their keys. Each operation is
described by what `get?` answers after it, and maps with the same answers are equal.
-/
namespace Fleet

/-- A map from identifiers to `β`; every key has one entry and the keys ascend. -/
@[ext] structure Dict (β : Type) where
  entries : List (Id × β)
  ascending : (entries.map Prod.fst).Pairwise (· < ·)
  deriving DecidableEq

namespace Dict

variable {β γ : Type}

theorem ascending_nil : (([] : List (Id × β)).map Prod.fst).Pairwise (· < ·) := .nil

def empty : Dict β := ⟨[], ascending_nil⟩

instance : EmptyCollection (Dict β) := ⟨empty⟩
instance : Inhabited (Dict β) := ⟨empty⟩

def size (d : Dict β) : Nat := d.entries.length

def isEmpty (d : Dict β) : Bool := d.entries.isEmpty

def keys (d : Dict β) : IdSet := ⟨d.entries.map Prod.fst, d.ascending⟩

def values (d : Dict β) : List β := d.entries.map Prod.snd

/-- The value of the first entry for `k`. -/
def lookup (k : Id) : List (Id × β) → Option β
  | [] => none
  | (k', v) :: rest => if k' = k then some v else lookup k rest

def get? (d : Dict β) (k : Id) : Option β := lookup k d.entries

def contains (d : Dict β) (k : Id) : Bool := (d.get? k).isSome

/-- Puts an entry before the first larger key; an entry for the same key is replaced. -/
def insertAscending (k : Id) (v : β) : List (Id × β) → List (Id × β)
  | [] => [(k, v)]
  | (k', v') :: rest =>
    if k < k' then (k, v) :: (k', v') :: rest
    else if k' < k then (k', v') :: insertAscending k v rest
    else (k, v) :: rest

theorem map_fst_insertAscending (k : Id) (v : β) (l : List (Id × β)) :
    (insertAscending k v l).map Prod.fst = IdSet.insertAscending k (l.map Prod.fst) := by
  induction l with
  | nil => rfl
  | cons e rest ih =>
    obtain ⟨k', v'⟩ := e
    simp only [insertAscending, List.map_cons, IdSet.insertAscending]
    split
    · rfl
    · split
      · simp [ih]
      · have same : k = k' := String.le_antisymm (String.not_lt.1 ‹_›) (String.not_lt.1 ‹_›)
        simp [same]

def insert (d : Dict β) (k : Id) (v : β) : Dict β where
  entries := insertAscending k v d.entries
  ascending := by
    rw [map_fst_insertAscending]
    exact IdSet.pairwise_insertAscending d.ascending

def filter (d : Dict β) (keep : Id → β → Bool) : Dict β where
  entries := d.entries.filter fun e => keep e.1 e.2
  ascending := d.ascending.sublist ((List.filter_sublist).map _)

def erase (d : Dict β) (k : Id) : Dict β := d.filter fun k' _ => k' != k

def eraseAll (d : Dict β) (ks : List Id) : Dict β := ks.foldl erase d

def mapValues (f : β → γ) (d : Dict β) : Dict γ where
  entries := d.entries.map fun e => (e.1, f e.2)
  ascending := by simpa [List.map_map, Function.comp_def] using d.ascending

def modify (d : Dict β) (k : Id) (f : β → β) : Dict β where
  entries := d.entries.map fun e => if e.1 = k then (e.1, f e.2) else e
  ascending := by
    have fst : (Prod.fst ∘ fun e : Id × β => if e.1 = k then (e.1, f e.2) else e) = Prod.fst := by
      funext e
      simp only [Function.comp]
      split <;> rfl
    rw [List.map_map, fst]
    exact d.ascending

/-- The map on `s` whose value at each key is `f` of the key. -/
def ofKeys (s : IdSet) (f : Id → β) : Dict β where
  entries := s.toList.map fun k => (k, f k)
  ascending := by simpa [List.map_map, Function.comp_def] using s.ascending

/-- Of several entries for one key the last counts. -/
def ofList (l : List (Id × β)) : Dict β := l.foldl (fun d e => d.insert e.1 e.2) ∅

/-! ### Lookups -/

@[simp] theorem get?_empty (k : Id) : (∅ : Dict β).get? k = none := rfl

theorem lookup_insertAscending (k x : Id) (v : β) (l : List (Id × β)) :
    lookup x (insertAscending k v l) = if x = k then some v else lookup x l := by
  induction l with
  | nil => simp [insertAscending, lookup, eq_comm]
  | cons e rest ih =>
    obtain ⟨k', v'⟩ := e
    unfold insertAscending
    split
    · simp [lookup, eq_comm]
    · split
      · have : k' ≠ k := by rintro rfl; exact String.lt_irrefl _ ‹_›
        simp only [lookup, ih]
        grind
      · have same : k = k' := String.le_antisymm (String.not_lt.1 ‹_›) (String.not_lt.1 ‹_›)
        subst same
        simp only [lookup]
        grind

@[simp] theorem get?_insert (d : Dict β) (k x : Id) (v : β) :
    (d.insert k v).get? x = if x = k then some v else d.get? x :=
  lookup_insertAscending k x v d.entries

theorem lookup_eq_none_of_not_mem {x : Id} {l : List (Id × β)} (h : x ∉ l.map Prod.fst) :
    lookup x l = none := by
  induction l with
  | nil => rfl
  | cons e rest ih =>
    simp only [List.map_cons, List.mem_cons, not_or] at h
    simp [lookup, Ne.symm h.1, ih h.2]

theorem mem_of_lookup {x : Id} {v : β} {l : List (Id × β)} (h : lookup x l = some v) :
    (x, v) ∈ l := by
  induction l with
  | nil => simp [lookup] at h
  | cons e rest ih =>
    obtain ⟨k, w⟩ := e
    simp only [lookup] at h
    split at h
    · subst_vars; simp_all
    · simp [ih h]

theorem lookup_of_mem {x : Id} {v : β} {l : List (Id × β)}
    (order : (l.map Prod.fst).Pairwise (· < ·)) (h : (x, v) ∈ l) : lookup x l = some v := by
  induction l with
  | nil => simp at h
  | cons e rest ih =>
    obtain ⟨k, w⟩ := e
    have ⟨below, tail⟩ := List.pairwise_cons.1 order
    simp only [List.mem_cons, Prod.mk.injEq] at h
    rcases h with ⟨rfl, rfl⟩ | h
    · simp [lookup]
    · have : k ≠ x := by
        rintro rfl
        exact String.lt_irrefl _ (below k (List.mem_map.2 ⟨_, h, rfl⟩))
      simp [lookup, this, ih tail h]

theorem get?_eq_some_iff {d : Dict β} {x : Id} {v : β} :
    d.get? x = some v ↔ (x, v) ∈ d.entries :=
  ⟨mem_of_lookup, lookup_of_mem d.ascending⟩

theorem mem_keys {d : Dict β} {x : Id} : x ∈ d.keys ↔ (d.get? x).isSome := by
  constructor
  · intro h
    obtain ⟨e, he, rfl⟩ := List.mem_map.1 h
    simp [get?_eq_some_iff.2 (show (e.1, e.2) ∈ d.entries from he)]
  · intro h
    obtain ⟨v, hv⟩ := Option.isSome_iff_exists.1 h
    exact List.mem_map.2 ⟨_, get?_eq_some_iff.1 hv, rfl⟩

@[simp] theorem contains_iff_mem_keys {d : Dict β} {x : Id} :
    d.contains x = true ↔ x ∈ d.keys := by
  rw [mem_keys, contains]

@[simp] theorem size_keys (d : Dict β) : d.keys.size = d.size := by
  simp [keys, IdSet.size, size]

@[simp] theorem keys_insert (d : Dict β) (k : Id) (v : β) :
    (d.insert k v).keys = d.keys.insert k :=
  IdSet.ext (map_fst_insertAscending k v d.entries)

theorem get?_filter (d : Dict β) (keep : Id → β → Bool) (x : Id) :
    (d.filter keep).get? x = (d.get? x).filter (keep x) := by
  apply Option.ext
  intro v
  rw [get?_eq_some_iff, Option.filter_eq_some_iff, get?_eq_some_iff]
  simp [filter]

@[simp] theorem get?_erase (d : Dict β) (k x : Id) :
    (d.erase k).get? x = if x = k then none else d.get? x := by
  rw [erase, get?_filter]
  by_cases h : x = k
  · simp [h]
  · cases d.get? x <;> simp [h]

@[simp] theorem get?_eraseAll (d : Dict β) (ks : List Id) (x : Id) :
    (d.eraseAll ks).get? x = if x ∈ ks then none else d.get? x := by
  induction ks generalizing d with
  | nil => simp [eraseAll]
  | cons k rest ih =>
    have := ih (d.erase k)
    simp only [eraseAll, List.foldl_cons] at this ⊢
    rw [this, get?_erase]
    by_cases h : x ∈ rest <;> by_cases e : x = k <;> simp [h, e]

@[simp] theorem get?_mapValues (f : β → γ) (d : Dict β) (x : Id) :
    (d.mapValues f).get? x = (d.get? x).map f := by
  change lookup x (d.entries.map fun e => (e.1, f e.2)) = (lookup x d.entries).map f
  induction d.entries with
  | nil => rfl
  | cons e rest ih => simp only [List.map_cons, lookup]; split <;> simp_all

@[simp] theorem keys_mapValues (f : β → γ) (d : Dict β) : (d.mapValues f).keys = d.keys := by
  refine IdSet.ext_mem fun x => ?_
  simp only [mem_keys, get?_mapValues, Option.isSome_map]

@[simp] theorem values_mapValues (f : β → γ) (d : Dict β) :
    (d.mapValues f).values = d.values.map f := by
  simp [values, mapValues]

@[simp] theorem get?_modify (d : Dict β) (k x : Id) (f : β → β) :
    (d.modify k f).get? x = if x = k then (d.get? x).map f else d.get? x := by
  change lookup x (d.entries.map fun e => if e.1 = k then (e.1, f e.2) else e) =
    if x = k then (lookup x d.entries).map f else lookup x d.entries
  induction d.entries with
  | nil => simp [lookup]
  | cons e rest ih =>
    obtain ⟨k', v⟩ := e
    simp only [List.map_cons]
    by_cases h : k' = k
    · by_cases hx : k = x <;> simp_all [lookup]
    · by_cases hx : k' = x <;> simp_all [lookup]

@[simp] theorem keys_modify (d : Dict β) (k : Id) (f : β → β) : (d.modify k f).keys = d.keys := by
  refine IdSet.ext_mem fun x => ?_
  simp only [mem_keys, get?_modify]
  split <;> simp

/-- Of values that are changed one after another each is changed by its own item. -/
theorem get?_foldl_modify {items : List (Id × γ)} (distinct : (items.map Prod.fst).Nodup)
    (f : γ → β → β) (d : Dict β) (x : Id) :
    (items.foldl (fun d e => d.modify e.1 (f e.2)) d).get? x =
      match lookup x items with
      | some v => (d.get? x).map (f v)
      | none => d.get? x := by
  induction items generalizing d with
  | nil => rfl
  | cons e items ih =>
    obtain ⟨new, rest⟩ := List.nodup_cons.1 distinct
    rw [List.foldl_cons, ih rest, lookup]
    by_cases h : e.1 = x
    · subst h
      rw [lookup_eq_none_of_not_mem new]
      simp
    · simp [h, Ne.symm h]

@[simp] theorem get?_ofKeys (s : IdSet) (f : Id → β) (x : Id) :
    (ofKeys s f).get? x = if x ∈ s then some (f x) else none := by
  change lookup x (s.toList.map fun k => (k, f k)) = if x ∈ s.toList then some (f x) else none
  induction s.toList with
  | nil => simp [lookup]
  | cons y rest ih =>
    simp only [List.map_cons, lookup, ih, List.mem_cons]
    grind

theorem ext_get? {c d : Dict β} (h : ∀ x, c.get? x = d.get? x) : c = d := by
  have mem : ∀ e, e ∈ c.entries ↔ e ∈ d.entries := fun e => by
    rw [← get?_eq_some_iff (x := e.1) (v := e.2), ← get?_eq_some_iff, h]
  have order (d : Dict β) : d.entries.Pairwise fun a b => a.1 < b.1 :=
    List.pairwise_map.1 d.ascending
  have distinct (d : Dict β) : d.entries.Nodup := (order d).imp fun h e => by
    subst e; exact String.lt_irrefl _ h
  refine Dict.ext (List.Perm.eq_of_pairwise (fun a b _ _ hab hba => ?_) (order c) (order d) ?_)
  · exact absurd hba (String.lt_asymm hab)
  · exact (List.perm_ext_iff_of_nodup (distinct c) (distinct d)).2 mem

example : (ofList [("b", 1), ("a", 2), ("b", 3)]).entries = [("a", 2), ("b", 3)] := by decide

end Dict

end Fleet
