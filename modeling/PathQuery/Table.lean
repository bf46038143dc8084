/-
Finite tables with one entry per key.

Entries stand in the order in which their keys were last written. A
catalog is small and read far more often than it is written, and what
matters about it is what a key leads to: nearly every fact about a table
below is a fact about `get?`.
-/

namespace PathQuery

/-- Keys with their values, oldest first. -/
structure Table (α β : Type) where
  entries : List (α × β)

namespace Table

variable {α β : Type} [DecidableEq α]

def empty : Table α β := ⟨[]⟩

instance : Inhabited (Table α β) := ⟨empty⟩

/-- What `key` leads to. -/
def get? (t : Table α β) (key : α) : Option β := t.entries.lookup key

def contains (t : Table α β) (key : α) : Bool := (t.get? key).isSome

/-- Make `key` lead to `value`, in place of whatever it led to. -/
def insert (t : Table α β) (key : α) (value : β) : Table α β :=
  ⟨t.entries.filter (fun e => e.1 ≠ key) ++ [(key, value)]⟩

def keys (t : Table α β) : List α := t.entries.map Prod.fst

def values (t : Table α β) : List β := t.entries.map Prod.snd

def size (t : Table α β) : Nat := t.entries.length

/-- The table in which each pair was written in turn: of two pairs with
one key the later counts. -/
def ofList (pairs : List (α × β)) : Table α β :=
  pairs.foldl (fun t e => t.insert e.1 e.2) empty

-- ================================================================ laws

@[simp] theorem get?_empty (key : α) : (empty : Table α β).get? key = none := rfl

private theorem lookup_filter_self (key : α) (xs : List (α × β)) :
    (xs.filter (fun e => e.1 ≠ key)).lookup key = none := by
  rw [List.lookup_eq_none_iff]
  intro e he
  have hne : e.1 ≠ key := by simpa using (List.mem_filter.1 he).2
  simpa using fun h => hne h.symm

private theorem lookup_filter_ne {key other : α} (h : other ≠ key) (xs : List (α × β)) :
    (xs.filter (fun e => e.1 ≠ key)).lookup other = xs.lookup other := by
  induction xs with
  | nil => rfl
  | cons e xs ih =>
    obtain ⟨k, v⟩ := e
    by_cases hk : k = key
    · have hne : (other == k) = false := by simpa [hk] using h
      rw [List.filter_cons_of_neg (by simpa using hk), List.lookup_cons, hne]
      exact ih
    · rw [List.filter_cons_of_pos (by simpa using hk), List.lookup_cons, List.lookup_cons, ih]

@[simp] theorem get?_insert_self (t : Table α β) (key : α) (value : β) :
    (t.insert key value).get? key = some value := by
  rw [get?, insert, List.lookup_append, lookup_filter_self, List.lookup_cons]
  simp

theorem get?_insert_of_ne (t : Table α β) {key other : α} (value : β) (h : other ≠ key) :
    (t.insert key value).get? other = t.get? other := by
  have hne : (other == key) = false := by simpa using h
  rw [get?, insert, List.lookup_append, lookup_filter_ne h, List.lookup_cons, hne]
  simp [get?]

/-- Writing a key changes what that key leads to and nothing else. -/
theorem get?_insert (t : Table α β) (key other : α) (value : β) :
    (t.insert key value).get? other = if other = key then some value else t.get? other := by
  by_cases h : other = key
  · subst h
    simp
  · simp [get?_insert_of_ne t value h, h]

theorem get?_of_contains_false {t : Table α β} {key : α} (h : t.contains key = false) :
    t.get? key = none := by
  unfold contains at h
  simpa using h

/-- Writing a new key leaves the entries there are as they are. -/
theorem entries_insert {t : Table α β} {key : α} {value : β} (h : t.contains key = false) :
    (t.insert key value).entries = t.entries ++ [(key, value)] := by
  have hnone : t.entries.lookup key = none := get?_of_contains_false h
  unfold Table.insert
  rw [List.filter_eq_self.2]
  intro e he
  have hne := List.lookup_eq_none_iff.1 hnone e he
  refine decide_eq_true fun heq => ?_
  rw [heq, bne_self_eq_false] at hne
  cases hne

theorem mem_entries_of_get? {t : Table α β} {key : α} {value : β}
    (h : t.get? key = some value) : (key, value) ∈ t.entries := by
  obtain ⟨before, after, heq, -⟩ := List.lookup_eq_some_iff.1 h
  rw [heq]
  simp

/-- What a key leads to is among the values. -/
theorem mem_values_of_get? {t : Table α β} {key : α} {value : β}
    (h : t.get? key = some value) : value ∈ t.values :=
  List.mem_map_of_mem (mem_entries_of_get? h)

end Table

end PathQuery
