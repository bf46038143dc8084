/-
All sets of a compilation, by number.

Sets are only ever added at the end, and a path goes on only from a set
that is there already. The second fact is part of the type: it is why a
walk along a path towards its start ends, with no bound to be given.
-/
import PathQuery.Ir.Basic

namespace PathQuery.Ir

/-- The sets of a compilation in order of production. -/
structure Arena (κ : Type) where
  sets : Array (SetNode κ)
  /-- A path goes on from an earlier set. -/
  source_lt : ∀ (id : SetId) (node : SetNode κ), sets[id]? = some node →
    ∀ source, node.origin.source? = some source → source < id

namespace Arena

variable {κ : Type}

def empty : Arena κ := ⟨#[], by simp⟩

instance : Inhabited (Arena κ) := ⟨empty⟩

def size (a : Arena κ) : Nat := a.sets.size

def get? (a : Arena κ) (id : SetId) : Option (SetNode κ) := a.sets[id]?

/-- Add a set; its number is the size the arena had. -/
def push (a : Arena κ) (node : SetNode κ)
    (h : ∀ source, node.origin.source? = some source → source < a.size) : Arena κ where
  sets := a.sets.push node
  source_lt := by
    intro id n hn source hs
    rw [Array.getElem?_push] at hn
    split at hn
    · next hid =>
      cases hn
      exact hid ▸ h source hs
    · exact a.source_lt id n hn source hs

-- ================================================================ laws

theorem get?_eq_none_iff (a : Arena κ) (id : SetId) : a.get? id = none ↔ a.size ≤ id := by
  simp [get?, size]

theorem lt_size_of_get? {a : Arena κ} {id : SetId} {node : SetNode κ}
    (h : a.get? id = some node) : id < a.size := by
  obtain ⟨hlt, -⟩ := Array.getElem?_eq_some_iff.1 h
  exact hlt

/-- A path goes on from an earlier set. -/
theorem lt_of_source {a : Arena κ} {id : SetId} {node : SetNode κ} (h : a.get? id = some node)
    {source : SetId} (hs : node.origin.source? = some source) : source < id :=
  a.source_lt id node h source hs

@[simp] theorem size_empty : (empty : Arena κ).size = 0 := rfl

@[simp] theorem size_push (a : Arena κ) (node : SetNode κ) (h) :
    (a.push node h).size = a.size + 1 := by
  simp [size, push]

/-- Adding a set adds one number and leaves all others as they were. -/
theorem get?_push (a : Arena κ) (node : SetNode κ) (h) (id : SetId) :
    (a.push node h).get? id = if id = a.size then some node else a.get? id :=
  Array.getElem?_push

/-- A set of an arena to which one was added is that one, or was there. -/
theorem get?_push_cases {a : Arena κ} {node n : SetNode κ} (h) {id : SetId}
    (hid : (a.push node h).get? id = some n) :
    (id = a.size ∧ n = node) ∨ a.get? id = some n := by
  rw [get?_push] at hid
  split at hid
  · next heq => exact Or.inl ⟨heq, (Option.some.inj hid).symm⟩
  · exact Or.inr hid

end Arena

end PathQuery.Ir
