/-
How many elements a set may have.

A cardinality is a pair of bounds: may the set be empty, and may it
hold more than one element. The operations below are the effect of the
query constructs on the two bounds; each is written through `ofBounds`,
so a law about an operation is a law about booleans.
-/

namespace PathQuery

/-- Lower and upper bound on the number of elements of a set. -/
inductive Cardinality where
  /-- Zero or one element. -/
  | atMostOne
  /-- Exactly one element. -/
  | one
  /-- Any number of elements. -/
  | many
  /-- One or more elements. -/
  | atLeastOne
  deriving DecidableEq, Inhabited

namespace Cardinality

/-- The cardinality with the given bounds: `required` excludes the empty
set, `multi` admits more than one element. -/
def ofBounds : (required multi : Bool) → Cardinality
  | true, false => one
  | false, false => atMostOne
  | true, true => atLeastOne
  | false, true => many

/-- The set is never empty. -/
def isRequired : Cardinality → Bool
  | one | atLeastOne => true
  | atMostOne | many => false

/-- The set may hold more than one element. -/
def isMulti : Cardinality → Bool
  | many | atLeastOne => true
  | atMostOne | one => false

/-- The set holds at most one element. -/
def isSingleton (c : Cardinality) : Bool := !c.isMulti

/-- Element-wise combination: a result for every pair of elements. -/
def mul (c d : Cardinality) : Cardinality :=
  ofBounds (c.isRequired && d.isRequired) (c.isMulti || d.isMulti)

/-- Union: the elements of both. -/
def union (c d : Cardinality) : Cardinality :=
  ofBounds (c.isRequired || d.isRequired) true

/-- Some elements may have been dropped. -/
def optional (c : Cardinality) : Cardinality :=
  ofBounds false c.isMulti

/-- All elements but one may have been dropped. -/
def capped (c : Cardinality) : Cardinality :=
  ofBounds c.isRequired false

protected def toString : Cardinality → String
  | atMostOne => "at most one"
  | one => "exactly one"
  | many => "many"
  | atLeastOne => "at least one"

instance : ToString Cardinality := ⟨Cardinality.toString⟩

-- ================================================= bounds, read back

@[simp] theorem isRequired_ofBounds (r m : Bool) : (ofBounds r m).isRequired = r := by
  cases r <;> cases m <;> rfl

@[simp] theorem isMulti_ofBounds (r m : Bool) : (ofBounds r m).isMulti = m := by
  cases r <;> cases m <;> rfl

@[simp] theorem ofBounds_bounds (c : Cardinality) :
    ofBounds c.isRequired c.isMulti = c := by
  cases c <;> rfl

/-- The two bounds determine the cardinality. -/
@[ext] theorem ext_bounds {c d : Cardinality} (hr : c.isRequired = d.isRequired)
    (hm : c.isMulti = d.isMulti) : c = d := by
  rw [← ofBounds_bounds c, ← ofBounds_bounds d, hr, hm]

-- ======================================================= combination

@[simp] theorem one_mul (c : Cardinality) : one.mul c = c := by
  cases c <;> rfl

theorem mul_comm (c d : Cardinality) : c.mul d = d.mul c := by
  unfold mul
  rw [Bool.and_comm, Bool.or_comm]

theorem mul_assoc (b c d : Cardinality) : (b.mul c).mul d = b.mul (c.mul d) := by
  simp only [mul, isRequired_ofBounds, isMulti_ofBounds, Bool.and_assoc, Bool.or_assoc]

end Cardinality

end PathQuery
