/-
Literal values.

A float is carried as the bits of its IEEE double and never computed
with. Two float literals are alike as numbers, not as bits: every NaN
is like every other, and the two zeros are alike.
-/

namespace PathQuery

/-- The bits of an IEEE double. -/
structure FloatBits where
  bits : UInt64
  deriving DecidableEq, Inhabited

namespace FloatBits

/-- Everything but the sign. -/
def magnitude (x : FloatBits) : UInt64 := x.bits &&& 0x7fffffffffffffff

/-- A magnitude above that of infinity. -/
def isNaN (x : FloatBits) : Bool := 0x7ff0000000000000 < x.magnitude

def isZero (x : FloatBits) : Bool := x.magnitude == 0

/-- Whether two doubles are one number, or both none. -/
def same (x y : FloatBits) : Bool :=
  (x.isNaN && y.isNaN) || (x.isZero && y.isZero) || x.bits == y.bits

@[simp] theorem same_self (x : FloatBits) : x.same x = true := by
  simp [same]

end FloatBits

/-- The value of a constant. -/
inductive Literal where
  | int (value : Int)
  | float (value : FloatBits)
  | str (value : String)
  | bool (value : Bool)
  deriving DecidableEq, Inhabited

namespace Literal

/-- Whether two literals are of one kind and one value. -/
def same : Literal → Literal → Bool
  | int a, int b => a == b
  | float a, float b => a.same b
  | str a, str b => a == b
  | bool a, bool b => a == b
  | _, _ => false

@[simp] theorem same_self (l : Literal) : l.same l = true := by
  cases l <;> simp [same]

end Literal

end PathQuery
