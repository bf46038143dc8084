/-
Conversions between types.

A value is used at another type in one of four ways, tried in this
order: it has that type, its type extends that type, it is an integer
where a float is wanted, or the query casts it. The first three need no
cast in the query.
-/
import PathQuery.Schema.Catalog

namespace PathQuery

/-- How a value of one type is used at another. -/
inductive Conversion where
  | identity
  /-- To a type that the value's type extends. -/
  | upcast
  /-- From an integer to a float family. -/
  | implicit
  /-- Only where the query asks for it. -/
  | explicit
  deriving DecidableEq, Inhabited

/-- Whether the conversion happens without a cast in the query. -/
def Conversion.isImplicit : Conversion → Bool
  | explicit => false
  | identity | upcast | implicit => true

namespace Schema

variable (s : Schema)

/-- The conversion from one type to another that needs no cast. -/
def conversion? (source target : TypeId) : Option Conversion :=
  if source = target then some .identity
  else if s.isSubtype source target then some .upcast
  else match s.scalarKind? source, s.scalarKind? target with
    | some .int, some .float => some .implicit
    | _, _ => none

/-- Whether a cast takes scalars of one family to another: within a
family, between numbers, and to and from strings. -/
def castable (source target : ScalarKind) : Bool :=
  source == target || (source.isNumeric && target.isNumeric)
    || source == .str || target == .str

/-- The conversion from one type to another where the query casts. -/
def cast? (source target : TypeId) : Option Conversion :=
  match s.conversion? source target with
  | some conversion => some conversion
  | none => do
    let sourceKind ← s.scalarKind? source
    let targetKind ← s.scalarKind? target
    if castable sourceKind targetKind then some .explicit else none

/-- A type both types convert to without a cast: one of the two, or for
objects the nearest type that both extend. -/
def commonType? (a b : TypeId) : Option TypeId :=
  if (s.conversion? a b).isSome then some b
  else if (s.conversion? b a).isSome then some a
  else if s.isObject a && s.isObject b then s.commonSupertype a b
  else none

end Schema

end PathQuery
