/-
What a schema holds: types with their pointers, and functions.

Entries do not repeat the key they are stored under. A type is stored
under its identity and keeps its name, since diagnostics show types by
name; a pointer is stored under its name, a function under its
qualified name.
-/
import PathQuery.Cardinality
import PathQuery.Identity.TypeId
import PathQuery.Table

namespace PathQuery

-- ============================================================= scalars

/-- The family of a scalar type. A scalar that extends another is of the
same family. -/
inductive ScalarKind where
  | bool
  | int
  | float
  | str
  | uuid
  | datetime
  deriving DecidableEq, Inhabited

namespace ScalarKind

/-- Numbers can be computed with. -/
def isNumeric : ScalarKind → Bool
  | int | float => true
  | bool | str | uuid | datetime => false

/-- The family as diagnostics call it. -/
def description : ScalarKind → String
  | bool => "boolean"
  | int => "integer"
  | float => "float"
  | str => "string"
  | uuid => "uuid"
  | datetime => "datetime"

/-- All families, in the order of their declaration. -/
def all : List ScalarKind := [bool, int, float, str, uuid, datetime]

end ScalarKind

-- ============================================================ pointers

/-- What a pointer declaration promises. -/
structure PointerFlags where
  /-- Every object has at least one target. -/
  required : Bool := false
  /-- An object may have more than one target. -/
  multi : Bool := false
  /-- Targets are objects rather than scalars. -/
  link : Bool := false
  deriving DecidableEq, Inhabited

namespace PointerFlags

/-- How many targets one object has. -/
def cardinality (f : PointerFlags) : Cardinality :=
  Cardinality.ofBounds f.required f.multi

/-- The flags as a bit set: required 1, multi 2, link 4. -/
def toNat (f : PointerFlags) : Nat :=
  f.required.toNat + 2 * f.multi.toNat + 4 * f.link.toNat

end PointerFlags

/-- A property or link of an object type. -/
structure Pointer where
  target : TypeId
  flags : PointerFlags
  deriving DecidableEq, Inhabited

/-- How many targets one object has through the pointer. -/
def Pointer.cardinality (p : Pointer) : Cardinality := p.flags.cardinality

-- =============================================================== types

/-- What a type is made of. -/
inductive TypeBody where
  /-- A scalar, with the scalar it extends if there is one. -/
  | scalar (kind : ScalarKind) (base : Option TypeId)
  /-- Objects, with the types they extend as listed and the pointers the
  type itself declares. -/
  | object (bases : List TypeId) (pointers : Table String Pointer)
  deriving Inhabited

structure TypeEntry where
  name : QualifiedName
  body : TypeBody
  deriving Inhabited

namespace TypeEntry

def isObject (t : TypeEntry) : Bool :=
  match t.body with
  | .object .. => true
  | .scalar .. => false

/-- The family of a scalar; objects have none. -/
def scalarKind? (t : TypeEntry) : Option ScalarKind :=
  match t.body with
  | .scalar kind _ => some kind
  | .object .. => none

/-- The types that this one extends directly. -/
def bases (t : TypeEntry) : List TypeId :=
  match t.body with
  | .scalar _ base => base.toList
  | .object bases _ => bases

/-- The pointers that the type itself declares; a scalar has none. -/
def pointers (t : TypeEntry) : Table String Pointer :=
  match t.body with
  | .scalar .. => .empty
  | .object _ pointers => pointers

/-- The family of a scalar as diagnostics call it, or `object`. -/
def description (t : TypeEntry) : String :=
  match t.body with
  | .scalar kind _ => kind.description
  | .object .. => "object"

end TypeEntry

-- =========================================================== functions

/-- Which arguments a parameter takes. -/
inductive ParamType where
  /-- This type and what converts to it. -/
  | concrete (type : TypeId)
  /-- Any integer or float type. -/
  | numeric
  | any
  deriving DecidableEq, Inhabited

/-- How an argument is consumed. -/
inductive ParamMode where
  /-- The function is applied to each element. -/
  | element
  /-- The function consumes the argument as a whole. -/
  | wholeSet
  deriving DecidableEq, Inhabited

structure Parameter where
  name : String
  type : ParamType
  mode : ParamMode
  deriving DecidableEq, Inhabited

/-- What type a function returns. -/
inductive ReturnType where
  | concrete (type : TypeId)
  /-- The type of the argument at this position, from zero. -/
  | sameAs (position : Nat)
  deriving DecidableEq, Inhabited

/-- What a function takes and gives. The cardinality is that of one
application: that of a call multiplies in the arguments consumed by
element. -/
structure Signature where
  params : List Parameter
  returns : ReturnType
  cardinality : Cardinality
  deriving DecidableEq, Inhabited

/-- A function that consumes some argument as a whole. -/
def Signature.isAggregate (s : Signature) : Bool :=
  s.params.any fun p => p.mode == .wholeSet

-- =============================================================== items

/-- What a name in a schema stands for, with the key it is stored
under. -/
inductive SchemaItem where
  | type (id : TypeId) (entry : TypeEntry)
  | function (name : QualifiedName) (signature : Signature)
  deriving Inhabited

end PathQuery
