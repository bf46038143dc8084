/-
The schema that queries are compiled against.

A name leads to an identity and an identity to a type, so a lookup by
name is two steps; functions are looked up by name alone. Types extend
other types, and every question about that hierarchy is one of the two
searches over direct bases: `ancestors` lists what a type extends,
nearest first and, at one distance, the bases listed last first, and
`isSubtype` asks for one of them.
-/
import PathQuery.Schema.Entry
import PathQuery.Search

namespace PathQuery

structure Schema where
  types : Table TypeId TypeEntry
  /-- The identity each registered name leads to. -/
  names : Table QualifiedName TypeId
  functions : Table QualifiedName Signature
  /-- The declared modules, each once. -/
  modules : List String
  deriving Inhabited

namespace Schema

def empty : Schema := ⟨.empty, .empty, .empty, []⟩

-- ============================================================== lookup

def type? (s : Schema) (id : TypeId) : Option TypeEntry := s.types.get? id

def typeByName? (s : Schema) (name : QualifiedName) : Option (TypeId × TypeEntry) := do
  let id ← s.names.get? name
  let entry ← s.type? id
  return (id, entry)

def function? (s : Schema) (name : QualifiedName) : Option Signature := s.functions.get? name

/-- What a qualified name stands for. A type hides a function of the
same name. -/
def lookup (s : Schema) (name : QualifiedName) : Option SchemaItem :=
  match s.typeByName? name with
  | some (id, entry) => some (.type id entry)
  | none => (s.function? name).map (.function name)

def hasModule (s : Schema) (module : String) : Bool := s.modules.contains module

/-- Declare a module; it may be declared already. -/
def addModule (s : Schema) (module : String) : Schema :=
  if s.hasModule module then s else { s with modules := s.modules ++ [module] }

-- ======================================================= about one type

def isRegistered (s : Schema) (id : TypeId) : Bool := (s.type? id).isSome

def isObject (s : Schema) (id : TypeId) : Bool := (s.type? id).any TypeEntry.isObject

def scalarKind? (s : Schema) (id : TypeId) : Option ScalarKind :=
  (s.type? id).bind TypeEntry.scalarKind?

/-- Whether the type is a scalar of a numeric family. -/
def isNumeric (s : Schema) (id : TypeId) : Bool := (s.scalarKind? id).any ScalarKind.isNumeric

/-- A type by name, as diagnostics show it. -/
def typeName (s : Schema) (id : TypeId) : String :=
  if id.isEmpty then "empty set"
  else match s.type? id with
    | some entry => entry.name.text
    | none => id.display

/-- A type by family, as diagnostics show it. -/
def describe (s : Schema) (id : TypeId) : String :=
  match s.type? id with
  | some entry => entry.description
  | none => "unknown type"

-- =========================================================== hierarchy

/-- The registered types that a type extends directly, the one listed
last first. -/
def directBases (s : Schema) (id : TypeId) : List TypeId :=
  match s.type? id with
  | some entry => (entry.bases.filter s.isRegistered).reverse
  | none => []

/-- A type and all it extends, nearest first; nothing for a type the
schema does not know. -/
def ancestors (s : Schema) (id : TypeId) : List TypeId :=
  if s.isRegistered id then Search.levelOrder s.directBases s.types.size [id] else []

/-- Whether `sub` is `sup` or extends it, directly or not. A type the
schema does not know is a subtype of itself alone. -/
def isSubtype (s : Schema) (sub sup : TypeId) : Bool :=
  sub == sup ||
    (s.isRegistered sub && Search.meets s.directBases sup s.types.size [sub])

/-- Whether a type extends itself through one or more bases. -/
def isCyclic (s : Schema) (id : TypeId) : Bool :=
  Search.meets s.directBases id s.types.size (s.directBases id)

/-- The nearest type that `a` extends and `b` is a subtype of. -/
def commonSupertype (s : Schema) (a b : TypeId) : Option TypeId :=
  (s.ancestors a).find? fun candidate => s.isSubtype b candidate

/-- The pointer `name` of `owner`, declared by `owner` or else by the
nearest type it extends that declares one. -/
def findPointer (s : Schema) (owner : TypeId) (name : String) : Option Pointer :=
  (s.ancestors owner).findSome? fun id =>
    (s.type? id).bind fun entry => entry.pointers.get? name

end Schema

end PathQuery
