/-
Building a schema.

A registry takes declarations one by one. A declaration may name types
that are declared later, so its references are kept and checked once,
when the registry is built. What a declaration gets wrong on its own is
refused on the spot, and a refused declaration leaves nothing behind.

Faults are looked for in a fixed order: an object type's own name, then
its pointers as listed, then its bases, then whether the name is taken;
in a build, the kept references, then each type's bases and pointers,
then cycles.
-/
import PathQuery.Schema.Catalog

namespace PathQuery

-- ============================================================== faults

/-- Why a declaration or a build was refused. Names are given as
written. -/
inductive SchemaError where
  | duplicate (name : String)
  | unknownType (name referrer : String)
  | invalidBase (name base : String)
  | duplicatePointer (owner pointer : String)
  | invalidPointerTarget (owner pointer target : String)
  | inheritanceCycle (name : String)
  | unqualified (name : String)
  deriving DecidableEq, Inhabited

def SchemaError.message : SchemaError → String
  | duplicate name => "duplicate definition: '" ++ name ++ "' is already registered"
  | unknownType name referrer =>
    "unknown type '" ++ name ++ "' referenced by '" ++ referrer ++ "'"
  | invalidBase name base => "invalid base '" ++ base ++ "' for object type '" ++ name ++ "'"
  | duplicatePointer owner pointer =>
    "duplicate pointer '" ++ pointer ++ "' on '" ++ owner ++ "'"
  | invalidPointerTarget owner pointer target =>
    "'" ++ owner ++ "." ++ pointer ++ "' cannot target '" ++ target ++ "'"
  | inheritanceCycle name => "inheritance cycle through '" ++ name ++ "'"
  | unqualified name => "schema item name '" ++ name ++ "' must be qualified with a module"

-- ======================================================== declarations

/-- A pointer as declared, its target still a name. -/
structure PointerDecl where
  name : String
  target : String
  flags : PointerFlags
  deriving DecidableEq, Inhabited

/-- A pointer to scalars. -/
def PointerDecl.property (name target : String) (flags : PointerFlags) : PointerDecl :=
  ⟨name, target, { flags with link := false }⟩

/-- A pointer to objects. -/
def PointerDecl.toObjects (name target : String) (flags : PointerFlags) : PointerDecl :=
  ⟨name, target, { flags with link := true }⟩

/-- One declaration. -/
inductive Declaration where
  /-- A module, which may stay empty. -/
  | module (name : String)
  /-- A scalar type that extends a declared one. -/
  | scalar (name base : String)
  | object (name : String) (bases : List String) (pointers : List PointerDecl)
  | function (name : QualifiedName) (signature : Signature)
  deriving Inhabited

/-- A type named in a declaration before it was known to exist. -/
structure Reference where
  referrer : String
  name : String
  id : TypeId
  deriving DecidableEq, Inhabited

namespace Schema

variable [NameDigest]

/-- Take a type's name, its module with it. -/
def reserveName (s : Schema) (name : QualifiedName) : Except SchemaError Schema :=
  if s.names.contains name then .error (.duplicate name.text)
  else
    let named := { s with names := s.names.insert name (TypeId.ofQualified name) }
    .ok (match name.module with
      | some module => named.addModule module
      | none => named)

/-- Take a type's name and store the type under its identity. A type of
another name with that identity gives way. -/
def addType (s : Schema) (name : QualifiedName) (body : TypeBody) :
    Except SchemaError Schema := do
  let named ← s.reserveName name
  return { named with types := named.types.insert (TypeId.ofQualified name) ⟨name, body⟩ }

/-- The bases of an object type: those listed, and where none is listed
the built-in object type, if there is one and this is not it. -/
def effectiveBases (s : Schema) (id : TypeId) (listed : List TypeId) : List TypeId :=
  if listed.isEmpty ∧ id ≠ TypeId.object ∧ s.isRegistered TypeId.object then [TypeId.object]
  else listed

end Schema

/-- A schema under construction. -/
structure Registry where
  schema : Schema
  references : List Reference
  deriving Inhabited

namespace Registry

def empty : Registry := ⟨.empty, []⟩

/-- A name that must be qualified. -/
def qualify (name : String) : Except SchemaError QualifiedName :=
  let qualified := QualifiedName.parse name
  if qualified.isQualified then .ok qualified else .error (.unqualified name)

section

variable [NameDigest]

/-- Declare a scalar type. What it extends must be declared already. -/
def declareScalar (r : Registry) (name base : String) :
    Except SchemaError (Registry × TypeId) := do
  let qualified ← qualify name
  let baseName ← qualify base
  match r.schema.typeByName? baseName with
  | none => throw (.unknownType base name)
  | some (baseId, entry) =>
    match entry.scalarKind? with
    | none => throw (.invalidBase name base)
    | some kind =>
      let schema ← r.schema.addType qualified (.scalar kind (some baseId))
      return ({ r with schema }, TypeId.ofQualified qualified)

/-- The pointers of an object type and the references they make. -/
def resolvePointers (owner : String) : List PointerDecl → Table String Pointer →
    List Reference → Except SchemaError (Table String Pointer × List Reference)
  | [], pointers, references => .ok (pointers, references)
  | p :: rest, pointers, references => do
    let target := TypeId.ofQualified (← qualify p.target)
    if pointers.contains p.name then throw (.duplicatePointer owner p.name)
    resolvePointers owner rest (pointers.insert p.name ⟨target, p.flags⟩)
      (references ++ [⟨owner ++ "." ++ p.name, p.target, target⟩])

/-- The references an object type makes to its bases. -/
def resolveBases (owner : String) (bases : List String) : Except SchemaError (List Reference) :=
  bases.mapM fun base => do
    return ⟨owner, base, TypeId.ofQualified (← qualify base)⟩

/-- Declare an object type. What it extends and what its pointers lead to
may be declared later. -/
def declareObject (r : Registry) (name : String) (bases : List String)
    (pointers : List PointerDecl) : Except SchemaError (Registry × TypeId) := do
  let qualified ← qualify name
  let (table, toTargets) ← resolvePointers name pointers .empty []
  let toBases ← resolveBases name bases
  let id := TypeId.ofQualified qualified
  let listed := r.schema.effectiveBases id (toBases.map Reference.id)
  let schema ← r.schema.addType qualified (.object listed table)
  return (⟨schema, r.references ++ toTargets ++ toBases⟩, id)

/-- Declare a function. The types it mentions are not looked at. -/
def declareFunction (r : Registry) (name : QualifiedName) (signature : Signature) :
    Except SchemaError Registry :=
  match name.module with
  | none => .error (.unqualified name.text)
  | some module =>
    if r.schema.functions.contains name then .error (.duplicate name.text)
    else
      let schema := r.schema.addModule module
      .ok { r with schema :=
        { schema with functions := schema.functions.insert name signature } }

/-- Carry out one declaration; for a type, tell its identity. -/
def declare (r : Registry) : Declaration → Except SchemaError (Registry × Option TypeId)
  | .module name => .ok ({ r with schema := r.schema.addModule name }, none)
  | .scalar name base => do
    let (r, id) ← r.declareScalar name base
    return (r, some id)
  | .object name bases pointers => do
    let (r, id) ← r.declareObject name bases pointers
    return (r, some id)
  | .function name signature => do
    let r ← r.declareFunction name signature
    return (r, none)

/-- Carry out declarations in turn, up to the first one refused. -/
def declareAll (r : Registry) (declarations : List Declaration) : Except SchemaError Registry :=
  declarations.foldlM (fun r d => do return (← r.declare d).1) r

end

-- =============================================================== build

/-- A type as build faults show it: by its name, else by a name it was
referred to by. -/
def displayName (r : Registry) (id : TypeId) : String :=
  match r.schema.type? id with
  | some entry => entry.name.text
  | none => ((r.references.find? (·.id == id)).map (·.name)).getD id.display

/-- Every type referred to is registered. -/
def checkReferences (r : Registry) : Except SchemaError Unit :=
  r.references.forM fun ref =>
    if r.schema.isRegistered ref.id then .ok ()
    else .error (.unknownType ref.name ref.referrer)

/-- An object type extends objects, its links lead to objects and its
properties do not. -/
def checkType (r : Registry) (entry : TypeEntry) : Except SchemaError Unit :=
  match entry.body with
  | .scalar .. => .ok ()
  | .object bases pointers => do
    bases.forM fun base =>
      if r.schema.isObject base then .ok ()
      else .error (.invalidBase entry.name.text (r.displayName base))
    pointers.entries.forM fun (name, p) =>
      if r.schema.isObject p.target = p.flags.link then .ok ()
      else .error (.invalidPointerTarget entry.name.text name (r.displayName p.target))

/-- No type extends itself. -/
def checkAcyclic (r : Registry) : Except SchemaError Unit :=
  match r.schema.types.keys.find? r.schema.isCyclic with
  | none => .ok ()
  | some id => .error (.inheritanceCycle (r.schema.typeName id))

/-- The schema declared, if it is sound as a whole. -/
def build (r : Registry) : Except SchemaError Schema := do
  r.checkReferences
  r.schema.types.values.forM r.checkType
  r.checkAcyclic
  return r.schema

end Registry

end PathQuery
