/-
Putting a value to use.

A value is attached to the active scope node and made to have the type
that its use calls for: as it is if its type extends that type, cast if
it converts without being asked to, and for an empty set of no type yet,
by giving it the type. Where the use calls for no particular type, an
empty set of no type is an error.
-/
import PathQuery.Compile.Viewpoint

namespace PathQuery

open Ir

variable {κ : Type}

namespace CompileM

/-- The type of a value; the empty type for an empty set that awaits
one. -/
def valueType : Value → CompileM κ TypeId
  | .set id => typeOf id
  | .pending p => return p.type

-- =================================================== one set for another

/-- A set in a cast. -/
def castSet (id : SetId) (target : TypeId) (conversion : Conversion) : CompileM κ SetId := do
  let span := (← getSet id).span
  let cardinality ← judge id
  newComputed (.cast id target conversion) target cardinality span

/-- A set at the type that its use calls for. -/
def coerce (id : SetId) (target : TypeId) : CompileM κ SetId := do
  let node ← getSet id
  let schema ← schema
  if node.type.isEmpty then
    let cardinality ← judge id
    newComputed .emptySet target cardinality node.span
  else
    match schema.conversion? node.type target with
    | some .identity | some .upcast => return id
    | some conversion => castSet id target conversion
    | none =>
      fail (.mismatch
        (.expected (schema.describe target) (schema.typeName node.type) (← frame).clause)
        node.span)

/-- A set as the syntax at `span` refers to it. Sets are shared and keep
the span of the place that made them, so another place gets a set of
its own that refers to the shared one. -/
def referenceAt (id : SetId) (span : Span) : CompileM κ SetId := do
  let node ← getSet id
  if node.span = span then return id
  let cardinality ← judge id
  newComputed (.reference id) node.type cardinality span

-- ========================================================= attachment

/-- An empty set that no use gives a type. -/
def untypedEmptySet {α : Type} (span : Span) : CompileM κ α := do
  fail (.mismatch (.untypedEmptySet (← frame).clause) span)

/-- A value as a set. An operation is added to the active scope node, at
the type of `hint` if it has none. -/
def settle (value : Value) (hint : Option TypeId) : CompileM κ SetId := do
  match value with
  | .set id => return id
  | .pending p =>
    if p.type.isEmpty then
      match hint with
      | some type => newComputed p.operation type p.cardinality p.span
      | none => untypedEmptySet p.span
    else newComputed p.operation p.type p.cardinality p.span

/-- A value as a set, at the type of `hint` if there is one. -/
def attach (value : Value) (hint : Option TypeId) : CompileM κ SetId := do
  let id ← settle value hint
  match hint with
  | some type => coerce id type
  | none =>
    let node ← getSet id
    if node.type.isEmpty then untypedEmptySet node.span
    return id

end CompileM

end PathQuery
