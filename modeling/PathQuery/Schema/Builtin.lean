/-
The module `std`: the built-in scalar types, the object type that every
object type extends, and the built-in functions.
-/
import PathQuery.Schema.Registry

namespace PathQuery

/-- The module of the built-in types and functions. -/
def builtinModule : String := "std"

namespace Registry

/-- The built-in scalar types, one for each family. -/
def builtinScalars : List (String × ScalarKind) :=
  [("bool", .bool), ("int", .int), ("float", .float),
   ("str", .str), ("uuid", .uuid), ("datetime", .datetime)]

/-- A function of one argument that is consumed as a whole. -/
def aggregate (type : ParamType) (returns : ReturnType) (cardinality : Cardinality) :
    Signature :=
  ⟨[⟨"s", type, .wholeSet⟩], returns, cardinality⟩

/-- A function applied to each element of its one argument. -/
def elementWise (argument result : TypeId) : Signature :=
  ⟨[⟨"s", .concrete argument, .element⟩], .concrete result, .one⟩

variable [NameDigest]

/-- The built-in functions. -/
def builtinFunctions : List (String × Signature) :=
  [("count", aggregate .any (.concrete TypeId.int) .one),
   ("sum", aggregate .numeric (.sameAs 0) .one),
   ("min", aggregate .any (.sameAs 0) .atMostOne),
   ("max", aggregate .any (.sameAs 0) .atMostOne),
   ("len", elementWise TypeId.str TypeId.int),
   ("lower", elementWise TypeId.str TypeId.str),
   ("upper", elementWise TypeId.str TypeId.str)]

/-- The types of `std`, added to an empty schema. -/
def builtinTypes : Except SchemaError Schema := do
  let scalars ← builtinScalars.foldlM
    (fun s (name, kind) => s.addType (.within builtinModule name) (.scalar kind none))
    (Schema.empty.addModule builtinModule)
  scalars.addType (.within builtinModule "Object") (.object [] .empty)

/-- A registry that holds `std`. -/
def builtin : Registry :=
  match builtinTypes with
  | .error _ => empty
  | .ok schema =>
    builtinFunctions.foldl
      (fun r (name, signature) => { r with schema :=
        { r.schema with
          functions := r.schema.functions.insert (.within builtinModule name) signature } })
      ⟨schema, []⟩

end Registry

/-- The schema of `std` alone. -/
def Schema.builtin [NameDigest] : Schema := Registry.builtin.schema

end PathQuery
