/-
Function calls.

An argument that a function consumes as a whole has a scope node of its
own and does not count towards the cardinality of the call. Any other
argument multiplies it: the function is applied to each of its elements.
-/
import PathQuery.Compile.Attach

namespace PathQuery

open Ir

variable {κ : Type}

namespace CompileM

/-- The function that a call names, with as many parameters as the call
has arguments. -/
def callee (function : Ast.NameRef) (given : Nat) (span : Span) :
    CompileM κ (QualifiedName × Signature) := do
  match ← resolve function with
  | .type _ entry => fail (.unsupported (.typeAsFunction entry.name.text) function.span)
  | .function name signature =>
    require (given == signature.params.length)
      (.mismatch (.argumentCount name.text signature.params.length given) span)
    return (name, signature)

/-- An argument as the parameter at `position` takes it. -/
def checkArgument (id : SetId) (type : ParamType) (position : Nat) (function : QualifiedName) :
    CompileM κ SetId := do
  let schema ← schema
  let node ← getSet id
  let mismatch (expects : Expectation) : CompileError :=
    .mismatch (.argument (position + 1) function.text expects (schema.typeName node.type))
      node.span
  match type with
  | .any => return id
  | .numeric =>
    require (schema.isNumeric node.type) (mismatch .numeric)
    return id
  | .concrete target =>
    match schema.conversion? node.type target with
    | some .implicit => castSet id target .implicit
    | some _ => return id
    | none => fail (mismatch (.type (schema.typeName target)))

/-- One argument, and what the call's cardinality so far, `cardinality`,
becomes with it. -/
def argument (operand : CompileM κ Value) (param : Parameter) (position : Nat)
    (function : QualifiedName) (cardinality : Cardinality) :
    CompileM κ (SetId × Cardinality) := do
  match param.mode with
  | .wholeSet =>
    let id ← inScope do
      let id ← attach (← operand) none
      checkArgument id param.type position function
    return (id, cardinality)
  | .element =>
    let id ← attach (← operand) none
    let id ← checkArgument id param.type position function
    return (id, cardinality.mul (← judge id))

/-- The type that a call returns. -/
def returnType (returns : ReturnType) (function : QualifiedName) (args : List SetId) :
    CompileM κ TypeId := do
  match returns with
  | .concrete type => return type
  | .sameAs position =>
    let id ← orFail args[position]? (.internal (.missingArgument function.text position))
    typeOf id

/-- A call with its arguments. -/
def call (function : QualifiedName) (signature : Signature) (args : List SetId)
    (cardinality : Cardinality) (span : Span) : CompileM κ Value := do
  let type ← returnType signature.returns function args
  return .pending ⟨.call function args signature.isAggregate, type, cardinality, span⟩

end CompileM

end PathQuery
