/-
The clauses of a statement.

Every clause compiles its operand in a scope node of its own, attaches
it at the type that the clause calls for, and where the clause takes one
value, requires that there is at most one. The set of a clause always
has the span of the operand as written, so a shared path is not used as
it is but referred to by a set of its own.
-/
import PathQuery.Compile.Attach

namespace PathQuery

open Ir

variable {κ : Type}

namespace CompileM

/-- The operand of a clause, written at `span`, as a set. -/
def clauseOperand (operand : CompileM κ Value) (span : Span) (hint : Option TypeId) :
    CompileM κ SetId := do
  match ← operand with
  | .set id => attach (.set (← referenceAt id span)) hint
  | .pending p => attach (.pending { p with span }) hint

/-- A condition on the elements of a statement. -/
def filterBy [NameDigest] (operand : CompileM κ Value) (span : Span) : CompileM κ SetId :=
  inScope <| inClause .filter <| clauseOperand operand span (some TypeId.bool)

/-- A number of elements, to skip or to keep. -/
def bound [NameDigest] (operand : CompileM κ Value) (span : Span) : CompileM κ SetId :=
  inScope do
    let id ← clauseOperand operand span (some TypeId.int)
    requireSingleton id
    return id

/-- A value to group or to sort by. -/
def key (operand : CompileM κ Value) (span : Span) : CompileM κ SetId :=
  inScope do
    let id ← clauseOperand operand span none
    requireSingleton id
    return id

-- ========================================================== the whole

/-- Compile under the module declarations of a statement, each of which
must name a declared module. -/
def withModules {α : Type} : List Ast.ModuleDecl → CompileM κ α → CompileM κ α
  | [], m => m
  | d :: rest, m => do
    checkModule d.module d.span
    underFrame (·.declare d) (withModules rest m)

/-- A shape shows the elements of objects only. -/
def requireObject (subject : SetId) (span : Span) : CompileM κ Unit := do
  let schema ← schema
  let type ← typeOf subject
  require (schema.isObject type) (.unsupported (.shapeOfScalar (schema.typeName type)) span)

/-- The shape of `subject`, written as `elements` and compiled by `m`.
An absent shape calls for nothing. -/
def withShape (subject : SetId) (elements : List Ast.ShapeElement)
    (m : CompileM κ (List ShapeNode)) : CompileM κ (List ShapeNode) := do
  match elements with
  | [] => return []
  | first :: _ =>
    requireObject subject first.span
    inClause .shape (underSubject subject m)

/-- What a limit does to the cardinality of a statement: a constant of
at most one leaves at most one element, and may leave none. -/
def limited (cardinality : Cardinality) (limit : SetId) : CompileM κ Cardinality := do
  match (← getSet limit).origin with
  | .computed (.constant (.int n)) =>
    return if n ≤ 1 then cardinality.capped.optional else cardinality
  | _ => return cardinality

/-- The cardinality of a statement, by its result, filter and limit. -/
def statementCardinality (result : SetId) (filter limit : Option SetId) :
    CompileM κ Cardinality := do
  let cardinality ← judge result
  let cardinality := if filter.isSome then cardinality.optional else cardinality
  match limit with
  | some limit => limited cardinality limit
  | none => return cardinality

/-- A statement that was compiled, as a value. -/
def subquery (statement : Statement) : CompileM κ Value := do
  let type ← typeOf statement.result
  let id ← newComputed (.subquery statement) type statement.cardinality statement.span
  return .set id

end CompileM

end PathQuery
