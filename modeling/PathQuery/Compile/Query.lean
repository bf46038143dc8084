/-
Expressions and statements.

One function for each kind of syntax, by recursion on the syntax. They
compile the parts in the order written and leave it to the modules on
operations, calls and clauses to combine them.
-/
import PathQuery.Compile.Clause
import PathQuery.Compile.Invocation
import PathQuery.Compile.Operation
import PathQuery.Compile.Path

namespace PathQuery.CompileM

open Ast
open Ir (Value Statement ShapeNode)

variable {κ : Type} [DecidableEq κ] [PathKey κ] [NameDigest]

mutual

/-- What an expression denotes. -/
def expr : Expr → CompileM κ Value
  | .constant value span => return .constant value span
  | .emptySet span => return .emptySet span
  | .path p => return .set (← path p)
  | .binary left op right span => do
    let l ← expr left
    let r ← expr right
    binary op l r span
  | .unary .not operand span => do logicalNot (← expr operand) span
  | .unary .neg operand span => do arithmeticNeg (← expr operand) span
  | .unary .exists operand span => existence (expr operand) span
  | .call function args span => do
    let (name, signature) ← callee function args.length span
    let (ids, cardinality) ←
      arguments name 0 signature.params signature.cardinality args
    call name signature ids cardinality span
  | .cast target operand span => do
    let type ← castTarget target
    cast (← expr operand) type span
  | .set elements span => do setOf (← exprs elements) span
  | .select query => do subquery (← select query)
  | .paren inner _ => expr inner
termination_by structural e => e

/-- What the elements of a set literal denote, each with its span. -/
def exprs : List Expr → CompileM κ (List (Value × Span))
  | [] => return []
  | e :: rest => do
    let value ← expr e
    let values ← exprs rest
    return (value, e.span) :: values
termination_by structural es => es

/-- The arguments of a call from `position` on, and the cardinality of
the call with them. -/
def arguments (function : QualifiedName) :
    (position : Nat) → List Parameter → Cardinality → List Expr →
      CompileM κ (List SetId × Cardinality)
  | position, param :: params, cardinality, arg :: args => do
    let (id, cardinality) ← argument (expr arg) param position function cardinality
    let (ids, cardinality) ← arguments function (position + 1) params cardinality args
    return (id :: ids, cardinality)
  | _, _, cardinality, _ => return ([], cardinality)
termination_by structural _ _ _ args => args

/-- A condition on the elements, if there is one. -/
def filterClause : Option Expr → CompileM κ (Option SetId)
  | none => return none
  | some e => return some (← filterBy (expr e) e.span)
termination_by structural e => e

/-- A number of elements to skip or to keep, if there is one. -/
def boundClause : Option Expr → CompileM κ (Option SetId)
  | none => return none
  | some e => return some (← bound (expr e) e.span)
termination_by structural e => e

/-- The keys to group by. -/
def groupKeys : List Expr → CompileM κ (List SetId)
  | [] => return []
  | e :: rest => do
    let id ← key (expr e) e.span
    let ids ← groupKeys rest
    return id :: ids
termination_by structural es => es

/-- The keys to sort by. -/
def sortKeys : List SortKey → CompileM κ (List Ir.SortKey)
  | [] => return []
  | ⟨e, direction, empties, span⟩ :: rest => do
    let id ← key (expr e) e.span
    let ids ← sortKeys rest
    return ⟨id, direction, empties, span⟩ :: ids
termination_by structural ks => ks

/-- One element of a shape of `subject`: what an expression computes, or
what a pointer of the subject leads to, with a shape of its own. -/
def shapeElement (subject : SetId) : ShapeElement → CompileM κ ShapeNode
  | .mk name (some e) _ _ => do
    let set ← attach (← expr e) none
    return .mk name set true []
  | .mk name none elements span => do
    let set ← extendPath subject name span
    let nested ← withShape set elements (shapeElements set [] elements)
    return .mk name set false nested
termination_by structural e => e

/-- The elements of a shape of `subject`, each in a scope node of its
own. A name that was `taken` is not taken again. -/
def shapeElements (subject : SetId) :
    (taken : List String) → List ShapeElement → CompileM κ (List ShapeNode)
  | _, [] => return []
  | taken, element :: rest => do
    require (!taken.contains element.name)
      (.mismatch (.duplicateElement element.name) element.span)
    let node ← inScope (shapeElement subject element)
    let nodes ← shapeElements subject (element.name :: taken) rest
    return node :: nodes
termination_by structural _ es => es

/-- A statement, in a scope node of its own. Its result is the subject
of the shape and of every clause. -/
def select : Select → CompileM κ Statement
  | ⟨modules, result, elements, filter, groupBy, orderBy, offset, limit, span⟩ =>
    inScope <| inClause .result <| withModules modules do
      let result ← attach (← expr result) none
      underSubject result do
        let shape ← withShape result elements (shapeElements result [] elements)
        let filter ← filterClause filter
        let groupBy ← inClause .groupBy (groupKeys groupBy)
        let orderBy ← inClause .orderBy (sortKeys orderBy)
        let offset ← inClause .offset (boundClause offset)
        let limit ← inClause .limit (boundClause limit)
        let cardinality ← statementCardinality result filter limit
        return { result, shape, filter, groupBy, orderBy, offset, limit, cardinality,
                 scope := (← frame).scope, span }
termination_by structural q => q

end

/-- The keys that a statement groups by. -/
def groupByClause (keys : List Expr) : CompileM κ (List SetId) :=
  inClause .groupBy (groupKeys keys)

/-- The keys that a statement sorts by. -/
def orderByClause (keys : List SortKey) : CompileM κ (List Ir.SortKey) :=
  inClause .orderBy (sortKeys keys)

end PathQuery.CompileM
