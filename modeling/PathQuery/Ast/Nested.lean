/-
The statements inside a statement.

A statement occurs in another one wherever the other has expressions: in
its result, in computed elements of its shape at every depth, and in its
clauses. Those that occur in it occur in the other as well.
-/
import PathQuery.Ast.Basic

namespace PathQuery.Ast

mutual

/-- The statements that occur in an expression. -/
def Expr.queries : Expr → List Select
  | .constant _ _ | .emptySet _ | .path _ => []
  | .binary left _ right _ => left.queries ++ right.queries
  | .unary _ operand _ => operand.queries
  | .call _ args _ => Expr.queriesOf args
  | .cast _ operand _ => operand.queries
  | .set elements _ => Expr.queriesOf elements
  | .select query => query :: query.nested
  | .paren inner _ => inner.queries
termination_by structural e => e

def Expr.queriesOf : List Expr → List Select
  | [] => []
  | e :: rest => e.queries ++ Expr.queriesOf rest
termination_by structural es => es

def Expr.queriesIn : Option Expr → List Select
  | none => []
  | some e => e.queries
termination_by structural e => e

def ShapeElement.queries : ShapeElement → List Select
  | .mk _ (some e) _ _ => e.queries
  | .mk _ none elements _ => ShapeElement.queriesOf elements
termination_by structural e => e

def ShapeElement.queriesOf : List ShapeElement → List Select
  | [] => []
  | element :: rest => element.queries ++ ShapeElement.queriesOf rest
termination_by structural es => es

def SortKey.queriesOf : List SortKey → List Select
  | [] => []
  | ⟨e, _, _, _⟩ :: rest => e.queries ++ SortKey.queriesOf rest
termination_by structural ks => ks

/-- The statements that occur in a statement, itself apart. -/
def Select.nested : Select → List Select
  | ⟨_, result, shape, filter, groupBy, orderBy, offset, limit, _⟩ =>
    result.queries ++ ShapeElement.queriesOf shape ++ Expr.queriesIn filter
      ++ Expr.queriesOf groupBy ++ SortKey.queriesOf orderBy ++ Expr.queriesIn offset
      ++ Expr.queriesIn limit
termination_by structural q => q

end

/-- The statements inside a statement are those inside its parts. -/
theorem Select.forall_mem_nested {P : Select → Prop} (q : Select) :
    (∀ q' ∈ q.nested, P q') ↔
      (∀ q' ∈ q.result.queries, P q')
        ∧ (∀ q' ∈ ShapeElement.queriesOf q.shape, P q')
        ∧ (∀ q' ∈ Expr.queriesIn q.filter, P q')
        ∧ (∀ q' ∈ Expr.queriesOf q.groupBy, P q')
        ∧ (∀ q' ∈ SortKey.queriesOf q.orderBy, P q')
        ∧ (∀ q' ∈ Expr.queriesIn q.offset, P q')
        ∧ ∀ q' ∈ Expr.queriesIn q.limit, P q' := by
  cases q
  simp only [Select.nested, List.forall_mem_append, and_assoc]

end PathQuery.Ast
