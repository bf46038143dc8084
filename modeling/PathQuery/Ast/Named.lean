/-
The names in a query.

Names of schema items are written in three places: at the root of a
path, in a call, and in a cast. Pointers and modules are named too, but
are no items. What is written inside a computed element of a shape,
besides its expression, is never read and does not count.
-/
import PathQuery.Ast.Basic

namespace PathQuery.Ast

mutual

/-- The names of items in an expression. -/
def Expr.names : Expr → List NameRef
  | .constant _ _ | .emptySet _ => []
  | .path p => p.root.toList
  | .binary left _ right _ => left.names ++ right.names
  | .unary _ operand _ => operand.names
  | .call function args _ => function :: Expr.namesOf args
  | .cast target operand _ => target :: operand.names
  | .set elements _ => Expr.namesOf elements
  | .select query => query.names
  | .paren inner _ => inner.names
termination_by structural e => e

def Expr.namesOf : List Expr → List NameRef
  | [] => []
  | e :: rest => e.names ++ Expr.namesOf rest
termination_by structural es => es

def Expr.namesIn : Option Expr → List NameRef
  | none => []
  | some e => e.names
termination_by structural e => e

def ShapeElement.names : ShapeElement → List NameRef
  | .mk _ (some e) _ _ => e.names
  | .mk _ none elements _ => ShapeElement.namesOf elements
termination_by structural e => e

def ShapeElement.namesOf : List ShapeElement → List NameRef
  | [] => []
  | element :: rest => element.names ++ ShapeElement.namesOf rest
termination_by structural es => es

def SortKey.namesOf : List SortKey → List NameRef
  | [] => []
  | ⟨e, _, _, _⟩ :: rest => e.names ++ SortKey.namesOf rest
termination_by structural ks => ks

/-- The names of items in a statement. -/
def Select.names : Select → List NameRef
  | ⟨_, result, shape, filter, groupBy, orderBy, offset, limit, _⟩ =>
    result.names ++ ShapeElement.namesOf shape ++ Expr.namesIn filter
      ++ Expr.namesOf groupBy ++ SortKey.namesOf orderBy ++ Expr.namesIn offset
      ++ Expr.namesIn limit
termination_by structural q => q

end

end PathQuery.Ast
