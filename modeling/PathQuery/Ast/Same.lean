/-
When two trees are the same.

Trees are compared node by node, spans included. The comparison differs
from equality at one place only: float literals are compared as numbers
(`FloatBits.same`), so a tree is the same as one in which a NaN has
other bits.
-/
import PathQuery.Ast.Basic

namespace PathQuery.Ast

mutual

def Expr.same : Expr → Expr → Bool
  | .constant v s, .constant v' s' => v.same v' && s == s'
  | .emptySet s, .emptySet s' => s == s'
  | .path p, .path p' => p == p'
  | .binary l op r s, .binary l' op' r' s' => l.same l' && op == op' && r.same r' && s == s'
  | .unary op e s, .unary op' e' s' => op == op' && e.same e' && s == s'
  | .call f args s, .call f' args' s' => f == f' && sameExprs args args' && s == s'
  | .cast t e s, .cast t' e' s' => t == t' && e.same e' && s == s'
  | .set es s, .set es' s' => sameExprs es es' && s == s'
  | .select q, .select q' => q.same q'
  | .paren e s, .paren e' s' => e.same e' && s == s'
  | _, _ => false

def Select.same : Select → Select → Bool
  | ⟨modules, result, shape, filter, groupBy, orderBy, offset, limit, span⟩, q =>
    modules == q.modules && result.same q.result && sameElements shape q.shape
      && sameOption filter q.filter && sameExprs groupBy q.groupBy
      && sameKeys orderBy q.orderBy && sameOption offset q.offset
      && sameOption limit q.limit && span == q.span

def ShapeElement.same : ShapeElement → ShapeElement → Bool
  | .mk name computed elements span, e =>
    name == e.name && sameOption computed e.computed && sameElements elements e.elements
      && span == e.span

def SortKey.same : SortKey → SortKey → Bool
  | ⟨key, direction, empties, span⟩, k =>
    key.same k.key && direction == k.direction && empties == k.empties && span == k.span

def sameExprs : List Expr → List Expr → Bool
  | [], [] => true
  | e :: es, e' :: es' => e.same e' && sameExprs es es'
  | _, _ => false

def sameOption : Option Expr → Option Expr → Bool
  | none, none => true
  | some e, some e' => e.same e'
  | _, _ => false

def sameElements : List ShapeElement → List ShapeElement → Bool
  | [], [] => true
  | e :: es, e' :: es' => e.same e' && sameElements es es'
  | _, _ => false

def sameKeys : List SortKey → List SortKey → Bool
  | [], [] => true
  | k :: ks, k' :: ks' => k.same k' && sameKeys ks ks'
  | _, _ => false

end

end PathQuery.Ast
