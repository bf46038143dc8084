/-
Everything that was written somewhere.

The spans of a tree are those of all its nodes: expressions, names, the
pointers of paths, module declarations, statements, shape elements and
sort keys. What a diagnostic may point to is one of them.
-/
import PathQuery.Ast.Basic

namespace PathQuery.Ast

/-- Where a path and its parts were written. -/
def Path.spans (p : Path) : List Span :=
  p.span :: p.root.toList.map NameRef.span ++ p.steps.map PathStep.span

mutual

/-- Where an expression and its parts were written. -/
def Expr.spans : Expr → List Span
  | .constant _ span | .emptySet span => [span]
  | .path p => p.spans
  | .binary left _ right span => span :: left.spans ++ right.spans
  | .unary _ operand span => span :: operand.spans
  | .call function args span => span :: function.span :: Expr.spansOf args
  | .cast target operand span => span :: target.span :: operand.spans
  | .set elements span => span :: Expr.spansOf elements
  | .select query => query.spans
  | .paren inner span => span :: inner.spans
termination_by structural e => e

def Expr.spansOf : List Expr → List Span
  | [] => []
  | e :: rest => e.spans ++ Expr.spansOf rest
termination_by structural es => es

def Expr.spansIn : Option Expr → List Span
  | none => []
  | some e => e.spans
termination_by structural e => e

def ShapeElement.spans : ShapeElement → List Span
  | .mk _ computed elements span =>
    span :: Expr.spansIn computed ++ ShapeElement.spansOf elements
termination_by structural e => e

def ShapeElement.spansOf : List ShapeElement → List Span
  | [] => []
  | element :: rest => element.spans ++ ShapeElement.spansOf rest
termination_by structural es => es

def SortKey.spansOf : List SortKey → List Span
  | [] => []
  | ⟨e, _, _, span⟩ :: rest => span :: e.spans ++ SortKey.spansOf rest
termination_by structural ks => ks

/-- Where a statement and its parts were written. -/
def Select.spans : Select → List Span
  | ⟨modules, result, shape, filter, groupBy, orderBy, offset, limit, span⟩ =>
    span :: modules.map ModuleDecl.span ++ result.spans
      ++ ShapeElement.spansOf shape ++ Expr.spansIn filter ++ Expr.spansOf groupBy
      ++ SortKey.spansOf orderBy ++ Expr.spansIn offset ++ Expr.spansIn limit
termination_by structural q => q

end

/-- An expression is one of its own parts. -/
theorem Expr.span_mem_spans (e : Expr) : e.span ∈ e.spans := by
  cases e with
  | path p => exact List.mem_cons_self
  | select q =>
      obtain ⟨modules, result, shape, filter, groupBy, orderBy, offset, limit,
        span⟩ := q
      simp [Expr.span, Expr.spans, Select.spans]
  | _ => simp [Expr.span, Expr.spans]

/-- So is an element of a shape. -/
theorem ShapeElement.span_mem_spans (e : ShapeElement) : e.span ∈ e.spans := by
  cases e
  simp [ShapeElement.span, ShapeElement.spans]

end PathQuery.Ast
