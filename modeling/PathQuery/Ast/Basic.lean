/-
The syntax of queries.

An expression denotes a set. Everything that was written somewhere has
the span of where it was written; the span of a subquery is that of its
statement. Names are kept as written, unresolved.
-/
import PathQuery.Ast.Literal
import PathQuery.Ast.Operator
import PathQuery.Name
import PathQuery.Span

namespace PathQuery.Ast

-- ===================================================== names and paths

/-- A name as written, qualified by a module or a module alias or not at
all. -/
structure NameRef where
  name : QualifiedName
  span : Span
  deriving DecidableEq, Inhabited

/-- One pointer of a path. -/
structure PathStep where
  name : String
  span : Span
  deriving DecidableEq, Inhabited

/-- A path. Without a root it is partial and starts at the subject of
the statement around it. -/
structure Path where
  root : Option NameRef
  steps : List PathStep
  span : Span
  deriving DecidableEq, Inhabited

def Path.isPartial (p : Path) : Bool := p.root.isNone

/-- A module declared at the head of a statement, under a shorthand that
names may use for it, or as the default module. -/
structure ModuleDecl where
  shorthand : Option String
  module : String
  span : Span
  deriving DecidableEq, Inhabited

-- ========================================= expressions and statements

mutual

inductive Expr : Type where
  | constant (value : Literal) (span : Span)
  /-- The empty set, written as such. -/
  | emptySet (span : Span)
  | path (path : Path)
  | binary (left : Expr) (op : BinaryOp) (right : Expr) (span : Span)
  | unary (op : UnaryOp) (operand : Expr) (span : Span)
  | call (function : NameRef) (args : List Expr) (span : Span)
  | cast (target : NameRef) (operand : Expr) (span : Span)
  /-- A set written by its elements. -/
  | set (elements : List Expr) (span : Span)
  | select (query : Select)
  | paren (inner : Expr) (span : Span)

/-- A statement: what it selects, how each element is shown, and which
elements are kept and in which order. -/
structure Select : Type where
  modules : List ModuleDecl
  result : Expr
  shape : List ShapeElement
  filter : Option Expr
  groupBy : List Expr
  orderBy : List SortKey
  offset : Option Expr
  limit : Option Expr
  span : Span

/-- One element of a shape: a pointer of the subject, with a shape of
its own, or a computed expression. -/
inductive ShapeElement : Type where
  | mk (name : String) (computed : Option Expr) (elements : List ShapeElement) (span : Span)

structure SortKey : Type where
  key : Expr
  direction : SortDirection
  /-- Where empty keys come, if the query says so. -/
  empties : Option EmptyOrder
  span : Span

end

instance : Inhabited Expr := ⟨.emptySet default⟩

/-- Where an expression was written. -/
def Expr.span : Expr → Span
  | constant _ span => span
  | emptySet span => span
  | path p => p.span
  | binary _ _ _ span => span
  | unary _ _ span => span
  | call _ _ span => span
  | cast _ _ span => span
  | set _ span => span
  | select query => query.span
  | paren _ span => span

namespace ShapeElement

def name : ShapeElement → String
  | mk name .. => name

def computed : ShapeElement → Option Expr
  | mk _ computed .. => computed

def elements : ShapeElement → List ShapeElement
  | mk _ _ elements _ => elements

def span : ShapeElement → Span
  | mk _ _ _ span => span

end ShapeElement

/-- A statement with a result and no clauses. -/
def Select.ofResult (result : Expr) (span : Span) : Select :=
  ⟨[], result, [], none, [], [], none, none, span⟩

end PathQuery.Ast
