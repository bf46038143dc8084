/-
Building trees without a text.

A builder hands out one fresh span per node, all on line one with the
column counting up, so a diagnostic can be traced to the node it is
about. Parts are built before what holds them; a node that carries a
name takes the name's span just before its own, except a path, whose
root comes before its steps. A statement takes its span right after its
result.
-/
import PathQuery.Ast.Basic

namespace PathQuery.Ast

/-- A computation that builds syntax, numbering nodes as it goes. -/
abbrev Build := StateM Nat

namespace Build

/-- Build from the first number on. -/
def run {α : Type} (b : Build α) : α := (StateT.run b 1).1

/-- A span no node has yet. -/
def freshSpan : Build Span := fun n => (⟨1, n, 1⟩, n + 1)

/-- A name as written in a query. -/
def name (text : String) : Build NameRef := do
  return ⟨QualifiedName.parse text, ← freshSpan⟩

def pathStep (name : String) : Build PathStep := do
  return ⟨name, ← freshSpan⟩

-- ========================================================= expressions

def constant (value : Literal) : Build Expr := do
  return .constant value (← freshSpan)

def emptySet : Build Expr := do
  return .emptySet (← freshSpan)

/-- A path from the objects of a type. -/
def path (root : String) (steps : List String) : Build Path := do
  let root ← name root
  let steps ← steps.mapM pathStep
  return ⟨some root, steps, ← freshSpan⟩

/-- A path from the subject of the statement around it. -/
def partialPath (steps : List String) : Build Path := do
  let steps ← steps.mapM pathStep
  return ⟨none, steps, ← freshSpan⟩

def binary (left : Expr) (op : BinaryOp) (right : Expr) : Build Expr := do
  return .binary left op right (← freshSpan)

def unary (op : UnaryOp) (operand : Expr) : Build Expr := do
  return .unary op operand (← freshSpan)

def call (function : String) (args : List Expr) : Build Expr := do
  let function ← name function
  return .call function args (← freshSpan)

def cast (target : String) (operand : Expr) : Build Expr := do
  let target ← name target
  return .cast target operand (← freshSpan)

def set (elements : List Expr) : Build Expr := do
  return .set elements (← freshSpan)

def paren (inner : Expr) : Build Expr := do
  return .paren inner (← freshSpan)

-- ============================================================= clauses

def sortKey (key : Expr) (direction : SortDirection) (empties : Option EmptyOrder) :
    Build SortKey := do
  return ⟨key, direction, empties, ← freshSpan⟩

/-- A pointer of the subject, with a shape of its own. -/
def pointer (name : String) (elements : List ShapeElement) : Build ShapeElement := do
  return .mk name none elements (← freshSpan)

/-- An element that an expression computes. -/
def computed (name : String) (expr : Expr) : Build ShapeElement := do
  return .mk name (some expr) [] (← freshSpan)

/-- A statement with a result and as yet no clauses. -/
def select (result : Expr) : Build Select := do
  return .ofResult result (← freshSpan)

/-- Declare the default module of a statement. -/
def withModule (q : Select) (module : String) : Build Select := do
  return { q with modules := q.modules ++ [⟨none, module, ← freshSpan⟩] }

/-- Declare a module alias of a statement. -/
def withAlias (q : Select) (shorthand module : String) : Build Select := do
  return { q with modules := q.modules ++ [⟨some shorthand, module, ← freshSpan⟩] }

end Build

end PathQuery.Ast
