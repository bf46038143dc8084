/-
What compilation produces.

A query compiles to sets. A set is typed, has a cardinality, and lives
in one scope node; it refers to other sets by number. A set is either a
path set, the objects of a type or what a pointer leads to, or computed
by an operation. Sets are never changed: using a set at another type,
or at another place of the query, makes a new set that refers to it.
-/
import PathQuery.Ast.Literal
import PathQuery.Ast.Operator
import PathQuery.Schema.Conversion
import PathQuery.Span

namespace PathQuery

/-- The number of a set, in order of production. -/
abbrev SetId := Nat

/-- The number of a scope node, in order of creation. -/
abbrev ScopeId := Nat

namespace Ir

-- ========================================================== statements

structure SortKey where
  key : SetId
  direction : SortDirection
  empties : Option EmptyOrder
  span : Span
  deriving DecidableEq, Inhabited

/-- One element of a compiled shape. -/
inductive ShapeNode where
  | mk (name : String) (set : SetId) (computed : Bool) (elements : List ShapeNode)

namespace ShapeNode

def name : ShapeNode → String
  | mk name .. => name

def set : ShapeNode → SetId
  | mk _ set .. => set

def computed : ShapeNode → Bool
  | mk _ _ computed _ => computed

def elements : ShapeNode → List ShapeNode
  | mk _ _ _ elements => elements

instance : Inhabited ShapeNode := ⟨mk "" 0 false []⟩

end ShapeNode

/-- A compiled statement. -/
structure Statement where
  result : SetId
  shape : List ShapeNode
  filter : Option SetId
  groupBy : List SetId
  orderBy : List SortKey
  offset : Option SetId
  limit : Option SetId
  cardinality : Cardinality
  /-- The scope node of the statement, below the one it stands in. -/
  scope : ScopeId
  span : Span
  deriving Inhabited

-- ================================================================ sets

/-- How the elements of a computed set come about. -/
inductive Operation where
  | constant (value : Literal)
  | emptySet
  | binary (left : SetId) (op : BinaryOp) (right : SetId)
  | unary (op : UnaryOp) (operand : SetId)
  | call (function : QualifiedName) (args : List SetId) (aggregate : Bool)
  | cast (operand : SetId) (target : TypeId) (conversion : Conversion)
  | union (members : List SetId)
  | subquery (statement : Statement)
  /-- The value of another set, referred to from elsewhere in the
  query. -/
  | reference (set : SetId)
  deriving Inhabited

/-- Where the elements of a set come from. -/
inductive Origin where
  /-- All objects of the set's type. -/
  | root
  /-- What a pointer leads to from each element of another set. -/
  | step (source : SetId) (pointer : String) (cardinality : Cardinality)
  | computed (operation : Operation)
  deriving Inhabited

/-- The set that a path goes on from. -/
def Origin.source? : Origin → Option SetId
  | step source _ _ => some source
  | root | computed _ => none

/-- Only a step has a source, so whatever is asked of sources is so of the
other origins. -/
theorem Origin.source_lt_root (n : Nat) :
    ∀ source, Origin.root.source? = some source → source < n := nofun

theorem Origin.source_lt_computed (op : Operation) (n : Nat) :
    ∀ source, (Origin.computed op).source? = some source → source < n := nofun

theorem Origin.source_lt_step {source n : Nat} (h : source < n) (pointer : String)
    (c : Cardinality) :
    ∀ s, (Origin.step source pointer c).source? = some s → s < n := by
  intro s hs
  cases hs
  exact h

/-- One set. -/
structure SetNode (κ : Type) where
  /-- The key of the path that the set stands for, if it is a path
  set. -/
  key : Option κ
  type : TypeId
  /-- How many elements, for one evaluation of the set's scope node. -/
  cardinality : Cardinality
  scope : ScopeId
  span : Span
  origin : Origin
  deriving Inhabited

-- ============================================================== values

/-- A typed operation that belongs to no scope node yet. Where its type
is empty, it is an empty set that awaits a type. -/
structure Pending where
  operation : Operation
  type : TypeId
  cardinality : Cardinality
  span : Span
  deriving Inhabited

/-- What an expression compiles to: a set, or an operation that is yet
to be attached to a scope node. -/
inductive Value where
  | set (id : SetId)
  | pending (p : Pending)
  deriving Inhabited

end Ir

end PathQuery
