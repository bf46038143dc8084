/-
Why a query does not compile.

An error is a cause and the span of the syntax it is about. Causes are
data; `CompileError.message` alone words them. The last kind, a broken
rule of the compiler itself, has no place in the query.
-/
import PathQuery.Ast.Operator
import PathQuery.Ir.Basic
import PathQuery.Span

namespace PathQuery

-- ============================================================= clauses

/-- The part of a statement that is being compiled. -/
inductive Clause where
  | result
  | shape
  | filter
  | groupBy
  | orderBy
  | offset
  | limit
  deriving DecidableEq, Inhabited

namespace Clause

def spelling : Clause → String
  | result => "SELECT"
  | shape => "shape"
  | filter => "FILTER"
  | groupBy => "GROUP BY"
  | orderBy => "ORDER BY"
  | offset => "OFFSET"
  | limit => "LIMIT"

def all : List Clause := [result, shape, filter, groupBy, orderBy, offset, limit]

/-- The clause with the given spelling. -/
def ofSpelling? (text : String) : Option Clause :=
  all.find? fun c => c.spelling == text

/-- Where in a statement something is wrong, to go after what is wrong;
nothing outside any clause. -/
def suffix : Option Clause → String
  | some clause => " in " ++ clause.spelling ++ " clause"
  | none => ""

end Clause

-- ============================================================== causes

/-- A construct that has no meaning where it stands. -/
inductive Construct where
  | scalarAsSet (type : String)
  | functionAsSet (function : String)
  | functionAsType (function : String)
  | typeAsFunction (type : String)
  /-- A partial path outside any statement. -/
  | noSubject
  | objectOperands (op : BinaryOp)
  | objectNegation
  | shapeOfScalar (type : String)
  deriving DecidableEq, Inhabited

def Construct.message : Construct → String
  | scalarAsSet type => "scalar type '" ++ type ++ "' used as a set"
  | functionAsSet function => "function '" ++ function ++ "' used as a set"
  | functionAsType function => "function '" ++ function ++ "' used as a cast target"
  | typeAsFunction type => "type '" ++ type ++ "' called as a function"
  | noSubject => "partial path with no path subject"
  | objectOperands op => "operator '" ++ op.spelling ++ "' on object operands"
  | objectNegation => "unary '-' on an object operand"
  | shapeOfScalar type => "shape on non-object type '" ++ type ++ "'"

/-- What an argument should have been. -/
inductive Expectation where
  | numeric
  | type (name : String)
  deriving DecidableEq, Inhabited

def Expectation.message : Expectation → String
  | numeric => "numeric value"
  | type name => "'" ++ name ++ "'"

/-- A type that does not fit. Types are given by their names. -/
inductive Mismatch where
  /-- A value of a type that does not convert to what the clause
  expects. -/
  | expected (family type : String) (clause : Option Clause)
  | untypedEmptySet (clause : Option Clause)
  | pointerOfScalar (pointer type : String) (clause : Option Clause)
  | cast (source target : String)
  | elements (first second : String)
  | operands (op : BinaryOp) (left right : String)
  | operand (op : UnaryOp) (type : String)
  | argumentCount (function : String) (takes given : Nat)
  /-- The argument at a position, counted from one. -/
  | argument (position : Nat) (function : String) (expects : Expectation) (type : String)
  | duplicateElement (name : String)
  deriving DecidableEq, Inhabited

def Mismatch.message : Mismatch → String
  | expected family type clause =>
    "expected " ++ family ++ ", got '" ++ type ++ "'" ++ Clause.suffix clause
  | untypedEmptySet clause =>
    "cannot determine the type of an empty set" ++ Clause.suffix clause
  | pointerOfScalar pointer type clause =>
    "cannot follow pointer '" ++ pointer ++ "' of non-object type '" ++ type ++ "'"
      ++ Clause.suffix clause
  | cast source target => "cannot cast '" ++ source ++ "' to '" ++ target ++ "'"
  | elements first second =>
    "set constructor has elements of incompatible types '" ++ first ++ "' and '"
      ++ second ++ "'"
  | operands op left right =>
    "operator '" ++ op.spelling ++ "' cannot be applied to operands of type '" ++ left
      ++ "' and '" ++ right ++ "'"
  | operand op type =>
    "operator '" ++ op.spelling ++ "' cannot be applied to operand of type '" ++ type ++ "'"
  | argumentCount function takes given =>
    "function '" ++ function ++ "' takes " ++ toString takes ++ " argument(s), got "
      ++ toString given
  | argument position function expects type =>
    "argument " ++ toString position ++ " of '" ++ function ++ "' expects "
      ++ expects.message ++ ", got '" ++ type ++ "'"
  | duplicateElement name => "duplicate shape element '" ++ name ++ "'"

/-- A rule of the compiler itself that did not hold. -/
inductive Fault where
  | danglingSet (id : SetId)
  /-- A function that returns the type of an argument it does not
  have. -/
  | missingArgument (function : String) (position : Nat)
  deriving DecidableEq, Inhabited

def Fault.message : Fault → String
  | danglingSet id => "dangling set id set#" ++ toString id
  | missingArgument function position =>
    "'" ++ function ++ "' returns the type of missing argument " ++ toString position

-- ============================================================== errors

/-- An error of compilation. -/
inductive CompileError where
  | unsupported (construct : Construct) (span : Span)
  | mismatch (mismatch : Mismatch) (span : Span)
  /-- More than one element where one is allowed. -/
  | notSingleton (clause : Option Clause) (span : Span)
  /-- A name that stands for nothing. -/
  | unresolved (name : String) (span : Span)
  | internal (fault : Fault)
  deriving DecidableEq, Inhabited

/-- The five ways in which compilation fails. -/
inductive ErrorKind where
  | unsupportedConstruct
  | typeMismatch
  | cardinalityViolation
  | nameResolution
  | internal
  deriving DecidableEq, Inhabited

namespace CompileError

def kind : CompileError → ErrorKind
  | unsupported .. => .unsupportedConstruct
  | mismatch .. => .typeMismatch
  | notSingleton .. => .cardinalityViolation
  | unresolved .. => .nameResolution
  | internal .. => .internal

/-- The syntax that the error is about. -/
def span : CompileError → Span
  | unsupported _ span | mismatch _ span | notSingleton _ span | unresolved _ span => span
  | internal _ => Span.unknown

def message : CompileError → String
  | unsupported construct span =>
    "at " ++ span.position ++ ": unsupported construct: " ++ construct.message
  | mismatch m span => "at " ++ span.position ++ ": " ++ m.message
  | notSingleton clause span =>
    "at " ++ span.position
      ++ ": possibly more than one element returned by an expression" ++ Clause.suffix clause
      ++ " where only singletons are allowed"
  | unresolved name span =>
    "at " ++ span.position ++ ": reference to a non-existent schema item '" ++ name ++ "'"
  | internal fault => "internal compiler error: " ++ fault.message

end CompileError

end PathQuery
