/-
Operators, casts and set literals.

Each function here takes operands that are compiled already and says
what they combine to: it settles the types of the operands, adding casts
where needed, and gives an operation with its type and cardinality.

    AND OR NOT          booleans               boolean
    + - * / %  and  -   numbers                integer if all are, else float
    ++                  strings                string
    = != < <= > >=      a common type          boolean
    EXISTS              any set                boolean

Objects are compared by = and != only.
-/
import PathQuery.Compile.Attach

namespace PathQuery

open Ir

variable {κ : Type} [NameDigest]

-- =========================================================== constants

/-- The type of a constant. -/
def Literal.type : Literal → TypeId
  | int _ => TypeId.int
  | float _ => TypeId.float
  | str _ => TypeId.str
  | bool _ => TypeId.bool

/-- A constant, which is one element. -/
def Ir.Value.constant (value : Literal) (span : Span) : Value :=
  .pending ⟨.constant value, value.type, .one, span⟩

/-- An empty set that awaits a type. -/
def Ir.Value.emptySet (span : Span) : Value :=
  .pending ⟨.emptySet, .empty, .atMostOne, span⟩

namespace CompileM

-- ===================================================== binary operators

/-- An operand at a type that it may have to be cast to. -/
def convertOperand (id : SetId) (target : TypeId) : CompileM κ SetId := do
  let source ← typeOf id
  match (← schema).conversion? source target with
  | some .implicit => castSet id target .implicit
  | _ => return id

/-- The types that two operands take from each other: an untyped empty
set is typed by the other side. -/
def operandHints (left right : TypeId) : Option TypeId × Option TypeId :=
  (if left.isEmpty && !right.isEmpty then some right else none,
   if right.isEmpty && !left.isEmpty then some left else none)

/-- Both operands as sets. Logical operators want booleans; others
settle for what the operands are. -/
def attachOperands (op : BinaryOp) (left right : Value) : CompileM κ (SetId × SetId) := do
  if op.isLogical then
    let left ← attach left (some TypeId.bool)
    let right ← attach right (some TypeId.bool)
    return (left, right)
  else
    let leftType ← valueType left
    let rightType ← valueType right
    let hints := operandHints leftType rightType
    let left ← attach left hints.1
    let right ← attach right hints.2
    return (left, right)

/-- The operands of a comparison, at a common type unless they are
objects. -/
def comparison (left right : SetId) (objects : Bool) (mismatch : CompileError) :
    CompileM κ (SetId × SetId × TypeId) := do
  let common ← orFail ((← schema).commonType? (← typeOf left) (← typeOf right)) mismatch
  if objects then return (left, right, TypeId.bool)
  let left ← convertOperand left common
  let right ← convertOperand right common
  return (left, right, TypeId.bool)

/-- The operands of an arithmetic operator: integers as they are, mixed
numbers as floats. -/
def arithmetic (left right : SetId) (mismatch : CompileError) :
    CompileM κ (SetId × SetId × TypeId) := do
  let schema ← schema
  match schema.scalarKind? (← typeOf left), schema.scalarKind? (← typeOf right) with
  | some .int, some .int => return (left, right, TypeId.int)
  | some l, some r =>
    require (l.isNumeric && r.isNumeric) mismatch
    let left ← convertOperand left TypeId.float
    let right ← convertOperand right TypeId.float
    return (left, right, TypeId.float)
  | _, _ => fail mismatch

/-- The operands of a concatenation, which are strings. -/
def concatenation (left right : SetId) (mismatch : CompileError) :
    CompileM κ (SetId × SetId × TypeId) := do
  let schema ← schema
  match schema.scalarKind? (← typeOf left), schema.scalarKind? (← typeOf right) with
  | some .str, some .str => return (left, right, TypeId.str)
  | _, _ => fail mismatch

/-- The operands of a binary operator as it takes them, and the type of
the result. -/
def typeBinary (op : BinaryOp) (left right : SetId) (span : Span) :
    CompileM κ (SetId × SetId × TypeId) := do
  let schema ← schema
  let leftType ← typeOf left
  let rightType ← typeOf right
  let mismatch : CompileError :=
    .mismatch (.operands op (schema.typeName leftType) (schema.typeName rightType)) span
  if op.isLogical then return (left, right, TypeId.bool)
  let objects := schema.isObject leftType || schema.isObject rightType
  require (!objects || op.isEquality) (.unsupported (.objectOperands op) span)
  if op.isComparison then comparison left right objects mismatch
  else if op = .concat then concatenation left right mismatch
  else arithmetic left right mismatch

/-- A binary operator, applied to each pair of elements. -/
def binary (op : BinaryOp) (left right : Value) (span : Span) : CompileM κ Value := do
  let (left, right) ← attachOperands op left right
  let (left, right, type) ← typeBinary op left right span
  let cardinality := (← judge left).mul (← judge right)
  return .pending ⟨.binary left op right, type, cardinality, span⟩

-- ====================================================== unary operators

/-- Negation of a boolean. -/
def logicalNot (operand : Value) (span : Span) : CompileM κ Value := do
  let operand ← attach operand (some TypeId.bool)
  let cardinality ← judge operand
  return .pending ⟨.unary .not operand, TypeId.bool, cardinality, span⟩

/-- Negation of a number. -/
def arithmeticNeg (operand : Value) (span : Span) : CompileM κ Value := do
  let operand ← attach operand none
  let schema ← schema
  let type ← typeOf operand
  require (!schema.isObject type) (.unsupported .objectNegation span)
  require (schema.isNumeric type) (.mismatch (.operand .neg (schema.typeName type)) span)
  let cardinality ← judge operand
  return .pending ⟨.unary .neg operand, type, cardinality, span⟩

/-- Whether a set has elements. The operand is consumed as a whole, so
it has a scope node of its own. -/
def existence (operand : CompileM κ Value) (span : Span) : CompileM κ Value := do
  let id ← inScope do attach (← operand) none
  return .pending ⟨.unary .exists id, TypeId.bool, .one, span⟩

-- =============================================================== casts

omit [NameDigest]

/-- The type that a cast names. -/
def castTarget (target : Ast.NameRef) : CompileM κ TypeId := do
  match ← resolve target with
  | .type id _ => return id
  | .function name _ => fail (.unsupported (.functionAsType name.text) target.span)

/-- A value cast to a type. An untyped empty set just takes the type. -/
def cast (operand : Value) (target : TypeId) (span : Span) : CompileM κ Value := do
  let type ← valueType operand
  let operand ← attach operand (if type.isEmpty then some target else none)
  let schema ← schema
  let source ← typeOf operand
  let conversion ← orFail (schema.cast? source target)
    (.mismatch (.cast (schema.typeName source) (schema.typeName target)) span)
  let cardinality ← judge operand
  return .pending ⟨.cast operand target conversion, target, cardinality, span⟩

-- ======================================================== set literals

/-- The type that the elements of a set literal have in common so far,
`common`, and that of the elements still to come. Elements of no type
yet do not count; the empty type stands for none counted. -/
def commonElementType (common : TypeId) : List (Value × Span) → CompileM κ TypeId
  | [] => return common
  | (value, span) :: rest => do
    let type ← valueType value
    if type.isEmpty then commonElementType common rest
    else if common.isEmpty then commonElementType type rest
    else
      let schema ← schema
      let wider ← orFail (schema.commonType? common type)
        (.mismatch (.elements (schema.typeName common) (schema.typeName type)) span)
      commonElementType wider rest

/-- The members of a union, each with its cardinality. -/
def attachMembers (hint : Option TypeId) :
    List (Value × Span) → CompileM κ (List (SetId × Cardinality))
  | [] => return []
  | (value, _) :: rest => do
    let member ← attach value hint
    let cardinality ← judge member
    let members ← attachMembers hint rest
    return (member, cardinality) :: members

/-- The cardinality of a union of sets with these cardinalities. -/
def unionCardinality : List Cardinality → Cardinality
  | [] => .many
  | c :: rest => rest.foldl Cardinality.union c

/-- A set written by two or more elements: their union, at their common
type. -/
def unionOf (elements : List (Value × Span)) (span : Span) : CompileM κ Value := do
  let common ← commonElementType .empty elements
  let members ← attachMembers (if common.isEmpty then none else some common) elements
  return .pending ⟨.union (members.map Prod.fst), common,
    unionCardinality (members.map Prod.snd), span⟩

/-- A set written by its elements. One element stands for itself, and
none for an empty set that awaits a type. -/
def setOf (elements : List (Value × Span)) (span : Span) : CompileM κ Value :=
  match elements with
  | [] => return .emptySet span
  | [(value, _)] => return value
  | elements => unionOf elements span

end CompileM

end PathQuery
