/-
A query with its names qualified.

Module declarations save writing: each name stands for one in a module,
by the lexicon of the place where it is written. Here that name is put
in its place and the declarations, which nothing needs then, are left
out. Everything else stays, spans too.
-/
import PathQuery.Compile.Lexicon

namespace PathQuery

-- =============================================================== names

namespace Lexicon

/-- The module of a name: the one that is written, or that it is an alias
of; for a name without a module the default module, if it has such an
item, and the built-in one otherwise. -/
def moduleOf (x : Lexicon) (name : QualifiedName) : String :=
  match name.module, x.defaultModule with
  | some written, _ => x.module written
  | none, some module =>
    if (x.schema.lookup (.within module name.name)).isSome then module else builtinModule
  | none, none => builtinModule

/-- The name in full. -/
def qualify (x : Lexicon) (name : QualifiedName) : QualifiedName :=
  name.withModule (x.moduleOf name)

/-- The lexicon without any declarations. -/
def plain (x : Lexicon) : Lexicon := ⟨x.schema, none, .empty⟩

/-- A name in full stands for what the name stands for, whatever is
declared. -/
theorem resolve?_qualify (x : Lexicon) (name : QualifiedName) :
    x.plain.resolve? (x.qualify name) = x.resolve? name := by
  obtain ⟨module, simple⟩ := name
  cases module with
  | some written => rfl
  | none =>
    show x.schema.lookup (.within (x.moduleOf ⟨none, simple⟩) simple) = _
    unfold resolve? moduleOf
    cases x.defaultModule with
    | none => simp
    | some module =>
      cases h : x.schema.lookup (.within module simple) with
      | none => simp [h]
      | some item => simp [h]

end Lexicon

-- ============================================================== syntax

namespace Ast

def NameRef.qualify (x : Lexicon) (ref : NameRef) : NameRef := ⟨x.qualify ref.name, ref.span⟩

def Path.qualify (x : Lexicon) (p : Path) : Path := ⟨p.root.map (·.qualify x), p.steps, p.span⟩

mutual

/-- The expression with its names in full. -/
def Expr.qualify (x : Lexicon) : Expr → Expr
  | .constant value span => .constant value span
  | .emptySet span => .emptySet span
  | .path p => .path (p.qualify x)
  | .binary left op right span => .binary (left.qualify x) op (right.qualify x) span
  | .unary op operand span => .unary op (operand.qualify x) span
  | .call function args span => .call (function.qualify x) (Expr.qualifyAll x args) span
  | .cast target operand span => .cast (target.qualify x) (operand.qualify x) span
  | .set elements span => .set (Expr.qualifyAll x elements) span
  | .select query => .select (query.qualify x)
  | .paren inner span => .paren (inner.qualify x) span
termination_by structural e => e

def Expr.qualifyAll (x : Lexicon) : List Expr → List Expr
  | [] => []
  | e :: rest => e.qualify x :: Expr.qualifyAll x rest
termination_by structural es => es

def Expr.qualifyIn (x : Lexicon) : Option Expr → Option Expr
  | none => none
  | some e => some (e.qualify x)
termination_by structural e => e

def ShapeElement.qualify (x : Lexicon) : ShapeElement → ShapeElement
  | .mk name computed elements span =>
    .mk name (Expr.qualifyIn x computed) (ShapeElement.qualifyAll x elements) span
termination_by structural e => e

def ShapeElement.qualifyAll (x : Lexicon) : List ShapeElement → List ShapeElement
  | [] => []
  | element :: rest => element.qualify x :: ShapeElement.qualifyAll x rest
termination_by structural es => es

def SortKey.qualifyAll (x : Lexicon) : List SortKey → List SortKey
  | [] => []
  | ⟨e, direction, empties, span⟩ :: rest =>
    ⟨e.qualify x, direction, empties, span⟩ :: SortKey.qualifyAll x rest
termination_by structural ks => ks

/-- The statement with its names in full, by the lexicon around it under
its own module declarations, which are left out. -/
def Select.qualify (x : Lexicon) : Select → Select
  | ⟨modules, result, shape, filter, groupBy, orderBy, offset, limit, span⟩ =>
    let x := x.declareAll modules
    ⟨[], result.qualify x, ShapeElement.qualifyAll x shape, Expr.qualifyIn x filter,
      Expr.qualifyAll x groupBy, SortKey.qualifyAll x orderBy, Expr.qualifyIn x offset,
      Expr.qualifyIn x limit, span⟩
termination_by structural q => q

end

@[simp] theorem Expr.span_qualify (x : Lexicon) (e : Expr) : (e.qualify x).span = e.span := by
  cases e with
  | select q =>
    cases q
    rfl
  | _ => rfl

@[simp] theorem Expr.length_qualifyAll (x : Lexicon) (es : List Expr) :
    (Expr.qualifyAll x es).length = es.length := by
  induction es with
  | nil => rfl
  | cons e es ih =>
    unfold Expr.qualifyAll
    rw [List.length_cons, ih, List.length_cons]

@[simp] theorem ShapeElement.name_qualify (x : Lexicon) (e : ShapeElement) :
    (e.qualify x).name = e.name := by
  cases e
  rfl

@[simp] theorem ShapeElement.span_qualify (x : Lexicon) (e : ShapeElement) :
    (e.qualify x).span = e.span := by
  cases e
  rfl

end Ast

end PathQuery
