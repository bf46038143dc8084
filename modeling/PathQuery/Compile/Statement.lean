/-
Compiling one statement against a schema.

The modules that the options name must be declared. A statement without
a limit takes the implicit limit, if there is one: a constant that
belongs to the root scope node and to the span of the whole statement.
-/
import PathQuery.Compile.Query

namespace PathQuery

open Ir

/-- Settings of a compilation. -/
structure CompileOptions where
  defaultModule : Option String := none
  /-- The modules that aliases stand for throughout the statement. -/
  aliases : Table String String := .empty
  /-- The limit of a statement that has none. -/
  implicitLimit : Option Int := none
  deriving Inhabited

/-- The frame that a statement is compiled in. -/
def CompileOptions.frame (o : CompileOptions) : Frame :=
  ⟨none, ScopeTree.root, o.defaultModule, o.aliases, none⟩

/-- A compiled statement with all its sets. -/
structure Compiled (κ : Type) where
  arena : Arena κ
  statement : Statement

namespace Compiled

variable {κ : Type}

def set? (c : Compiled κ) (id : SetId) : Option (SetNode κ) := c.arena.get? id

/-- The set that the statement selects. -/
def result? (c : Compiled κ) : Option (SetNode κ) := c.set? c.statement.result

def cardinality (c : Compiled κ) : Cardinality := c.statement.cardinality

end Compiled

variable {κ : Type} [NameDigest]

namespace CompileM

/-- Every module that the options name is declared. -/
def checkOptions (o : CompileOptions) (span : Span) : CompileM κ Unit :=
  (o.defaultModule.toList ++ o.aliases.values).forM fun module => checkModule module span

/-- A statement under the implicit limit `limit`. -/
def limitImplicitly (s : Statement) (limit : Int) : CompileM κ Statement := do
  if s.limit.isSome then return s
  let id ← newComputed (.constant (.int limit)) TypeId.int .one s.span
  return { s with limit := some id, cardinality := ← limited s.cardinality id }

variable [DecidableEq κ] [PathKey κ]

/-- A statement under the given options. -/
def statement (o : CompileOptions) (query : Ast.Select) : CompileM κ Statement := do
  checkOptions o query.span
  let s ← select query
  match o.implicitLimit with
  | some limit => limitImplicitly s limit
  | none => return s

end CompileM

variable [DecidableEq κ] [PathKey κ]

/-- Compile a statement against a schema, with paths recognised by keys
of type `κ`. -/
def compileWith (κ : Type) [DecidableEq κ] [PathKey κ] (schema : Schema) (o : CompileOptions)
    (query : Ast.Select) : Except CompileError (Compiled κ) :=
  match (CompileM.statement o query).run ⟨schema, o.frame⟩ (Store.new (κ := κ)) with
  | (.ok statement, store) => .ok ⟨store.arena, statement⟩
  | (.error e, _) => .error e

/-- Compile a statement against a schema. -/
def compile (schema : Schema) (o : CompileOptions) (query : Ast.Select) :
    Except CompileError (Compiled PathId) :=
  compileWith PathId schema o query

end PathQuery
