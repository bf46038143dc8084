/-
What names stand for at a place of a query.

Of all that a frame says, only its default module and its aliases bear
on names. Together with the schema they are the lexicon of a place. A
module declaration overlays it, the later over the earlier, and the
lexicon inside a statement is that around it under the declarations of
the statement in order.
-/
import PathQuery.Compile.Context

namespace PathQuery

structure Lexicon where
  schema : Schema
  /-- The module searched first for names without a module. -/
  defaultModule : Option String
  /-- The modules that aliases stand for. -/
  aliases : Table String String
  deriving Inhabited

namespace Lexicon

/-- The lexicon inside a module declaration. -/
def declare (x : Lexicon) (d : Ast.ModuleDecl) : Lexicon :=
  match d.shorthand with
  | some shorthand => { x with aliases := x.aliases.insert shorthand d.module }
  | none => { x with defaultModule := some d.module }

/-- The lexicon inside some module declarations. -/
def declareAll (x : Lexicon) (modules : List Ast.ModuleDecl) : Lexicon :=
  modules.foldl declare x

/-- The module that a module as written stands for. -/
def module (x : Lexicon) (written : String) : String :=
  (x.aliases.get? written).getD written

/-- What a name stands for. -/
def resolve? (x : Lexicon) (name : QualifiedName) : Option SchemaItem :=
  match name.module with
  | some written => x.schema.lookup (.within (x.module written) name.name)
  | none =>
    (x.defaultModule.toList ++ [builtinModule]).findSome? fun module =>
      x.schema.lookup (.within module name.name)

end Lexicon

/-- What names stand for under the active frame. -/
def Env.lexicon (env : Env) : Lexicon :=
  ⟨env.schema, env.frame.defaultModule, env.frame.aliases⟩

-- ================================================================ laws

theorem Env.resolve?_eq (env : Env) (name : QualifiedName) :
    env.resolve? name = env.lexicon.resolve? name := rfl

/-- A declaration does to the lexicon of a frame what it does to the
frame. -/
theorem Env.lexicon_declare (env : Env) (d : Ast.ModuleDecl) :
    ({ env with frame := env.frame.declare d } : Env).lexicon
      = env.lexicon.declare d := by
  unfold Env.lexicon Frame.declare Lexicon.declare
  cases d.shorthand <;> rfl

@[simp] theorem Lexicon.schema_declare (x : Lexicon) (d : Ast.ModuleDecl) :
    (x.declare d).schema = x.schema := by
  unfold declare
  split <;> rfl

@[simp] theorem Lexicon.schema_declareAll (x : Lexicon)
    (modules : List Ast.ModuleDecl) :
    (x.declareAll modules).schema = x.schema := by
  unfold declareAll
  induction modules generalizing x with
  | nil => rfl
  | cons d modules ih => rw [List.foldl_cons, ih, schema_declare]

-- ======================================================== declarations

/-- The environment inside some module declarations. -/
def Env.declareAll (env : Env) (modules : List Ast.ModuleDecl) : Env :=
  { env with frame := modules.foldl Frame.declare env.frame }

theorem Env.declareAll_cons (env : Env) (d : Ast.ModuleDecl) (modules : List Ast.ModuleDecl) :
    env.declareAll (d :: modules)
      = ({ env with frame := env.frame.declare d } : Env).declareAll modules := rfl

theorem Env.lexicon_declareAll (env : Env) (modules : List Ast.ModuleDecl) :
    (env.declareAll modules).lexicon = env.lexicon.declareAll modules := by
  induction modules generalizing env with
  | nil => rfl
  | cons d modules ih =>
    rw [declareAll_cons, ih, lexicon_declare]
    rfl

/-- Declarations change the names of a frame and nothing else. -/
theorem Frame.declare_eq (f : Frame) (d : Ast.ModuleDecl) :
    f.declare d = { f with
      defaultModule := (f.declare d).defaultModule
      aliases := (f.declare d).aliases } := by
  unfold declare
  split <;> rfl

theorem Env.declareAll_eq (env : Env) (modules : List Ast.ModuleDecl) :
    env.declareAll modules = { env with frame := { env.frame with
      defaultModule := (env.lexicon.declareAll modules).defaultModule
      aliases := (env.lexicon.declareAll modules).aliases } } := by
  induction modules generalizing env with
  | nil => rfl
  | cons d modules ih =>
    rw [declareAll_cons, ih, lexicon_declare, Frame.declare_eq]
    rfl

end PathQuery
