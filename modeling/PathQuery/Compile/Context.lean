/-
What compilation reads, writes and fails with.

Compilation reads an environment, the schema and the active frame, and
grows a store, the sets and the scope tree. A frame is a value: a part
of the query that is compiled under another frame gets that frame
handed down, and nothing has to be restored after it, however it ends.
The store is different: a part that fails leaves in it the sets and
scope nodes made so far.
-/
import PathQuery.Ast.Basic
import PathQuery.Compile.Error
import PathQuery.Identity.PathKey
import PathQuery.Ir.Arena
import PathQuery.Schema.Builtin
import PathQuery.ScopeTree

namespace PathQuery

-- ============================================================== frames

/-- What an expression means depends on the place where it stands; this
is that place. -/
structure Frame where
  clause : Option Clause
  scope : ScopeId
  /-- The module searched first for names without a module. -/
  defaultModule : Option String
  /-- The modules that aliases stand for. -/
  aliases : Table String String
  /-- The set that partial paths start from. -/
  subject : Option SetId
  deriving Inhabited

/-- The frame inside a module declaration. -/
def Frame.declare (f : Frame) (d : Ast.ModuleDecl) : Frame :=
  match d.shorthand with
  | some shorthand => { f with aliases := f.aliases.insert shorthand d.module }
  | none => { f with defaultModule := some d.module }

@[simp] theorem Frame.scope_declare (f : Frame) (d : Ast.ModuleDecl) :
    (f.declare d).scope = f.scope := by
  unfold declare
  split <;> rfl

@[simp] theorem Frame.subject_declare (f : Frame) (d : Ast.ModuleDecl) :
    (f.declare d).subject = f.subject := by
  unfold declare
  split <;> rfl

/-- What compilation reads. -/
structure Env where
  schema : Schema
  frame : Frame
  deriving Inhabited

/-- What compilation grows. -/
structure Store (κ : Type) where
  arena : Ir.Arena κ
  scopes : ScopeTree κ

/-- No sets and a root scope node. -/
def Store.new {κ : Type} : Store κ := ⟨.empty, .new⟩

instance {κ : Type} : Inhabited (Store κ) := ⟨.new⟩

/-- A step of compilation. -/
abbrev CompileM (κ : Type) := ReaderT Env (ExceptT CompileError (StateM (Store κ)))

namespace CompileM

variable {κ α : Type}

/-- Run a step; the store comes back also from a failure. -/
def run (m : CompileM κ α) (env : Env) (store : Store κ) : Except CompileError α × Store κ :=
  StateT.run (ExceptT.run (ReaderT.run m env)) store

def fail (e : CompileError) : CompileM κ α := throw e

/-- Stop unless `condition` holds. -/
def require (condition : Bool) (e : CompileError) : CompileM κ Unit :=
  if condition then pure () else fail e

/-- The value that is there, or an error. -/
def orFail (value : Option α) (e : CompileError) : CompileM κ α :=
  match value with
  | some a => pure a
  | none => fail e

def schema : CompileM κ Schema := return (← read).schema

def frame : CompileM κ Frame := return (← read).frame

def store : CompileM κ (Store κ) := get

-- ==================================================== frames in effect

/-- Compile under another frame. -/
def underFrame (change : Frame → Frame) (m : CompileM κ α) : CompileM κ α :=
  withReader (fun env => { env with frame := change env.frame }) m

def inClause (clause : Clause) (m : CompileM κ α) : CompileM κ α :=
  underFrame (fun f => { f with clause := some clause }) m

def underSubject (subject : SetId) (m : CompileM κ α) : CompileM κ α :=
  underFrame (fun f => { f with subject := some subject }) m

/-- Compile in a new scope node below the active one. -/
def inScope (m : CompileM κ α) : CompileM κ α := do
  let store ← get
  let scope := store.scopes.size
  set { store with scopes := store.scopes.attach (← frame).scope }
  underFrame (fun f => { f with scope }) m

-- ================================================================ sets

/-- A set that must exist. -/
def getSet (id : SetId) : CompileM κ (Ir.SetNode κ) := do
  orFail ((← store).arena.get? id) (.internal (.danglingSet id))

def typeOf (id : SetId) : CompileM κ TypeId := return (← getSet id).type

/-- Add a set to the active scope node. A path that goes on from no set
is refused. -/
def newSet (origin : Ir.Origin) (type : TypeId) (cardinality : Cardinality) (span : Span)
    (key : Option κ) : CompileM κ SetId := do
  let store ← get
  let node : Ir.SetNode κ := ⟨key, type, cardinality, (← frame).scope, span, origin⟩
  match h : origin.source? with
  | none =>
    set { store with arena := store.arena.push node (by simp [node, h]) }
    return store.arena.size
  | some source =>
    if hlt : source < store.arena.size then
      set { store with arena := store.arena.push node (by simpa [node, h] using hlt) }
      return store.arena.size
    else fail (.internal (.danglingSet source))

/-- Add a computed set to the active scope node. -/
def newComputed (operation : Ir.Operation) (type : TypeId) (cardinality : Cardinality)
    (span : Span) : CompileM κ SetId :=
  newSet (.computed operation) type cardinality span none

-- =============================================================== paths

variable [DecidableEq κ]

/-- The set that a path is bound to, as seen from the active scope
node. -/
def lookupPath (key : κ) : CompileM κ (Option SetId) :=
  return ((← store).scopes.lookup (← frame).scope key).map Prod.snd

/-- Bind a path in the active scope node. -/
def bindPath (key : κ) (id : SetId) : CompileM κ Unit := do
  let store ← get
  set { store with scopes := store.scopes.bind (← frame).scope key id }

-- ================================================= steps, from outside

omit [DecidableEq κ]

/-- A step that has its value already. -/
@[simp] theorem run_pure (a : α) (env : Env) (st : Store κ) :
    (pure a : CompileM κ α).run env st = (.ok a, st) := rfl

@[simp] theorem run_fail (e : CompileError) (env : Env) (st : Store κ) :
    (fail e : CompileM κ α).run env st = (.error e, st) := rfl

/-- The second of two steps starts from the store that the first one
left, and does not start at all after a failure. -/
theorem run_bind {β : Type} (m : CompileM κ α) (f : α → CompileM κ β) (env : Env)
    (st : Store κ) :
    (m >>= f).run env st =
      match m.run env st with
      | (.ok a, st) => (f a).run env st
      | (.error e, st) => (.error e, st) := by
  simp only [run, ReaderT.run, ExceptT.run, StateT.run, bind, ReaderT.bind, ExceptT.bind,
    ExceptT.mk, StateT.bind]
  rcases m env st with ⟨_ | _, _⟩ <;> rfl

@[simp] theorem run_require (condition : Bool) (e : CompileError) (env : Env) (st : Store κ) :
    (require condition e : CompileM κ Unit).run env st =
      (if condition then .ok () else .error e, st) := by
  cases condition <;> rfl

@[simp] theorem run_orFail (value : Option α) (e : CompileError) (env : Env) (st : Store κ) :
    (orFail value e : CompileM κ α).run env st =
      (match value with
        | some a => .ok a
        | none => .error e, st) := by
  cases value <;> rfl

@[simp] theorem run_underFrame (change : Frame → Frame) (m : CompileM κ α) (env : Env)
    (st : Store κ) :
    (underFrame change m).run env st = m.run { env with frame := change env.frame } st := rfl

/-- A step in a scope node of its own runs in a node that did not exist
before, right below the active one. -/
theorem run_inScope (m : CompileM κ α) (env : Env) (st : Store κ) :
    (inScope m).run env st =
      m.run { env with frame := { env.frame with scope := st.scopes.size } }
        { st with scopes := st.scopes.attach env.frame.scope } := rfl

end CompileM

-- =============================================================== names

/-- What a qualified name stands for, or an error at `span`. -/
def Schema.lookupAt (s : Schema) (name : QualifiedName) (span : Span) :
    Except CompileError SchemaItem :=
  match s.lookup name with
  | some item => .ok item
  | none => .error (.unresolved name.text span)

/-- What a name stands for. A module as written may be an alias. A name
without a module is looked for in the default module, then among the
built-in items. -/
def Env.resolve? (env : Env) (name : QualifiedName) : Option SchemaItem :=
  match name.module with
  | some module =>
    env.schema.lookup (.within ((env.frame.aliases.get? module).getD module) name.name)
  | none =>
    (env.frame.defaultModule.toList ++ [builtinModule]).findSome? fun module =>
      env.schema.lookup (.within module name.name)

/-- A name as diagnostics show it when it stands for nothing: with the
module that an alias stands for. -/
def Env.shownName (env : Env) (name : QualifiedName) : String :=
  match name.module with
  | some module => (name.withModule ((env.frame.aliases.get? module).getD module)).text
  | none => name.name

namespace CompileM

variable {κ : Type}

/-- What a name in the query stands for. -/
def resolve (ref : Ast.NameRef) : CompileM κ SchemaItem := do
  let env ← read
  orFail (env.resolve? ref.name) (.unresolved (env.shownName ref.name) ref.span)

/-- A module that must be declared in the schema. -/
def checkModule (module : String) (span : Span) : CompileM κ Unit := do
  require ((← schema).hasModule module) (.unresolved module span)

end CompileM

end PathQuery
