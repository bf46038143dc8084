/-
Paths.

A path is compiled pointer by pointer. Each stretch of it that was met
before, in the active scope node or above, is the set it was then; the
others become new sets, bound in the active node. What was met before is
found by its key. Keys may coincide, so a set that is found is used only
if it does stand for the path that is wanted: a path whose key is taken
by another gets a set of its own that is bound nowhere.
-/
import PathQuery.Compile.Viewpoint

namespace PathQuery

variable {κ : Type}

-- ==================================================== the same path

/-- Whether two sets stand for one canonical path: the same set, the
objects of one type, or one pointer further from the same path. -/
def Ir.Arena.samePath (a : Ir.Arena κ) (x y : SetId) : Bool :=
  if x = y then true
  else
    match hx : a.get? x, a.get? y with
    | some n, some m =>
      match ho : n.origin, m.origin with
      | .root, .root => n.type == m.type
      | .step source pointer _, .step source' pointer' _ =>
        have : source < x := a.lt_of_source hx (by rw [ho]; rfl)
        pointer == pointer' && a.samePath source source'
      | _, _ => false
    | _, _ => false
termination_by x

/-- Whether a set is that of all objects of a type. -/
def Ir.Arena.isRootOf (a : Ir.Arena κ) (id : SetId) (type : TypeId) : Bool :=
  match a.get? id with
  | none => false
  | some node =>
    match node.origin with
    | .root => node.type == type
    | _ => false

/-- Whether a set is one pointer further from the path of `source`. -/
def Ir.Arena.isStepOf (a : Ir.Arena κ) (id source : SetId) (pointer : String) : Bool :=
  match a.get? id with
  | none => false
  | some node =>
    match node.origin with
    | .step origin name _ => name == pointer && a.samePath origin source
    | _ => false

namespace CompileM

variable [DecidableEq κ]

-- ============================================================= sharing

/-- The set that `key` is bound to, if it passes `confirm`. Otherwise a
set made by `make`, which is bound to `key` unless that is taken. -/
def shared (key : κ) (confirm : Ir.Arena κ → SetId → Bool) (make : CompileM κ SetId) :
    CompileM κ SetId := do
  match ← lookupPath key with
  | some found => if confirm (← store).arena found then return found else make
  | none =>
    let id ← make
    bindPath key id
    return id

variable [PathKey κ]

/-- The set of all objects of a type. -/
def rootSet (type : TypeId) (span : Span) : CompileM κ SetId :=
  let key : κ := PathKey.root type
  shared key (fun arena found => arena.isRootOf found type)
    (newSet .root type .many span (some key))

/-- The set that the pointer `name` leads to from the set `source`. -/
def extendPath (source : SetId) (name : String) (span : Span) : CompileM κ SetId := do
  let node ← getSet source
  let schema ← schema
  let clause := (← frame).clause
  require (schema.isObject node.type)
    (.mismatch (.pointerOfScalar name (schema.typeName node.type) clause) span)
  let pointer ← orFail (schema.findPointer node.type name)
    (.unresolved (schema.typeName node.type ++ "." ++ name) span)
  let key := PathKey.extend (node.key.getD (PathKey.anchored source)) name
  shared key (fun arena found => arena.isStepOf found source name) do
    let cardinality := (← judge source).mul pointer.cardinality
    newSet (.step source name pointer.cardinality) pointer.target cardinality span (some key)

-- =============================================================== paths

/-- The set that a path starts from: that of an object type, or the
subject. -/
def pathStart (path : Ast.Path) : CompileM κ SetId := do
  match path.root with
  | none => orFail (← frame).subject (.unsupported .noSubject path.span)
  | some root =>
    match ← resolve root with
    | .type id entry =>
      require entry.isObject (.unsupported (.scalarAsSet entry.name.text) root.span)
      rootSet id root.span
    | .function name _ => fail (.unsupported (.functionAsSet name.text) root.span)

/-- The set that a path denotes. -/
def path (path : Ast.Path) : CompileM κ SetId := do
  path.steps.foldlM (fun set step => extendPath set step.name step.span) (← pathStart path)

end CompileM

end PathQuery
