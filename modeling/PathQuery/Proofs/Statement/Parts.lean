/-
A statement, part by part.

A statement is compiled in a node of its own, under the modules it
declares: first its result, then everything else with the result as the
subject (`CompileM.select_eq`). What comes after the result is a step of
its own here, so that more can be said of it than of the whole.
-/
import PathQuery.Compile.Lexicon
import PathQuery.Proofs.Compile.Success

namespace PathQuery

open Ast (Expr Select)
open Ir (Statement)

variable {κ α : Type}

/-- The environment inside a statement that has its own node. -/
def Env.inside (env : Env) (scope : ScopeId) (q : Select) : Env :=
  ({ env with frame := { env.frame with scope, clause := some .result } } :
    Env).declareAll q.modules

@[simp] theorem Env.lexicon_inside (env : Env) (scope : ScopeId) (q : Select) :
    (env.inside scope q).lexicon = env.lexicon.declareAll q.modules :=
  Env.lexicon_declareAll _ _

@[simp] theorem Env.schema_inside (env : Env) (scope : ScopeId) (q : Select) :
    (env.inside scope q).schema = env.schema := rfl

@[simp] theorem Env.scope_inside (env : Env) (scope : ScopeId) (q : Select) :
    (env.inside scope q).frame.scope = scope := by
  unfold inside
  rw [Env.declareAll_eq]

@[simp] theorem Env.subject_inside (env : Env) (scope : ScopeId) (q : Select) :
    (env.inside scope q).frame.subject = env.frame.subject := by
  unfold inside
  rw [Env.declareAll_eq]

/-- Inside a statement, the environment is as ready. -/
theorem Env.Ready.inside [DecidableEq κ] [PathKey κ] [NameDigest] {R : Regime}
    {env : Env} {st : Store κ} (h : env.Ready R st) (q : Select) :
    (env.inside st.scopes.size q).Ready R (st.opened env.frame.scope) := by
  have hopened := h.opened
  refine ⟨?_, ?_, ?_, ?_, fun id hid => ?_⟩
  · rw [Env.schema_inside]
    exact hopened.suits
  · rw [Env.schema_inside]
    exact hopened.sound
  · rw [Env.scope_inside]
    exact hopened.active
  · rw [Env.scope_inside]
    exact hopened.unshadowed
  · rw [Env.subject_inside] at hid
    rw [Env.scope_inside]
    exact hopened.subject id hid

namespace CompileM

-- ============================================================= modules

/-- Under module declarations that were accepted, a step runs from the
same store. -/
theorem run_of_withModules {modules : List Ast.ModuleDecl} {m : CompileM κ α}
    {env : Env} {st st' : Store κ} {a : α}
    (h : (withModules modules m).run env st = (.ok a, st')) :
    m.run (env.declareAll modules) st = (.ok a, st') := by
  induction modules generalizing env with
  | nil => exact h
  | cons d modules ih =>
      unfold withModules checkModule at h
      obtain ⟨_, mid, hcheck, hrest⟩ := ok_of_bind h
      rw [run_bind_ok run_schema, run_require] at hcheck
      obtain rfl : st = mid := congrArg Prod.snd hcheck
      exact ih hrest

-- =============================================================== parts

variable [DecidableEq κ] [PathKey κ] [NameDigest]

/-- What comes after the result of a statement. -/
def selectFrom (q : Select) (result : SetId) : CompileM κ Statement :=
  underSubject result do
    let shape ← withShape result q.shape (shapeElements result [] q.shape)
    let filter ← filterClause q.filter
    let groupBy ← inClause .groupBy (groupKeys q.groupBy)
    let orderBy ← inClause .orderBy (sortKeys q.orderBy)
    let offset ← inClause .offset (boundClause q.offset)
    let limit ← inClause .limit (boundClause q.limit)
    let cardinality ← statementCardinality result filter limit
    return { result, shape, filter, groupBy, orderBy, offset, limit, cardinality,
             scope := (← frame).scope, span := q.span }

/-- The result of a statement. -/
def selectResult (q : Select) : CompileM κ SetId := do
  attach (← expr q.result) none

theorem select_eq (q : Select) :
    (select q : CompileM κ Statement)
      = inScope (inClause .result (withModules q.modules
          (selectResult q >>= selectFrom q))) := by
  cases q
  unfold select selectResult
  rw [bind_assoc]
  rfl

theorem Composed.selectResult (q : Select) :
    Composes (κ := κ) (fun _ => True) (CompileM.selectResult q) :=
  .bind (composed_expr q.result) fun _ hv => .attach hv

theorem Composed.selectFrom {asked : Select → Prop} {q : Select}
    {result : SetId} (h : ∀ q' ∈ q.nested, asked q') :
    Composes (κ := κ) asked (CompileM.selectFrom q result) := by
  obtain ⟨-, hshape, hfilter, hgroupBy, horderBy, hoffset, hlimit⟩ :=
    q.forall_mem_nested.1 h
  unfold CompileM.selectFrom
  refine underSubject ?_
  exact .bind (withShape (shapeElements _ hshape result [])) fun _ _ =>
    .bind (filterClause _ hfilter) fun _ _ =>
    .bind (inClause (groupKeys _ hgroupBy)) fun _ _ =>
    .bind (inClause (sortKeys _ horderBy)) fun _ _ =>
    .bind (inClause (boundClause _ hoffset)) fun _ _ =>
    .bind (inClause (boundClause _ hlimit)) fun _ _ =>
    .bind statementCardinality fun _ _ => .bind frame fun _ _ => pure trivial

/-- What comes after the result leaves it as it is. -/
theorem result_of_selectFrom {q : Select} {result : SetId} {env : Env}
    {st st' : Store κ} {stmt : Statement}
    (h : (CompileM.selectFrom q result).run env st = (.ok stmt, st')) :
    stmt.result = result := by
  unfold CompileM.selectFrom underSubject at h
  rw [run_underFrame] at h
  obtain ⟨shape, _, -, h⟩ := ok_of_bind h
  obtain ⟨filter, _, -, h⟩ := ok_of_bind h
  obtain ⟨groupBy, _, -, h⟩ := ok_of_bind h
  obtain ⟨orderBy, _, -, h⟩ := ok_of_bind h
  obtain ⟨offset, _, -, h⟩ := ok_of_bind h
  obtain ⟨limit, _, -, h⟩ := ok_of_bind h
  obtain ⟨cardinality, _, -, h⟩ := ok_of_bind h
  obtain ⟨frame, _, -, h⟩ := ok_of_bind h
  obtain ⟨rfl, -⟩ := ok_of_pure h
  rfl

/-- A statement that was compiled has compiled its result in a new node,
and then the rest. -/
theorem ok_of_select {q : Select} {env : Env} {st st' : Store κ}
    {stmt : Statement} (h : (select q).run env st = (.ok stmt, st')) :
    ∃ (result : SetId) (mid : Store κ),
      (selectResult q).run (env.inside st.scopes.size q)
          (st.opened env.frame.scope) = (.ok result, mid)
        ∧ (CompileM.selectFrom q result).run (env.inside st.scopes.size q) mid
          = (.ok stmt, st') := by
  rw [select_eq, run_inScope] at h
  unfold inClause at h
  rw [run_underFrame] at h
  exact ok_of_bind (run_of_withModules h)

end CompileM

end PathQuery
