/-
An implicit limit is a limit that is written.

A limit that is written opens a node below that of the statement, is
attached there at the type of integers, and is required to be one value,
while the implicit limit is added to a statement that is complete
(`compileWith_under`). The limit is what a statement compiles last, and a
constant has the type already and is one value. So both come to one more
set with the same number, and the statement counts what it counted before,
as that limit caps it (`CompileM.run_select_limit`). What differs is the
node of that set and its span.
-/
import PathQuery.Proofs.Operator.Hint
import PathQuery.Proofs.Statement.Isolation
import PathQuery.Proofs.Statement.Soundness

namespace PathQuery

open Ast (Expr Select)
open Ir (Arena SetNode Statement)

variable {κ α : Type}

section

variable [NameDigest]

-- ================================================================ limits

/-- An integer as a set. -/
def SetNode.integer (n : Int) (scope : ScopeId) (span : Span) : SetNode κ :=
  ⟨none, TypeId.int, .one, scope, span, .computed (.constant (.int n))⟩

/-- The sets with an integer added. -/
def Ir.Arena.withInteger (a : Arena κ) (n : Int) (scope : ScopeId) (span : Span) : Arena κ :=
  a.push (SetNode.integer n scope span) fun _ h => by cases h

theorem Ir.Arena.extends_withInteger (a : Arena κ) (n : Int) (scope : ScopeId) (span : Span) :
    a.Extends (a.withInteger n scope span) :=
  extends_push a _ fun _ h => by cases h

/-- Everything but the integer is what it was. -/
theorem Ir.Arena.get?_withInteger (a : Arena κ) (n : Int) (scope : ScopeId) (span : Span)
    (id : SetId) :
    (a.withInteger n scope span).get? id
      = if id = a.size then some (SetNode.integer n scope span) else a.get? id :=
  get?_push a _ _ id

theorem Ir.Arena.size_withInteger (a : Arena κ) (n : Int) (scope : ScopeId) (span : Span) :
    (a.withInteger n scope span).size = a.size + 1 :=
  size_push a _ _

/-- The store with an integer added in a new node below the given one. -/
def Store.withInteger (st : Store κ) (scope : ScopeId) (n : Int) (span : Span) : Store κ :=
  ⟨st.arena.withInteger n st.scopes.size span, st.scopes.attach scope⟩

omit [NameDigest] in
/-- A statement that is given an integer as its limit. -/
def Ir.Statement.limitedTo (stmt : Statement) (n : Int) (limit : SetId) : Statement :=
  { stmt with
    limit := some limit
    cardinality := if n ≤ 1 then stmt.cardinality.capped.optional else stmt.cardinality }

/-- What a statement comes to without a limit, and with an integer written
as its limit. -/
inductive LimitWritten (n : Int) (span : Span) :
    Except CompileError Statement × Store κ → Except CompileError Statement × Store κ → Prop
    where
  | failed (e : CompileError) (st : Store κ) :
      LimitWritten n span (.error e, st) (.error e, st)
  | written {stmt : Statement} (st : Store κ) (h : stmt.limit = none) :
      LimitWritten n span (.ok stmt, st)
        (.ok (stmt.limitedTo n st.arena.size), st.withInteger stmt.scope n span)

variable {env : Env} {st st' : Store κ} {n : Int} {span : Span}

/-- Statements that fail alike before they differ fail alike. -/
theorem LimitWritten.bind {m : CompileM κ α} {f g : α → CompileM κ Statement}
    (h : ∀ a mid, m.run env st = (.ok a, mid) →
      LimitWritten n span ((f a).run env mid) ((g a).run env mid)) :
    LimitWritten n span ((m >>= f).run env st) ((m >>= g).run env st) := by
  rw [CompileM.run_bind, CompileM.run_bind]
  cases hm : m.run env st with
  | mk out mid =>
      cases out with
      | error e => exact .failed e mid
      | ok a => exact h a mid hm

namespace CompileM

theorem run_newInteger (env : Env) (st : Store κ) (n : Int) (span : Span) :
    (newComputed (.constant (.int n)) TypeId.int .one span).run env st
      = (.ok st.arena.size,
          { st with arena := st.arena.withInteger n env.frame.scope span }) := by
  unfold newComputed
  rw [run_newSet fun source h => by cases h]
  rfl

/-- An integer limits a statement. -/
theorem run_limited_integer (c : Cardinality) {id : SetId} {scope : ScopeId}
    (h : st.arena.get? id = some (SetNode.integer n scope span)) :
    (limited c id).run env st
      = (.ok (if n ≤ 1 then c.capped.optional else c), st) := by
  unfold limited
  rw [run_bind_ok (run_getSet h)]
  unfold SetNode.integer
  dsimp only
  split
  · rfl
  · rfl

omit [NameDigest] in
/-- Without a limit, the filter alone counts. -/
theorem run_statementCardinality_none (filter : Option SetId) {result : SetId}
    {c : Cardinality} (hc : st.judge? env.frame.scope result = some c) :
    (statementCardinality result filter none).run env st
      = (.ok (if filter.isSome then c.optional else c), st) := by
  unfold statementCardinality
  rw [run_bind_ok (run_judge hc)]
  rfl

/-- With an integer as the limit, what the filter leaves is limited by it. -/
theorem run_statementCardinality_integer (filter : Option SetId) {result id : SetId}
    {c : Cardinality} {scope : ScopeId} (hc : st.judge? env.frame.scope result = some c)
    (h : st.arena.get? id = some (SetNode.integer n scope span)) :
    (statementCardinality result filter (some id)).run env st
      = (.ok (if n ≤ 1 then (if filter.isSome then c.optional else c).capped.optional
          else if filter.isSome then c.optional else c), st) := by
  unfold statementCardinality
  rw [run_bind_ok (run_judge hc)]
  exact run_limited_integer _ h

variable [DecidableEq κ] [PathKey κ]

/-- An integer that is written as a limit. -/
theorem run_boundClause_integer (hint : TypeId.int ≠ .empty) (env : Env) (st : Store κ)
    (n : Int) (span : Span) :
    (boundClause (some (.constant (.int n) span))).run env st
      = (.ok (some st.arena.size), st.withInteger env.frame.scope n span) := by
  have hsettle := run_newInteger (env.within st.scopes.size) (st.opened env.frame.scope)
    n span
  have hid := type?_of_newComputed hsettle
  have hnode := get?_of_newComputed hsettle
  have hclause : (clauseOperand (expr (.constant (.int n) span)) span
        (some TypeId.int)).run (env.within st.scopes.size) (st.opened env.frame.scope)
      = (.ok st.arena.size, st.withInteger env.frame.scope n span) := by
    unfold clauseOperand expr
    rw [run_bind_ok (run_pure _ _ _)]
    unfold Ir.Value.constant attach settle
    dsimp only
    have hne : ¬ (Literal.int n).type.isEmpty = true := fun h =>
      hint (TypeId.isEmpty_iff.1 h)
    rw [if_neg hne]
    refine (run_bind_ok hsettle).trans ?_
    exact run_attach_of_isSubtype hid hint (Schema.isSubtype_self _ _)
  have hone : (requireSingleton st.arena.size).run (env.within st.scopes.size)
      (st.withInteger env.frame.scope n span)
        = (.ok (), st.withInteger env.frame.scope n span) :=
    run_requireSingleton (judge?_of_newComputed hsettle) hnode
  unfold boundClause bound
  refine (run_bind_ok (a := st.arena.size) ?_).trans (run_pure _ _ _)
  exact (run_bind_ok hclause).trans ((run_bind_ok hone).trans (run_pure _ _ _))

-- ============================================================ statements

omit [NameDigest] [DecidableEq κ] [PathKey κ] in
/-- Module declarations are accepted or refused, whatever is compiled
under them. -/
theorem run_withModules_cases (modules : List Ast.ModuleDecl) (env : Env) (st : Store κ) :
    (∃ e, ∀ {α : Type} (m : CompileM κ α),
        (withModules modules m).run env st = (.error e, st))
      ∨ ∀ {α : Type} (m : CompileM κ α),
        (withModules modules m).run env st = m.run (env.declareAll modules) st := by
  induction modules generalizing env with
  | nil => exact Or.inr fun _ => rfl
  | cons d modules ih =>
      have hcheck : (checkModule d.module d.span).run env st
          = (if env.schema.hasModule d.module then .ok ()
            else .error (.unresolved d.module d.span), st) := by
        unfold checkModule
        rw [run_bind_ok run_schema, run_require]
      split at hcheck
      · rcases ih { env with frame := env.frame.declare d } with ⟨e, herr⟩ | hrun
        · refine Or.inl ⟨e, fun m => ?_⟩
          unfold withModules
          exact (run_bind_ok hcheck).trans (herr m)
        · refine Or.inr fun m => ?_
          unfold withModules
          exact (run_bind_ok hcheck).trans (hrun m)
      · refine Or.inl ⟨.unresolved d.module d.span, fun m => ?_⟩
        unfold withModules
        rw [run_bind, hcheck]

/-- The limit is the last clause of a statement. -/
theorem clauses_limit {q : Select} (hq : q.limit = none) (e : Expr) (result : SetId) :
    (clauses { q with limit := some e } result : CompileM κ Ir.Clauses) = do
      let cs ← clauses q result
      let limit ← inClause .limit (boundClause (some e))
      return { cs with limit } := by
  unfold clauses
  rw [hq]
  have hnone : (inClause .limit (boundClause none) : CompileM κ (Option SetId))
      = pure none := rfl
  simp only [hnone, bind_assoc, pure_bind]

theorem Composed.clauses {asked : Select → Prop} {q : Select} {result : SetId}
    (h : ∀ q' ∈ q.nested, asked q') :
    Composes (κ := κ) asked (CompileM.clauses q result) := by
  obtain ⟨-, hshape, hfilter, hgroupBy, horderBy, hoffset, hlimit⟩ :=
    q.forall_mem_nested.1 h
  unfold CompileM.clauses
  exact .bind (inClause (underSubject (shapeElements _ hshape result [])))
    fun _ _ => .bind (filterClause _ hfilter) fun _ _ =>
    .bind (inClause (groupKeys _ hgroupBy)) fun _ _ =>
    .bind (inClause (sortKeys _ horderBy)) fun _ _ =>
    .bind (inClause (boundClause _ hoffset)) fun _ _ =>
    .bind (inClause (boundClause _ hlimit)) fun _ _ => pure trivial

/-- There is a limit among the clauses if one is written. -/
theorem isSome_limit_of_clauses {q : Select} {result : SetId} {cs : Ir.Clauses}
    (h : (clauses q result).run env st = (.ok cs, st')) :
    cs.limit.isSome = q.limit.isSome := by
  unfold clauses at h
  obtain ⟨_, _, -, h⟩ := ok_of_bind h
  obtain ⟨_, _, -, h⟩ := ok_of_bind h
  obtain ⟨_, _, -, h⟩ := ok_of_bind h
  obtain ⟨_, _, -, h⟩ := ok_of_bind h
  obtain ⟨_, _, -, h⟩ := ok_of_bind h
  obtain ⟨limit, _, hlimit, h⟩ := ok_of_bind h
  obtain ⟨rfl, -⟩ := ok_of_pure h
  cases hq : q.limit with
  | none =>
      rw [hq] at hlimit
      rw [(ok_of_pure hlimit).1]
      rfl
  | some e =>
      rw [hq] at hlimit
      obtain ⟨id, _, -, hid⟩ := ok_of_bind hlimit
      rw [(ok_of_pure hid).1]
      rfl

variable {R : Regime}

omit [DecidableEq κ] [PathKey κ] in
/-- An integer that is added leaves the view from the active node as it
was. -/
theorem extends_of_withInteger {scope : ScopeId} (h : st.Seats scope) (n : Int) (span : Span) :
    st.Extends (st.withInteger scope n span) where
  arena := st.arena.extends_withInteger n st.scopes.size span
  rooted := h.rooted
  rooted' := h.opened.rooted
  size_le := by
    show st.scopes.size ≤ (st.scopes.attach scope).size
    rw [ScopeTree.size_attach]
    exact Nat.le_succ _
  parent_old := fun id hid => by
    show (st.scopes.attach scope).parent? id = _
    rw [ScopeTree.parent?_attach, if_neg (Nat.ne_of_lt hid)]

/-- What comes after the result of a statement, without a limit and with
an integer for one. -/
theorem selectFrom_limit (hint : TypeId.int ≠ .empty) {q : Select} (hq : q.limit = none)
    {result : SetId} {node : SetNode κ} (hseat : st.Seats env.frame.scope)
    (hn : st.arena.get? result = some node) (n : Int) (span : Span) :
    LimitWritten n span ((selectFrom q result).run env st)
      ((selectFrom { q with limit := some (.constant (.int n) span) } result).run env st)
    := by
  rw [selectFrom_eq, selectFrom_eq, run_underSubject, run_underSubject,
    clauses_limit hq]
  refine .bind fun _ st₁ hcheck => ?_
  obtain ⟨-, rfl⟩ := run_checkShape_iff.1 hcheck
  rw [bind_assoc]
  refine .bind fun cs st₂ hclauses => ?_
  have hcomposed : Composes (fun _ => True) (clauses q result : CompileM κ Ir.Clauses) :=
    Composed.clauses fun _ _ => trivial
  have hseat₁ : st₁.Seats (env.about result).frame.scope := hseat
  obtain ⟨hseat₂, hext⟩ := hcomposed.seats hclauses hseat₁
  obtain ⟨c, hc⟩ := st₂.exists_judge? (env.about result).frame.scope (hext.arena _ _ hn)
  have hext' := extends_of_withInteger hseat₂ n span
  have hc' := hext'.judge?_eq hseat₂.active hc
  have hget : (st₂.withInteger (env.about result).frame.scope n span).arena.get? st₂.arena.size
      = some (SetNode.integer n st₂.scopes.size span) :=
    (Arena.get?_withInteger _ _ _ _ _).trans (if_pos rfl)
  have hlimit : (inClause .limit (boundClause (some (.constant (.int n) span)))).run
      (env.about result) st₂
        = (.ok (some st₂.arena.size),
            st₂.withInteger (env.about result).frame.scope n span) :=
    run_boundClause_integer hint _ _ _ _
  have hnone : cs.limit = none := by
    have h := isSome_limit_of_clauses hclauses
    rw [hq] at h
    exact Option.not_isSome_iff_eq_none.1 (Bool.eq_false_iff.1 h)
  rw [hnone, run_bind_ok (run_statementCardinality_none cs.filter hc),
    bind_assoc, run_bind_ok hlimit, pure_bind]
  dsimp only
  rw [run_bind_ok (run_statementCardinality_integer cs.filter hc' hget)]
  exact .written _ rfl

/-- Statements that select the same under the same modules fail alike before
there is a result, or go on from the same result. -/
theorem run_select_cases (q : Select) (env : Env) (st : Store κ) :
    (∃ e, ∀ q', q.Akin q' →
        (select q').run env st = (.error e, st.opened env.frame.scope))
      ∨ ∀ q', q.Akin q' →
        (select q').run env st = (selectResult q >>= selectFrom q').run
          (env.inside st.scopes.size q) (st.opened env.frame.scope) := by
  have hrun : ∀ q', q.Akin q' → (select q').run env st
      = (withModules q.modules (selectResult q >>= selectFrom q')).run
        ⟨env.schema, { env.frame with scope := st.scopes.size, clause := some .result }⟩
        (st.opened env.frame.scope) := by
    intro q' hq'
    rw [select_eq, hq'.modules]
    unfold selectResult
    rw [hq'.result]
    rfl
  rcases run_withModules_cases q.modules
      ⟨env.schema, { env.frame with scope := st.scopes.size, clause := some .result }⟩
      (st.opened env.frame.scope) with ⟨e, herr⟩ | hmodules
  · exact Or.inl ⟨e, fun q' hq' => (hrun q' hq').trans (herr _)⟩
  · exact Or.inr fun q' hq' => (hrun q' hq').trans (hmodules _)

/-- A statement without a limit, and with an integer for one. -/
theorem run_select_limit (hint : TypeId.int ≠ .empty) (hr : env.Ready R st) {q : Select}
    (hq : q.limit = none) (n : Int) (span : Span) :
    LimitWritten n span ((select q).run env st)
      ((select { q with limit := some (.constant (.int n) span) }).run env st) := by
  have hself : q.Akin q := ⟨rfl, rfl⟩
  have hakin : q.Akin { q with limit := some (.constant (.int n) span) } := ⟨rfl, rfl⟩
  rcases run_select_cases q env st with ⟨e, herr⟩ | hrun
  · rw [herr q hself, herr _ hakin]
    exact .failed _ _
  · rw [hrun q hself, hrun _ hakin]
    refine .bind fun result mid hresult => ?_
    have hout := Stage.of_selectResult (hr.inside q) hresult
    obtain ⟨node, hn⟩ := Arena.exists_get?_of_lt hout.there
    exact selectFrom_limit hint hq ⟨hout.consistent.rooted, hout.active⟩ hn n span

/-- A statement has a limit if one is written. -/
theorem isSome_limit_of_select {q : Select} {stmt : Statement}
    (h : (select q).run env st = (.ok stmt, st')) :
    stmt.limit.isSome = q.limit.isSome := by
  obtain ⟨result, mid, -, hfrom⟩ := ok_of_select h
  rw [selectFrom_eq, run_underSubject] at hfrom
  obtain ⟨_, _, -, hfrom⟩ := ok_of_bind hfrom
  obtain ⟨cs, _, hclauses, hfrom⟩ := ok_of_bind hfrom
  obtain ⟨_, _, -, hfrom⟩ := ok_of_bind hfrom
  rw [run_bind_ok run_frame] at hfrom
  obtain ⟨rfl, -⟩ := ok_of_pure hfrom
  exact isSome_limit_of_clauses hclauses

-- ============================================================== options

omit [DecidableEq κ] [PathKey κ] in
/-- A statement that has a limit keeps it. -/
theorem limitImplicitly_of_isSome {stmt : Statement} (h : stmt.limit.isSome = true)
    (m : Int) : (limitImplicitly stmt m : CompileM κ Statement) = pure stmt := by
  unfold limitImplicitly
  rw [if_pos h]

omit [DecidableEq κ] [PathKey κ] in
/-- A statement that has no limit gets the implicit one in the active
node. -/
theorem run_limitImplicitly {stmt : Statement} (h : stmt.limit = none) (env : Env)
    (st : Store κ) (n : Int) :
    (limitImplicitly stmt n).run env st
      = (.ok (stmt.limitedTo n st.arena.size),
          { st with arena := st.arena.withInteger n env.frame.scope stmt.span }) := by
  have hget : (st.arena.withInteger n env.frame.scope stmt.span).get? st.arena.size
      = some (SetNode.integer n env.frame.scope stmt.span) :=
    (Arena.get?_withInteger _ _ _ _ _).trans (if_pos rfl)
  have hlimited : (limited stmt.cardinality st.arena.size : CompileM κ Cardinality).run env
      { st with arena := st.arena.withInteger n env.frame.scope stmt.span }
        = (.ok (if n ≤ 1 then stmt.cardinality.capped.optional else stmt.cardinality), _) :=
    run_limited_integer _ hget
  unfold limitImplicitly
  rw [h]
  exact (run_bind_ok (run_newInteger _ _ _ _)).trans
    ((run_bind_ok hlimited).trans (run_pure _ _ _))

/-- A statement under options, without a limit and with an integer for
one. -/
theorem run_checked_limit (hint : TypeId.int ≠ .empty) (hr : env.Ready R st) {q : Select}
    (hq : q.limit = none) (o : CompileOptions) (n : Int) (span : Span) :
    LimitWritten n span ((checkOptions o q.span >>= fun _ => select q).run env st)
      ((checkOptions o q.span >>= fun _ =>
        select { q with limit := some (.constant (.int n) span) }).run env st) := by
  refine .bind fun _ mid hcheck => ?_
  have hout : Outcome R env st ((checkOptions o q.span).run env st) fun st' _ => st' = st :=
    Upholds.checkModules hr
  rw [hcheck] at hout
  exact run_select_limit hint hout.ready hq n span

end CompileM

variable [DecidableEq κ] [PathKey κ]

/-- A compiled statement under an implicit limit, which belongs to the
root. -/
def Compiled.under (m : Option Int) (c : Compiled κ) : Compiled κ :=
  match m with
  | none => c
  | some n =>
    if c.statement.limit.isSome then c
    else ⟨c.arena.withInteger n ScopeTree.root c.statement.span,
      c.statement.limitedTo n c.arena.size⟩

omit [DecidableEq κ] [PathKey κ] in
theorem Compiled.under_of_isSome {c : Compiled κ} (h : c.statement.limit.isSome = true)
    (m : Option Int) : c.under m = c := by
  cases m with
  | none => rfl
  | some n => exact if_pos h

omit [DecidableEq κ] [PathKey κ] in
theorem Compiled.under_of_none {c : Compiled κ} (h : c.statement.limit = none) (n : Int) :
    c.under (some n) = ⟨c.arena.withInteger n ScopeTree.root c.statement.span,
      c.statement.limitedTo n c.arena.size⟩ := by
  unfold under
  rw [h]
  rfl

/-- What a compilation leaves of the run of a statement. -/
def Compiled.ofRun : Except CompileError Statement × Store κ →
    Except CompileError (Compiled κ)
  | (.ok stmt, st) => .ok ⟨st.arena, stmt⟩
  | (.error e, _) => .error e

open CompileM in
/-- The implicit limit comes after everything else. -/
theorem compileWith_under (s : Schema) (o : CompileOptions) (m : Option Int) (q : Select) :
    compileWith κ s { o with implicitLimit := m } q
      = (Compiled.ofRun ((checkOptions o q.span >>= fun _ => select q).run ⟨s, o.frame⟩
          (Store.new (κ := κ)))).map (Compiled.under m) := by
  have hcheck : (checkOptions { o with implicitLimit := m } q.span : CompileM κ Unit)
      = checkOptions o q.span := rfl
  have hcompile : compileWith κ s { o with implicitLimit := m } q
      = Compiled.ofRun ((statement { o with implicitLimit := m } q).run ⟨s, o.frame⟩
          (Store.new (κ := κ))) := rfl
  rw [hcompile]
  unfold statement
  rw [hcheck, ← bind_assoc, run_bind]
  generalize (checkOptions o q.span >>= fun _ => select q).run ⟨s, o.frame⟩
    (Store.new (κ := κ)) = out
  obtain ⟨e | stmt, st⟩ := out
  · rfl
  · cases m with
    | none => rfl
    | some n =>
        cases hlimit : stmt.limit with
        | none =>
            have hunder := Compiled.under_of_none (c := ⟨st.arena, stmt⟩) hlimit n
            dsimp only
            rw [run_limitImplicitly hlimit]
            exact congrArg Except.ok hunder.symm
        | some id =>
            have hsome : stmt.limit.isSome = true := by rw [hlimit]; rfl
            have hunder := Compiled.under_of_isSome (c := ⟨st.arena, stmt⟩) hsome (some n)
            dsimp only
            rw [limitImplicitly_of_isSome hsome]
            exact congrArg Except.ok hunder.symm

/-- Two compiled statements are the same, with the same sets, but for the
node and the span of the integer that limits them. -/
structure Compiled.AlikeButLimit (n : Int) (c c' : Compiled κ) : Prop where
  statement : c.statement = c'.statement
  size : c.arena.size = c'.arena.size
  others : ∀ id, c.statement.limit ≠ some id → c.set? id = c'.set? id
  limit : ∃ id scope scope' span span', c.statement.limit = some id
    ∧ c.set? id = some (SetNode.integer n scope span)
    ∧ c'.set? id = some (SetNode.integer n scope' span')

omit [DecidableEq κ] [PathKey κ] in
/-- Wherever an integer is added for a limit, the statement is the same. -/
theorem Compiled.alikeButLimit (stmt : Statement) (a : Arena κ) (n : Int)
    (scope scope' : ScopeId) (span span' : Span) :
    Compiled.AlikeButLimit n ⟨a.withInteger n scope span, stmt.limitedTo n a.size⟩
      ⟨a.withInteger n scope' span', stmt.limitedTo n a.size⟩ where
  statement := rfl
  size := (a.size_withInteger _ _ _).trans (a.size_withInteger _ _ _).symm
  others := fun id hid => by
    have hne : id ≠ a.size := fun h => hid (congrArg some h.symm)
    have hold := a.get?_withInteger n scope span id
    have hold' := a.get?_withInteger n scope' span' id
    rw [if_neg hne] at hold hold'
    exact hold.trans hold'.symm
  limit := ⟨a.size, scope, scope', span, span', rfl,
    (a.get?_withInteger _ _ _ _).trans (if_pos rfl),
    (a.get?_withInteger _ _ _ _).trans (if_pos rfl)⟩

omit [DecidableEq κ] [PathKey κ] in
/-- What is compiled without a limit, under an implicit one, is alike to
what is compiled with it. -/
theorem LimitWritten.alike {n : Int} {span : Span}
    {out out' : Except CompileError Statement × Store κ} (h : LimitWritten n span out out')
    (m : Option Int) :
    (∃ e, (Compiled.ofRun out).map (Compiled.under (some n)) = .error e
        ∧ (Compiled.ofRun out').map (Compiled.under m) = .error e)
      ∨ ∃ c c', (Compiled.ofRun out).map (Compiled.under (some n)) = .ok c
        ∧ (Compiled.ofRun out').map (Compiled.under m) = .ok c' ∧ c.AlikeButLimit n c' := by
  cases h with
  | failed e st => exact Or.inl ⟨e, rfl, rfl⟩
  | written st h =>
      exact Or.inr ⟨_, _, congrArg Except.ok (Compiled.under_of_none h n),
        congrArg Except.ok (Compiled.under_of_isSome rfl m),
        Compiled.alikeButLimit _ _ _ _ _ _ _⟩

end

-- ============================================================== results

section

open scoped Xxh64

variable [DecidableEq κ] [PathKey κ]

open CompileM in
/-- An implicit limit is the same as a limit that is written. A statement
without a limit is compiled under an implicit limit to what it is compiled
to, under any implicit limit, with that number for a limit: both fail alike,
or both come to the same statement over the same sets, of which the limit
alone is in another node and has another span. And to a statement that has
a limit the implicit limit makes no difference. -/
theorem compileWith_limit (s : Schema) (o : CompileOptions) (q : Select) :
    (q.limit = none → ∀ (n : Int) (span : Span) (m : Option Int),
      (∃ e, compileWith κ s { o with implicitLimit := some n } q = .error e
        ∧ compileWith κ s { o with implicitLimit := m }
          { q with limit := some (.constant (.int n) span) } = .error e)
      ∨ ∃ c c', compileWith κ s { o with implicitLimit := some n } q = .ok c
        ∧ compileWith κ s { o with implicitLimit := m }
          { q with limit := some (.constant (.int n) span) } = .ok c'
        ∧ c.AlikeButLimit n c')
    ∧ (q.limit ≠ none → ∀ m m' : Option Int,
      compileWith κ s { o with implicitLimit := m } q
        = compileWith κ s { o with implicitLimit := m' } q) := by
  refine ⟨fun hq n span m => ?_, fun hq m m' => ?_⟩
  · have hready := Env.ready_new (κ := κ) ⟨s, o.frame⟩ (Regime.tracking_suits True s) rfl rfl
    have hwritten := run_checked_limit (Literal.type_ne_empty (.int n)) hready hq o n span
    rw [compileWith_under, compileWith_under]
    exact hwritten.alike m
  · have hunder : ∀ m, compileWith κ s { o with implicitLimit := m } q
        = Compiled.ofRun ((checkOptions o q.span >>= fun _ => select q).run ⟨s, o.frame⟩
          (Store.new (κ := κ))) := by
      intro m
      rw [compileWith_under]
      cases hrun : (checkOptions o q.span >>= fun _ => select q).run ⟨s, o.frame⟩
          (Store.new (κ := κ)) with
      | mk out st =>
          cases out with
          | error e => rfl
          | ok stmt =>
              obtain ⟨_, _, -, hselect⟩ := ok_of_bind hrun
              have hlimit := isSome_limit_of_select hselect
              refine congrArg Except.ok (Compiled.under_of_isSome (c := ⟨st.arena, stmt⟩) ?_ m)
              rw [hlimit]
              exact Option.isSome_iff_ne_none.2 hq
    rw [hunder m, hunder m']

end

-- ============================================================== example

/-- People who have friends. -/
def withFriends : Select := Ast.Build.run do
  let q ← Ast.Build.select (.path (← Ast.Build.path "default::Person" []))
  let friends ← Ast.Build.unary .exists
    (.path (← Ast.Build.partialPath ["friends"]))
  return { q with filter := friends }

open scoped Xxh64 in
theorem compileWith_limit_withFriends :
    (∃ c c' : Compiled PathId,
      compile (Registry.builtin.schemaOf people) { implicitLimit := some 1 } withFriends
          = .ok c
        ∧ compile (Registry.builtin.schemaOf people) { implicitLimit := some 7 }
          { withFriends with limit := some (.constant (.int 1) ⟨1, 60, 1⟩) } = .ok c'
        ∧ c.AlikeButLimit 1 c')
      ∧ compile (Registry.builtin.schemaOf people) {} oneWithFriends
        = compile (Registry.builtin.schemaOf people) { implicitLimit := some 7 }
          oneWithFriends := by
  have hlimit : withFriends.limit = none := by rfl
  have hlimit' : oneWithFriends.limit ≠ none := by
    refine Option.isSome_iff_ne_none.1 ?_
    decide +kernel
  have hok : (compile (Registry.builtin.schemaOf people) { implicitLimit := some 1 }
      withFriends).isOk = true := by decide +kernel
  constructor
  · rcases (compileWith_limit (κ := PathId) (Registry.builtin.schemaOf people) {}
      withFriends).1 hlimit 1 ⟨1, 60, 1⟩ (some 7) with ⟨e, he, -⟩ | halike
    · obtain ⟨c, hc⟩ := exists_ok_of_isOk hok
      cases he.symm.trans hc
    · exact halike
  · exact (compileWith_limit (κ := PathId) (Registry.builtin.schemaOf people) {}
      oneWithFriends).2 hlimit' none (some 7)

end PathQuery
