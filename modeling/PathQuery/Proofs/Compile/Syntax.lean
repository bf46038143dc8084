/-
Everything that compiles upholds the invariant.

One lemma for each kind of syntax, by recursion on the syntax as the
compiler itself goes. What the parts combine to is in the modules on
operators, calls and clauses; here the parts are followed in order, and
what was shown of earlier parts is carried past the later ones.

`Yields` is said of expressions in every environment, since a part may
be compiled in a node of its own, under another subject, or under
modules declared on the way.
-/
import PathQuery.Proofs.Compile.Clauses
import PathQuery.Proofs.Compile.SetsAndCalls
import PathQuery.Proofs.Compile.Sharing

namespace PathQuery

open Ast (Expr Select ShapeElement)
open Ir (Value Statement ShapeNode)

variable {κ : Type} [DecidableEq κ] [PathKey κ] [NameDigest]

namespace CompileM.Upholds

variable {R : Regime} {env : Env} {st : Store κ} {span : Span}

-- ============================================================= modules

/-- A module that is checked changes nothing. -/
theorem checkModule {module : String} :
    Upholds R env st (CompileM.checkModule module span)
      fun st' _ => st' = st := by
  unfold CompileM.checkModule
  refine read run_schema
    (of_run (run_require _ _ _ _) (fun _ _ => rfl) fun e he hk => ?_)
  split at he
  · cases he
  · cases he
    cases hk

/-- Module declarations leave the schema and the node alone. -/
theorem withModules {α : Type} {decls : List Ast.ModuleDecl} {m : CompileM κ α}
    {post : Store κ → α → Prop}
    (hm : ∀ env' : Env, env'.schema = env.schema →
      env'.frame.scope = env.frame.scope →
      Upholds R env' st m post) :
    Upholds R env st (CompileM.withModules decls m) post := by
  induction decls generalizing env with
  | nil => exact hm env rfl rfl
  | cons d decls ih =>
      have hscope := Frame.scope_declare env.frame d
      unfold CompileM.withModules
      refine bind checkModule ?_
      intro _ st' _ h
      obtain rfl := h
      refine intro fun hready => underFrame hscope (fun id hid => ?_) ?_
      · rw [Frame.subject_declare] at hid
        exact hready.subject id hid
      · exact ih fun env' hs hf => hm env' hs (hf.trans hscope)

-- ============================================================== shapes

theorem requireObject {subject : Nat} {t : TypeId}
    (hsubject : st.Holds R env.frame.scope subject t) :
    Upholds R env st (CompileM.requireObject subject span)
      fun st' _ => st' = st ∧ env.schema.isObject t = true := by
  unfold CompileM.requireObject
  refine read run_schema (read (run_typeOf_of_holds hsubject) ?_)
  refine of_run (run_require _ _ _ _) (fun _ hok => ⟨rfl, ?_⟩) fun e he hk => ?_
  · split at hok
    · assumption
    · cases hok
  · split at he
    · cases he
    · cases he
      cases hk

/-- A shape is compiled with its objects as the subject. -/
theorem withShape {subject : Nat} {t : TypeId} {elements : List ShapeElement}
    {m : CompileM κ (List ShapeNode)}
    (hsubject : st.Holds R env.frame.scope subject t)
    (hm : ∀ env' : Env, env'.frame.scope = env.frame.scope →
      Upholds R env' st m
        fun st' nodes => st'.Shaped R env'.frame.scope nodes) :
    Upholds R env st (CompileM.withShape subject elements m) fun st' nodes =>
      st'.Shaped R env.frame.scope nodes := by
  unfold CompileM.withShape
  cases elements with
  | nil => exact pure .nil
  | cons first rest =>
      refine bind (requireObject hsubject) ?_
      intro _ st' _ h
      obtain ⟨rfl, -⟩ := h
      exact inClause (underSubject hsubject (hm _ rfl))

/-- One element of a shape, in a node of its own. -/
theorem shapeNode {m : CompileM κ ShapeNode} {subject : Nat} {t : TypeId}
    (hsubject : st.Holds R env.frame.scope subject t)
    (hm : ∀ env st, st.Holds R env.frame.scope subject t →
      Upholds R env st m fun st' node =>
      (∃ u, st'.Holds R env.frame.scope node.set u)
        ∧ st'.Shaped R env.frame.scope node.elements) :
    Upholds R env st (CompileM.inScope m) fun st' node =>
      st'.Shaped R env.frame.scope [node] := by
  refine intro fun hready => ?_
  refine inScope (fun st' node => (∃ u, st'.Holds R st.scopes.size node.set u)
    ∧ st'.Shaped R st.scopes.size node.elements)
    (fun _ => hm _ _ (hready.holds_opened hsubject)) fun st' node _ hparent => ?_
  intro h
  obtain ⟨⟨u, hset⟩, helements⟩ := h
  obtain ⟨name, set, computed, elements⟩ := node
  exact .cons hparent hset helements .nil

-- ========================================================= expressions

theorem constant {value : Literal} :
    Yields R (CompileM.expr (κ := κ) (.constant value span)) :=
  fun env st => intro fun hready => by
    refine pure ⟨value.type, Store.Fits.offers ?_ span⟩
    exact ⟨hready.suits.literal value, Or.inl rfl, trivial,
      fun _ => .constant value⟩

theorem binaryExpr {l r : Expr} {op : BinaryOp}
    (hl : Yields R (CompileM.expr (κ := κ) l))
    (hr : Yields R (CompileM.expr (κ := κ) r)) :
    Yields R (CompileM.expr (κ := κ) (.binary l op r span)) := by
  intro env st
  unfold CompileM.expr
  refine bind (hl env st) ?_
  intro v st₁ _ h
  obtain ⟨t, hv⟩ := h
  refine intro fun hready => bind (hr env st₁) ?_
  intro w st₂ h₂ h
  obtain ⟨u, hw⟩ := h
  exact binary (hv.mono h₂ hready.active) hw

theorem unaryExpr {operand : Expr} {op : UnaryOp}
    (ho : Yields R (CompileM.expr (κ := κ) operand)) :
    Yields R (CompileM.expr (κ := κ) (.unary op operand span)) := by
  intro env st
  cases op with
  | not =>
      unfold CompileM.expr
      refine bind (ho env st) ?_
      intro v st₁ _ h
      obtain ⟨t, hv⟩ := h
      exact logicalNot hv
  | neg =>
      unfold CompileM.expr
      refine bind (ho env st) ?_
      intro v st₁ _ h
      obtain ⟨t, hv⟩ := h
      exact arithmeticNeg hv
  | «exists» =>
      unfold CompileM.expr
      exact existence ho

theorem pathExpr {p : Ast.Path} :
    Yields R (CompileM.expr (κ := κ) (.path p)) := by
  intro env st
  unfold CompileM.expr
  refine bind path ?_
  intro id st₁ _ h
  obtain ⟨t, hid, -⟩ := h
  exact pure ⟨t, hid⟩

/-- A type that a cast names is in the schema. -/
theorem castTarget {target : Ast.NameRef} :
    Upholds R env st (CompileM.castTarget target) fun _ t => R.known t := by
  refine intro fun hready => ?_
  unfold CompileM.castTarget
  refine resolve fun item hitem => ?_
  cases item with
  | type id entry =>
      exact pure (hready.suits.registered id
        (Schema.isRegistered_of_type? (Env.type?_of_resolve? hitem)))
  | function name sig => exact fail (by simp [CompileError.kind])

theorem castExpr {target : Ast.NameRef} {operand : Expr}
    (ho : Yields R (CompileM.expr (κ := κ) operand)) :
    Yields R (CompileM.expr (κ := κ) (.cast target operand span)) := by
  intro env st
  unfold CompileM.expr
  refine bind castTarget ?_
  intro type st₁ _ hknown
  refine bind (ho env st₁) ?_
  intro v st₂ _ h
  obtain ⟨t, hv⟩ := h
  exact cast hv hknown

/-- Some expressions give values that are all offered still at the
end. -/
def YieldsAll (R : Regime) (m : CompileM κ (List (Value × Span))) : Prop :=
  ∀ env st, Upholds R env st m
    fun st' values => ∃ types, OfferedAll R env st' values types

theorem exprsCons {e : Expr} {es : List Expr}
    (he : Yields R (CompileM.expr (κ := κ) e))
    (hes : YieldsAll R (CompileM.exprs (κ := κ) es)) :
    YieldsAll R (CompileM.exprs (κ := κ) (e :: es)) := by
  intro env st
  unfold CompileM.exprs
  refine bind (he env st) ?_
  intro v st₁ _ h
  obtain ⟨t, hv⟩ := h
  refine intro fun hready => bind (hes env st₁) ?_
  intro values st₂ h₂ h
  obtain ⟨types, hvalues⟩ := h
  exact pure ⟨t :: types, .cons (hv.mono h₂ hready.active) hvalues⟩

theorem setExpr {es : List Expr}
    (hes : YieldsAll R (CompileM.exprs (κ := κ) es)) :
    Yields R (CompileM.expr (κ := κ) (.set es span)) := by
  intro env st
  unfold CompileM.expr
  refine bind (hes env st) ?_
  intro values st₁ _ h
  obtain ⟨types, hvalues⟩ := h
  exact setOf hvalues

/-- Arguments go along their parameters, and the cardinality is
multiplied by that of those taken element by element. -/
def PassesAll (κ : Type) [DecidableEq κ] [PathKey κ] (R : Regime)
    (args : List Expr) : Prop :=
  ∀ (function : QualifiedName) (position : Nat) (params : List Parameter)
    (c : Cardinality) (env : Env) (st : Store κ), args.length = params.length →
    Upholds R env st (CompileM.arguments function position params c args)
      fun st' r =>
        List.Forall₂ (Taken R env.schema env.frame.scope st') params r.1
          ∧ st'.product? env.frame.scope c (elementArgs params r.1) = some r.2

theorem argumentsNil : PassesAll κ R [] := by
  intro function position params c env st hlen
  cases params with
  | nil => exact pure ⟨.nil, rfl⟩
  | cons param params => simp at hlen

theorem argumentsCons {arg : Expr} {args : List Expr}
    (ha : Yields R (CompileM.expr (κ := κ) arg)) (hargs : PassesAll κ R args) :
    PassesAll κ R (arg :: args) := by
  intro function position params c env st hlen
  cases params with
  | nil => simp at hlen
  | cons param params =>
      unfold CompileM.arguments
      refine bind (argument ha) ?_
      intro r st₁ _ h
      obtain ⟨id, d⟩ := r
      obtain ⟨htaken, hd⟩ := h
      refine intro fun hready =>
        bind (hargs function (position + 1) params d env st₁
        (Nat.succ.inj hlen)) ?_
      intro r st₂ h₂ h
      obtain ⟨ids, e⟩ := r
      obtain ⟨hids, he⟩ := h
      refine pure ⟨.cons (htaken.mono h₂) hids, ?_⟩
      rw [elementArgs_append, Store.product?_append,
        h₂.product?_eq hready.active hd]
      exact he

theorem callExpr {function : Ast.NameRef} {args : List Expr}
    (hargs : PassesAll κ R args) :
    Yields R (CompileM.expr (κ := κ) (.call function args span)) := by
  intro env st
  unfold CompileM.expr
  refine bind callee ?_
  intro r st₁ _ h
  obtain ⟨name, sig⟩ := r
  obtain ⟨hf, hlen⟩ := h
  refine bind (hargs name 0 sig.params sig.cardinality env st₁ hlen) ?_
  intro r st₂ _ h
  obtain ⟨ids, c⟩ := r
  obtain ⟨hids, hc⟩ := h
  exact call hf hids hc

-- ============================================================= clauses

/-- A condition that was written is a boolean in a node below. -/
def Filters (κ : Type) [DecidableEq κ] [PathKey κ] (R : Regime)
    (f : Option Expr) : Prop :=
  ∀ (env : Env) (st : Store κ),
    Upholds R env st (CompileM.filterClause f) fun st' r =>
      ∀ id, r = some id → st'.Below R env.frame.scope id fun t =>
        env.schema.isSubtype t TypeId.bool = true

theorem filterSome {e : Expr} (he : Yields R (CompileM.expr (κ := κ) e)) :
    Filters κ R (some e) := by
  intro env st
  unfold CompileM.filterClause
  refine bind (filterBy he) ?_
  intro id st₁ _ hid
  refine pure fun x hx => ?_
  cases hx
  exact hid

/-- A number that was written is an integer in a node below. -/
def Bounds (κ : Type) [DecidableEq κ] [PathKey κ] (R : Regime)
    (n : Option Expr) : Prop :=
  ∀ (env : Env) (st : Store κ),
    Upholds R env st (CompileM.boundClause n) fun st' r =>
      ∀ id, r = some id → st'.OneBelow R env.frame.scope id fun t =>
        env.schema.isSubtype t TypeId.int = true

theorem boundSome {e : Expr} (he : Yields R (CompileM.expr (κ := κ) e)) :
    Bounds κ R (some e) := by
  intro env st
  unfold CompileM.boundClause
  refine bind (bound he) ?_
  intro id st₁ _ hid
  refine pure fun x hx => ?_
  cases hx
  exact hid

/-- Each key to group by is one value in a node below. -/
def Groups (κ : Type) [DecidableEq κ] [PathKey κ] (R : Regime)
    (keys : List Expr) : Prop :=
  ∀ (env : Env) (st : Store κ),
    Upholds R env st (CompileM.groupKeys keys) fun st' ids =>
      ∀ id ∈ ids, st'.OneBelow R env.frame.scope id fun t => t ≠ .empty

theorem groupCons {e : Expr} {es : List Expr}
    (he : Yields R (CompileM.expr (κ := κ) e)) (hes : Groups κ R es) :
    Groups κ R (e :: es) := by
  intro env st
  unfold CompileM.groupKeys
  refine bind (key he) ?_
  intro id st₁ _ hid
  refine bind (hes env st₁) ?_
  intro ids st₂ h₂ hids
  refine pure ?_
  rw [List.forall_mem_cons]
  exact ⟨hid.mono h₂, hids⟩

/-- Each key to sort by is one value in a node below. -/
def Sorts (κ : Type) [DecidableEq κ] [PathKey κ] (R : Regime)
    (keys : List Ast.SortKey) : Prop :=
  ∀ (env : Env) (st : Store κ),
    Upholds R env st (CompileM.sortKeys keys) fun st' ks =>
      ∀ k ∈ ks, st'.OneBelow R env.frame.scope k.key fun t => t ≠ .empty

theorem sortCons {e : Expr} {direction : SortDirection}
    {empties : Option EmptyOrder} {keys : List Ast.SortKey}
    (he : Yields R (CompileM.expr (κ := κ) e)) (hkeys : Sorts κ R keys) :
    Sorts κ R (⟨e, direction, empties, span⟩ :: keys) := by
  intro env st
  unfold CompileM.sortKeys
  refine bind (key he) ?_
  intro id st₁ _ hid
  refine bind (hkeys env st₁) ?_
  intro ks st₂ h₂ hks
  refine pure ?_
  rw [List.forall_mem_cons]
  exact ⟨hid.mono h₂, hks⟩

-- ============================================================== shapes

/-- An element of a shape is a set, with a shape below its own node. -/
def Shows (κ : Type) [DecidableEq κ] [PathKey κ] (R : Regime)
    (e : ShapeElement) : Prop :=
  ∀ (subject : Nat) (t : TypeId) (env : Env) (st : Store κ),
    st.Holds R env.frame.scope subject t →
    Upholds R env st (CompileM.shapeElement subject e) fun st' node =>
      (∃ u, st'.Holds R env.frame.scope node.set u)
        ∧ st'.Shaped R env.frame.scope node.elements

/-- The elements of a shape are shaped. -/
def ShowsAll (κ : Type) [DecidableEq κ] [PathKey κ] (R : Regime)
    (es : List ShapeElement) :
    Prop :=
  ∀ (subject : Nat) (t : TypeId) (taken : List String) (env : Env)
    (st : Store κ),
    st.Holds R env.frame.scope subject t →
    Upholds R env st (CompileM.shapeElements subject taken es) fun st' nodes =>
      st'.Shaped R env.frame.scope nodes

theorem computedElement {name : String} {e : Expr}
    {elements : List ShapeElement} (he : Yields R (CompileM.expr (κ := κ) e)) :
    Shows κ R (.mk name (some e) elements span) := by
  intro subject t env st hsubject
  unfold CompileM.shapeElement
  refine bind (he env st) ?_
  intro v st₁ _ h
  obtain ⟨t₁, hv⟩ := h
  refine bind (attach hv fun h heq => by cases heq) ?_
  intro set st₂ _ h
  obtain ⟨t₂, hset, -⟩ := h
  exact pure ⟨⟨t₂, hset⟩, .nil⟩

theorem pointerElement {name : String} {elements : List ShapeElement}
    (helements : ShowsAll κ R elements) :
    Shows κ R (.mk name none elements span) := by
  intro subject t env st hsubject
  unfold CompileM.shapeElement
  refine bind (extendPath hsubject) ?_
  intro set st₁ _ h
  obtain ⟨p, -, -, hset, -⟩ := h
  refine bind (withShape hset fun env' hscope => ?_) ?_
  · exact helements set p.target [] env' st₁ (hscope ▸ hset)
  · intro nodes st₂ h₂ hnodes
    exact pure ⟨⟨_, hset.mono h₂⟩, hnodes⟩

theorem shapeCons {e : ShapeElement} {es : List ShapeElement} (he : Shows κ R e)
    (hes : ShowsAll κ R es) : ShowsAll κ R (e :: es) := by
  intro subject t taken env st hsubject
  unfold CompileM.shapeElements
  refine require (by simp [CompileError.kind]) fun _ => ?_
  refine bind (shapeNode hsubject (he subject t)) ?_
  intro node st₁ h₁ hnode
  refine bind (hes subject t _ env st₁ (hsubject.mono h₁)) ?_
  intro nodes st₂ h₂ hnodes
  exact pure ((hnode.mono h₂).append hnodes)

-- ========================================================== statements

/-- A statement is arranged in the node that it stands in. -/
def Arranges (R : Regime) (m : CompileM κ Statement) : Prop :=
  ∀ env st, Upholds R env st m
    fun st' stmt => st'.Arranged R env.schema env.frame.scope stmt

theorem selectExpr {q : Select} (hq : Arranges R (CompileM.select (κ := κ) q)) :
    Yields R (CompileM.expr (κ := κ) (.select q)) := by
  intro env st
  unfold CompileM.expr
  refine bind (hq env st) ?_
  intro stmt st₁ _ hstmt
  exact subquery hstmt

/-- A statement from its parts. -/
theorem selectOf {modules : List Ast.ModuleDecl} {result : Expr}
    {elements : List ShapeElement} {filter offset limit : Option Expr}
    {groupBy : List Expr} {orderBy : List Ast.SortKey}
    (hresult : Yields R (CompileM.expr (κ := κ) result))
    (helements : ShowsAll κ R elements) (hfilter : Filters κ R filter)
    (hgroupBy : Groups κ R groupBy) (horderBy : Sorts κ R orderBy)
    (hoffset : Bounds κ R offset) (hlimit : Bounds κ R limit) :
    Arranges R (CompileM.select (κ := κ)
      ⟨modules, result, elements, filter, groupBy, orderBy, offset, limit,
        span⟩) := by
  intro env st
  unfold CompileM.select
  refine inScope
    (fun st' stmt => st'.scopes.parent? st.scopes.size = some env.frame.scope →
      st'.Arranged R env.schema env.frame.scope stmt)
    (fun _ => inClause (withModules ?_)) fun st' stmt _ hparent h => h hparent
  intro env' (hschema : env'.schema = env.schema)
    (hscope : env'.frame.scope = st.scopes.size)
  rw [← hschema, ← hscope]
  refine bind (hresult env' _) ?_
  intro v st₁ _ h
  obtain ⟨t, hv⟩ := h
  refine bind (attach hv fun h heq => by cases heq) ?_
  intro x st₂ _ h
  obtain ⟨u, hx, -⟩ := h
  refine underSubject hx (bind (withShape hx fun env'' hscope => ?_) ?_)
  · exact helements x u [] env'' st₂ (hscope ▸ hx)
  intro shape st₃ h₃ (hshape : st₃.Shaped R env'.frame.scope shape)
  refine bind (hfilter _ st₃) ?_
  intro filter st₄ h₄ hfilter
  refine bind (inClause (hgroupBy _ st₄)) ?_
  intro groupBy st₅ h₅ hgroupBy
  refine bind (inClause (horderBy _ st₅)) ?_
  intro orderBy st₆ h₆ horderBy
  refine bind (inClause (hoffset _ st₆)) ?_
  intro offset st₇ h₇ hoffset
  refine bind (inClause (hlimit _ st₇)) ?_
  intro limit st₈ h₈ hlimit
  -- each part is carried past those that came after it
  have h₆₈ := h₇.trans h₈
  have h₅₈ := h₆.trans h₆₈
  have h₄₈ := h₅.trans h₅₈
  have h₃₈ := h₄.trans h₄₈
  have hx := hx.mono (h₃.trans h₃₈)
  obtain ⟨c, hc⟩ := hx.exists_judge? env'.frame.scope
  let stmt : Statement :=
    ⟨x, shape, filter, groupBy, orderBy, offset, limit, c, env'.frame.scope,
      span⟩
  obtain ⟨d, hd, hrun⟩ := run_statementCardinality
    { env' with frame := { env'.frame with subject := some x } } stmt rfl hc
    fun id hid => (hlimit id hid).toBelow.exists_get?
  refine read hrun (read run_frame (pure fun hparent => ?_))
  exact ⟨hparent, ⟨u, hx⟩, hd, hshape.mono h₃₈,
    fun id hid => (hfilter id hid).mono h₄₈,
    fun id hid => (hgroupBy id hid).mono h₅₈,
    fun k hk => (horderBy k hk).mono h₆₈,
    fun id hid => (hoffset id hid).mono h₈, hlimit⟩

-- ========================================================== the syntax

mutual

theorem expr : (e : Expr) → Yields R (CompileM.expr (κ := κ) e)
  | .constant _ _ => constant
  | .emptySet _ => fun _ _ => pure ⟨.empty, rfl, Or.inr ⟨rfl, rfl, rfl⟩⟩
  | .path _ => pathExpr
  | .binary l _ r _ => binaryExpr (expr l) (expr r)
  | .unary _ operand _ => unaryExpr (expr operand)
  | .call _ args _ => callExpr (arguments args)
  | .cast _ operand _ => castExpr (expr operand)
  | .set elements _ => setExpr (exprs elements)
  | .select query => selectExpr (select query)
  | .paren inner _ => expr inner
termination_by structural e => e

theorem exprs : (es : List Expr) → YieldsAll R (CompileM.exprs (κ := κ) es)
  | [] => fun _ _ => pure ⟨[], .nil⟩
  | e :: es => exprsCons (expr e) (exprs es)
termination_by structural es => es

theorem arguments : (args : List Expr) → PassesAll κ R args
  | [] => argumentsNil
  | arg :: args => argumentsCons (expr arg) (arguments args)
termination_by structural args => args

theorem filterClause : (f : Option Expr) → Filters κ R f
  | none => fun _ _ => pure fun _ h => by cases h
  | some e => filterSome (expr e)
termination_by structural f => f

theorem boundClause : (n : Option Expr) → Bounds κ R n
  | none => fun _ _ => pure fun _ h => by cases h
  | some e => boundSome (expr e)
termination_by structural n => n

theorem groupKeys : (keys : List Expr) → Groups κ R keys
  | [] => fun _ _ => pure fun _ h => by cases h
  | e :: es => groupCons (expr e) (groupKeys es)
termination_by structural keys => keys

theorem sortKeys : (keys : List Ast.SortKey) → Sorts κ R keys
  | [] => fun _ _ => pure fun _ h => by cases h
  | ⟨e, _, _, _⟩ :: keys => sortCons (expr e) (sortKeys keys)
termination_by structural keys => keys

theorem shapeElement : (e : ShapeElement) → Shows κ R e
  | .mk _ (some e) _ _ => computedElement (expr e)
  | .mk _ none elements _ => pointerElement (shapeElements elements)
termination_by structural e => e

theorem shapeElements : (es : List ShapeElement) → ShowsAll κ R es
  | [] => fun _ _ _ _ _ _ => pure .nil
  | e :: es => shapeCons (shapeElement e) (shapeElements es)
termination_by structural es => es

theorem select : (q : Select) → Arranges R (CompileM.select (κ := κ) q)
  | ⟨_, result, elements, filter, groupBy, orderBy, offset, limit, _⟩ =>
      selectOf (expr result) (shapeElements elements) (filterClause filter)
        (groupKeys groupBy) (sortKeys orderBy) (boundClause offset)
        (boundClause limit)
termination_by structural q => q

end

end CompileM.Upholds

end PathQuery
