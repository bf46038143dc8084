/-
All of the compiler is composed.

One lemma for each function, in the order in which the compiler defines
them: reads first, then what adds a set, values, operators, calls,
clauses, and the kinds of syntax by one recursion at the end. A lemma
follows the function it is about line by line, so it says nothing that
is not in the function; what is gained is that every fact about composed
steps is a fact about compilation.
-/
import PathQuery.Proofs.Compile.Composition

namespace PathQuery

open Ast (Expr Select ShapeElement)
open Ir (Value Statement ShapeNode Operation)

variable {κ α β : Type} [DecidableEq κ] [PathKey κ] [NameDigest]

namespace CompileM.Composed

variable {asked : Select → Prop} {post : α → Prop} {m : CompileM κ α}

-- =============================================================== reads

/-- A step that leaves the store alone. -/
theorem reads (hrun : ∀ (env : Env) (st : Store κ), ∃ out,
    m.run env st = (out, st) ∧ ∀ a, out = .ok a → post a) :
    Composed asked post m := by
  refine .own (fun env st => ?_) fun env st a ha => ?_
  · obtain ⟨out, h, -⟩ := hrun env st
    rw [h]
    exact .nothing
  · obtain ⟨out, h, hpost⟩ := hrun env st
    rw [h] at ha
    exact hpost a ha

theorem pure {a : α} (h : post a) :
    Composed asked post (Pure.pure a : CompileM κ α) :=
  .reads fun _ _ => ⟨.ok a, rfl, fun b hb => by cases hb; exact h⟩

theorem fail {e : CompileError} :
    Composed asked post (CompileM.fail e : CompileM κ α) :=
  .reads fun _ _ => ⟨.error e, rfl, fun b hb => by cases hb⟩

theorem require {condition : Bool} {e : CompileError} :
    Composes (κ := κ) asked (CompileM.require condition e) := by
  unfold CompileM.require
  split
  · exact pure trivial
  · exact fail

theorem orFail {value : Option α} {e : CompileError}
    (h : ∀ a, value = some a → post a) :
    Composed asked post (CompileM.orFail value e : CompileM κ α) := by
  unfold CompileM.orFail
  split
  · next a => exact pure (h a rfl)
  · exact fail

theorem schema : Composes (κ := κ) asked CompileM.schema :=
  .reads fun _ _ => ⟨_, rfl, fun _ _ => trivial⟩

theorem frame : Composes (κ := κ) asked CompileM.frame :=
  .reads fun _ _ => ⟨_, rfl, fun _ _ => trivial⟩

theorem store : Composes (κ := κ) asked CompileM.store :=
  .reads fun _ _ => ⟨_, rfl, fun _ _ => trivial⟩

theorem getSet {id : SetId} : Composes (κ := κ) asked (CompileM.getSet id) := by
  unfold CompileM.getSet
  exact .bind store fun _ _ => orFail fun _ _ => trivial

theorem typeOf {id : SetId} : Composes (κ := κ) asked (CompileM.typeOf id) := by
  unfold CompileM.typeOf
  exact .bind getSet fun _ _ => pure trivial

theorem judge {id : SetId} : Composes (κ := κ) asked (CompileM.judge id) := by
  unfold CompileM.judge
  exact .bind store fun _ _ => .bind frame fun _ _ => orFail fun _ _ => trivial

theorem requireSingleton {id : SetId} :
    Composes (κ := κ) asked (CompileM.requireSingleton id) := by
  unfold CompileM.requireSingleton
  refine .bind judge fun _ _ => ?_
  split
  · exact pure trivial
  · exact .bind frame fun _ _ => .bind getSet fun _ _ => fail

theorem resolve {ref : Ast.NameRef} :
    Composes (κ := κ) asked (CompileM.resolve ref) :=
  .reads fun _ _ => ⟨_, run_resolve.trans (run_orFail _ _ _ _),
    fun _ _ => trivial⟩

theorem checkModule {module : String} {span : Span} :
    Composes (κ := κ) asked (CompileM.checkModule module span) := by
  unfold CompileM.checkModule
  exact .bind schema fun _ _ => require

theorem valueType {v : Value} :
    Composes (κ := κ) asked (CompileM.valueType v) := by
  cases v with
  | set id => exact typeOf
  | pending p => exact pure trivial

theorem untypedEmptySet {span : Span} :
    Composes asked (CompileM.untypedEmptySet span : CompileM κ α) := by
  unfold CompileM.untypedEmptySet
  exact .bind frame fun _ _ => fail

-- ================================================================ sets

theorem newComputed {op : Operation} {t : TypeId} {c : Cardinality}
    {span : Span} (hop : op.IsPlain) :
    Composes (κ := κ) asked (CompileM.newComputed op t c span) := by
  refine .own (fun env st => ?_) fun _ _ _ _ => trivial
  unfold CompileM.newComputed
  rcases makesSet_newSet (.computed op) t c span none env st with
    ⟨e, hrun⟩ | ⟨node, h, ho, hrun⟩
  · rw [hrun]
    exact .nothing
  · rw [hrun]
    exact .set h (by rw [ho]; exact hop)

theorem rootSet {type : TypeId} {span : Span} :
    Composes (κ := κ) asked (CompileM.rootSet type span) := by
  refine .own (fun env st => ?_) fun _ _ _ _ => trivial
  unfold CompileM.rootSet
  exact adds_shared .root trivial
    (makesSet_newSet .root type .many span _ env st)

theorem extendPath {source : SetId} {name : String} {span : Span} :
    Composes (κ := κ) asked (CompileM.extendPath source name span) := by
  unfold CompileM.extendPath
  refine .bind getSet fun node _ => .bind schema fun s _ =>
    .bind frame fun f _ => .bind require fun _ _ =>
    .bind (orFail fun _ _ => trivial) fun p _ => ?_
  refine .own (fun env st => adds_shared (.step source name p.cardinality)
    trivial ?_) fun _ _ _ _ => trivial
  cases hc : st.judge? env.frame.scope source with
  | some c =>
      have hnew := makesSet_newSet (κ := κ) (.step source name p.cardinality)
        p.target (c.mul p.cardinality) span
        (some (PathKey.extend (node.key.getD (PathKey.anchored source)) name))
        env st
      unfold MakesSet at hnew ⊢
      rw [run_bind_ok (run_judge hc)]
      exact hnew
  | none =>
      refine Or.inl ⟨.internal (.danglingSet source), ?_⟩
      unfold CompileM.judge
      rw [run_bind, run_bind_ok run_store, run_bind_ok run_frame, hc]
      rfl

-- =============================================================== paths

theorem pathStart {p : Ast.Path} :
    Composes (κ := κ) asked (CompileM.pathStart p) := by
  unfold CompileM.pathStart
  split
  · exact .bind frame fun _ _ => orFail fun _ _ => trivial
  · refine .bind resolve fun item _ => ?_
    split
    · exact .bind require fun _ _ => rootSet
    · exact fail

theorem extendAll {steps : List Ast.PathStep} {source : SetId} :
    Composes (κ := κ) asked (steps.foldlM
      (fun set step => CompileM.extendPath set step.name step.span) source) := by
  induction steps generalizing source with
  | nil => exact pure trivial
  | cons step steps ih =>
      rw [List.foldlM_cons]
      exact .bind extendPath fun _ _ => ih

theorem path {p : Ast.Path} : Composes (κ := κ) asked (CompileM.path p) := by
  unfold CompileM.path
  exact .bind pathStart fun _ _ => extendAll

-- ============================================================== values

theorem castSet {id : SetId} {target : TypeId} {conversion : Conversion} :
    Composes (κ := κ) asked (CompileM.castSet id target conversion) := by
  unfold CompileM.castSet
  exact .bind getSet fun _ _ => .bind judge fun _ _ => newComputed trivial

theorem coerce {id : SetId} {target : TypeId} :
    Composes (κ := κ) asked (CompileM.coerce id target) := by
  unfold CompileM.coerce
  refine .bind getSet fun _ _ => .bind schema fun _ _ => ?_
  split
  · exact .bind judge fun _ _ => newComputed trivial
  · split
    · exact pure trivial
    · exact pure trivial
    · exact castSet
    · exact .bind frame fun _ _ => fail

theorem referenceAt {id : SetId} {span : Span} :
    Composes (κ := κ) asked (CompileM.referenceAt id span) := by
  unfold CompileM.referenceAt
  refine .bind getSet fun _ _ => ?_
  split
  · exact pure trivial
  · exact .bind judge fun _ _ => newComputed trivial

theorem settle {v : Value} {hint : Option TypeId} (hv : v.IsPlain) :
    Composes (κ := κ) asked (CompileM.settle v hint) := by
  unfold CompileM.settle
  cases v with
  | set id => exact pure trivial
  | pending p =>
      dsimp only
      split
      · split
        · exact newComputed hv
        · exact untypedEmptySet
      · exact newComputed hv

theorem attach {v : Value} {hint : Option TypeId} (hv : v.IsPlain) :
    Composes (κ := κ) asked (CompileM.attach v hint) := by
  unfold CompileM.attach
  refine .bind (settle hv) fun _ _ => ?_
  split
  · exact coerce
  · refine .bind getSet fun _ _ => ?_
    split
    · exact .bind untypedEmptySet fun _ _ => pure trivial
    · exact pure trivial

-- =========================================================== operators

theorem convertOperand {id : SetId} {target : TypeId} :
    Composes (κ := κ) asked (CompileM.convertOperand id target) := by
  unfold CompileM.convertOperand
  refine .bind typeOf fun _ _ => .bind schema fun _ _ => ?_
  split
  · exact castSet
  · exact pure trivial

theorem attachOperands {op : BinaryOp} {left right : Value}
    (hl : left.IsPlain) (hr : right.IsPlain) :
    Composes (κ := κ) asked (CompileM.attachOperands op left right) := by
  unfold CompileM.attachOperands
  split
  · exact .bind (attach hl) fun _ _ => .bind (attach hr) fun _ _ => pure trivial
  · exact .bind valueType fun _ _ => .bind valueType fun _ _ =>
      .bind (attach hl) fun _ _ => .bind (attach hr) fun _ _ => pure trivial

theorem comparison {left right : SetId} {objects : Bool} {e : CompileError} :
    Composes (κ := κ) asked (CompileM.comparison left right objects e) := by
  unfold CompileM.comparison
  refine .bind schema fun _ _ => .bind typeOf fun _ _ => .bind typeOf fun _ _ =>
    .bind (orFail fun _ _ => trivial) fun _ _ => ?_
  split
  · exact pure trivial
  · exact .bind convertOperand fun _ _ => .bind convertOperand fun _ _ =>
      pure trivial

theorem arithmetic {left right : SetId} {e : CompileError} :
    Composes (κ := κ) asked (CompileM.arithmetic left right e) := by
  unfold CompileM.arithmetic
  refine .bind schema fun _ _ => .bind typeOf fun _ _ => .bind typeOf fun _ _ => ?_
  split
  · exact pure trivial
  · exact .bind require fun _ _ => .bind convertOperand fun _ _ =>
      .bind convertOperand fun _ _ => pure trivial
  · exact fail

theorem concatenation {left right : SetId} {e : CompileError} :
    Composes (κ := κ) asked (CompileM.concatenation left right e) := by
  unfold CompileM.concatenation
  refine .bind schema fun _ _ => .bind typeOf fun _ _ => .bind typeOf fun _ _ => ?_
  split
  · exact pure trivial
  · exact fail

theorem typeBinary {op : BinaryOp} {left right : SetId} {span : Span} :
    Composes (κ := κ) asked (CompileM.typeBinary op left right span) := by
  unfold CompileM.typeBinary
  refine .bind schema fun _ _ => .bind typeOf fun _ _ => .bind typeOf fun _ _ => ?_
  split
  · exact pure trivial
  · refine .bind require fun _ _ => ?_
    split
    · exact comparison
    · split
      · exact concatenation
      · exact arithmetic

theorem binary {op : BinaryOp} {left right : Value} {span : Span}
    (hl : left.IsPlain) (hr : right.IsPlain) :
    Composed (κ := κ) asked Value.IsPlain
      (CompileM.binary op left right span) := by
  unfold CompileM.binary
  refine .bind (attachOperands hl hr) fun _ _ => .bind typeBinary fun _ _ => ?_
  exact .bind judge fun _ _ => .bind judge fun _ _ => pure trivial

theorem logicalNot {v : Value} {span : Span} (hv : v.IsPlain) :
    Composed (κ := κ) asked Value.IsPlain (CompileM.logicalNot v span) := by
  unfold CompileM.logicalNot
  exact .bind (attach hv) fun _ _ => .bind judge fun _ _ => pure trivial

theorem arithmeticNeg {v : Value} {span : Span} (hv : v.IsPlain) :
    Composed (κ := κ) asked Value.IsPlain (CompileM.arithmeticNeg v span) := by
  unfold CompileM.arithmeticNeg
  exact .bind (attach hv) fun _ _ => .bind schema fun _ _ =>
    .bind typeOf fun _ _ => .bind require fun _ _ => .bind require fun _ _ =>
    .bind judge fun _ _ => pure trivial

section Operands

variable {operand : CompileM κ Value} {span : Span}

theorem existence (ho : Composed asked Value.IsPlain operand) :
    Composed asked Value.IsPlain (CompileM.existence operand span) := by
  unfold CompileM.existence
  exact .bind (.inScope (.bind ho fun _ hv => attach hv)) fun _ _ => pure trivial

theorem castTarget {target : Ast.NameRef} :
    Composes (κ := κ) asked (CompileM.castTarget target) := by
  unfold CompileM.castTarget
  refine .bind resolve fun item _ => ?_
  split
  · exact pure trivial
  · exact fail

theorem cast {v : Value} {target : TypeId} (hv : v.IsPlain) :
    Composed (κ := κ) asked Value.IsPlain (CompileM.cast v target span) := by
  unfold CompileM.cast
  exact .bind valueType fun _ _ => .bind (attach hv) fun _ _ =>
    .bind schema fun _ _ => .bind typeOf fun _ _ =>
    .bind (orFail fun _ _ => trivial) fun _ _ => .bind judge fun _ _ =>
    pure trivial

-- ======================================================== set literals

theorem commonElementType {common : TypeId} {elements : List (Value × Span)} :
    Composes (κ := κ) asked (CompileM.commonElementType common elements) := by
  induction elements generalizing common with
  | nil => exact pure trivial
  | cons element rest ih =>
      unfold CompileM.commonElementType
      refine .bind valueType fun _ _ => ?_
      split
      · exact ih
      · split
        · exact ih
        · exact .bind schema fun _ _ => .bind (orFail fun _ _ => trivial)
            fun _ _ => ih

theorem attachMembers {hint : Option TypeId} {elements : List (Value × Span)}
    (h : ∀ e ∈ elements, e.1.IsPlain) :
    Composes (κ := κ) asked (CompileM.attachMembers hint elements) := by
  induction elements with
  | nil => exact pure trivial
  | cons element rest ih =>
      rw [List.forall_mem_cons] at h
      unfold CompileM.attachMembers
      exact .bind (attach h.1) fun _ _ => .bind judge fun _ _ =>
        .bind (ih h.2) fun _ _ => pure trivial

theorem unionOf {elements : List (Value × Span)}
    (h : ∀ e ∈ elements, e.1.IsPlain) :
    Composed (κ := κ) asked Value.IsPlain (CompileM.unionOf elements span) := by
  unfold CompileM.unionOf
  exact .bind commonElementType fun _ _ => .bind (attachMembers h) fun _ _ =>
    pure trivial

theorem setOf {elements : List (Value × Span)}
    (h : ∀ e ∈ elements, e.1.IsPlain) :
    Composed (κ := κ) asked Value.IsPlain (CompileM.setOf elements span) := by
  unfold CompileM.setOf
  split
  · exact pure trivial
  · exact pure (h _ (List.mem_singleton_self _))
  · exact unionOf h

-- =============================================================== calls

theorem callee {function : Ast.NameRef} {given : Nat} :
    Composes (κ := κ) asked (CompileM.callee function given span) := by
  unfold CompileM.callee
  refine .bind resolve fun item _ => ?_
  split
  · exact fail
  · exact .bind require fun _ _ => pure trivial

theorem checkArgument {id : SetId} {type : ParamType} {position : Nat}
    {function : QualifiedName} :
    Composes (κ := κ) asked
      (CompileM.checkArgument id type position function) := by
  unfold CompileM.checkArgument
  refine .bind schema fun _ _ => .bind getSet fun _ _ => ?_
  dsimp only
  split
  · exact pure trivial
  · exact .bind require fun _ _ => pure trivial
  · split
    · exact castSet
    · exact pure trivial
    · exact fail

theorem argument {param : Parameter} {position : Nat}
    {function : QualifiedName} {c : Cardinality}
    (ho : Composed asked Value.IsPlain operand) :
    Composes asked (CompileM.argument operand param position function c) := by
  unfold CompileM.argument
  split
  · exact .bind (.inScope (.bind ho fun _ hv => .bind (attach hv)
      fun _ _ => checkArgument)) fun _ _ => pure trivial
  · exact .bind ho fun _ hv => .bind (attach hv) fun _ _ =>
      .bind checkArgument fun _ _ => .bind judge fun _ _ => pure trivial

theorem returnType {returns : ReturnType} {function : QualifiedName}
    {args : List SetId} :
    Composes (κ := κ) asked (CompileM.returnType returns function args) := by
  unfold CompileM.returnType
  split
  · exact pure trivial
  · exact .bind (orFail fun _ _ => trivial) fun _ _ => typeOf

theorem call {function : QualifiedName} {sig : Signature} {args : List SetId}
    {c : Cardinality} :
    Composed (κ := κ) asked Value.IsPlain
      (CompileM.call function sig args c span) := by
  unfold CompileM.call
  exact .bind returnType fun _ _ => pure trivial

-- ============================================================= clauses

theorem inClause {clause : Clause} (hm : Composed asked post m) :
    Composed asked post (CompileM.inClause clause m) :=
  .underFrame (fun _ => rfl) hm

theorem underSubject {subject : SetId} (hm : Composed asked post m) :
    Composed asked post (CompileM.underSubject subject m) :=
  .underFrame (fun _ => rfl) hm

theorem clauseOperand {hint : Option TypeId}
    (ho : Composed asked Value.IsPlain operand) :
    Composes asked (CompileM.clauseOperand operand span hint) := by
  unfold CompileM.clauseOperand
  refine .bind ho fun v hv => ?_
  cases v with
  | set id => exact .bind referenceAt fun _ _ => attach trivial
  | pending p => exact attach hv

theorem filterBy (ho : Composed asked Value.IsPlain operand) :
    Composes asked (CompileM.filterBy operand span) := by
  unfold CompileM.filterBy
  exact .inScope (inClause (clauseOperand ho))

theorem bound (ho : Composed asked Value.IsPlain operand) :
    Composes asked (CompileM.bound operand span) := by
  unfold CompileM.bound
  exact .inScope (.bind (clauseOperand ho) fun _ _ =>
    .bind requireSingleton fun _ _ => pure trivial)

theorem key (ho : Composed asked Value.IsPlain operand) :
    Composes asked (CompileM.key operand span) := by
  unfold CompileM.key
  exact .inScope (.bind (clauseOperand ho) fun _ _ =>
    .bind requireSingleton fun _ _ => pure trivial)

end Operands

-- ========================================================== statements

theorem withModules {decls : List Ast.ModuleDecl}
    (hm : Composed asked post m) :
    Composed asked post (CompileM.withModules decls m) := by
  induction decls with
  | nil => exact hm
  | cons d decls ih =>
      unfold CompileM.withModules
      exact .bind checkModule fun _ _ =>
        .underFrame (fun f => Frame.scope_declare f d) ih

theorem withShape {subject : SetId} {elements : List ShapeElement}
    {m : CompileM κ (List ShapeNode)} (hm : Composes asked m) :
    Composes asked (CompileM.withShape subject elements m) := by
  unfold CompileM.withShape CompileM.requireObject
  split
  · exact pure trivial
  · exact .bind (.bind schema fun _ _ => .bind typeOf fun _ _ => require)
      fun _ _ => inClause (underSubject hm)

theorem limited {c : Cardinality} {limit : SetId} :
    Composes (κ := κ) asked (CompileM.limited c limit) := by
  unfold CompileM.limited
  refine .bind getSet fun _ _ => ?_
  split
  · exact pure trivial
  · exact pure trivial

theorem statementCardinality {result : SetId} {filter limit : Option SetId} :
    Composes (κ := κ) asked
      (CompileM.statementCardinality result filter limit) := by
  unfold CompileM.statementCardinality
  refine .bind judge fun _ _ => ?_
  dsimp only
  split
  · exact limited
  · exact pure trivial

-- ========================================================== the syntax

/-- A statement from its parts. -/
theorem selectOf {modules : List Ast.ModuleDecl} {result : Expr}
    {elements : List ShapeElement} {filter offset limit : Option Expr}
    {groupBy : List Expr} {orderBy : List Ast.SortKey} {span : Span}
    (hresult : Composed (κ := κ) asked Value.IsPlain (CompileM.expr result))
    (helements : ∀ subject, Composes (κ := κ) asked
      (CompileM.shapeElements subject [] elements))
    (hfilter : Composes (κ := κ) asked (CompileM.filterClause filter))
    (hgroupBy : Composes (κ := κ) asked (CompileM.groupKeys groupBy))
    (horderBy : Composes (κ := κ) asked (CompileM.sortKeys orderBy))
    (hoffset : Composes (κ := κ) asked (CompileM.boundClause offset))
    (hlimit : Composes (κ := κ) asked (CompileM.boundClause limit)) :
    Composes (κ := κ) asked (CompileM.select
      ⟨modules, result, elements, filter, groupBy, orderBy, offset, limit,
        span⟩) := by
  unfold CompileM.select
  refine .inScope (inClause (withModules (.bind hresult fun _ hv =>
    .bind (attach hv) fun x _ => underSubject ?_)))
  exact .bind (withShape (helements x)) fun _ _ => .bind hfilter fun _ _ =>
    .bind (inClause hgroupBy) fun _ _ => .bind (inClause horderBy) fun _ _ =>
    .bind (inClause hoffset) fun _ _ => .bind (inClause hlimit) fun _ _ =>
    .bind statementCardinality fun _ _ => .bind frame fun _ _ => pure trivial

mutual

theorem expr : (e : Expr) → (∀ q ∈ e.queries, asked q) →
    Composed (κ := κ) asked Value.IsPlain (CompileM.expr e)
  | .constant _ _, _ => pure trivial
  | .emptySet _, _ => pure trivial
  | .path _, _ => .bind path fun _ _ => pure trivial
  | .binary l _ r _, h =>
      have h := List.forall_mem_append.1 h
      .bind (expr l h.1) fun _ hl => .bind (expr r h.2) fun _ hr => binary hl hr
  | .unary .not operand _, h => .bind (expr operand h) fun _ hv => logicalNot hv
  | .unary .neg operand _, h =>
      .bind (expr operand h) fun _ hv => arithmeticNeg hv
  | .unary .exists operand _, h => existence (expr operand h)
  | .call _ args _, h => .bind callee fun _ _ => .bind (arguments args h)
      fun _ _ => call
  | .cast _ operand _, h => .bind castTarget fun _ _ =>
      .bind (expr operand h) fun _ hv => cast hv
  | .set elements _, h => .bind (exprs elements h) fun _ hvs => setOf hvs
  | .select query, h =>
      have h := List.forall_mem_cons.1 h
      .subquery h.1 (select query h.2)
  | .paren inner _, h => expr inner h
termination_by structural e => e

theorem exprs : (es : List Expr) → (∀ q ∈ Expr.queriesOf es, asked q) →
    Composed (κ := κ) asked (fun values => ∀ v ∈ values, v.1.IsPlain)
      (CompileM.exprs es)
  | [], _ => pure fun _ hv => by cases hv
  | e :: es, h =>
      have h := List.forall_mem_append.1 h
      .bind (expr e h.1) fun _ hv => .bind (exprs es h.2) fun _ hvs =>
        pure (List.forall_mem_cons.2 ⟨hv, hvs⟩)
termination_by structural es => es

theorem arguments : (args : List Expr) → (∀ q ∈ Expr.queriesOf args, asked q) →
    ∀ {function : QualifiedName} {position : Nat} {params : List Parameter}
      {c : Cardinality}, Composes (κ := κ) asked
        (CompileM.arguments function position params c args)
  | [], _, _, _, [], _ => pure trivial
  | [], _, _, _, _ :: _, _ => pure trivial
  | _ :: _, _, _, _, [], _ => pure trivial
  | arg :: args, h, _, _, _ :: _, _ =>
      have h := List.forall_mem_append.1 h
      .bind (argument (expr arg h.1)) fun _ _ =>
        .bind (arguments args h.2) fun _ _ => pure trivial
termination_by structural args => args

theorem filterClause : (f : Option Expr) → (∀ q ∈ Expr.queriesIn f, asked q) →
    Composes (κ := κ) asked (CompileM.filterClause f)
  | none, _ => pure trivial
  | some e, h => .bind (filterBy (expr e h)) fun _ _ => pure trivial
termination_by structural f => f

theorem boundClause : (n : Option Expr) → (∀ q ∈ Expr.queriesIn n, asked q) →
    Composes (κ := κ) asked (CompileM.boundClause n)
  | none, _ => pure trivial
  | some e, h => .bind (bound (expr e h)) fun _ _ => pure trivial
termination_by structural n => n

theorem groupKeys : (keys : List Expr) →
    (∀ q ∈ Expr.queriesOf keys, asked q) →
    Composes (κ := κ) asked (CompileM.groupKeys keys)
  | [], _ => pure trivial
  | e :: es, h =>
      have h := List.forall_mem_append.1 h
      .bind (key (expr e h.1)) fun _ _ => .bind (groupKeys es h.2) fun _ _ =>
        pure trivial
termination_by structural keys => keys

theorem sortKeys : (keys : List Ast.SortKey) →
    (∀ q ∈ Ast.SortKey.queriesOf keys, asked q) →
    Composes (κ := κ) asked (CompileM.sortKeys keys)
  | [], _ => pure trivial
  | ⟨e, _, _, _⟩ :: keys, h =>
      have h := List.forall_mem_append.1 h
      .bind (key (expr e h.1)) fun _ _ => .bind (sortKeys keys h.2) fun _ _ =>
        pure trivial
termination_by structural keys => keys

theorem shapeElement : (e : ShapeElement) → (∀ q ∈ e.queries, asked q) →
    ∀ subject, Composes (κ := κ) asked (CompileM.shapeElement subject e)
  | .mk _ (some e) _ _, h, _ => .bind (expr e h) fun _ hv =>
      .bind (attach hv) fun _ _ => pure trivial
  | .mk _ none elements _, h, _ => .bind extendPath fun set _ =>
      .bind (withShape (shapeElements elements h set [])) fun _ _ => pure trivial
termination_by structural e => e

theorem shapeElements : (es : List ShapeElement) →
    (∀ q ∈ ShapeElement.queriesOf es, asked q) → ∀ subject taken,
      Composes (κ := κ) asked (CompileM.shapeElements subject taken es)
  | [], _, _, _ => pure trivial
  | e :: es, h, subject, _ =>
      have h := List.forall_mem_append.1 h
      .bind require fun _ _ => .bind (.inScope (shapeElement e h.1 subject))
        fun _ _ => .bind (shapeElements es h.2 subject _) fun _ _ => pure trivial
termination_by structural es => es

theorem select : (q : Select) → (∀ q' ∈ q.nested, asked q') →
    Composes (κ := κ) asked (CompileM.select q)
  | ⟨_, result, elements, filter, groupBy, orderBy, offset, limit, _⟩, h =>
      have ⟨hresult, hshape, hfilter, hgroupBy, horderBy, hoffset, hlimit⟩ :=
        (Ast.Select.forall_mem_nested _).1 h
      selectOf (expr result hresult)
        (fun subject => shapeElements elements hshape subject [])
        (filterClause filter hfilter) (groupKeys groupBy hgroupBy)
        (sortKeys orderBy horderBy) (boundClause offset hoffset)
        (boundClause limit hlimit)
termination_by structural q => q

end

-- =========================================================== the whole

theorem checkOptions {o : CompileOptions} {span : Span} :
    Composes (κ := κ) asked (CompileM.checkOptions o span) := by
  unfold CompileM.checkOptions
  generalize o.defaultModule.toList ++ o.aliases.values = modules
  induction modules with
  | nil => exact pure trivial
  | cons module modules ih =>
      exact .bind (f := fun _ => modules.forM _) checkModule fun _ _ => ih

theorem limitImplicitly {stmt : Statement} {limit : Int} :
    Composes (κ := κ) asked (CompileM.limitImplicitly stmt limit) := by
  unfold CompileM.limitImplicitly
  split
  · exact pure trivial
  · exact .bind (newComputed trivial) fun _ _ => .bind limited fun _ _ =>
      pure trivial

/-- Compiling a statement is composed, with the statements that occur in
it. -/
theorem statement (o : CompileOptions) (q : Select) :
    Composes (κ := κ) (· ∈ q.nested) (CompileM.statement o q) := by
  unfold CompileM.statement
  refine .bind checkOptions fun _ _ =>
    .bind (select q fun _ hq => hq) fun _ _ => ?_
  split
  · exact limitImplicitly
  · exact pure trivial

end CompileM.Composed

namespace CompileM

/-- Expressions are composed, whatever statements occur in them. -/
theorem composed_expr (e : Expr) :
    Composed (κ := κ) (fun _ => True) Value.IsPlain (expr e) :=
  .expr e fun _ _ => trivial

end CompileM

end PathQuery
