/-
The syntax on the two sides.

One lemma for each kind of syntax, by recursion on the syntax: what is
alike is compiled alike. What the parts combine to is in
Correspondence.Operands and Correspondence.Statements; here the parts
are taken in the order written, and what was shown of earlier parts is
carried past the later ones.

One thing is said of a limit beyond what is said of all clauses. If its
set stands for different literals on the two sides then the limit is the
subject, and the subject stands for a literal (`BoundMatch`).
-/
import PathQuery.Proofs.Correspondence.Statements

namespace PathQuery

open Ast (Expr Likeness Select ShapeElement)
open Ir

variable {κ : Type} [DecidableEq κ] [PathKey κ] [NameDigest]

namespace CompileM

-- ============================================================== growth

namespace Growing

instance (op : BinaryOp) (v w : Value) (span : Span) :
    Growing (binary op v w span : CompileM κ _) := by
  unfold binary attachOperands
  exact of_bind inferInstance fun _ => of_bind inferInstance fun _ => inferInstance

instance (v : Value) (span : Span) :
    Growing (logicalNot v span : CompileM κ _) := by
  unfold logicalNot
  infer_instance

instance (v : Value) (span : Span) :
    Growing (arithmeticNeg v span : CompileM κ _) := by
  unfold arithmeticNeg
  infer_instance

instance (v : Value) (target : TypeId) (span : Span) :
    Growing (cast v target span : CompileM κ _) := by
  unfold cast
  infer_instance

instance (es : List (Value × Span)) (span : Span) :
    Growing (setOf es span : CompileM κ _) := by
  unfold setOf unionOf
  split
  · infer_instance
  · infer_instance
  · exact of_bind (of_composed .commonElementType) fun _ => inferInstance

instance (function : QualifiedName) (sig : Signature) (args : List SetId)
    (c : Cardinality) (span : Span) :
    Growing (call function sig args c span : CompileM κ _) := by
  unfold call
  exact of_bind (of_composed .returnType) fun _ => inferInstance

instance (stmt : Statement) : Growing (subquery stmt : CompileM κ _) := by
  unfold subquery
  infer_instance

omit [DecidableEq κ] [PathKey κ] [NameDigest] in
theorem all_true {α : Type} {l : List α} : ∀ a ∈ l, True := fun _ _ => trivial

instance (e : Expr) : Growing (expr e : CompileM κ _) :=
  of_composed (.expr e all_true)

instance (es : List Expr) : Growing (exprs es : CompileM κ _) :=
  of_composed (.exprs es all_true)

instance (function : QualifiedName) (position : Nat) (params : List Parameter)
    (c : Cardinality) (args : List Expr) :
    Growing (arguments function position params c args : CompileM κ _) :=
  of_composed (.arguments args all_true)

instance (f : Option Expr) : Growing (filterClause f : CompileM κ _) :=
  of_composed (.filterClause f all_true)

instance (n : Option Expr) : Growing (boundClause n : CompileM κ _) :=
  of_composed (.boundClause n all_true)

instance (e : Expr) (span : Span) :
    Growing (filterBy (expr e) span : CompileM κ _) :=
  of_composed (.filterBy (.expr e all_true))

instance (e : Expr) (span : Span) :
    Growing (bound (expr e) span : CompileM κ _) :=
  of_composed (.bound (.expr e all_true))

instance (e : Expr) (span : Span) :
    Growing (key (expr e) span : CompileM κ _) :=
  of_composed (.key (.expr e all_true))

instance (keys : List Expr) : Growing (groupKeys keys : CompileM κ _) :=
  of_composed (.groupKeys keys all_true)

instance (keys : List Ast.SortKey) : Growing (sortKeys keys : CompileM κ _) :=
  of_composed (.sortKeys keys all_true)

instance (subject : SetId) (taken : List String) (es : List ShapeElement) :
    Growing (shapeElements subject taken es : CompileM κ _) :=
  of_composed (.shapeElements es all_true subject taken)

instance (subject : SetId) (es : List ShapeElement)
    (m : CompileM κ (List ShapeNode)) [Growing m] :
    Growing (withShape subject es m) := by
  unfold withShape requireObject
  cases es <;> infer_instance

instance (result : SetId) (filter limit : Option SetId) :
    Growing (statementCardinality result filter limit : CompileM κ _) :=
  of_composed .statementCardinality

end Growing

namespace Corresponds

variable {μ : Likeness} {C : Correspondence κ} {env env' : Env} {x y : SetId}
  {span : Span}

-- ========================================================= expressions

/-- Expressions that are alike give values that match. -/
abbrev ConcursExpr (κ : Type) [DecidableEq κ] [PathKey κ] (μ : Likeness)
    (e : Expr) : Prop :=
  ∀ e', e.Alike μ e' → Matches (κ := κ) μ (CompileM.expr e) (CompileM.expr e')

theorem constantExpr {value : Literal} : ConcursExpr κ μ (.constant value span) := by
  intro e' h C env env'
  obtain ⟨span', rfl, hspan⟩ := h
  exact pure (.pending ⟨rfl, hspan, .refl _ _, rfl, fun _ _ => rfl,
    fun _ => .constant value⟩)

theorem emptySetExpr : ConcursExpr κ μ (.emptySet span) := by
  intro e' h C env env'
  obtain ⟨span', rfl, hspan⟩ := h
  exact pure (values_of_plain hspan (.refl _ _) rfl rfl fun _ => .emptySet)

theorem pathExpr {p : Ast.Path} : ConcursExpr κ μ (.path p) := by
  intro e' h C env env'
  obtain ⟨p', rfl, hp⟩ := h
  unfold CompileM.expr
  exact bind (path hp) fun C₁ x y _ hxy => pure (.set hxy)

theorem binaryExpr {l r : Expr} {op : BinaryOp} (hl : ConcursExpr κ μ l)
    (hr : ConcursExpr κ μ r) : ConcursExpr κ μ (.binary l op r span) := by
  intro e' h C env env'
  obtain ⟨l', r', span', rfl, hl', hr', hspan⟩ := h
  unfold CompileM.expr
  refine bind (hl l' hl' C env env') fun C₁ v w _ hvw => ?_
  refine bind (hr r' hr' C₁ env env') fun C₂ v' w' h₂ hvw' => ?_
  exact binary (hvw.mono h₂) hvw' hspan

theorem unaryExpr {operand : Expr} {op : UnaryOp} (ho : ConcursExpr κ μ operand) :
    ConcursExpr κ μ (.unary op operand span) := by
  intro e' h C env env'
  obtain ⟨operand', span', rfl, ho', hspan⟩ := h
  cases op with
  | not =>
      unfold CompileM.expr
      exact bind (ho operand' ho' C env env') fun _ _ _ _ hvw =>
        logicalNot hvw hspan
  | neg =>
      unfold CompileM.expr
      exact bind (ho operand' ho' C env env') fun _ _ _ _ hvw =>
        arithmeticNeg hvw hspan
  | «exists» =>
      unfold CompileM.expr
      exact existence (ho operand' ho') hspan

theorem castExpr {target : Ast.NameRef} {operand : Expr}
    (ho : ConcursExpr κ μ operand) : ConcursExpr κ μ (.cast target operand span) := by
  intro e' h C env env'
  obtain ⟨target', operand', span', rfl, htarget, ho', hspan⟩ := h
  unfold CompileM.expr
  refine bind (castTarget htarget) fun C₁ t u _ heq => ?_
  subst heq
  exact bind (ho operand' ho' C₁ env env') fun _ _ _ _ hvw => cast hvw hspan

theorem parenExpr {inner : Expr} (hi : ConcursExpr κ μ inner) :
    ConcursExpr κ μ (.paren inner span) := by
  intro e' h
  obtain ⟨inner', span', rfl, hi', -⟩ := h
  exact hi inner' hi'

/-- Expressions of two lists that are alike give values that match. -/
abbrev ConcursExprs (κ : Type) [DecidableEq κ] [PathKey κ] (μ : Likeness)
    (es : List Expr) : Prop :=
  ∀ es', Expr.AlikeAll μ es es' → Concurs (κ := κ) μ (fun C _ _ => ValuesAll μ C)
    (CompileM.exprs es) (CompileM.exprs es')

theorem exprsNil : ConcursExprs κ μ [] := by
  intro es' h C env env'
  obtain rfl := h
  exact pure .nil

theorem exprsCons {e : Expr} {es : List Expr} (he : ConcursExpr κ μ e)
    (hes : ConcursExprs κ μ es) : ConcursExprs κ μ (e :: es) := by
  intro es' h C env env'
  obtain ⟨e', rest', rfl, he', hes'⟩ := h
  unfold CompileM.exprs
  refine bind (he e' he' C env env') fun C₁ v w _ hvw => ?_
  refine bind (hes rest' hes' C₁ env env') fun C₂ vs ws h₂ hvws => ?_
  exact pure (.cons (hvw.mono h₂) hvws)

theorem setExpr {es : List Expr} (hes : ConcursExprs κ μ es) :
    ConcursExpr κ μ (.set es span) := by
  intro e' h C env env'
  obtain ⟨es', span', rfl, hes', hspan⟩ := h
  unfold CompileM.expr
  exact bind (hes es' hes' C env env') fun _ _ _ _ hvws => setOf hvws hspan

/-- Arguments agree one by one, and so does the cardinality of the call
with them. -/
def AgreeCountedAll (μ : Likeness) (C : Correspondence κ)
    (r r' : List SetId × Cardinality) : Prop :=
  List.Forall₂ (AgreeSomewhere μ C) r.1 r'.1 ∧ μ.Tally r.2 r'.2

/-- Arguments that are alike agree, whatever they are passed to. -/
def ConcursArguments (κ : Type) [DecidableEq κ] [PathKey κ] (μ : Likeness)
    (args : List Expr) : Prop :=
  ∀ args', Expr.AlikeAll μ args args' →
    ∀ (function : QualifiedName) (position : Nat) (params : List Parameter)
      (c d : Cardinality), μ.Tally c d →
        Concurs (κ := κ) μ (fun C _ _ => AgreeCountedAll μ C)
          (CompileM.arguments function position params c args)
          (CompileM.arguments function position params d args')

theorem argumentsNil : ConcursArguments κ μ [] := by
  intro args' h function position params c d htally C env env'
  obtain rfl := h
  cases params with
  | nil => exact pure ⟨.nil, htally⟩
  | cons param params => exact pure ⟨.nil, htally⟩

theorem argumentsCons {arg : Expr} {args : List Expr} (ha : ConcursExpr κ μ arg)
    (hargs : ConcursArguments κ μ args) : ConcursArguments κ μ (arg :: args) := by
  intro all' h function position params c d htally C env env'
  obtain ⟨arg', args', rfl, ha', hargs'⟩ := h
  cases params with
  | nil => exact pure ⟨.nil, htally⟩
  | cons param params =>
      have hgrows : ∀ (args : List Expr) (r : SetId × Cardinality), Growing (do
          let rs ← CompileM.arguments function (position + 1) params r.2 args
          return (r.1 :: rs.1, rs.2) : CompileM κ _) :=
        fun _ _ => .of_bind inferInstance fun _ => inferInstance
      unfold CompileM.arguments
      refine bind_growing (hgrows _) (hgrows _) (argument (ha arg' ha') htally) ?_
      intro C₁ r r' _ hr
      refine bind (hargs args' hargs' function (position + 1) params r.2 r'.2 hr.2
        C₁ env env') ?_
      intro C₂ rs rs' h₂ hrs
      exact pure ⟨.cons (AgreeSomewhere.mono h₂ hr.1) hrs.1, hrs.2⟩

theorem callExpr {function : Ast.NameRef} {args : List Expr}
    (hargs : ConcursArguments κ μ args) :
    ConcursExpr κ μ (.call function args span) := by
  intro e' h C env env'
  obtain ⟨function', args', span', rfl, hfunction, hargs', hspan⟩ := h
  have hgrows : ∀ (args : List Expr) (span : Span)
      (r : QualifiedName × Signature), Growing (do
        let rs ← CompileM.arguments r.1 0 r.2.params r.2.cardinality args
        CompileM.call r.1 r.2 rs.1 rs.2 span : CompileM κ _) :=
    fun _ span r => .of_bind inferInstance fun a =>
      inferInstanceAs (Growing (CompileM.call r.1 r.2 a.1 a.2 span))
  unfold CompileM.expr
  rw [← hargs'.length_eq]
  refine bind_growing (hgrows _ _) (hgrows _ _) (callee hfunction) ?_
  intro C₁ r _ _ heq
  subst heq
  refine bind_growing
    (fun a => inferInstanceAs (Growing (CompileM.call r.1 r.2 a.1 a.2 span)))
    (fun a => inferInstanceAs (Growing (CompileM.call r.1 r.2 a.1 a.2 span')))
    (hargs args' hargs' r.1 0 r.2.params r.2.cardinality r.2.cardinality
      (.refl _ _) C₁ env env') ?_
  intro C₂ rs rs' _ hrs
  exact call hrs.1 hrs.2 hspan

-- ============================================================= clauses

/-- A number to skip or to keep agrees. It stands for one literal or for
none, unless it is the subject and that stands for a literal. -/
def BoundMatch (μ : Likeness) (bare : Prop) (C : Correspondence κ) (env env' : Env)
    (x y : SetId) : Prop :=
  C.AgreeBelow μ env.frame.scope env'.frame.scope x y
    ∧ (C.SameConstant x y ∨ (μ ≠ .same ∧ bare
      ∧ ∃ id, env.frame.subject = some id ∧ C.left.arena.constant? id ≠ none))

/-- Conditions that are alike agree. -/
abbrev ConcursFilter (κ : Type) [DecidableEq κ] [PathKey κ] (μ : Likeness)
    (f : Option Expr) : Prop :=
  ∀ f', Expr.AlikeIn μ f f' → Concurs (κ := κ) μ
    (fun C env env' => Option.Rel (C.AgreeBelow μ env.frame.scope env'.frame.scope))
    (CompileM.filterClause f) (CompileM.filterClause f')

/-- Numbers to skip or to keep that are alike agree. -/
abbrev ConcursBound (κ : Type) [DecidableEq κ] [PathKey κ] (μ : Likeness)
    (n : Option Expr) : Prop :=
  ∀ n', Expr.AlikeIn μ n n' → Concurs (κ := κ) μ
    (fun C env env' => Option.Rel (BoundMatch μ (n.any Expr.isSubject = true) C env env'))
    (CompileM.boundClause n) (CompileM.boundClause n')

theorem filterNone : ConcursFilter κ μ none := by
  intro f' h C env env'
  obtain rfl := h
  exact pure .none

theorem filterSome {e : Expr} (he : ConcursExpr κ μ e) :
    ConcursFilter κ μ (some e) := by
  intro f' h C env env'
  obtain ⟨e', rfl, he'⟩ := h
  unfold CompileM.filterClause
  exact bind (filterBy (he e' he') he'.spans) fun C₁ x y _ hxy => pure (.some hxy)

theorem boundNone : ConcursBound κ μ none := by
  intro n' h C env env'
  obtain rfl := h
  exact pure .none

/-- A number in a node of its own. -/
theorem bound {e e' : Expr} (he : ConcursExpr κ μ e) (he' : e.Alike μ e') :
    Concurs (κ := κ) μ (BoundMatch μ (e.isSubject = true))
      (CompileM.bound (CompileM.expr e) e.span)
      (CompileM.bound (CompileM.expr e') e'.span) := by
  intro C env env'
  -- the operand is run in a new node, where the subject is the same
  have hbare : ∀ id st, (CompileM.expr e).run (env.within C.left.scopes.size)
      (C.left.opened env.frame.scope) = (.ok (.set id), st) →
        st.arena.constant? id ≠ none →
          e.isSubject = true ∧ ∃ id, env.frame.subject = some id
            ∧ C.left.arena.constant? id ≠ none := by
    intro id st hrun hconst
    obtain ⟨he, hsubject, rfl⟩ := subject_of_expr e hrun hconst
    exact ⟨he, id, hsubject, hconst⟩
  unfold CompileM.bound
  refine (oneValue (he e' he') he'.spans hbare).imp ?_
  intro C' x y hlater _ _ hxy
  refine ⟨hxy.1, hxy.2.imp_right fun h => ?_⟩
  obtain ⟨hμ, he, id, hsubject, hconst⟩ := h
  exact ⟨hμ, he, id, hsubject, hlater.left.arena.constant? hconst ▸ hconst⟩

theorem boundSome {e : Expr} (he : ConcursExpr κ μ e) :
    ConcursBound κ μ (some e) := by
  intro n' h C env env'
  obtain ⟨e', rfl, he'⟩ := h
  unfold CompileM.boundClause
  exact bind (bound he he' C env env') fun C₁ x y _ hxy => pure (.some hxy)

/-- Keys to group by that are alike agree one by one. -/
abbrev ConcursGroups (κ : Type) [DecidableEq κ] [PathKey κ] (μ : Likeness)
    (keys : List Expr) : Prop :=
  ∀ keys', Expr.AlikeAll μ keys keys' → Concurs (κ := κ) μ
    (fun C env env' =>
      List.Forall₂ (C.AgreeBelow μ env.frame.scope env'.frame.scope))
    (CompileM.groupKeys keys) (CompileM.groupKeys keys')

theorem groupNil : ConcursGroups κ μ [] := by
  intro keys' h C env env'
  obtain rfl := h
  exact pure .nil

theorem groupCons {e : Expr} {es : List Expr} (he : ConcursExpr κ μ e)
    (hes : ConcursGroups κ μ es) : ConcursGroups κ μ (e :: es) := by
  intro keys' h C env env'
  obtain ⟨e', es', rfl, he', hes'⟩ := h
  unfold CompileM.groupKeys
  refine bind (key (he e' he') he'.spans) fun C₁ x y _ hxy => ?_
  refine bind (hes es' hes' C₁ env env') fun C₂ xs ys h₂ hxys => ?_
  exact pure (.cons (hxy.mono h₂) hxys)

/-- Keys to sort by that are alike match one by one. -/
abbrev ConcursSorts (κ : Type) [DecidableEq κ] [PathKey κ] (μ : Likeness)
    (keys : List Ast.SortKey) : Prop :=
  ∀ keys', Ast.SortKey.AlikeAll μ keys keys' → Concurs (κ := κ) μ
    (fun C env env' =>
      List.Forall₂ (C.KeysMatch μ env.frame.scope env'.frame.scope))
    (CompileM.sortKeys keys) (CompileM.sortKeys keys')

theorem sortNil : ConcursSorts κ μ [] := by
  intro keys' h C env env'
  obtain rfl := h
  exact pure .nil

theorem sortCons {e : Expr} {direction : SortDirection}
    {empties : Option EmptyOrder} {keys : List Ast.SortKey}
    (he : ConcursExpr κ μ e) (hkeys : ConcursSorts κ μ keys) :
    ConcursSorts κ μ (⟨e, direction, empties, span⟩ :: keys) := by
  intro all' h C env env'
  obtain ⟨e', span', keys', rfl, he', hspan, hkeys'⟩ := h
  unfold CompileM.sortKeys
  refine bind (key (he e' he') he'.spans) fun C₁ x y _ hxy => ?_
  refine bind (hkeys keys' hkeys' C₁ env env') fun C₂ ks ks' h₂ hks => ?_
  exact pure (.cons ⟨hxy.mono h₂, rfl, rfl, hspan⟩ hks)

-- ============================================================== shapes

/-- Two elements of a shape have one name, sets that correspond, and
shapes that match. -/
structure ElementsMatch (C : Correspondence κ) (env env' : Env)
    (node node' : ShapeNode) : Prop where
  name : node.name = node'.name
  computed : node.computed = node'.computed
  set : C.sets node.set node'.set
  elements : C.ShapesMatch env.schema env.frame.scope env'.frame.scope
    node.elements node'.elements

/-- Elements that are alike, of shapes of sets that correspond, match. -/
abbrev ConcursElement (κ : Type) [DecidableEq κ] [PathKey κ] (μ : Likeness)
    (e : ShapeElement) : Prop :=
  ∀ e', e.Alike μ e' → ∀ (C : Correspondence κ) (env env' : Env) (x y : SetId),
    C.sets x y → Corresponds μ C env env' (CompileM.shapeElement x e)
      (CompileM.shapeElement y e') fun C' => ElementsMatch C' env env'

/-- Shapes that are alike, of sets that correspond, match. -/
def ConcursElements (κ : Type) [DecidableEq κ] [PathKey κ] (μ : Likeness)
    (es : List ShapeElement) : Prop :=
  ∀ es', ShapeElement.AlikeAll μ es es' → ∀ (taken : List String)
    (C : Correspondence κ) (env env' : Env) (x y : SetId), C.sets x y →
      Corresponds μ C env env' (CompileM.shapeElements x taken es)
        (CompileM.shapeElements y taken es') fun C' =>
          C'.ShapesMatch env.schema env.frame.scope env'.frame.scope

theorem computedElement {name : String} {e : Expr} {elements : List ShapeElement}
    (he : ConcursExpr κ μ e) :
    ConcursElement κ μ (.mk name (some e) elements span) := by
  intro element' h C env env' x y _
  obtain ⟨_, elements', span', rfl, ⟨e', rfl, he'⟩, -, -⟩ := h
  unfold CompileM.shapeElement
  refine bind (he e' he' C env env') fun C₁ v w _ hvw => ?_
  refine bind (attach hvw) fun C₂ z z' _ h => ?_
  exact pure ⟨rfl, rfl, h.2.2 rfl, .nil⟩

theorem pointerElement {name : String} {elements : List ShapeElement}
    (helements : ConcursElements κ μ elements) :
    ConcursElement κ μ (.mk name none elements span) := by
  intro element' h C env env' x y hxy
  obtain ⟨_, elements', span', rfl, hnone, helements', hspan⟩ := h
  obtain rfl := hnone
  unfold CompileM.shapeElement
  refine bind (extendPath hxy hspan) fun C₁ z w _ hzw => ?_
  refine bind (withShape helements' hzw fun C₂ env₁ env₁' hzw =>
    helements elements' helements' [] C₂ env₁ env₁' z w hzw) ?_
  intro C₂ nodes nodes' h₂ hnodes
  exact pure ⟨rfl, rfl, h₂.sets z w hzw, hnodes⟩

/-- One element of a shape, in a node of its own. -/
theorem shapeNode {e e' : ShapeElement} (he : ConcursElement κ μ e)
    (he' : e.Alike μ e') (hxy : C.sets x y) :
    Corresponds μ C env env' (CompileM.inScope (CompileM.shapeElement x e))
      (CompileM.inScope (CompileM.shapeElement y e')) fun C' node node' =>
        C'.ShapesMatch env.schema env.frame.scope env'.frame.scope [node] [node'] := by
  have hnode : Corresponds μ C env env'
      (CompileM.inScope (CompileM.shapeElement x e))
      (CompileM.inScope (CompileM.shapeElement y e')) fun C' node node' =>
        ElementsMatch C' (env.within C.left.scopes.size)
            (env'.within C.right.scopes.size) node node'
          ∧ C'.nodes C.left.scopes.size C.right.scopes.size
          ∧ C'.left.scopes.parent? C.left.scopes.size = some env.frame.scope
          ∧ C'.right.scopes.parent? C.right.scopes.size = some env'.frame.scope :=
    inScope (he e' he' _ _ _ x y hxy)
      fun _ _ _ _ _ hnodes hp hp' hmatch => ⟨hmatch, hnodes, hp, hp'⟩
  refine hnode.runs.imp fun C' node node' _ hc hframe h => ?_
  obtain ⟨⟨hmatch, hnodes, hp, hp'⟩, hrun, hrun'⟩ := h
  obtain ⟨name, set, computed, elements⟩ := node
  obtain ⟨name', set', computed', elements'⟩ := node'
  obtain ⟨hname, hcomputed, hset, helements⟩ := hmatch
  obtain rfl : name = name' := hname
  obtain rfl : computed = computed' := hcomputed
  exact .cons ⟨hp, x, e, env, C.left, C'.left, rfl, rfl, rfl, hrun, .refl hc.rooted⟩
    ⟨hp', y, e', env', C.right, C'.right, hframe.schema, rfl, rfl, hrun',
      .refl hc.rooted'⟩ hnodes hset helements .nil

theorem shapeNil : ConcursElements κ μ [] := by
  intro es' h taken C env env' x y _
  obtain rfl := h
  exact pure .nil

theorem shapeCons {e : ShapeElement} {es : List ShapeElement}
    (he : ConcursElement κ μ e) (hes : ConcursElements κ μ es) :
    ConcursElements κ μ (e :: es) := by
  intro all' h taken C env env' x y hxy
  obtain ⟨e', es', rfl, he', hes'⟩ := h
  have hname : e'.name = e.name := by
    obtain ⟨name, computed, elements, span⟩ := e
    obtain ⟨_, _, _, rfl, -, -, -⟩ := he'
    rfl
  unfold CompileM.shapeElements
  rw [hname]
  refine require rfl fun _ => ?_
  refine bind (shapeNode he he' hxy) fun C₁ node node' h₁ hnode => ?_
  refine bind (hes es' hes' _ C₁ env env' x y (h₁.sets x y hxy)) ?_
  intro C₂ nodes nodes' h₂ hnodes
  exact pure ((hnode.mono h₂).append hnodes)

-- ========================================================== statements

/-- Statements that are alike match, part by part. -/
abbrev ConcursSelect (κ : Type) [DecidableEq κ] [PathKey κ] (μ : Likeness)
    (q : Select) : Prop :=
  ∀ q', q.Alike μ q' → Concurs (κ := κ) μ
    (fun C env _ => C.StatementsMatch μ env.schema) (CompileM.select q)
    (CompileM.select q')

theorem selectExpr {q : Select} (hq : ConcursSelect κ μ q) :
    ConcursExpr κ μ (.select q) := by
  intro e' h C env env'
  obtain ⟨q', rfl, hq'⟩ := h
  unfold CompileM.expr
  exact bind (hq q' hq' C env env') fun _ _ _ _ hstmt => subquery hstmt

/-- A statement from its parts. -/
theorem selectOf {modules : List Ast.ModuleDecl} {result : Expr}
    {elements : List ShapeElement} {filter offset limit : Option Expr}
    {groupBy : List Expr} {orderBy : List Ast.SortKey}
    (hresult : ConcursExpr κ μ result) (helements : ConcursElements κ μ elements)
    (hfilter : ConcursFilter κ μ filter) (hgroupBy : ConcursGroups κ μ groupBy)
    (horderBy : ConcursSorts κ μ orderBy) (hoffset : ConcursBound κ μ offset)
    (hlimit : ConcursBound κ μ limit) :
    ConcursSelect κ μ ⟨modules, result, elements, filter, groupBy, orderBy, offset,
      limit, span⟩ := by
  intro q' h C env env'
  obtain ⟨modules', result', elements', filter', groupBy', orderBy', offset',
    limit', span'⟩ := q'
  obtain ⟨hmodules', hresult', helements', hfilter', hgroupBy', horderBy', hoffset',
    hlimit', hspan, hplain⟩ := h
  unfold CompileM.select
  refine inScope (inClause (withModules hmodules' ?_)) fun _ _ _ _ _ _ _ _ h => h
  intro env₁ env₁' hschema _ _
  have hschema : env₁.schema = env.schema := hschema
  refine bind (hresult result' hresult' _ env₁ env₁') fun C₁ v w _ hvw => ?_
  refine bind (attach hvw) fun C₂ x y _ h => ?_
  have hxy := h.2.2 rfl
  -- from here on, partial paths start from the results
  refine underSubject hxy ?_
  refine bind (withShape helements' hxy fun C₃ env₂ env₂' hxy =>
    helements elements' helements' [] C₃ env₂ env₂' x y hxy) ?_
  intro C₃ shape shape' h₃ hshape
  refine bind (hfilter filter' hfilter' C₃ _ _) ?_
  intro C₄ filter filter' h₄ hfilter
  refine bind (inClause (hgroupBy groupBy' hgroupBy' C₄ _ _)) ?_
  intro C₅ groupBy groupBy' h₅ hgroupBy
  refine bind (inClause (horderBy orderBy' horderBy' C₅ _ _)) ?_
  intro C₆ orderBy orderBy' h₆ horderBy
  refine bind (inClause (hoffset offset' hoffset' C₆ _ _)) ?_
  intro C₇ offset offset' h₇ hoffset
  refine bind (inClause (hlimit limit' hlimit' C₇ _ _)) ?_
  intro C₈ limit limit' h₈ hlimit
  have h₃₈ := h₄.trans (h₅.trans (h₆.trans (h₇.trans h₈)))
  have hxy := (h₃.trans h₃₈).sets x y hxy
  have hlimits : Option.Rel (fun l l' => AgreeSomewhere μ C₈ l l'
      ∧ (C₈.SameConstant l l'
        ∨ (μ = .loose ∧ C₈.left.arena.constant? x ≠ none))) limit limit' := by
    refine optionRel_imp (fun l l' h => ?_) hlimit
    obtain ⟨⟨v, w, -, -, hagree⟩, hor⟩ := h
    refine ⟨⟨v, w, hagree⟩, hor.imp_right fun h => ?_⟩
    obtain ⟨hμ, hbare, id, hid, hconst⟩ := h
    cases hid
    refine ⟨?_, hconst⟩
    cases μ with
    | same => exact absurd rfl hμ
    | plain => rw [hplain rfl] at hbare; cases hbare
    | loose => rfl
  refine bind (statementCardinality hxy (isSome_of_optionRel hfilter) hlimits) ?_
  intro C₉ c d h₉ hcount
  -- what was shown of each part is carried to the end
  have h₇₉ := h₈.trans h₉
  have h₆₉ := h₇.trans h₇₉
  have h₅₉ := h₆.trans h₆₉
  refine intro fun _ hframe => readFrame (pure ?_)
  show C₉.StatementsMatch μ env.schema _ _
  rw [← hschema]
  exact
    { scope := hframe.scope
      result := h₉.sets x y hxy
      shape := hshape.mono (h₃₈.trans h₉)
      filter := optionRel_imp (fun _ _ h => h.mono (h₅.trans h₅₉)) hfilter
      groupBy := hgroupBy.imp fun _ _ h => h.mono h₅₉
      orderBy := horderBy.imp fun _ _ h => h.mono h₆₉
      offset := optionRel_imp (fun _ _ h => h.1.mono h₇₉) hoffset
      limit := optionRel_imp (fun _ _ h => Or.inl (h.1.mono h₉)) hlimit
      count := hcount
      span := hspan }

-- ========================================================== the syntax

mutual

theorem expr : (e : Expr) → ConcursExpr κ μ e
  | .constant _ _ => constantExpr
  | .emptySet _ => emptySetExpr
  | .path _ => pathExpr
  | .binary l _ r _ => binaryExpr (expr l) (expr r)
  | .unary _ operand _ => unaryExpr (expr operand)
  | .call _ args _ => callExpr (arguments args)
  | .cast _ operand _ => castExpr (expr operand)
  | .set elements _ => setExpr (exprs elements)
  | .select query => selectExpr (select query)
  | .paren inner _ => parenExpr (expr inner)
termination_by structural e => e

theorem exprs : (es : List Expr) → ConcursExprs κ μ es
  | [] => exprsNil
  | e :: es => exprsCons (expr e) (exprs es)
termination_by structural es => es

theorem arguments : (args : List Expr) → ConcursArguments κ μ args
  | [] => argumentsNil
  | arg :: args => argumentsCons (expr arg) (arguments args)
termination_by structural args => args

theorem filterClause : (f : Option Expr) → ConcursFilter κ μ f
  | none => filterNone
  | some e => filterSome (expr e)
termination_by structural f => f

theorem boundClause : (n : Option Expr) → ConcursBound κ μ n
  | none => boundNone
  | some e => boundSome (expr e)
termination_by structural n => n

theorem groupKeys : (keys : List Expr) → ConcursGroups κ μ keys
  | [] => groupNil
  | e :: es => groupCons (expr e) (groupKeys es)
termination_by structural keys => keys

theorem sortKeys : (keys : List Ast.SortKey) → ConcursSorts κ μ keys
  | [] => sortNil
  | ⟨e, _, _, _⟩ :: keys => sortCons (expr e) (sortKeys keys)
termination_by structural keys => keys

theorem shapeElement : (e : ShapeElement) → ConcursElement κ μ e
  | .mk _ (some e) _ _ => computedElement (expr e)
  | .mk _ none elements _ => pointerElement (shapeElements elements)
termination_by structural e => e

theorem shapeElements : (es : List ShapeElement) → ConcursElements κ μ es
  | [] => shapeNil
  | e :: es => shapeCons (shapeElement e) (shapeElements es)
termination_by structural es => es

theorem select : (q : Select) → ConcursSelect κ μ q
  | ⟨_, result, elements, filter, groupBy, orderBy, offset, limit, _⟩ =>
      selectOf (expr result) (shapeElements elements) (filterClause filter)
        (groupKeys groupBy) (sortKeys orderBy) (boundClause offset)
        (boundClause limit)
termination_by structural q => q

end

end Corresponds

end CompileM

end PathQuery
