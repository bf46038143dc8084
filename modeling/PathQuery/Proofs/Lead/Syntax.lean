/-
The syntax, after others and without them.

One lemma for each kind of syntax, by recursion on the syntax: a step on
the right side starts from what an operand before it left, and does as it
does on the left side, where there was no such operand. It is as for two
sides that correspond; but one and the same syntax is compiled on both,
so less is said of it, and what a shape or a key leads to is not said at
all. A statement is told by its result and its cardinality.
-/
import PathQuery.Proofs.Lead.Operands

namespace PathQuery

open Ast (Expr Select ShapeElement)
open Ir

variable {κ : Type} [DecidableEq κ] [PathKey κ] [NameDigest]

namespace CompileM.Tracks

open Corresponds (AgreeSomewhere)

variable {S : Lead κ} {span : Span}

-- ========================================================= expressions

/-- An expression gives values that echo. -/
abbrev FollowsExpr (S : Lead κ) (e : Expr) : Prop := FollowsOperand S (CompileM.expr e)

theorem constantExpr {value : Literal} : FollowsExpr S (.constant value span) :=
  fun _ _ _ => pure (.pending (.of_plain rfl rfl rfl) rfl)

theorem emptySetExpr : FollowsExpr S (.emptySet span) :=
  fun _ _ _ => pure (.pending (.of_plain rfl rfl rfl) rfl)

/-- A path is no literal, unless it is the subject. -/
theorem pathExpr {p : Ast.Path} : FollowsExpr S (.path p) := by
  intro C env env'
  unfold CompileM.expr
  refine bind path.runs fun C₁ x y _ hxy => intro fun hahead htied => ?_
  obtain ⟨⟨hxy, -⟩, hrun, -⟩ := hxy
  refine pure (.set hxy ?_)
  by_cases hnone : C₁.left.arena.constant? x = none
  · exact hahead.aligned hxy hnone
  · obtain ⟨-, hx, -⟩ := subject_of_path hrun hnone
    have hsubject := htied.framed.subject
    rw [hx] at hsubject
    generalize hy : env'.frame.subject = subject' at hsubject
    cases hsubject with
    | some hxz =>
        obtain rfl := hahead.bare.sets_unique.2 hxy hxz
        exact htied.aligned x y hx hy

theorem binaryExpr {l r : Expr} {op : BinaryOp} (hl : FollowsExpr S l)
    (hr : FollowsExpr S r) : FollowsExpr S (.binary l op r span) := by
  intro C env env'
  unfold CompileM.expr
  refine bind (hl C env env') fun C₁ v w _ hvw => ?_
  refine bind (hr C₁ env env') fun C₂ v' w' h₂ hvw' => ?_
  exact operation (Corresponds.binary (hvw.mono h₂).values hvw'.values fun _ => rfl)
    .binary .binary

theorem unaryExpr {operand : Expr} {op : UnaryOp} (ho : FollowsExpr S operand) :
    FollowsExpr S (.unary op operand span) := by
  intro C env env'
  cases op with
  | not =>
      unfold CompileM.expr
      exact bind (ho C env env') fun _ _ _ _ hvw =>
        operation (Corresponds.logicalNot hvw.values fun _ => rfl) .logicalNot .logicalNot
  | neg =>
      unfold CompileM.expr
      exact bind (ho C env env') fun _ _ _ _ hvw =>
        operation (Corresponds.arithmeticNeg hvw.values fun _ => rfl) .arithmeticNeg
          .arithmeticNeg
  | «exists» =>
      unfold CompileM.expr
      exact existence ho

theorem castExpr {target : Ast.NameRef} {operand : Expr} (ho : FollowsExpr S operand) :
    FollowsExpr S (.cast target operand span) := by
  intro C env env'
  have htarget : Tracks S C env env' (CompileM.castTarget target)
      (CompileM.castTarget target) fun _ t u => t = u :=
    lift (Corresponds.castTarget ⟨rfl, fun _ => rfl⟩) fun _ _ _ _ _ _ _ h => h
  unfold CompileM.expr
  refine bind htarget fun C₁ t u _ heq => ?_
  subst heq
  exact bind (ho C₁ env env') fun _ _ _ _ hvw =>
    operation (Corresponds.cast hvw.values fun _ => rfl) .cast .cast

theorem parenExpr {inner : Expr} (hi : FollowsExpr S inner) :
    FollowsExpr S (.paren inner span) :=
  hi

/-- The expressions of a list give values that echo. -/
abbrev FollowsExprs (S : Lead κ) (es : List Expr) : Prop :=
  Follows S (fun C _ _ => EchoesAll C) (CompileM.exprs es)

theorem exprsNil : FollowsExprs S [] := fun _ _ _ => pure .nil

theorem exprsCons {e : Expr} {es : List Expr} (he : FollowsExpr S e)
    (hes : FollowsExprs S es) : FollowsExprs S (e :: es) := by
  intro C env env'
  unfold CompileM.exprs
  refine bind (he C env env') fun C₁ v w _ hvw => ?_
  refine bind (hes C₁ env env') fun C₂ vs ws h₂ hvws => ?_
  exact pure (.cons (hvw.mono h₂) hvws)

theorem setExpr {es : List Expr} (hes : FollowsExprs S es) :
    FollowsExpr S (.set es span) := by
  intro C env env'
  unfold CompileM.expr
  exact bind (hes C env env') fun _ _ _ _ hvws => setOf hvws

/-- Arguments agree one by one, and the cardinality of the call with them
is one. -/
def AgreeCountedAll (C : Correspondence κ) (r r' : List SetId × Cardinality) : Prop :=
  List.Forall₂ (AgreeSomewhere .plain C.bare) r.1 r'.1 ∧ r.2 = r'.2

/-- Arguments agree, whatever they are passed to. -/
def FollowsArguments (S : Lead κ) (args : List Expr) : Prop :=
  ∀ (function : QualifiedName) (position : Nat) (params : List Parameter)
    (c : Cardinality), Follows S (fun C _ _ => AgreeCountedAll C)
      (CompileM.arguments function position params c args)

theorem argumentsNil : FollowsArguments S [] := by
  intro function position params c C env env'
  cases params with
  | nil => exact pure ⟨.nil, rfl⟩
  | cons param params => exact pure ⟨.nil, rfl⟩

theorem argumentsCons {arg : Expr} {args : List Expr} (ha : FollowsExpr S arg)
    (hargs : FollowsArguments S args) : FollowsArguments S (arg :: args) := by
  intro function position params c C env env'
  cases params with
  | nil => exact pure ⟨.nil, rfl⟩
  | cons param params =>
      have hgrows : ∀ r : SetId × Cardinality, Growing (do
          let rs ← CompileM.arguments function (position + 1) params r.2 args
          return (r.1 :: rs.1, rs.2) : CompileM κ _) :=
        fun _ => .of_bind inferInstance fun _ => inferInstance
      unfold CompileM.arguments
      refine bind_growing hgrows hgrows (argument ha) fun C₁ r r' _ hr => ?_
      obtain ⟨id, cardinality⟩ := r
      obtain ⟨id', _⟩ := r'
      obtain ⟨hid, rfl⟩ := hr
      refine bind (hargs function (position + 1) params cardinality C₁ env env') ?_
      intro C₂ rs rs' h₂ hrs
      exact pure ⟨.cons (hid.mono h₂.bare) hrs.1, hrs.2⟩

theorem callExpr {function : Ast.NameRef} {args : List Expr}
    (hargs : FollowsArguments S args) : FollowsExpr S (.call function args span) := by
  intro C env env'
  have hcallee : Tracks S C env env' (CompileM.callee function args.length span)
      (CompileM.callee function args.length span) fun _ r r' => r = r' :=
    lift (Corresponds.callee ⟨rfl, fun _ => rfl⟩) fun _ _ _ _ _ _ _ h => h
  have hgrows : ∀ r : QualifiedName × Signature, Growing (do
      let rs ← CompileM.arguments r.1 0 r.2.params r.2.cardinality args
      CompileM.call r.1 r.2 rs.1 rs.2 span : CompileM κ _) :=
    fun r => .of_bind inferInstance fun a =>
      inferInstanceAs (Growing (CompileM.call r.1 r.2 a.1 a.2 span))
  unfold CompileM.expr
  refine bind_growing hgrows hgrows hcallee fun C₁ r _ _ heq => ?_
  subst heq
  refine bind_growing
    (fun a => inferInstanceAs (Growing (CompileM.call r.1 r.2 a.1 a.2 span)))
    (fun a => inferInstanceAs (Growing (CompileM.call r.1 r.2 a.1 a.2 span)))
    (hargs r.1 0 r.2.params r.2.cardinality C₁ env env') fun C₂ rs rs' _ hrs => ?_
  refine operation ?_ .call .call
  exact Corresponds.call hrs.1 (hrs.2 ▸ .refl _ _) fun _ => rfl

-- ============================================================= clauses

/-- A condition is there on both sides, or on neither. -/
abbrev FollowsFilter (S : Lead κ) (f : Option Expr) : Prop :=
  Follows S (fun _ _ _ x y => x.isSome = y.isSome) (CompileM.filterClause f)

/-- A number to skip or to keep agrees, and stands for one literal or for
none. -/
abbrev FollowsBound (S : Lead κ) (n : Option Expr) : Prop :=
  Follows S (fun C _ _ => Option.Rel fun x y => AgreeSomewhere .plain C.bare x y
    ∧ C.SameConstant x y) (CompileM.boundClause n)

/-- The step is done on both sides, or fails on both. -/
abbrev FollowsStep {α : Type} (S : Lead κ) (m : CompileM κ α) : Prop :=
  Follows S (fun _ _ _ _ _ => True) m

theorem filterNone : FollowsFilter S none := fun _ _ _ => pure rfl

theorem filterSome {e : Expr} (he : FollowsExpr S e) : FollowsFilter S (some e) := by
  intro C env env'
  unfold CompileM.filterClause
  exact bind (filterBy he) fun _ _ _ _ _ => pure rfl

theorem boundNone : FollowsBound S none := fun _ _ _ => pure .none

theorem boundSome {e : Expr} (he : FollowsExpr S e) : FollowsBound S (some e) := by
  intro C env env'
  unfold CompileM.boundClause
  exact bind (bound he) fun _ _ _ _ hxy => pure (.some hxy)

theorem groupNil : FollowsStep S (CompileM.groupKeys []) := fun _ _ _ => pure trivial

theorem groupCons {e : Expr} {es : List Expr} (he : FollowsExpr S e)
    (hes : FollowsStep S (CompileM.groupKeys es)) :
    FollowsStep S (CompileM.groupKeys (e :: es)) := by
  intro C env env'
  unfold CompileM.groupKeys
  exact bind (key he) fun C₁ _ _ _ _ => bind (hes C₁ env env') fun _ _ _ _ _ =>
    pure trivial

theorem sortNil : FollowsStep S (CompileM.sortKeys []) := fun _ _ _ => pure trivial

theorem sortCons {e : Expr} {direction : SortDirection} {empties : Option EmptyOrder}
    {keys : List Ast.SortKey} (he : FollowsExpr S e)
    (hkeys : FollowsStep S (CompileM.sortKeys keys)) :
    FollowsStep S (CompileM.sortKeys (⟨e, direction, empties, span⟩ :: keys)) := by
  intro C env env'
  unfold CompileM.sortKeys
  exact bind (key he) fun C₁ _ _ _ _ => bind (hkeys C₁ env env') fun _ _ _ _ _ =>
    pure trivial

-- ============================================================== shapes

/-- The step of a set, below the node of the lead. -/
def FollowsBelow {α : Type} (S : Lead κ) (m : SetId → CompileM κ α) : Prop :=
  ∀ (C : Correspondence κ) (env env' : Env) (x y : SetId),
    S.store.scopes.size ≤ env'.frame.scope → C.sets x y →
      Tracks S C env env' (m x) (m y) fun _ _ _ => True

theorem computedElement {name : String} {e : Expr} {elements : List ShapeElement}
    (he : FollowsExpr S e) :
    FollowsBelow S (CompileM.shapeElement · (.mk name (some e) elements span)) := by
  intro C env env' x y _ _
  unfold CompileM.shapeElement
  exact bind (he C env env') fun _ _ _ _ hvw => bind (attach hvw) fun _ _ _ _ _ =>
    pure trivial

theorem pointerElement {name : String} {elements : List ShapeElement}
    (helements : FollowsBelow S (CompileM.shapeElements · [] elements)) :
    FollowsBelow S (CompileM.shapeElement · (.mk name none elements span)) := by
  intro C env env' x y hbelow hxy
  have hmet : Met S env' C x y := ⟨hxy, fun h => absurd h (Lead.ne_node hbelow)⟩
  unfold CompileM.shapeElement
  refine bind (extendPath hmet).runs fun C₁ z w _ hzw => intro fun hahead _ => ?_
  obtain ⟨⟨hzw, -⟩, hrun, -⟩ := hzw
  have haligned := hahead.aligned hzw (constant?_of_extendPath hrun)
  refine bind (withShape hbelow hzw haligned fun C₂ env₁ env₁' => ?_)
    fun _ _ _ _ _ => pure trivial
  exact helements C₂ env₁ env₁' z w

theorem shapeNil {taken : List String} :
    FollowsBelow S (CompileM.shapeElements · taken []) :=
  fun _ _ _ _ _ _ _ => pure trivial

theorem shapeCons {e : ShapeElement} {es : List ShapeElement}
    (he : FollowsBelow S (CompileM.shapeElement · e))
    (hes : ∀ taken, FollowsBelow S (CompileM.shapeElements · taken es))
    (taken : List String) : FollowsBelow S (CompileM.shapeElements · taken (e :: es)) := by
  intro C env env' x y hbelow hxy
  have hnode : Tracks S C env env' (CompileM.inScope (CompileM.shapeElement x e))
      (CompileM.inScope (CompileM.shapeElement y e)) fun _ _ _ => True :=
    inScope (fun _ hsize => he _ _ _ x y hsize hxy) fun _ _ _ _ _ _ => trivial
  unfold CompileM.shapeElements
  refine require fun _ => bind hnode fun C₁ _ _ h₁ _ => ?_
  refine bind (hes _ C₁ env env' x y hbelow (h₁.sets x y hxy)) fun _ _ _ _ _ => ?_
  exact pure trivial

-- ========================================================== statements

/-- A statement has one result and one cardinality. -/
abbrev FollowsSelect (S : Lead κ) (q : Select) : Prop :=
  Follows S (fun C _ _ => SameStatement C) (CompileM.select q)

theorem selectExpr {q : Select} (hq : FollowsSelect S q) : FollowsExpr S (.select q) := by
  intro C env env'
  unfold CompileM.expr
  exact bind (hq C env env') fun _ _ _ _ hstmt => subquery hstmt

/-- A statement from its parts. -/
theorem selectOf {modules : List Ast.ModuleDecl} {result : Expr}
    {elements : List ShapeElement} {filter offset limit : Option Expr}
    {groupBy : List Expr} {orderBy : List Ast.SortKey} (hresult : FollowsExpr S result)
    (helements : ∀ taken, FollowsBelow S (CompileM.shapeElements · taken elements))
    (hfilter : FollowsFilter S filter)
    (hgroupBy : FollowsStep S (CompileM.groupKeys groupBy))
    (horderBy : FollowsStep S (CompileM.sortKeys orderBy))
    (hoffset : FollowsBound S offset) (hlimit : FollowsBound S limit) :
    FollowsSelect S ⟨modules, result, elements, filter, groupBy, orderBy, offset, limit,
      span⟩ := by
  intro C env env'
  unfold CompileM.select
  refine inScope (fun _ hbelow => inClause (withModules fun env₁ env₁' hscope => ?_))
    fun _ _ _ _ _ h => h
  have hbelow : S.store.scopes.size ≤ env₁'.frame.scope := by
    rw [hscope]
    exact hbelow
  refine bind (hresult _ env₁ env₁') fun C₁ v w _ hvw => ?_
  refine bind (attach hvw) fun C₂ x y _ hxy => ?_
  -- from here on, partial paths start from the results
  refine underSubject hbelow hxy.1 hxy.2 ?_
  refine bind (withShape hbelow hxy.1 hxy.2 fun C₃ env₂ env₂' =>
    helements [] C₃ env₂ env₂' x y) fun C₃ _ _ h₃ _ => ?_
  refine bind (hfilter C₃ _ _) fun C₄ filter filter' h₄ hfilter => ?_
  refine bind (inClause (hgroupBy C₄ _ _)) fun C₅ _ _ h₅ _ => ?_
  refine bind (inClause (horderBy C₅ _ _)) fun C₆ _ _ h₆ _ => ?_
  refine bind (inClause (hoffset C₆ _ _)) fun C₇ _ _ h₇ _ => ?_
  refine bind (inClause (hlimit C₇ _ _)) fun C₈ limit limit' h₈ hlimit => ?_
  have h₂₈ := h₃.trans (h₄.trans (h₅.trans (h₆.trans (h₇.trans h₈))))
  have hxy := h₂₈.sets x y hxy.1
  refine bind (statementCardinality hxy hfilter hlimit) fun C₉ c d h₉ hcount => ?_
  exact read run_frame run_frame (pure ⟨h₉.sets x y hxy, hcount⟩)

-- ========================================================== the syntax

mutual

theorem expr (S : Lead κ) : (e : Expr) → FollowsExpr S e
  | .constant _ _ => constantExpr
  | .emptySet _ => emptySetExpr
  | .path _ => pathExpr
  | .binary l _ r _ => binaryExpr (expr S l) (expr S r)
  | .unary _ operand _ => unaryExpr (expr S operand)
  | .call _ args _ => callExpr (arguments S args)
  | .cast _ operand _ => castExpr (expr S operand)
  | .set elements _ => setExpr (exprs S elements)
  | .select query => selectExpr (select S query)
  | .paren inner _ => parenExpr (expr S inner)
termination_by structural e => e

theorem exprs (S : Lead κ) : (es : List Expr) → FollowsExprs S es
  | [] => exprsNil
  | e :: es => exprsCons (expr S e) (exprs S es)
termination_by structural es => es

theorem arguments (S : Lead κ) : (args : List Expr) → FollowsArguments S args
  | [] => argumentsNil
  | arg :: args => argumentsCons (expr S arg) (arguments S args)
termination_by structural args => args

theorem filterClause (S : Lead κ) : (f : Option Expr) → FollowsFilter S f
  | none => filterNone
  | some e => filterSome (expr S e)
termination_by structural f => f

theorem boundClause (S : Lead κ) : (n : Option Expr) → FollowsBound S n
  | none => boundNone
  | some e => boundSome (expr S e)
termination_by structural n => n

theorem groupKeys (S : Lead κ) : (keys : List Expr) →
    FollowsStep S (CompileM.groupKeys keys)
  | [] => groupNil
  | e :: es => groupCons (expr S e) (groupKeys S es)
termination_by structural keys => keys

theorem sortKeys (S : Lead κ) : (keys : List Ast.SortKey) →
    FollowsStep S (CompileM.sortKeys keys)
  | [] => sortNil
  | ⟨e, _, _, _⟩ :: keys => sortCons (expr S e) (sortKeys S keys)
termination_by structural keys => keys

theorem shapeElement (S : Lead κ) : (e : ShapeElement) →
    FollowsBelow S (CompileM.shapeElement · e)
  | .mk _ (some e) _ _ => computedElement (expr S e)
  | .mk _ none elements _ => pointerElement (shapeElements S elements [])
termination_by structural e => e

theorem shapeElements (S : Lead κ) : (es : List ShapeElement) → (taken : List String) →
    FollowsBelow S (CompileM.shapeElements · taken es)
  | [], _ => shapeNil
  | e :: es, taken => shapeCons (shapeElement S e) (shapeElements S es) taken
termination_by structural es => es

theorem select (S : Lead κ) : (q : Select) → FollowsSelect S q
  | ⟨_, result, elements, filter, groupBy, orderBy, offset, limit, _⟩ =>
      selectOf (expr S result) (shapeElements S elements) (filterClause S filter)
        (groupKeys S groupBy) (sortKeys S orderBy) (boundClause S offset)
        (boundClause S limit)
termination_by structural q => q

end

end CompileM.Tracks

end PathQuery
