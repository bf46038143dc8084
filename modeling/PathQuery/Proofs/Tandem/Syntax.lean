/-
The syntax on the two sides.

One lemma for each kind of syntax, by recursion on the syntax, as
everything that compiles was shown to uphold the invariant. What the
parts combine to is in Tandem.Operands, Tandem.Statements and
Tandem.Paths; here the parts are followed in order, and what was shown of
earlier parts is carried past the later ones. After each part the tandem
is ready for the next, since both sides uphold what they do (`ready`).

Of a part of a statement it is said that it agrees with itself: what it
is on the one side agrees with what it is on the other.
-/
import PathQuery.Proofs.Tandem.Paths

namespace PathQuery

open Ir
open Ast (Expr Select ShapeElement)

variable {κ κ' : Type} [DecidableEq κ] [PathKey κ] [DecidableEq κ'] [PathKey κ']
  [NameDigest]

omit [DecidableEq κ] [PathKey κ] [NameDigest] in
/-- What is seen from a node is seen from a new node below it. -/
theorem Store.Holds.opened {R : Regime} {st : Store κ} {scope id : Nat}
    {t : TypeId} (h : st.Holds R scope id t) (hr : st.scopes.Rooted)
    (hs : scope < st.scopes.size) :
    (st.opened scope).Holds R st.scopes.size id t :=
  (h.mono (.opened hr hs)).below (hr.attach hs) (hr.mem_ancestors_attach hs)

namespace CompileM.Follows

variable {T : Tandem κ κ'} {env : Env} {subject : Option SetId} {x y : SetId}
  {span : Span}

-- =============================================================== ready

/-- What both sides uphold leaves the tandem ready for the next step. -/
theorem ready {α α' : Type}
    {post : Tandem κ κ' → ScopeId → α → α' → Prop} {m : CompileM κ α}
    {m' : CompileM κ' α'} {left : Env → Store κ → α → Prop}
    {right : Env → Store κ' → α' → Prop} (hm : RetracesTo post m m')
    (hl : ∀ env st, Upholds (.tracking True) env st m (left env))
    (hl' : ∀ env st, Upholds (.tracking True) env st m' (right env))
    (hr : T.Ready env subject) :
    Follows T env subject m m' fun T' a b =>
      post T' env.frame.scope a b ∧ T'.Ready env subject :=
  (upheld hr (hl env T.left) (hl' (env.onSubject subject) T.right)
    (hm T env subject hr)).imp fun _ _ _ _ h => ⟨h.1, h.2.1⟩

/-- The same in a part of the statement. -/
theorem ready_inClause {α α' : Type} {clause : Clause}
    {post : Tandem κ κ' → ScopeId → α → α' → Prop} {m : CompileM κ α}
    {m' : CompileM κ' α'} {left : Env → Store κ → α → Prop}
    {right : Env → Store κ' → α' → Prop} (hm : RetracesTo post m m')
    (hl : ∀ env st, Upholds (.tracking True) env st m (left env))
    (hl' : ∀ env st, Upholds (.tracking True) env st m' (right env))
    (hr : T.Ready env subject) :
    Follows T env subject (CompileM.inClause clause m)
      (CompileM.inClause clause m') fun T' a b =>
        post T' env.frame.scope a b ∧ T'.Ready env subject := by
  refine (inClause (ready hm hl hl' (hr.inClause clause))).imp ?_
  intro T' a b _ h
  exact ⟨h.1, h.2.congr rfl rfl rfl⟩

-- ========================================================= expressions

/-- An expression gives values that are alike. -/
abbrev RetracesExpr (κ κ' : Type) [DecidableEq κ] [PathKey κ] [DecidableEq κ']
    [PathKey κ'] (e : Expr) : Prop :=
  Retraces (CompileM.expr (κ := κ) e) (CompileM.expr (κ := κ') e)

theorem ready_expr {e : Expr} (he : RetracesExpr κ κ' e)
    (hr : T.Ready env subject) :
    Follows T env subject (CompileM.expr e) (CompileM.expr e) fun T' v w =>
      T'.Values v w ∧ T'.Ready env subject :=
  ready he (Upholds.expr e) (Upholds.expr e) hr

theorem binaryExpr {l r : Expr} {op : BinaryOp} (hl : RetracesExpr κ κ' l)
    (hr : RetracesExpr κ κ' r) : RetracesExpr κ κ' (.binary l op r span) := by
  intro T env subject hready
  unfold CompileM.expr
  refine bind (ready_expr hl hready) ?_
  intro T₁ v w _ h
  obtain ⟨hvw, hready₁⟩ := h
  refine bind (hr T₁ env subject hready₁) ?_
  intro T₂ v' w' h₂ hvw'
  exact binary (hvw.mono h₂) hvw' (hready₁.active h₂)

theorem unaryExpr {operand : Expr} {op : UnaryOp}
    (ho : RetracesExpr κ κ' operand) :
    RetracesExpr κ κ' (.unary op operand span) := by
  intro T env subject hready
  cases op with
  | not =>
      unfold CompileM.expr
      refine bind (ho T env subject hready) ?_
      intro T₁ v w h₁ hvw
      exact logicalNot hvw (hready.active h₁)
  | neg =>
      unfold CompileM.expr
      refine bind (ho T env subject hready) ?_
      intro T₁ v w h₁ hvw
      exact arithmeticNeg hvw (hready.active h₁)
  | «exists» =>
      unfold CompileM.expr
      exact existence ho hready

theorem pathExpr {p : Ast.Path} (hκ : Distinct κ') :
    RetracesExpr κ κ' (.path p) := by
  intro T env subject hready
  unfold CompileM.expr
  refine bind (path hκ hready) ?_
  intro T₁ x y _ hxy
  exact pure (.set hxy)

theorem castExpr {target : Ast.NameRef} {operand : Expr}
    (ho : RetracesExpr κ κ' operand) :
    RetracesExpr κ κ' (.cast target operand span) := by
  intro T env subject hready
  unfold CompileM.expr
  refine bind (upheld hready Upholds.castTarget Upholds.castTarget castTarget) ?_
  intro T₁ t u _ h
  obtain ⟨rfl, hready₁, -, -⟩ := h
  refine bind (ho T₁ env subject hready₁) ?_
  intro T₂ v w h₂ hvw
  exact cast hvw (hready₁.active h₂)

/-- Some expressions give values that are alike. -/
abbrev RetracesExprs (κ κ' : Type) [DecidableEq κ] [PathKey κ] [DecidableEq κ']
    [PathKey κ'] (es : List Expr) : Prop :=
  RetracesTo (fun T _ => ValuesAll T) (CompileM.exprs (κ := κ) es)
    (CompileM.exprs (κ := κ') es)

theorem exprsCons {e : Expr} {es : List Expr} (he : RetracesExpr κ κ' e)
    (hes : RetracesExprs κ κ' es) : RetracesExprs κ κ' (e :: es) := by
  intro T env subject hready
  unfold CompileM.exprs
  refine bind (ready_expr he hready) ?_
  intro T₁ v w _ h
  obtain ⟨hvw, hready₁⟩ := h
  refine bind (hes T₁ env subject hready₁) ?_
  intro T₂ vs ws h₂ hvws
  exact pure (.cons ⟨hvw.mono h₂, rfl⟩ hvws)

theorem setExpr {es : List Expr} (hes : RetracesExprs κ κ' es) :
    RetracesExpr κ κ' (.set es span) := by
  intro T env subject hready
  unfold CompileM.expr
  refine bind (hes T env subject hready) ?_
  intro T₁ vs ws h₁ hvws
  exact setOf hvws (hready.active h₁)

/-- Arguments agree one by one, and so does the cardinality of the call
with them. -/
def AgreeCountedAll (T : Tandem κ κ') (r r' : List SetId × Cardinality) : Prop :=
  List.Forall₂ (AgreeSomewhere T) r.1 r'.1 ∧ r'.2 ≤ r.2
    ∧ (T.left.arena.Faithful → r.2 = r'.2)

/-- The arguments of a call are alike, whatever they are passed to. -/
def RetracesArguments (κ κ' : Type) [DecidableEq κ] [PathKey κ] [DecidableEq κ']
    [PathKey κ'] (args : List Expr) : Prop :=
  ∀ (function : QualifiedName) (position : Nat) (params : List Parameter)
    (c d : Cardinality) (T : Tandem κ κ') (env : Env) (subject : Option SetId),
    T.Ready env subject → d ≤ c → (T.left.arena.Faithful → c = d) →
      Follows T env subject
        (CompileM.arguments function position params c args)
        (CompileM.arguments function position params d args) AgreeCountedAll

theorem argumentsNil : RetracesArguments κ κ' [] := by
  intro function position params c d T env subject _ hle hc
  cases params with
  | nil => exact pure ⟨.nil, hle, hc⟩
  | cons param params => exact pure ⟨.nil, hle, hc⟩

theorem argumentsCons {arg : Expr} {args : List Expr}
    (ha : RetracesExpr κ κ' arg) (hargs : RetracesArguments κ κ' args) :
    RetracesArguments κ κ' (arg :: args) := by
  intro function position params c d T env subject hready hle hc
  cases params with
  | nil => exact pure ⟨.nil, hle, hc⟩
  | cons param params =>
      unfold CompileM.arguments
      refine bind (upheld hready (Upholds.argument (Upholds.expr arg))
        (Upholds.argument (Upholds.expr arg)) (argument ha hready hle hc)) ?_
      intro T₁ r r' _ h
      obtain ⟨⟨hxy, hle₁, hc₁⟩, hready₁, -, -⟩ := h
      refine bind (hargs function (position + 1) params r.2 r'.2 T₁ env subject
        hready₁ hle₁ hc₁) ?_
      intro T₂ rs rs' h₂ h
      obtain ⟨hxys, hle₂, hc₂⟩ := h
      exact pure ⟨.cons (AgreeSomewhere.mono h₂ hxy) hxys, hle₂, hc₂⟩

theorem callExpr {function : Ast.NameRef} {args : List Expr}
    (hargs : RetracesArguments κ κ' args) :
    RetracesExpr κ κ' (.call function args span) := by
  intro T env subject hready
  unfold CompileM.expr
  refine bind (upheld hready Upholds.callee Upholds.callee callee) ?_
  intro T₁ r _ _ h
  obtain ⟨rfl, hready₁, -, -⟩ := h
  refine bind (hargs r.1 0 r.2.params r.2.cardinality r.2.cardinality T₁ env
    subject hready₁ (le_refl _) fun _ => rfl) ?_
  intro T₂ rs rs' _ h
  obtain ⟨hxys, hle, hc⟩ := h
  exact call hxys hle hc

-- ============================================================= clauses

/-- A condition agrees with itself. -/
abbrev RetracesFilter (κ κ' : Type) [DecidableEq κ] [PathKey κ] [DecidableEq κ']
    [PathKey κ'] (f : Option Expr) : Prop :=
  RetracesTo (fun T scope => Option.Rel (T.AgreeBelow scope))
    (CompileM.filterClause (κ := κ) f) (CompileM.filterClause (κ := κ') f)

/-- A number to skip or to keep agrees with itself. -/
abbrev RetracesBound (κ κ' : Type) [DecidableEq κ] [PathKey κ] [DecidableEq κ']
    [PathKey κ'] (n : Option Expr) : Prop :=
  RetracesTo (fun T scope => Option.Rel (T.AgreeBelow scope))
    (CompileM.boundClause (κ := κ) n) (CompileM.boundClause (κ := κ') n)

theorem filterSome {e : Expr} (he : RetracesExpr κ κ' e) :
    RetracesFilter κ κ' (some e) := by
  intro T env subject hready
  unfold CompileM.filterClause
  refine bind (filterBy he hready) ?_
  intro T₁ x y _ hxy
  exact pure (.some hxy)

theorem boundSome {e : Expr} (he : RetracesExpr κ κ' e) :
    RetracesBound κ κ' (some e) := by
  intro T env subject hready
  unfold CompileM.boundClause
  refine bind (bound he hready) ?_
  intro T₁ x y _ hxy
  exact pure (.some hxy)

/-- The keys to group by agree one by one. -/
abbrev RetracesGroups (κ κ' : Type) [DecidableEq κ] [PathKey κ] [DecidableEq κ']
    [PathKey κ'] (keys : List Expr) : Prop :=
  RetracesTo (fun T scope => List.Forall₂ (T.AgreeBelow scope))
    (CompileM.groupKeys (κ := κ) keys) (CompileM.groupKeys (κ := κ') keys)

theorem groupCons {e : Expr} {es : List Expr} (he : RetracesExpr κ κ' e)
    (hes : RetracesGroups κ κ' es) : RetracesGroups κ κ' (e :: es) := by
  intro T env subject hready
  unfold CompileM.groupKeys
  refine bind (upheld hready (Upholds.key (Upholds.expr e))
    (Upholds.key (Upholds.expr e)) (key he hready)) ?_
  intro T₁ x y _ h
  obtain ⟨hxy, hready₁, -, -⟩ := h
  refine bind (hes T₁ env subject hready₁) ?_
  intro T₂ xs ys h₂ hxys
  exact pure (.cons (hxy.mono h₂) hxys)

/-- The keys to sort by agree one by one. -/
abbrev RetracesSorts (κ κ' : Type) [DecidableEq κ] [PathKey κ] [DecidableEq κ']
    [PathKey κ'] (keys : List Ast.SortKey) : Prop :=
  RetracesTo (fun T scope => List.Forall₂ (T.KeysAgree scope))
    (CompileM.sortKeys (κ := κ) keys) (CompileM.sortKeys (κ := κ') keys)

theorem sortCons {e : Expr} {direction : SortDirection}
    {empties : Option EmptyOrder} {keys : List Ast.SortKey}
    (he : RetracesExpr κ κ' e) (hkeys : RetracesSorts κ κ' keys) :
    RetracesSorts κ κ' (⟨e, direction, empties, span⟩ :: keys) := by
  intro T env subject hready
  unfold CompileM.sortKeys
  refine bind (upheld hready (Upholds.key (Upholds.expr e))
    (Upholds.key (Upholds.expr e)) (key he hready)) ?_
  intro T₁ x y _ h
  obtain ⟨hxy, hready₁, -, -⟩ := h
  refine bind (hkeys T₁ env subject hready₁) ?_
  intro T₂ ks ks' h₂ hks
  exact pure (.cons ⟨hxy.mono h₂, rfl, rfl, rfl⟩ hks)

-- ============================================================== shapes

/-- Two elements of a shape have one name, sets that agree, and shapes of
which the same is true. -/
structure ElementsAgree (T : Tandem κ κ') (scope : ScopeId)
    (node node' : ShapeNode) : Prop where
  name : node.name = node'.name
  computed : node.computed = node'.computed
  set : T.Agree scope node.set node'.set
  elements : T.ShapesAgree scope node.elements node'.elements

/-- A step on two sets that are mates and are seen gives what `post`
relates. -/
def RetracesOn {α α' : Type} (post : Tandem κ κ' → ScopeId → α → α' → Prop)
    (m : SetId → CompileM κ α) (m' : SetId → CompileM κ' α') : Prop :=
  ∀ (T : Tandem κ κ') (env : Env) (subject : Option SetId) (x y : SetId)
    (t u : TypeId), T.Ready env subject → T.mates x y →
      T.left.Holds (.tracking True) env.frame.scope x t →
      T.right.Holds (.tracking True) env.frame.scope y u →
      Follows T env subject (m x) (m' y) fun T' a b => post T' env.frame.scope a b

/-- An element of a shape of mates agrees with itself. -/
abbrev RetracesElement (κ κ' : Type) [DecidableEq κ] [PathKey κ] [DecidableEq κ']
    [PathKey κ'] (e : ShapeElement) : Prop :=
  RetracesOn (fun (T : Tandem κ κ') => ElementsAgree T)
    (CompileM.shapeElement (κ := κ) · e) (CompileM.shapeElement (κ := κ') · e)

/-- The elements of a shape of mates agree one by one. -/
def RetracesElements (κ κ' : Type) [DecidableEq κ] [PathKey κ] [DecidableEq κ']
    [PathKey κ'] (es : List ShapeElement) : Prop :=
  ∀ taken, RetracesOn (fun (T : Tandem κ κ') => T.ShapesAgree)
    (CompileM.shapeElements (κ := κ) · taken es)
    (CompileM.shapeElements (κ := κ') · taken es)

theorem computedElement {name : String} {e : Expr} {elements : List ShapeElement}
    (he : RetracesExpr κ κ' e) :
    RetracesElement κ κ' (.mk name (some e) elements span) := by
  intro T env subject x y t u hready _ _ _
  unfold CompileM.shapeElement
  refine bind (he T env subject hready) ?_
  intro T₁ v w h₁ hvw
  refine bind (attach hvw (hready.active h₁)) ?_
  intro T₂ z z' _ h
  exact pure ⟨rfl, rfl, h.1, .nil, fun _ => rfl⟩

theorem pointerElement {name : String} {elements : List ShapeElement}
    (hκ : Distinct κ') (helements : RetracesElements κ κ' elements) :
    RetracesElement κ κ' (.mk name none elements span) := by
  intro T env subject x y t u hready hxy hx hy
  unfold CompileM.shapeElement
  refine bind (upheld hready (Upholds.extendPath hx) (Upholds.extendPath hy)
    (extendPath hκ hready hxy hx hy)) ?_
  intro T₁ z w _ h
  obtain ⟨hzw, hready₁, ⟨p, -, -, hz, -⟩, ⟨p', -, -, hw, -⟩⟩ := h
  have hw : T₁.right.Holds (.tracking True) env.frame.scope w p'.target := hw
  refine bind (withShape hready₁ hzw hz hw fun env' hscope hready' => ?_) ?_
  · rw [← hscope] at hz hw ⊢
    exact helements [] T₁ env' (some w) z w _ _ hready' hzw hz hw
  · intro T₂ nodes nodes' h₂ hnodes
    refine intro fun h => pure ⟨rfl, rfl, h.agree (h₂.mates _ _ hzw) ?_, hnodes⟩
    exact hready₁.active h₂

/-- One element of a shape, in a node of its own. -/
theorem shapeNode {e : ShapeElement} {t u : TypeId}
    (he : RetracesElement κ κ' e) (hr : T.Ready env subject) (hxy : T.mates x y)
    (hx : T.left.Holds (.tracking True) env.frame.scope x t)
    (hy : T.right.Holds (.tracking True) env.frame.scope y u) :
    Follows T env subject (CompileM.inScope (CompileM.shapeElement x e))
      (CompileM.inScope (CompileM.shapeElement y e)) fun T' node node' =>
        T'.ShapesAgree env.frame.scope [node] [node'] := by
  refine intro fun h => ?_
  refine inScope hr.left.active
    (fun T' node node' => ElementsAgree T' T.left.scopes.size node node')
    (fun _ => ?_) fun T' node node' _ hp hp' hnode => ?_
  · have hy' := hy.opened h.rooted' hr.right.active
    rw [h.size_eq] at hy'
    exact he _ _ _ x y t u (hr.opened h) hxy (hx.opened h.rooted hr.left.active)
      hy'
  · obtain ⟨name, set, computed, elements⟩ := node
    obtain ⟨name', set', computed', elements'⟩ := node'
    obtain ⟨hname, hcomputed, hset, helements⟩ := hnode
    obtain rfl : name = name' := hname
    obtain rfl : computed = computed' := hcomputed
    refine ⟨.cons hp hp' hset.refines helements.refines .nil, fun hf => ?_⟩
    rw [show set = set' from hset.exact hf,
      show elements = elements' from helements.exact hf]

theorem shapeCons {e : ShapeElement} {es : List ShapeElement}
    (he : RetracesElement κ κ' e) (hes : RetracesElements κ κ' es) :
    RetracesElements κ κ' (e :: es) := by
  intro taken T env subject x y t u hready hxy hx hy
  unfold CompileM.shapeElements
  refine require rfl (fun _ => rfl) fun _ => ?_
  refine bind (upheld hready
    (Upholds.shapeNode hx (Upholds.shapeElement e x t))
    (Upholds.shapeNode hy (Upholds.shapeElement e y u))
    (shapeNode he hready hxy hx hy)) ?_
  intro T₁ node node' h₁ h
  obtain ⟨hnode, hready₁, -, -⟩ := h
  refine bind (hes _ T₁ env subject x y t u hready₁ (h₁.mates _ _ hxy)
    (hx.mono h₁.left) (hy.mono h₁.right)) ?_
  intro T₂ nodes nodes' h₂ hnodes
  have hnode := hnode.mono h₂
  refine pure ⟨hnode.refines.append hnodes.refines, fun hf => ?_⟩
  rw [List.singleton_inj.1 (hnode.exact hf), hnodes.exact hf]

-- ========================================================== statements

/-- A statement agrees with itself, part by part. -/
abbrev RetracesSelect (κ κ' : Type) [DecidableEq κ] [PathKey κ] [DecidableEq κ']
    [PathKey κ'] (q : Select) : Prop :=
  RetracesTo (fun T _ => T.StatementsAgree) (CompileM.select (κ := κ) q)
    (CompileM.select (κ := κ') q)

theorem selectExpr {q : Select} (hq : RetracesSelect κ κ' q) :
    RetracesExpr κ κ' (.select q) := by
  intro T env subject hready
  unfold CompileM.expr
  refine bind (hq T env subject hready) ?_
  intro T₁ stmt stmt' h₁ hstmt
  exact subquery hstmt (hready.active h₁)

/-- A statement from its parts. -/
theorem selectOf {modules : List Ast.ModuleDecl} {result : Expr}
    {elements : List ShapeElement} {filter offset limit : Option Expr}
    {groupBy : List Expr} {orderBy : List Ast.SortKey}
    (hresult : RetracesExpr κ κ' result)
    (helements : RetracesElements κ κ' elements)
    (hfilter : RetracesFilter κ κ' filter) (hgroupBy : RetracesGroups κ κ' groupBy)
    (horderBy : RetracesSorts κ κ' orderBy) (hoffset : RetracesBound κ κ' offset)
    (hlimit : RetracesBound κ κ' limit) :
    RetracesSelect κ κ' ⟨modules, result, elements, filter, groupBy, orderBy,
      offset, limit, span⟩ := by
  intro T env subject hready
  refine intro fun hmirrored => ?_
  unfold CompileM.select
  refine inScope hready.left.active (fun T' => T'.StatementsAgree)
    (fun _ => inClause (withModules
      ((hready.opened hmirrored).inClause .result) ?_)) fun _ _ _ _ _ _ h => h
  intro env' hscope hready'
  refine bind (upheld hready' (Upholds.expr result env' _)
    (Upholds.expr result (env'.onSubject subject) _)
    (hresult _ env' subject hready')) ?_
  intro T₁ v w _ h
  obtain ⟨hvw, hready₁, ⟨t, hv⟩, ⟨u, hw⟩⟩ := h
  refine bind (upheld hready₁ (Upholds.attach hv fun h heq => by cases heq)
    (Upholds.attach hw fun h heq => by cases heq)
    (attach hvw hready₁.left.active)) ?_
  intro T₂ x y _ h
  obtain ⟨⟨-, hmates⟩, hready₂, ⟨t, hx, -⟩, ⟨u, hy, -⟩⟩ := h
  have hxy := hmates rfl
  -- from here on, partial paths start from the results
  refine underSubject ?_
  have hready₂ := hready₂.underSubject hxy hx hy
  refine bind (upheld hready₂
    (Upholds.withShape hx fun env'' hs =>
      Upholds.shapeElements elements x t [] env'' _ (hs ▸ hx))
    (Upholds.withShape hy fun env'' hs =>
      Upholds.shapeElements elements y u [] env'' _ (hs ▸ hy))
    (withShape hready₂ hxy hx hy fun env'' hs hready'' => ?_)) ?_
  · rw [← hs]
    exact helements [] T₂ env'' (some y) x y t u hready'' hxy (hs ▸ hx) (hs ▸ hy)
  intro T₃ shape shape' h₃ h
  obtain ⟨hshape, hready₃, -, -⟩ := h
  refine bind (ready hfilter (Upholds.filterClause filter)
    (Upholds.filterClause filter) hready₃) ?_
  intro T₄ filter filter' h₄ h
  obtain ⟨hfilter, hready₄⟩ := h
  refine bind (ready_inClause hgroupBy (Upholds.groupKeys groupBy)
    (Upholds.groupKeys groupBy) hready₄) ?_
  intro T₅ groupBy groupBy' h₅ h
  obtain ⟨hgroupBy, hready₅⟩ := h
  refine bind (ready_inClause horderBy (Upholds.sortKeys orderBy)
    (Upholds.sortKeys orderBy) hready₅) ?_
  intro T₆ orderBy orderBy' h₆ h
  obtain ⟨horderBy, hready₆⟩ := h
  refine bind (ready_inClause hoffset (Upholds.boundClause offset)
    (Upholds.boundClause offset) hready₆) ?_
  intro T₇ offset offset' h₇ h
  obtain ⟨hoffset, hready₇⟩ := h
  refine bind (ready_inClause hlimit (Upholds.boundClause limit)
    (Upholds.boundClause limit) hready₇) ?_
  intro T₈ limit limit' h₈ h
  obtain ⟨hlimit, hready₈⟩ := h
  have h₃₈ := h₄.trans (h₅.trans (h₆.trans (h₇.trans h₈)))
  refine intro fun hmirrored₈ => ?_
  have hagree := hmirrored₈.agree ((h₃.trans h₃₈).mates _ _ hxy)
    hready₈.left.active
  have hsomewhere : Option.Rel (AgreeSomewhere T₈) limit limit' := by
    refine optionRel_imp (fun _ _ h => ?_) hlimit
    obtain ⟨child, -, -, hxy⟩ := h
    exact ⟨child, hxy⟩
  refine bind (statementCardinality hagree (isSome_of_optionRel hfilter)
    hsomewhere) ?_
  intro T₉ c d h₉ h
  obtain ⟨hle, hc⟩ := h
  -- what was shown of each part is carried to the end
  have h₇₉ := h₈.trans h₉
  have h₆₉ := h₇.trans h₇₉
  have h₅₉ := h₆.trans h₆₉
  have hagree := hagree.mono h₉
  have hshape := hshape.mono (h₃₈.trans h₉)
  have hfilter := optionRel_imp (fun _ _ h => h.mono (h₅.trans h₅₉)) hfilter
  have hgroupBy := hgroupBy.imp fun _ _ h => h.mono h₅₉
  have horderBy := horderBy.imp fun _ _ h => h.mono h₆₉
  have hoffset := optionRel_imp (fun _ _ h => h.mono h₇₉) hoffset
  have hlimit := optionRel_imp (fun _ _ h => h.mono h₉) hlimit
  exact readFrame (pure (.of_parts hagree hshape hfilter hgroupBy horderBy
    hoffset hlimit hle hc))

-- ========================================================== the syntax

mutual

theorem expr (hκ : Distinct κ') : (e : Expr) → RetracesExpr κ κ' e
  | .constant _ _ => fun _ _ _ _ =>
      pure (.pending ⟨rfl, rfl, le_refl _, rfl, fun _ => rfl⟩)
  | .emptySet _ => fun _ _ _ _ =>
      pure (.pending ⟨rfl, rfl, le_refl _, rfl, fun _ => rfl⟩)
  | .path _ => pathExpr hκ
  | .binary l _ r _ => binaryExpr (expr hκ l) (expr hκ r)
  | .unary _ operand _ => unaryExpr (expr hκ operand)
  | .call _ args _ => callExpr (arguments hκ args)
  | .cast _ operand _ => castExpr (expr hκ operand)
  | .set elements _ => setExpr (exprs hκ elements)
  | .select query => selectExpr (select hκ query)
  | .paren inner _ => expr hκ inner
termination_by structural e => e

theorem exprs (hκ : Distinct κ') : (es : List Expr) → RetracesExprs κ κ' es
  | [] => fun _ _ _ _ => pure .nil
  | e :: es => exprsCons (expr hκ e) (exprs hκ es)
termination_by structural es => es

theorem arguments (hκ : Distinct κ') :
    (args : List Expr) → RetracesArguments κ κ' args
  | [] => argumentsNil
  | arg :: args => argumentsCons (expr hκ arg) (arguments hκ args)
termination_by structural args => args

theorem filterClause (hκ : Distinct κ') :
    (f : Option Expr) → RetracesFilter κ κ' f
  | none => fun _ _ _ _ => pure .none
  | some e => filterSome (expr hκ e)
termination_by structural f => f

theorem boundClause (hκ : Distinct κ') :
    (n : Option Expr) → RetracesBound κ κ' n
  | none => fun _ _ _ _ => pure .none
  | some e => boundSome (expr hκ e)
termination_by structural n => n

theorem groupKeys (hκ : Distinct κ') :
    (keys : List Expr) → RetracesGroups κ κ' keys
  | [] => fun _ _ _ _ => pure .nil
  | e :: es => groupCons (expr hκ e) (groupKeys hκ es)
termination_by structural keys => keys

theorem sortKeys (hκ : Distinct κ') :
    (keys : List Ast.SortKey) → RetracesSorts κ κ' keys
  | [] => fun _ _ _ _ => pure .nil
  | ⟨e, _, _, _⟩ :: keys => sortCons (expr hκ e) (sortKeys hκ keys)
termination_by structural keys => keys

theorem shapeElement (hκ : Distinct κ') :
    (e : ShapeElement) → RetracesElement κ κ' e
  | .mk _ (some e) _ _ => computedElement (expr hκ e)
  | .mk _ none elements _ => pointerElement hκ (shapeElements hκ elements)
termination_by structural e => e

theorem shapeElements (hκ : Distinct κ') :
    (es : List ShapeElement) → RetracesElements κ κ' es
  | [] => fun _ _ _ _ _ _ _ _ _ _ _ _ => pure ⟨.nil, fun _ => rfl⟩
  | e :: es => shapeCons (shapeElement hκ e) (shapeElements hκ es)
termination_by structural es => es

theorem select (hκ : Distinct κ') : (q : Select) → RetracesSelect κ κ' q
  | ⟨_, result, elements, filter, groupBy, orderBy, offset, limit, _⟩ =>
      selectOf (expr hκ result) (shapeElements hκ elements)
        (filterClause hκ filter) (groupKeys hκ groupBy) (sortKeys hκ orderBy)
        (boundClause hκ offset) (boundClause hκ limit)
termination_by structural q => q

end

end CompileM.Follows

end PathQuery
