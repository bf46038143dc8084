/-
Operands in nodes of their own, and statements, on the two sides.

An operand that is consumed as a whole, and every clause, is compiled in
a node that both sides open for it. What comes of it agrees as seen from
that node, and so as seen from every node right below the one that the
clause stands in (`AgreeBelow`, `agree_of_below`). The elements of a
shape correspond, in nodes that do (`ShapesMatch`). Two statements match
if their parts do (`StatementsMatch`); for one and the same query they
are then the same but for numbers (`StatementsMatch.renamed`).

A limit is where spans show. A clause whose operand is a set that stands
for a literal may hand on that set, or refer to it; what the limit does
is then known on one side only. But such an operand is the subject of
the statement, and a subject that stands for a literal is one element in
any case (`statementCardinality`).
-/
import PathQuery.Proofs.Compile.LiteralSets
import PathQuery.Proofs.Correspondence.Paths

namespace PathQuery

open Ast (Expr Likeness ShapeElement)
open Ir

variable {κ α α' β β' : Type}

-- ============================================================ siblings

/-- From nodes with one parent, sets are counted alike. -/
theorem Store.judge?_sibling {st : Store κ} (h : st.scopes.Rooted) {v w p : Nat}
    (hv : st.scopes.parent? v = some p) (hw : st.scopes.parent? w = some p)
    (id : Nat) : st.judge? v id = st.judge? w id := by
  induction id using Nat.strongRecOn with
  | ind id ih =>
      cases hn : st.arena.get? id with
      | none =>
          have hnone : ∀ u, st.judge? u id = none := fun u => by
            rw [Option.eq_none_iff_forall_ne_some]
            intro c hc
            obtain ⟨node, hsome⟩ := exists_get?_of_judge? hc
            rw [hn] at hsome
            cases hsome
          rw [hnone, hnone]
      | some node =>
          rw [judge?_eq hn, judge?_eq hn, h.isStrictAncestor_of_parent? hv,
            h.isStrictAncestor_of_parent? hw]
          cases ho : node.origin with
          | root => rfl
          | computed op => rfl
          | step source name per =>
              have hsource := ih source (Arena.lt_of_source hn (by rw [ho]; rfl))
              dsimp only
              rw [hsource]

-- ========================================================== statements

variable [DecidableEq κ] [PathKey κ]

/-- An element of a shape is what was compiled in the node `node`, right
below the one where the shape stands. -/
def Store.Element [NameDigest] (s : Schema) (st : Store κ) (scope node : ScopeId)
    (element : ShapeNode) : Prop :=
  st.scopes.parent? node = some scope ∧ ∃ subject e,
    (CompileM.inScope (CompileM.shapeElement subject e)).Ran s scope node element st

theorem Store.Element.mono [NameDigest] {s : Schema} {st st' : Store κ}
    (h : st.Extends st') {scope node : ScopeId} {element : ShapeNode}
    (he : st.Element s scope node element) : st'.Element s scope node element := by
  obtain ⟨hp, subject, e, hran⟩ := he
  exact ⟨h.parent? hp, subject, e, CompileM.Ran.mono h hran⟩

namespace Correspondence

variable {C C' : Correspondence κ} {μ : Likeness} {s : Schema}

omit [DecidableEq κ] [PathKey κ] in
/-- Two sets agree as seen from nodes right below. -/
def AgreeBelow (C : Correspondence κ) (μ : Likeness) (scope scope' : ScopeId)
    (x y : SetId) : Prop :=
  ∃ v w, C.left.scopes.parent? v = some scope
    ∧ C.right.scopes.parent? w = some scope' ∧ C.Agree μ v w x y

/-- Two shapes have elements of the same names, with sets that correspond
and were made in nodes that do, and the same is true of the shapes of the
elements. -/
inductive ShapesMatch [NameDigest] (C : Correspondence κ) (s : Schema) :
    ScopeId → ScopeId → List ShapeNode → List ShapeNode → Prop where
  | nil {scope scope' : ScopeId} : ShapesMatch C s scope scope' [] []
  | cons {scope scope' v w : ScopeId} {x y : SetId} {name : String}
      {computed : Bool} {elements elements' rest rest' : List ShapeNode}
      (hleft : C.left.Element s scope v (.mk name x computed elements))
      (hright : C.right.Element s scope' w (.mk name y computed elements'))
      (hnodes : C.nodes v w) (hset : C.sets x y)
      (helements : ShapesMatch C s v w elements elements')
      (hrest : ShapesMatch C s scope scope' rest rest') :
      ShapesMatch C s scope scope' (.mk name x computed elements :: rest)
        (.mk name y computed elements' :: rest')

omit [DecidableEq κ] [PathKey κ] in
/-- Two keys agree and sort alike. -/
structure KeysMatch (C : Correspondence κ) (μ : Likeness) (scope scope' : ScopeId)
    (k k' : SortKey) : Prop where
  key : C.AgreeBelow μ scope scope' k.key k'.key
  direction : k.direction = k'.direction
  empties : k.empties = k'.empties
  span : μ.Spans k.span k'.span

/-- Two statements match, part by part. The limit may be one of the
options, in the root node. -/
structure StatementsMatch [NameDigest] (C : Correspondence κ) (μ : Likeness)
    (s : Schema) (stmt stmt' : Statement) : Prop where
  scope : C.nodes stmt.scope stmt'.scope
  result : C.sets stmt.result stmt'.result
  shape : C.ShapesMatch s stmt.scope stmt'.scope stmt.shape stmt'.shape
  filter : Option.Rel (C.AgreeBelow μ stmt.scope stmt'.scope) stmt.filter
    stmt'.filter
  groupBy : List.Forall₂ (C.AgreeBelow μ stmt.scope stmt'.scope) stmt.groupBy
    stmt'.groupBy
  orderBy : List.Forall₂ (C.KeysMatch μ stmt.scope stmt'.scope) stmt.orderBy
    stmt'.orderBy
  offset : Option.Rel (C.AgreeBelow μ stmt.scope stmt'.scope) stmt.offset
    stmt'.offset
  limit : Option.Rel (fun l l' => C.AgreeBelow μ stmt.scope stmt'.scope l l'
    ∨ C.Agree μ ScopeTree.root ScopeTree.root l l') stmt.limit stmt'.limit
  count : μ.Tally stmt.cardinality stmt'.cardinality
  span : μ.Spans stmt.span stmt'.span

section Below

variable {scope scope' : Nat} {x y : SetId}

omit [DecidableEq κ] [PathKey κ] in
theorem AgreeBelow.mono (h : C.Later C') (hxy : C.AgreeBelow μ scope scope' x y) :
    C'.AgreeBelow μ scope scope' x y := by
  obtain ⟨v, w, hv, hw, hagree⟩ := hxy
  exact ⟨v, w, h.left.parent? hv, h.right.parent? hw, hagree.mono h⟩

omit [DecidableEq κ] [PathKey κ] in
theorem AgreeBelow.sets (hxy : C.AgreeBelow .same scope scope' x y) :
    C.sets x y := by
  obtain ⟨v, w, -, -, hagree⟩ := hxy
  exact hagree.sets rfl

/-- What agrees as seen from some nodes right below agrees as seen from
all of them. -/
theorem Consistent.agree_of_below (h : C.Consistent μ)
    (hxy : C.AgreeBelow μ scope scope' x y) {v w : Nat}
    (hv : C.left.scopes.parent? v = some scope)
    (hw : C.right.scopes.parent? w = some scope') : C.Agree μ v w x y := by
  obtain ⟨a, b, ha, hb, hagree⟩ := hxy
  refine ⟨ScopeTree.lt_size_of_parent? hv, ScopeTree.lt_size_of_parent? hw,
    hagree.type, ?_, hagree.sets⟩
  rw [Store.judge?_sibling h.rooted hv ha, Store.judge?_sibling h.rooted' hw hb]
  exact hagree.count

/-- In the loose degree, a set that stands for a literal counts as one
element, wherever it is seen from. -/
theorem Consistent.isMulti_of_constant (h : C.Consistent μ) (hxy : C.sets x y)
    (hμ : μ = .loose) (hconst : C.left.arena.constant? x ≠ none) {v : Nat}
    {c : Cardinality} (hc : C.left.judge? v x = some c) : c.isMulti = false := by
  obtain ⟨n, m, hn, -, hnm⟩ := h.matched x y hxy
  rw [Arena.constant?_eq hn] at hconst
  have hone := hnm.single hμ hconst
  rw [Store.judge?_eq hn] at hc
  split at hc
  · cases hc
    rfl
  · cases ho : n.origin with
    | root => exact absurd (ho ▸ rfl) hconst
    | step source name per => exact absurd (ho ▸ rfl) hconst
    | computed op =>
        rw [ho] at hc
        cases hc
        exact hone

omit [DecidableEq κ] [PathKey κ] in
theorem KeysMatch.mono (h : C.Later C') {k k' : SortKey}
    (hk : C.KeysMatch μ scope scope' k k') : C'.KeysMatch μ scope scope' k k' :=
  { hk with key := hk.key.mono h }

variable [NameDigest]

theorem ShapesMatch.mono (h : C.Later C') {nodes nodes' : List ShapeNode}
    (hn : C.ShapesMatch s scope scope' nodes nodes') :
    C'.ShapesMatch s scope scope' nodes nodes' := by
  induction hn with
  | nil => exact .nil
  | cons hleft hright hnodes hset _ _ ihe ihr =>
      exact .cons (hleft.mono h.left) (hright.mono h.right) (h.nodes _ _ hnodes)
        (h.sets _ _ hset) ihe ihr

/-- Shapes match one after the other. -/
theorem ShapesMatch.append {nodes nodes' more more' : List ShapeNode}
    (hn : C.ShapesMatch s scope scope' nodes nodes')
    (hm : C.ShapesMatch s scope scope' more more') :
    C.ShapesMatch s scope scope' (nodes ++ more) (nodes' ++ more') := by
  induction hn with
  | nil => exact hm
  | cons hleft hright hnodes hset helements _ _ ih =>
      exact .cons hleft hright hnodes hset helements (ih hm)

theorem ShapesMatch.renamed {nodes nodes' : List ShapeNode}
    (hn : C.ShapesMatch s scope scope' nodes nodes') :
    C.ShapeRenamed nodes nodes' := by
  induction hn with
  | nil => exact .nil
  | cons _ _ _ hset _ _ ihe ihr => exact .cons hset ihe ihr

theorem StatementsMatch.mono (h : C.Later C') {stmt stmt' : Statement}
    (hs : C.StatementsMatch μ s stmt stmt') : C'.StatementsMatch μ s stmt stmt' where
  scope := h.nodes _ _ hs.scope
  result := h.sets _ _ hs.result
  shape := hs.shape.mono h
  filter := optionRel_imp (fun _ _ hxy => hxy.mono h) hs.filter
  groupBy := hs.groupBy.imp fun _ _ hxy => hxy.mono h
  orderBy := hs.orderBy.imp fun _ _ hk => hk.mono h
  offset := optionRel_imp (fun _ _ hxy => hxy.mono h) hs.offset
  limit := optionRel_imp (fun _ _ hxy =>
    hxy.imp (fun hxy => hxy.mono h) fun hxy => hxy.mono h) hs.limit
  count := hs.count
  span := hs.span

/-- Statements of one and the same query are the same but for numbers. -/
theorem StatementsMatch.renamed {stmt stmt' : Statement}
    (h : C.StatementsMatch .same s stmt stmt') : C.StatementRenamed stmt stmt' where
  result := h.result
  shape := h.shape.renamed
  filter := optionRel_imp (fun _ _ h => h.sets) h.filter
  groupBy := h.groupBy.imp fun _ _ h => h.sets
  orderBy := h.orderBy.imp fun _ _ h =>
    ⟨h.key.sets, h.direction, h.empties, h.span rfl⟩
  offset := optionRel_imp (fun _ _ h => h.sets) h.offset
  limit := optionRel_imp (fun _ _ h => h.elim AgreeBelow.sets fun h => h.sets rfl)
    h.limit
  cardinality := h.count.2 (by simp)
  scope := h.scope
  span := h.span rfl

end Below

end Correspondence

namespace CompileM

variable [NameDigest] {μ : Likeness}

/-- A step and a step on the other side do alike, from wherever they are
run; what they return is related as `post` has it. -/
def Concurs (μ : Likeness)
    (post : Correspondence κ → Env → Env → α → α' → Prop) (m : CompileM κ α)
    (m' : CompileM κ α') : Prop :=
  ∀ (C : Correspondence κ) (env env' : Env),
    Corresponds μ C env env' m m' fun C' => post C' env env'

/-- Operands give values that match. -/
abbrev Matches (μ : Likeness) (m m' : CompileM κ Value) : Prop :=
  Concurs μ (fun C _ _ => C.Values μ) m m'

-- ============================================================== growth

namespace Growing

instance (id : SetId) (type : ParamType) (position : Nat)
    (function : QualifiedName) :
    Growing (checkArgument id type position function : CompileM κ _) :=
  of_composed .checkArgument

instance (decls : List Ast.ModuleDecl) (m : CompileM κ α) [hm : Growing m] :
    Growing (withModules decls m) := by
  induction decls with
  | nil => exact hm
  | cons d decls ih =>
      unfold withModules
      exact of_bind inferInstance fun _ => underFrame

end Growing

namespace Corresponds

variable {C : Correspondence κ} {env env' : Env} {x y : SetId}
  {span span' : Span} {operand operand' : CompileM κ Value}

-- ============================================================= clauses

omit [NameDigest] in
/-- What a clause takes agrees. It stands for one literal or for none,
unless spans may differ and the operand is a set that stands for a
literal; of such an operand it is assumed that `hbare` holds. -/
theorem clauseOperand {hint : Option TypeId} {bare : Prop}
    (ho : Matches μ operand operand') (hspans : μ.Spans span span')
    (hbare : ∀ id st, operand.run env C.left = (.ok (.set id), st) →
      st.arena.constant? id ≠ none → bare) :
    Corresponds μ C env env' (CompileM.clauseOperand operand span hint)
      (CompileM.clauseOperand operand' span' hint) fun C' a b =>
        C'.Agree μ env.frame.scope env'.frame.scope a b
          ∧ (C'.SameConstant a b ∨ (μ ≠ .same ∧ bare)) := by
  unfold CompileM.clauseOperand
  refine bind_growing (fun v => ?_) (fun v => ?_) (ho C env env').runs ?_
  · cases v <;> dsimp only <;> infer_instance
  · cases v <;> dsimp only <;> infer_instance
  intro C₁ v w h₁ h
  obtain ⟨hvw, hrun, -⟩ := h
  cases hvw with
  | @pending p q hpq =>
      have hspanned : C₁.Values μ (.pending { p with span })
          (.pending { q with span := span' }) :=
        .pending { hpq with span := hspans }
      exact (attach hspanned).imp fun _ _ _ _ _ _ h => ⟨h.1, Or.inl h.2.1⟩
  | @set x y hxy =>
      refine bind (referenceAt hxy hspans) ?_
      intro C₂ a b _ hab
      refine (attachSet hab.1).imp fun _ _ _ _ _ _ h => ⟨h.1, ?_⟩
      by_cases hplain : C₁.left.arena.constant? x = none ∨ μ = .same
      · exact Or.inl (h.2.1 (hab.2 hplain))
      · obtain ⟨hconst, hμ⟩ := not_or.1 hplain
        exact Or.inr ⟨hμ, hbare x _ hrun hconst⟩

omit [NameDigest] in
/-- A set that is made in a node of its own. -/
theorem below {m m' : CompileM κ SetId}
    (hm : Concurs μ (fun C env env' => C.Agree μ env.frame.scope env'.frame.scope)
      m m') :
    Corresponds μ C env env' (CompileM.inScope m) (CompileM.inScope m')
      fun C' x y => C'.AgreeBelow μ env.frame.scope env'.frame.scope x y :=
  inScope (hm _ _ _) fun _ _ _ _ _ _ hv hw hab => ⟨_, _, hv, hw, hab⟩

/-- A condition, in a node of its own. -/
theorem filterBy (ho : Matches μ operand operand') (hspans : μ.Spans span span') :
    Corresponds μ C env env' (CompileM.filterBy operand span)
      (CompileM.filterBy operand' span') fun C' x y =>
        C'.AgreeBelow μ env.frame.scope env'.frame.scope x y := by
  unfold CompileM.filterBy
  refine below fun C env env' => inClause ?_
  exact (clauseOperand ho hspans fun _ _ _ _ => trivial).imp
    fun _ _ _ _ _ _ h => h.1

omit [NameDigest] in
/-- At most one element on both sides, or more on both. -/
theorem requireSingleton (hxy : C.Agree μ env.frame.scope env'.frame.scope x y)
    {f : Unit → CompileM κ β} {f' : Unit → CompileM κ β'}
    {post : Correspondence κ → β → β' → Prop}
    (hf : Corresponds μ C env env' (f ()) (f' ()) post) :
    Corresponds μ C env env' (CompileM.requireSingleton x >>= f)
      (CompileM.requireSingleton y >>= f') post := by
  refine intro fun _ hframe => ?_
  obtain ⟨n, m, hn, hm, -⟩ := hxy.exists_get?
  obtain ⟨c, d, hc, hd, htally⟩ := hxy.count
  have hleft : (CompileM.requireSingleton x).run env C.left
      = (if c.isSingleton then .ok () else
          .error (.notSingleton env.frame.clause n.span), C.left) :=
    run_requireSingleton hc hn
  have hright : (CompileM.requireSingleton y).run env' C.right
      = (if d.isSingleton then .ok () else
          .error (.notSingleton env'.frame.clause m.span), C.right) :=
    run_requireSingleton hd hm
  rw [htally.isSingleton_eq] at hleft
  cases hone : d.isSingleton with
  | true =>
      rw [hone] at hleft hright
      exact read hleft hright hf
  | false =>
      rw [hone] at hleft hright
      intro _ _ _ _
      rw [run_bind, run_bind, hleft, hright]
      refine .error ?_
      rw [hframe.clause]
      rfl

omit [NameDigest] in
/-- A set of which both sides require that it is one value. -/
theorem oneOf {m m' : CompileM κ SetId} {mid : Correspondence κ → SetId → SetId → Prop}
    (hm : Corresponds μ C env env' m m' fun C' a b =>
      C'.Agree μ env.frame.scope env'.frame.scope a b ∧ mid C' a b) :
    Corresponds μ C env env'
      (do
        let id ← m
        CompileM.requireSingleton id
        return id)
      (do
        let id ← m'
        CompileM.requireSingleton id
        return id)
      fun C' a b => C'.Agree μ env.frame.scope env'.frame.scope a b ∧ mid C' a b :=
  bind hm fun _ _ _ _ hab => requireSingleton hab.1 (pure hab)

omit [NameDigest] in
/-- One value, in a node of its own. -/
theorem oneValue {hint : Option TypeId} {bare : Prop} (ho : Matches μ operand operand')
    (hspans : μ.Spans span span')
    (hbare : ∀ id st, operand.run (env.within C.left.scopes.size)
      (C.left.opened env.frame.scope) = (.ok (.set id), st) →
        st.arena.constant? id ≠ none → bare) :
    Corresponds μ C env env'
      (CompileM.inScope do
        let id ← CompileM.clauseOperand operand span hint
        CompileM.requireSingleton id
        return id)
      (CompileM.inScope do
        let id ← CompileM.clauseOperand operand' span' hint
        CompileM.requireSingleton id
        return id)
      fun C' x y => C'.AgreeBelow μ env.frame.scope env'.frame.scope x y
        ∧ (C'.SameConstant x y ∨ (μ ≠ .same ∧ bare)) := by
  refine inScope (oneOf (clauseOperand ho hspans hbare)) ?_
  intro C' a b _ _ _ hv hw hab
  exact ⟨⟨_, _, hv, hw, hab.1⟩, hab.2⟩

omit [NameDigest] in
theorem key (ho : Matches μ operand operand')
    (hspans : μ.Spans span span') :
    Corresponds μ C env env' (CompileM.key operand span)
      (CompileM.key operand' span') fun C' x y =>
        C'.AgreeBelow μ env.frame.scope env'.frame.scope x y := by
  unfold CompileM.key
  exact (oneValue ho hspans (fun _ _ _ _ => trivial)).imp fun _ _ _ _ _ _ h => h.1

-- ===================================================== whole operands

/-- What is consumed as a whole agrees as seen from a node of its own. -/
theorem existence (ho : Matches μ operand operand') (hspans : μ.Spans span span') :
    Corresponds μ C env env' (CompileM.existence operand span)
      (CompileM.existence operand' span') fun C' => C'.Values μ := by
  unfold CompileM.existence
  refine bind (below fun C env env' => ?_) fun C₁ x y _ hxy => ?_
  · exact bind (ho C env env') fun _ v w _ hvw =>
      (attach hvw).imp fun _ _ _ _ _ _ h => h.1
  · obtain ⟨_, _, -, -, hagree⟩ := hxy
    exact pure (values_of_plain hspans (.refl _ _) rfl rfl
      fun hμ => .unary .exists (hagree.sets hμ))

/-- An argument, and the cardinality of the call with it. -/
def AgreeCounted (μ : Likeness) (C : Correspondence κ)
    (r r' : SetId × Cardinality) : Prop :=
  AgreeSomewhere μ C r.1 r'.1 ∧ μ.Tally r.2 r'.2

theorem argument {param : Parameter} {position : Nat} {function : QualifiedName}
    {c d : Cardinality} (ho : Matches μ operand operand')
    (htally : μ.Tally c d) :
    Corresponds μ C env env' (CompileM.argument operand param position function c)
      (CompileM.argument operand' param position function d)
      (AgreeCounted μ) := by
  unfold CompileM.argument
  cases param.mode with
  | wholeSet =>
      refine bind (below fun C env env' => ?_) fun C₁ x y _ hxy => ?_
      · exact bind (ho C env env') fun _ v w _ hvw =>
          bind (attach hvw) fun _ a b _ hab => checkArgument hab.1
      · obtain ⟨_, _, -, -, hagree⟩ := hxy
        exact pure ⟨⟨_, _, hagree⟩, htally⟩
  | element =>
      refine bind (ho C env env') fun C₁ v w _ hvw => ?_
      refine bind (attach hvw) fun C₂ a b _ hab => ?_
      refine bind (checkArgument hab.1) fun C₃ x y _ hxy => ?_
      exact judge hxy fun c' d' htally' =>
        pure ⟨⟨_, _, hxy⟩, htally.mul htally'⟩

-- ========================================================== the whole

omit [NameDigest] in
theorem checkModule {module : String} :
    Corresponds μ C env env' (CompileM.checkModule module span)
      (CompileM.checkModule module span') fun C' _ _ => C' = C := by
  unfold CompileM.checkModule
  exact readSchema (require_last rfl rfl)

omit [DecidableEq κ] [PathKey κ] [NameDigest] in
theorem framed_declare (h : C.Framed env env') {d d' : Ast.ModuleDecl}
    (hd : d.Alike μ d') :
    C.Framed { env with frame := env.frame.declare d }
      { env' with frame := env'.frame.declare d' } := by
  unfold Frame.declare
  rw [← hd.shorthand, ← hd.module]
  cases d.shorthand with
  | none => exact { h with defaultModule := rfl }
  | some shorthand =>
      refine { h with aliases := ?_ }
      show env'.frame.aliases.insert shorthand d.module = _
      rw [h.aliases]

omit [NameDigest] in
/-- Under module declarations that are alike, steps correspond as they
do elsewhere. -/
theorem withModules {decls decls' : List Ast.ModuleDecl} {m : CompileM κ α}
    {m' : CompileM κ α'} {post : Correspondence κ → α → α' → Prop}
    [Growing m] [Growing m']
    (hdecls : List.Forall₂ (Ast.ModuleDecl.Alike μ) decls decls')
    (hm : ∀ env₁ env₁' : Env, env₁.schema = env.schema →
      env₁.frame.scope = env.frame.scope → env₁'.frame.scope = env'.frame.scope →
        Corresponds μ C env₁ env₁' m m' post) :
    Corresponds μ C env env' (CompileM.withModules decls m)
      (CompileM.withModules decls' m') post := by
  induction hdecls generalizing env env' with
  | nil => exact hm env env' rfl rfl rfl
  | @cons d d' decls decls' hd _ ih =>
      unfold CompileM.withModules
      rw [← hd.module]
      refine bind_growing (fun _ => Growing.underFrame) (fun _ => Growing.underFrame)
        checkModule fun C₁ _ _ _ h => ?_
      subst h
      refine underFrame (framed_declare · hd) (ih ?_)
      intro env₁ env₁' hschema hleft hright
      exact hm env₁ env₁' hschema (hleft.trans (Frame.scope_declare _ d))
        (hright.trans (Frame.scope_declare _ d'))

omit [NameDigest] in
theorem requireObject (hxy : C.sets x y) :
    Corresponds μ C env env' (CompileM.requireObject x span)
      (CompileM.requireObject y span') fun C' _ _ => C' = C := by
  unfold CompileM.requireObject
  refine intro fun hc hframe => readSchema ?_
  exact typeOf (hc.agree hxy hframe.scope) fun t => require_last rfl rfl

/-- The shapes of sets that correspond. -/
theorem withShape {elements elements' : List ShapeElement}
    {m m' : CompileM κ (List ShapeNode)} [Growing m] [Growing m']
    (halike : ShapeElement.AlikeAll μ elements elements') (hxy : C.sets x y)
    (hm : ∀ C₁ env₁ env₁', C₁.sets x y → Corresponds μ C₁ env₁ env₁' m m'
      fun C' => C'.ShapesMatch env₁.schema env₁.frame.scope env₁'.frame.scope) :
    Corresponds μ C env env' (CompileM.withShape x elements m)
      (CompileM.withShape y elements' m') fun C' =>
        C'.ShapesMatch env.schema env.frame.scope env'.frame.scope := by
  unfold CompileM.withShape
  cases elements with
  | nil =>
      obtain rfl := halike
      exact pure .nil
  | cons first rest =>
      obtain ⟨first', rest', rfl, -, -⟩ := halike
      refine bind (requireObject hxy) fun C₁ _ _ _ h => ?_
      subst h
      exact inClause (underSubject hxy (hm _ _ _ hxy))

omit [NameDigest] in
/-- A limit does the same on both sides, or it limits what is no more
than one element anyway. -/
theorem limited {c d : Cardinality} (hxy : AgreeSomewhere μ C x y)
    (htally : μ.Tally c d)
    (h : C.SameConstant x y ∨ (μ = .loose ∧ c.isMulti = false)) :
    Corresponds μ C env env' (CompileM.limited c x) (CompileM.limited d y)
      fun _ c d => μ.Tally c d := by
  obtain ⟨_, _, hagree⟩ := hxy
  obtain ⟨n, m, hn, hm, -⟩ := hagree.exists_get?
  refine of_run (run_limited hn) (run_limited hm) ?_
  rcases h with hsame | ⟨hμ, hc⟩
  · rw [Store.isUnitLimit_congr hsame]
    split
    · exact htally.capped.optional
    · exact htally
  · have hd : d.isMulti = false := htally.1 ▸ hc
    have hcapped : ∀ {c : Cardinality}, c.capped.optional.isMulti = false := by
      intro c
      cases c <;> rfl
    refine ⟨?_, fun h => absurd hμ h⟩
    split <;> split <;> simp only [hcapped, hc, hd]

omit [NameDigest] in
theorem statementCardinality {filter filter' limit limit' : Option SetId}
    (hxy : C.sets x y) (hfilter : filter.isSome = filter'.isSome)
    (hlimit : Option.Rel (fun l l' => AgreeSomewhere μ C l l'
      ∧ (C.SameConstant l l'
        ∨ (μ = .loose ∧ C.left.arena.constant? x ≠ none))) limit limit') :
    Corresponds μ C env env' (CompileM.statementCardinality x filter limit)
      (CompileM.statementCardinality y filter' limit')
      fun _ c d => μ.Tally c d := by
  refine intro fun hc hframe => ?_
  unfold CompileM.statementCardinality
  refine judgeOf (hc.agree hxy hframe.scope) fun c d hx htally => ?_
  have hcount : μ.Tally (if filter.isSome then c.optional else c)
      (if filter'.isSome then d.optional else d) := by
    rw [hfilter]
    split
    · exact htally.optional
    · exact htally
  cases hlimit with
  | none => exact pure hcount
  | some h =>
      refine limited h.1 hcount (h.2.imp_right fun h => ⟨h.1, ?_⟩)
      have hone := hc.isMulti_of_constant hxy h.1 h.2 hx
      split
      · exact (Cardinality.isMulti_ofBounds _ _).trans hone
      · exact hone

/-- A statement becomes a set. -/
theorem subquery {stmt stmt' : Statement} (h : C.StatementsMatch μ env.schema stmt stmt') :
    Corresponds μ C env env' (CompileM.subquery stmt) (CompileM.subquery stmt')
      fun C' => C'.Values μ := by
  refine intro fun hc _ => ?_
  obtain ⟨n, m, hn, hm, hnm⟩ := hc.matched _ _ h.result
  unfold CompileM.subquery
  refine read (run_typeOf hn) (run_typeOf hm) ?_
  rw [← hnm.type]
  refine bind (newComputed h.count rfl h.span (fun _ hno => absurd rfl hno)
    fun hμ => ?_) fun C₁ x y _ hxy => pure (.set hxy)
  subst hμ
  exact .subquery h.renamed

end Corresponds

end CompileM

end PathQuery
