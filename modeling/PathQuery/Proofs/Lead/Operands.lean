/-
Operands of one expression, after others and without them.

Both sides compile one and the same expression. So the operations that
it gives have one span on both sides, and the sets that it gives
correspond. Where they stand for a literal they have one span too
(`Correspondence.Echoes`): such a set is the subject, and the subject was
made by one expression on both sides.

That matters for clauses. They refer to a set that was made elsewhere by
a set of its own, and tell so by the span. A path of the lead has the
span of the lead, so one side may refer to a set that the other takes as
it is. For a literal they do the same, so a limit of one element is one
on both sides.

Here are operands and what combines them, in the order of the compiler's
modules. What is combined are sets that are there already, so what is
known of sides that correspond is used (`Tracks.lift`).
-/
import PathQuery.Proofs.Lead.Paths

namespace PathQuery

open Ir

variable {κ α : Type} [DecidableEq κ] [PathKey κ] [NameDigest]

-- =============================================================== values

namespace Correspondence

variable {C C' C₁ : Correspondence κ} {S : Lead κ} {v w : Value} {x y : SetId}

/-- Values of one expression. -/
inductive Echoes (C : Correspondence κ) : Value → Value → Prop where
  | set {x y : SetId} (h : C.sets x y) (haligned : C.Aligned x y) :
      Echoes C (.set x) (.set y)
  | pending {p q : Pending} (h : C.bare.Answers .plain p q) (hspan : p.span = q.span) :
      Echoes C (.pending p) (.pending q)

omit [DecidableEq κ] [PathKey κ] [NameDigest] in
theorem Later.bare (h : C.Later C') : C.bare.Later C'.bare :=
  ⟨h.left.bare, h.right.bare, h.sets, h.nodes⟩

omit [DecidableEq κ] [PathKey κ] [NameDigest] in
theorem Echoes.mono (h : C.Later C') (hvw : C.Echoes v w) : C'.Echoes v w := by
  cases hvw with
  | set hxy haligned => exact .set (h.sets _ _ hxy) (haligned.mono h)
  | pending hpq hspan => exact .pending (hpq.mono h.bare) hspan

omit [DecidableEq κ] [PathKey κ] [NameDigest] in
theorem Echoes.values (h : C.Echoes v w) : C.bare.Values .plain v w := by
  cases h with
  | set hxy => exact .set hxy
  | pending hpq => exact .pending hpq

/-- Sets that correspond need no span if they stand for no literal. -/
theorem Ahead.aligned (h : C.Ahead S) (hxy : C.sets x y)
    (hnone : C.left.arena.constant? x = none) : C.Aligned x y := by
  obtain ⟨n, m, hn, hm, -⟩ := h.exists_get? hxy
  rw [Arena.constant?_eq hn] at hnone
  exact ⟨n, m, hn, hm, fun hsome => absurd hnone hsome⟩

omit [DecidableEq κ] [PathKey κ] [NameDigest] in
/-- Whether sets agree depends on the stores alone. -/
theorem Agree.of_stores {scope scope' : ScopeId}
    (h : C₁.Agree .plain scope scope' x y) (hl : C'.left.bare = C₁.left)
    (hr : C'.right.bare = C₁.right) : C'.bare.Agree .plain scope scope' x y := by
  obtain ⟨left, right, sets, nodes⟩ := C₁
  subst hl hr
  exact { h with sets := fun hμ => by cases hμ }

omit [DecidableEq κ] [PathKey κ] [NameDigest] in
theorem SameConstant.of_stores (h : C₁.SameConstant x y)
    (hl : C'.left.bare = C₁.left) (hr : C'.right.bare = C₁.right) :
    C'.SameConstant x y := by
  obtain ⟨left, right, sets, nodes⟩ := C₁
  subst hl hr
  exact h

end Correspondence

namespace CompileM

-- ========================================================== operations

/-- A step that returns an operation written at `span`, if anything. -/
def Marks (m : CompileM κ Value) (span : Span) : Prop :=
  ∀ (env : Env) (st st' : Store κ) v, m.run env st = (.ok v, st') →
    ∃ p, v = .pending p ∧ p.span = span

namespace Marks

variable {f : α → CompileM κ Value} {v w : Value} {span : Span}

omit [DecidableEq κ] [PathKey κ] [NameDigest] in
theorem pure {p : Pending} : Marks (Pure.pure (.pending p) : CompileM κ _) p.span := by
  intro env st st' v hrun
  cases hrun
  exact ⟨p, rfl, rfl⟩

omit [DecidableEq κ] [PathKey κ] [NameDigest] in
/-- It is for the last of some steps. -/
theorem bind {m : CompileM κ α} (hf : ∀ a, Marks (f a) span) : Marks (m >>= f) span := by
  intro env st st' v hrun
  obtain ⟨a, mid, -, hrest⟩ := ok_of_bind hrun
  exact hf a env mid st' v hrest

omit [DecidableEq κ] [PathKey κ] in
theorem binary {op : BinaryOp} : Marks (κ := κ) (CompileM.binary op v w span) span :=
  bind fun _ => bind fun _ => bind fun _ => bind fun _ => pure

omit [DecidableEq κ] [PathKey κ] in
theorem logicalNot : Marks (κ := κ) (CompileM.logicalNot v span) span :=
  bind fun _ => bind fun _ => pure

omit [DecidableEq κ] [PathKey κ] [NameDigest] in
theorem arithmeticNeg : Marks (κ := κ) (CompileM.arithmeticNeg v span) span :=
  bind fun _ => bind fun _ => bind fun _ => bind fun _ => bind fun _ =>
    bind fun _ => pure

omit [DecidableEq κ] [PathKey κ] [NameDigest] in
theorem cast {target : TypeId} : Marks (κ := κ) (CompileM.cast v target span) span :=
  bind fun _ => bind fun _ => bind fun _ => bind fun _ => bind fun _ =>
    bind fun _ => pure

omit [DecidableEq κ] [PathKey κ] [NameDigest] in
theorem unionOf {es : List (Value × Span)} :
    Marks (κ := κ) (CompileM.unionOf es span) span :=
  bind fun _ => bind fun _ => pure

omit [DecidableEq κ] [PathKey κ] [NameDigest] in
theorem call {function : QualifiedName} {sig : Signature} {args : List SetId}
    {c : Cardinality} : Marks (κ := κ) (CompileM.call function sig args c span) span :=
  bind fun _ => pure

end Marks

-- ================================================= references to literals

omit [NameDigest] in
/-- Sets of one span, if they stand for a literal, are referred to alike
as far as literals go. -/
theorem Corresponds.referenceAt_aligned {C : Correspondence κ} {env env' : Env}
    {x y : SetId} {span : Span} (hxy : C.sets x y) (haligned : C.Aligned x y) :
    Corresponds .plain C env env' (CompileM.referenceAt x span)
      (CompileM.referenceAt y span) fun C' a b =>
        C'.Agree .plain env.frame.scope env'.frame.scope a b ∧ C'.SameConstant a b := by
  obtain ⟨n, m, hn, hm, hspan⟩ := haligned
  by_cases hnone : n.origin.constant? = none
  · have hconst : C.left.arena.constant? x = none :=
      (Arena.constant?_eq hn).trans hnone
    exact (referenceAt hxy fun hμ => by cases hμ).imp fun _ _ _ _ _ _ h =>
      ⟨h.1, h.2 (Or.inl hconst)⟩
  · refine intro fun hc hframe => ?_
    have hagree := hc.agree hxy hframe.scope
    obtain ⟨n', m', hn', hm', htype⟩ := hagree.exists_get?
    rw [hn] at hn'
    rw [hm] at hm'
    cases hn'
    cases hm'
    unfold CompileM.referenceAt
    refine read (run_getSet hn) (run_getSet hm) ?_
    rw [← hspan hnone, ← htype]
    by_cases hhere : n.span = span
    · rw [if_pos hhere, if_pos hhere]
      exact pure ⟨hagree, hc.sameConstant hxy⟩
    · rw [if_neg hhere, if_neg hhere]
      exact judge hagree fun c d htally =>
        newComputed_agree htally rfl rfl (fun hμ => by cases hμ) fun hμ => by cases hμ

namespace Tracks

open Corresponds (AgreeSomewhere)

variable {S : Lead κ} {C : Correspondence κ} {env env' : Env} {v w : Value} {x y : SetId}
  {span : Span}

-- ==================================================== what is combined

/-- Operations that correspond with nothing bound, written at one span. -/
theorem operation {m m' : CompileM κ Value} [Blind m] [Blind m']
    (hm : Corresponds .plain C.bare env env' m m' fun C' => C'.Values .plain)
    (h : Marks m span) (h' : Marks m' span) :
    Tracks S C env env' m m' fun C' => C'.Echoes := by
  have hanswer : Tracks S C env env' m m' fun C' a b =>
      ∀ p q, a = .pending p → b = .pending q → C'.bare.Answers .plain p q := by
    refine lift hm fun C₁ C' a b _ _ _ hab p q hp hq => ?_
    subst hp hq
    cases hab with
    | pending hpq => exact .of_plain hpq.type hpq.count.eq hpq.constant
  refine hanswer.runs.imp fun C' a b _ _ hab => ?_
  obtain ⟨hanswer, hrun, hrun'⟩ := hab
  obtain ⟨p, rfl, hp⟩ := h _ _ _ _ hrun
  obtain ⟨q, rfl, hq⟩ := h' _ _ _ _ hrun'
  exact .pending (hanswer p q rfl rfl) (hp.trans hq.symm)

/-- Sets that agree with nothing bound agree. -/
theorem agreeing {m m' : CompileM κ SetId} [Blind m] [Blind m']
    (hm : Corresponds .plain C.bare env env' m m' fun C' a b =>
      C'.Agree .plain env.frame.scope env'.frame.scope a b ∧ C'.SameConstant a b) :
    Tracks S C env env' m m' fun C' a b =>
      C'.bare.Agree .plain env.frame.scope env'.frame.scope a b ∧ C'.SameConstant a b :=
  lift hm fun _ _ _ _ _ hl hr hab => ⟨hab.1.of_stores hl hr, hab.2.of_stores hl hr⟩

-- ========================================================== attachment

/-- Values become sets that correspond. -/
theorem settle (hvw : C.Echoes v w) :
    Tracks S C env env' (CompileM.settle v none) (CompileM.settle w none) fun C' x y =>
      C'.sets x y ∧ C'.Aligned x y := by
  cases hvw with
  | set hxy haligned => exact pure ⟨hxy, haligned⟩
  | @pending p q hpq hspan =>
      unfold CompileM.settle
      dsimp only
      rw [← hpq.type, ← hpq.count.eq]
      by_cases hempty : p.type.isEmpty = true
      · rw [if_pos hempty, if_pos hempty]
        exact fun _ _ _ => .error
      · rw [if_neg hempty, if_neg hempty]
        exact (newComputed hpq.constant).imp fun _ _ _ _ _ h => ⟨h.1, h.2 fun _ => hspan⟩

theorem attach (hvw : C.Echoes v w) :
    Tracks S C env env' (CompileM.attach v none) (CompileM.attach w none) fun C' x y =>
      C'.sets x y ∧ C'.Aligned x y := by
  unfold CompileM.attach
  refine bind (settle hvw) fun C₁ x y _ hxy => intro fun hahead _ => ?_
  obtain ⟨n, m, hn, hm, hnm⟩ := hahead.exists_get? hxy.1
  refine read (run_getSet hn) (run_getSet hm) ?_
  rw [← hnm.type]
  by_cases hempty : n.type.isEmpty = true
  · rw [if_pos hempty, if_pos hempty]
    exact fun _ _ _ => .error
  · rw [if_neg hempty, if_neg hempty]
    exact pure hxy

/-- The step on both sides, from wherever it is run. -/
def Follows (S : Lead κ) (post : Correspondence κ → Env → Env → α → α → Prop)
    (m : CompileM κ α) : Prop :=
  ∀ (C : Correspondence κ) (env env' : Env), Tracks S C env env' m m fun C' =>
    post C' env env'

/-- An operand gives values that echo. -/
abbrev FollowsOperand (S : Lead κ) (operand : CompileM κ Value) : Prop :=
  Follows S (fun C _ _ => C.Echoes) operand

variable {operand : CompileM κ Value}

-- ============================================================ operators

theorem existence (ho : FollowsOperand S operand) :
    Tracks S C env env' (CompileM.existence operand span)
      (CompileM.existence operand span) fun C' => C'.Echoes := by
  unfold CompileM.existence
  refine bind (inScope (fun _ _ => bind (ho _ _ _) fun _ _ _ _ hvw => attach hvw)
    fun _ _ _ _ _ hxy => hxy) fun _ _ _ _ _ => ?_
  exact pure (.pending (.of_plain rfl rfl rfl) rfl)

-- ======================================================== set literals

/-- The elements of a set literal. -/
def EchoesAll (C : Correspondence κ) (es es' : List (Value × Span)) : Prop :=
  List.Forall₂ (fun e e' => C.Echoes e.1 e'.1) es es'

theorem setOf {es es' : List (Value × Span)} (hes : EchoesAll C es es') :
    Tracks S C env env' (CompileM.setOf es span) (CompileM.setOf es' span)
      fun C' => C'.Echoes := by
  have hvalues : ∀ {es es' : List (Value × Span)}, EchoesAll C es es' →
      Corresponds.ValuesAll .plain C.bare es es' := fun h => h.imp fun _ _ he => he.values
  cases hes with
  | nil => exact operation (Corresponds.setOf .nil fun hμ => by cases hμ) .pure .pure
  | @cons e e' _ _ he hes =>
      obtain ⟨v, _⟩ := e
      obtain ⟨w, _⟩ := e'
      cases hes with
      | nil => exact pure he
      | cons he' hes =>
          exact operation (Corresponds.setOf (hvalues (.cons he (.cons he' hes)))
            fun hμ => by cases hμ) .unionOf .unionOf

-- =============================================================== calls

/-- Arguments agree, and the cardinality of the call with them is one. -/
def AgreeCounted (C : Correspondence κ) (r r' : SetId × Cardinality) : Prop :=
  AgreeSomewhere .plain C.bare r.1 r'.1 ∧ r.2 = r'.2

theorem argument {param : Parameter} {position : Nat} {function : QualifiedName}
    {c : Cardinality} (ho : FollowsOperand S operand) :
    Tracks S C env env' (CompileM.argument operand param position function c)
      (CompileM.argument operand param position function c) AgreeCounted := by
  have hchecked : ∀ (C : Correspondence κ) (env env' : Env) (x y : SetId), C.sets x y →
      Tracks S C env env' (CompileM.checkArgument x param.type position function)
        (CompileM.checkArgument y param.type position function) fun C' a b =>
          C'.bare.Agree .plain env.frame.scope env'.frame.scope a b := by
    intro C env env' x y hxy
    refine intro fun hahead htied => lift (Corresponds.checkArgument
      (hahead.agree htied.framed.scope hxy)) fun _ _ _ _ _ hl hr hab => ?_
    exact hab.of_stores hl hr
  unfold CompileM.argument
  cases param.mode with
  | wholeSet =>
      have hwhole : Tracks S C env env'
          (CompileM.inScope do
            let id ← CompileM.attach (← operand) none
            CompileM.checkArgument id param.type position function)
          (CompileM.inScope do
            let id ← CompileM.attach (← operand) none
            CompileM.checkArgument id param.type position function)
          fun C' => AgreeSomewhere .plain C'.bare :=
        inScope (fun _ _ => bind (ho _ _ _) fun _ _ _ _ hvw =>
          bind (attach hvw) fun _ _ _ _ hxy => hchecked _ _ _ _ _ hxy.1)
          fun _ _ _ _ _ hab => ⟨_, _, hab⟩
      exact bind hwhole fun _ _ _ _ hab => pure ⟨hab, rfl⟩
  | element =>
      refine bind (ho _ _ _) fun _ _ _ _ hvw => bind (attach hvw) fun _ x y _ hxy => ?_
      refine bind (hchecked _ _ _ _ _ hxy.1) fun C₁ a b _ hab => ?_
      obtain ⟨d, hd, hd'⟩ := hab.exists_judge?
      exact read (run_judge hd) (run_judge hd') (pure ⟨⟨_, _, hab⟩, rfl⟩)

-- ============================================================= clauses

/-- What a clause takes agrees, and stands for one literal or for none. -/
theorem clauseOperand {hint : Option TypeId} (ho : FollowsOperand S operand) :
    Tracks S C env env' (CompileM.clauseOperand operand span hint)
      (CompileM.clauseOperand operand span hint) fun C' a b =>
        C'.bare.Agree .plain env.frame.scope env'.frame.scope a b
          ∧ C'.SameConstant a b := by
  unfold CompileM.clauseOperand
  refine bind_growing (fun v => ?_) (fun v => ?_) (ho C env env') ?_
  · cases v <;> dsimp only <;> infer_instance
  · cases v <;> dsimp only <;> infer_instance
  intro C₁ v w _ hvw
  cases hvw with
  | pending hpq hspan =>
      refine agreeing ((Corresponds.attach (.pending ?_)).imp
        fun _ _ _ _ _ _ h => ⟨h.1, h.2.1⟩)
      exact { hpq with span := fun _ => rfl }
  | set hxy haligned =>
      refine agreeing (Corresponds.bind (Corresponds.referenceAt_aligned hxy haligned) ?_)
      intro C₂ a b _ hab
      exact (Corresponds.attachSet hab.1).imp fun _ _ _ _ _ _ h => ⟨h.1, h.2.1 hab.2⟩

/-- One value, in a node of its own. -/
theorem oneValue {hint : Option TypeId} (ho : FollowsOperand S operand) :
    Tracks S C env env'
      (CompileM.inScope do
        let id ← CompileM.clauseOperand operand span hint
        CompileM.requireSingleton id
        return id)
      (CompileM.inScope do
        let id ← CompileM.clauseOperand operand span hint
        CompileM.requireSingleton id
        return id)
      fun C' x y => AgreeSomewhere .plain C'.bare x y ∧ C'.SameConstant x y := by
  refine inScope (fun _ _ => bind (clauseOperand ho) fun C₁ x y _ hxy =>
    agreeing (Corresponds.requireSingleton hxy.1 (.pure hxy))) ?_
  exact fun _ _ _ _ _ hxy => ⟨⟨_, _, hxy.1⟩, hxy.2⟩

/-- A condition, in a node of its own. -/
theorem filterBy (ho : FollowsOperand S operand) :
    Tracks S C env env' (CompileM.filterBy operand span)
      (CompileM.filterBy operand span) fun _ _ _ => True := by
  unfold CompileM.filterBy
  exact inScope (fun _ _ => inClause (clauseOperand ho)) fun _ _ _ _ _ _ => trivial

/-- A number of elements agrees and stands for one literal or for none. -/
theorem bound (ho : FollowsOperand S operand) :
    Tracks S C env env' (CompileM.bound operand span) (CompileM.bound operand span)
      fun C' x y => AgreeSomewhere .plain C'.bare x y ∧ C'.SameConstant x y :=
  oneValue ho

theorem key (ho : FollowsOperand S operand) :
    Tracks S C env env' (CompileM.key operand span) (CompileM.key operand span)
      fun _ _ _ => True :=
  (oneValue ho).imp fun _ _ _ _ _ _ => trivial

-- ========================================================== statements

theorem checkModule {module : String} :
    Tracks S C env env' (CompileM.checkModule module span)
      (CompileM.checkModule module span) fun C' _ _ => C' = C := by
  unfold CompileM.checkModule
  refine intro fun _ htied => read run_schema run_schema ?_
  rw [htied.framed.schema]
  cases env.schema.hasModule module with
  | true => exact of_run (run_require true _ _ _) (run_require true _ _ _) rfl
  | false => exact fun _ _ _ => .error

/-- Under module declarations, a step does as it does elsewhere. -/
theorem withModules {decls : List Ast.ModuleDecl} {m : CompileM κ α} [Growing m]
    {post : Correspondence κ → α → α → Prop}
    (hm : ∀ env₁ env₁' : Env, env₁'.frame.scope = env'.frame.scope →
      Tracks S C env₁ env₁' m m post) :
    Tracks S C env env' (CompileM.withModules decls m) (CompileM.withModules decls m)
      post := by
  induction decls generalizing env env' with
  | nil => exact hm env env' rfl
  | cons d decls ih =>
      unfold CompileM.withModules
      refine bind_growing (fun _ => Growing.underFrame) (fun _ => Growing.underFrame)
        checkModule fun C₁ _ _ _ h => ?_
      subst h
      have hd : d.Alike .same d := ⟨rfl, rfl, fun _ => rfl⟩
      refine underFrame (Frame.scope_declare · d) (Frame.subject_declare · d)
        (Corresponds.framed_declare · hd) (ih ?_)
      exact fun env₁ env₁' hs => hm env₁ env₁' (hs.trans (Frame.scope_declare _ d))

/-- The shape of sets that correspond, below the node of the lead. -/
theorem withShape {elements : List Ast.ShapeElement} {m m' : CompileM κ (List ShapeNode)}
    [Growing m] [Growing m'] (hbelow : S.store.scopes.size ≤ env'.frame.scope)
    (hxy : C.sets x y) (haligned : C.Aligned x y)
    (hm : ∀ (C₁ : Correspondence κ) (env₁ env₁' : Env),
      S.store.scopes.size ≤ env₁'.frame.scope → C₁.sets x y →
        Tracks S C₁ env₁ env₁' m m' fun _ _ _ => True) :
    Tracks S C env env' (CompileM.withShape x elements m)
      (CompileM.withShape y elements m') fun _ _ _ => True := by
  unfold CompileM.withShape
  cases elements with
  | nil => exact pure trivial
  | cons first rest =>
      have hobject : Tracks S C env env' (CompileM.requireObject x first.span)
          (CompileM.requireObject y first.span) fun _ _ _ => True :=
        lift (Corresponds.requireObject hxy) fun _ _ _ _ _ _ _ _ => trivial
      refine bind hobject fun C₁ _ _ h₁ _ => ?_
      have hxy₁ := h₁.sets x y hxy
      exact inClause (underSubject hbelow hxy₁ (haligned.mono h₁) (hm C₁ _ _ hbelow hxy₁))

/-- Two statements of one query have results that correspond, and one
cardinality. -/
structure SameStatement (C : Correspondence κ) (stmt stmt' : Statement) : Prop where
  result : C.sets stmt.result stmt'.result
  count : stmt.cardinality = stmt'.cardinality

theorem statementCardinality {filter filter' limit limit' : Option SetId}
    (hxy : C.sets x y) (hfilter : filter.isSome = filter'.isSome)
    (hlimit : Option.Rel (fun l l' => AgreeSomewhere .plain C.bare l l'
      ∧ C.SameConstant l l') limit limit') :
    Tracks S C env env' (CompileM.statementCardinality x filter limit)
      (CompileM.statementCardinality y filter' limit') fun _ c d => c = d := by
  refine lift (Corresponds.statementCardinality hxy hfilter
    (optionRel_imp (fun _ _ h => ⟨h.1, Or.inl h.2⟩) hlimit)) ?_
  exact fun _ _ _ _ _ _ _ htally => htally.eq

/-- A statement becomes a set. -/
theorem subquery {stmt stmt' : Statement} (h : SameStatement C stmt stmt') :
    Tracks S C env env' (CompileM.subquery stmt) (CompileM.subquery stmt')
      fun C' => C'.Echoes := by
  refine intro fun hahead _ => ?_
  obtain ⟨n, m, hn, hm, hnm⟩ := hahead.exists_get? h.result
  unfold CompileM.subquery
  refine read (run_typeOf hn) (run_typeOf hm) ?_
  rw [← hnm.type, ← h.count]
  refine bind (newComputed rfl) fun C₁ x y _ hxy => pure (.set hxy.1 (hxy.2 ?_))
  exact fun hconst => absurd rfl hconst

end Tracks

end CompileM

end PathQuery
