/-
What attaching a value at a type comes to.

A type that is asked for is a supertype of the set that is given, and the
set is the value: as it is, in a cast that the query does not ask for, or
for an empty set that awaits a type, an empty set of that type. It is
where the value is, it has as many elements, and asking again gives it
again (`Session.Hinted`). There is one reason not to be given it: the
value has a type, and the type does not convert.

An operation without a type is nothing but the empty set
(`CompileM.untyped_of_expr`), if neither a type of the schema nor a type
that a function returns is the one set aside for empty sets.
-/
import PathQuery.Proofs.Operator.SetLiteral
import PathQuery.Proofs.Span.Citation

namespace PathQuery

open Ast (Expr)
open Ir (Arena Value Pending SetNode)

variable {κ : Type}

section

-- =============================================================== types

namespace Schema

variable {s : Schema} {a c t : TypeId}

theorem passed_ne_empty (hreg : ∀ t, s.isRegistered t = true → t ≠ .empty)
    (param : ParamType) (ht : t ≠ .empty) : s.passed param t ≠ .empty := by
  cases param with
  | concrete target =>
      show s.converted t target ≠ .empty
      unfold converted
      split
      · next hconv =>
          rcases conversion?_cases hconv with ⟨hne, -⟩ | ⟨-, -, hfloat⟩
          · exact absurd rfl hne
          · exact hreg _ (isRegistered_of_scalarKind? hfloat)
      · exact ht
  | any => exact ht
  | numeric => exact ht

/-- Elements that have types have a type in common, if any. -/
theorem elementsType?_ne_empty (hreg : ∀ t, s.isRegistered t = true → t ≠ .empty)
    {types : List TypeId} (ha : a ≠ .empty) (h : s.elementsType? a types = some c) :
    c ≠ .empty := by
  rw [elementsType?_eq_foldlM hreg ha] at h
  have htypes : ∀ t ∈ types.filter (· ≠ .empty), t ≠ .empty := fun t ht => by
    simpa using (List.mem_filter.1 ht).2
  revert htypes h
  generalize types.filter (· ≠ .empty) = typed
  intro h htyped
  induction typed generalizing a with
  | nil =>
      cases h
      exact ha
  | cons t typed ih =>
      rw [List.forall_mem_cons] at htyped
      rw [List.foldlM_cons] at h
      obtain ⟨w, hw, h⟩ := Option.bind_eq_some_iff.1 h
      refine ih ?_ h htyped.2
      rcases commonType?_cases hw with ⟨rfl, -⟩ | ⟨rfl, -⟩ | ⟨-, -, hmem, -⟩
      · exact htyped.1
      · exact ha
      · exact hreg w (isRegistered_of_mem_ancestors hmem)

theorem resultType_ne_empty [NameDigest] (hlit : ∀ l : Literal, l.type ≠ .empty)
    (op : BinaryOp) (t u : TypeId) : s.resultType op t u ≠ .empty := by
  unfold resultType
  split
  · exact hlit (.bool true)
  · split
    · exact hlit (.str "")
    · split
      · exact hlit (.int 0)
      · exact hlit (.float ⟨0⟩)

end Schema

-- ================================================= operations of no type

namespace CompileM

variable {env : Env} {st st' : Store κ} {v : Value} {t : TypeId} {p : Pending}
  {span : Span}

/-- A value that was attached for its own sake had a type. -/
theorem valueType_ne_empty_of_attach {id : SetId}
    (h : (attach v none).run env st = (.ok id, st')) (hv : st.valueType? v = some t) :
    t ≠ .empty := by
  obtain ⟨t', ht', hne⟩ := ne_empty_of_attach h
  rw [type?_of_attach h hv] at ht'
  cases ht'
  exact hne

variable [NameDigest] [DecidableEq κ] [PathKey κ] {R : Regime}

omit [DecidableEq κ] [PathKey κ] in
/-- The elements of a union have a type in common. -/
theorem ne_empty_of_unionOf {elements : List (Value × Span)} {types : List TypeId}
    (hreg : ∀ t, env.schema.isRegistered t = true → t ≠ .empty)
    (hne : elements ≠ []) (ho : OfferedAll R env st elements types)
    (h : (unionOf elements span).run env st = (.ok (.pending p), st')) :
    p.type ≠ .empty := by
  unfold unionOf at h
  obtain ⟨out, hrun, htype⟩ := run_commonElementType .empty ho
  obtain ⟨c, mid, hc, h⟩ := ok_of_bind h
  rw [hrun] at hc
  cases hc
  obtain ⟨members, _, hmembers, h⟩ := ok_of_bind h
  cases h
  intro hempty
  obtain rfl : c = .empty := hempty
  cases ho with
  | nil => exact hne rfl
  | @cons e t elements types ho _ =>
      -- without a common type the first element is attached for its own sake
      rw [if_pos (TypeId.isEmpty_iff.2 rfl)] at hmembers
      unfold attachMembers at hmembers
      obtain ⟨id, _, hattach, -⟩ := ok_of_bind hmembers
      have ht := valueType_ne_empty_of_attach hattach (valueType?_of_offers ho)
      have hcommon := htype.symm
      unfold Schema.elementsType? at hcommon
      rw [if_neg fun h => ht (TypeId.isEmpty_iff.1 h),
        if_pos (TypeId.isEmpty_iff.2 rfl)] at hcommon
      exact Schema.elementsType?_ne_empty hreg ht hcommon rfl

/-- An argument is of some type. -/
theorem ne_empty_of_argument (hreg : ∀ t, env.schema.isRegistered t = true → t ≠ .empty)
    {e : Expr} {param : Parameter} {position : Nat} {function : QualifiedName}
    {c : Cardinality} {r : SetId × Cardinality}
    (h : (argument (expr e) param position function c).run env st = (.ok r, st')) :
    ∃ t, st'.arena.type? r.1 = some t ∧ t ≠ .empty := by
  -- whichever node it is compiled in
  have hchecked : ∀ {env' : Env} {st st' : Store κ} {v : Value} {x id : SetId} {mid},
      (attach v none).run env' st = (.ok x, mid) →
      (checkArgument x param.type position function).run env' mid = (.ok id, st') →
      env'.schema = env.schema → ∃ t, st'.arena.type? id = some t ∧ t ≠ .empty := by
    intro env' st st' v x id mid hattach hcheck hschema
    obtain ⟨t, ht, hne⟩ := ne_empty_of_attach hattach
    refine ⟨_, type?_of_checkArgument hcheck ht, ?_⟩
    rw [hschema]
    exact Schema.passed_ne_empty hreg param.type hne
  unfold argument at h
  cases hmode : param.mode with
  | wholeSet =>
      rw [hmode] at h
      obtain ⟨id, _, hscope, hpure⟩ := ok_of_bind h
      obtain ⟨rfl, rfl⟩ := ok_of_pure hpure
      rw [run_inScope] at hscope
      obtain ⟨v, _, -, hrest⟩ := ok_of_bind hscope
      obtain ⟨x, _, hattach, hcheck⟩ := ok_of_bind hrest
      exact hchecked hattach hcheck rfl
  | element =>
      rw [hmode] at h
      obtain ⟨v, _, -, hrest⟩ := ok_of_bind h
      obtain ⟨x, _, hattach, hrest⟩ := ok_of_bind hrest
      obtain ⟨y, _, hcheck, hrest⟩ := ok_of_bind hrest
      obtain ⟨d, _, hjudge, hpure⟩ := ok_of_bind hrest
      obtain ⟨rfl, rfl⟩ := ok_of_pure hpure
      obtain ⟨-, rfl⟩ := ok_of_judge hjudge
      exact hchecked hattach hcheck rfl

/-- So are all arguments of a call. -/
theorem ne_empty_of_arguments (hreg : ∀ t, env.schema.isRegistered t = true → t ≠ .empty)
    {function : QualifiedName} {args : List Expr} {position : Nat}
    {params : List Parameter} {c : Cardinality} {ids : List SetId × Cardinality}
    (h : (arguments function position params c args).run env st = (.ok ids, st')) :
    ∀ id ∈ ids.1, ∃ t, st'.arena.type? id = some t ∧ t ≠ .empty := by
  induction args generalizing position params c ids st with
  | nil =>
      have hnil : ids = ([], c) := by
        cases params with
        | nil => exact (ok_of_pure h).1
        | cons param params => exact (ok_of_pure h).1
      rw [hnil]
      exact nofun
  | cons e args ih =>
      cases params with
      | nil =>
          obtain ⟨rfl, -⟩ := ok_of_pure h
          exact nofun
      | cons param params =>
          unfold CompileM.arguments at h
          obtain ⟨⟨x, d⟩, mid, hx, hrest⟩ := ok_of_bind h
          obtain ⟨⟨rest, d'⟩, _, hids, hpure⟩ := ok_of_bind hrest
          obtain ⟨rfl, rfl⟩ := ok_of_pure hpure
          obtain ⟨t, ht, hne⟩ := ne_empty_of_argument hreg hx
          have hcomposed : Composes (fun _ => True)
              (arguments function (position + 1) params d args
                : CompileM κ (List SetId × Cardinality)) :=
            Composed.arguments args fun _ _ => trivial
          have hspread := hcomposed.spreads env mid
          rw [hids] at hspread
          rw [List.forall_mem_cons]
          exact ⟨⟨t, hspread.grows.arena.type? ht, hne⟩, ih hids⟩

/-- A call returns a type that the function declares, or the type of an
argument. -/
theorem ne_empty_of_callExpr (hreg : ∀ t, env.schema.isRegistered t = true → t ≠ .empty)
    (hret : env.schema.ReturnsProper) {function : Ast.NameRef} {args : List Expr}
    (h : (expr (.call function args span)).run env st = (.ok (.pending p), st')) :
    p.type ≠ .empty := by
  unfold expr at h
  obtain ⟨⟨name, sig⟩, mid, hcallee, h⟩ := ok_of_bind h
  obtain ⟨⟨ids, c⟩, _, hids, h⟩ := ok_of_bind h
  have hsig : env.schema.function? name = some sig := by
    unfold callee at hcallee
    obtain ⟨item, _, hitem, hname⟩ := ok_of_bind hcallee
    obtain ⟨hresolve, -⟩ := Infers.ok_of_resolve hitem
    cases item with
    | type id entry => cases hname
    | function f signature =>
        obtain ⟨_, _, -, hpure⟩ := ok_of_bind hname
        cases hpure
        exact Env.function?_of_resolve? (env.resolve?_eq _ ▸ hresolve)
  unfold call returnType at h
  obtain ⟨t, _, hreturns, h⟩ := ok_of_bind h
  cases h
  show t ≠ .empty
  cases hdecl : sig.returns with
  | concrete type =>
      rw [hdecl] at hreturns
      obtain ⟨rfl, -⟩ := ok_of_pure hreturns
      exact hret name sig t hsig hdecl
  | sameAs position =>
      rw [hdecl] at hreturns
      obtain ⟨id, _, horFail, htypeOf⟩ := ok_of_bind hreturns
      obtain ⟨hid, rfl⟩ := ok_of_orFail horFail
      obtain ⟨htype, -⟩ := ok_of_typeOf htypeOf
      obtain ⟨u, hu, hne⟩ := ne_empty_of_arguments hreg hids id
        (List.mem_of_getElem? hid)
      rw [htype] at hu
      cases hu
      exact hne

omit [NameDigest] [DecidableEq κ] [PathKey κ] in
/-- A negated operand is attached for its own sake, so it has a type. -/
theorem ne_empty_of_arithmeticNeg
    (h : (arithmeticNeg v span).run env st = (.ok (.pending p), st')) :
    p.type ≠ .empty := by
  unfold arithmeticNeg at h
  obtain ⟨id, _, hattach, h⟩ := ok_of_bind h
  obtain ⟨t, ht, hne⟩ := ne_empty_of_attach hattach
  obtain ⟨s, _, hs, h⟩ := ok_of_bind h
  cases hs
  obtain ⟨t', _, htype, h⟩ := ok_of_bind h
  obtain ⟨ht', -⟩ := ok_of_typeOf htype
  rw [ht] at ht'
  cases ht'
  obtain ⟨_, _, -, h⟩ := ok_of_bind h
  obtain ⟨_, _, -, h⟩ := ok_of_bind h
  obtain ⟨c, _, -, h⟩ := ok_of_bind h
  cases h
  exact hne

/-- The type of an operation is the one that is read off the expression. -/
theorem type?_of_pendingExpr (hr : env.Ready R st) {e : Expr}
    (h : (expr e).run env st = (.ok (.pending p), st')) :
    e.type? env.lexicon (env.subjectType? st) = some p.type := by
  obtain ⟨t, ht, hv⟩ := type?_of_expr hr h
  obtain rfl : p.type = t := Option.some.inj hv
  exact ht

/-- An expression that compiles to an operation of no type compiles to the
empty set. -/
theorem untyped_of_expr (hlit : ∀ l : Literal, l.type ≠ .empty)
    (hreg : ∀ t, env.schema.isRegistered t = true → t ≠ .empty)
    (hret : env.schema.ReturnsProper) (hr : env.Ready R st) :
    (e : Expr) → (expr e).run env st = (.ok (.pending p), st') → p.type = .empty →
      p.Untyped
  | .constant value _, h, hp => by
      cases h
      exact absurd hp (hlit value)
  | .emptySet _, h, _ => by
      cases h
      exact ⟨rfl, rfl, rfl⟩
  | .path _, h, _ => by
      unfold expr at h
      obtain ⟨id, _, -, h⟩ := ok_of_bind h
      cases h
  | .binary l op r _, h, hp => by
      have ht := type?_of_pendingExpr hr h
      unfold Expr.type? at ht
      obtain ⟨_, -, ht⟩ := Option.bind_eq_some_iff.1 ht
      obtain ⟨_, -, ht⟩ := Option.map_eq_some_iff.1 ht
      exact absurd (ht.trans hp) (Schema.resultType_ne_empty hlit _ _ _)
  | .unary .not _ _, h, hp => by
      have ht := type?_of_pendingExpr hr h
      exact absurd ((Option.some.inj ht).trans hp) (hlit (.bool true))
  | .unary .exists _ _, h, hp => by
      have ht := type?_of_pendingExpr hr h
      exact absurd ((Option.some.inj ht).trans hp) (hlit (.bool true))
  | .unary .neg _ _, h, hp => by
      unfold expr at h
      obtain ⟨_, _, -, hneg⟩ := ok_of_bind h
      exact absurd hp (ne_empty_of_arithmeticNeg hneg)
  | .call _ _ _, h, hp => absurd hp (ne_empty_of_callExpr hreg hret h)
  | .cast target _ _, h, hp => by
      have ht := type?_of_pendingExpr hr h
      unfold Expr.type? at ht
      split at ht
      · next id entry hresolve =>
          obtain rfl := Option.some.inj ht
          exact absurd hp (hreg _ (Schema.isRegistered_of_type?
            (Env.type?_of_resolve? (env.resolve?_eq _ ▸ hresolve))))
      · cases ht
      · cases ht
  | .set [] _, h, _ => by
      cases h
      exact ⟨rfl, rfl, rfl⟩
  | .set [e] _, h, hp => by
      unfold expr exprs at h
      obtain ⟨values, _, hvalues, h⟩ := ok_of_bind h
      obtain ⟨v, _, hv, hvalues⟩ := ok_of_bind hvalues
      obtain ⟨rest, _, hrest, hvalues⟩ := ok_of_bind hvalues
      cases hrest
      cases hvalues
      cases h
      exact untyped_of_expr hlit hreg hret hr e hv hp
  | .set (e :: e' :: es) _, h, hp => by
      unfold expr at h
      obtain ⟨values, _, hvalues, h⟩ := ok_of_bind h
      obtain ⟨types, htypes, ho⟩ := Infers.exprs _ _ _ _ _ hr hvalues
      have hlen : values.length = es.length + 2 :=
        ho.length_eq.trans (Expr.types?_eq_some htypes).2
      unfold setOf at h
      split at h
      · cases hlen
      · next hlen => simp at hlen
      · next hnil _ => exact absurd hp (ne_empty_of_unionOf hreg (by simpa using hnil) ho h)
  | .select _, h, _ => by
      unfold expr subquery at h
      obtain ⟨stmt, _, -, h⟩ := ok_of_bind h
      obtain ⟨t, _, -, h⟩ := ok_of_bind h
      obtain ⟨id, _, -, h⟩ := ok_of_bind h
      cases h
  | .paren inner _, h, hp => untyped_of_expr hlit hreg hret hr inner h hp

-- =========================================================== attachment

omit [NameDigest] [DecidableEq κ] [PathKey κ]

variable {c : TypeId} {id : SetId} {node : SetNode κ}

/-- A set that has a type is given it once more. -/
theorem run_attach_of_isSubtype (hid : st.arena.type? id = some t) (hne : t ≠ .empty)
    (hsub : env.schema.isSubtype t c = true) :
    (attach (.set id) (some c)).run env st = (.ok id, st) := by
  obtain ⟨node, hn, rfl⟩ := Arena.type?_eq_some_iff.1 hid
  show (coerce id c).run env st = _
  unfold coerce
  rw [run_bind_ok (run_getSet hn), run_bind_ok run_schema,
    if_neg fun h => hne (TypeId.isEmpty_iff.1 h)]
  unfold Schema.conversion?
  rw [if_pos hsub]
  by_cases heq : node.type = c
  · rw [if_pos heq]
    rfl
  · rw [if_neg heq]
    rfl

/-- A set is made to have a type, unless it has one that does not
convert. -/
theorem coerce_cases (env : Env) (c : TypeId) (hn : st.arena.get? id = some node) :
    ((node.type = .empty ∨ env.schema.Converts node.type c)
        ∧ (coerce id c).Succeeds env st)
      ∨ (node.type ≠ .empty ∧ env.schema.conversion? node.type c = none
        ∧ ∃ m, (coerce id c).run env st = (.error (.mismatch m node.span), st)) := by
  obtain ⟨d, hd⟩ := st.exists_judge? env.frame.scope hn
  have htype := Arena.type?_eq_some_iff.2 ⟨node, hn, rfl⟩
  by_cases hempty : node.type = .empty
  · refine Or.inl ⟨Or.inl hempty, ?_⟩
    unfold coerce
    rw [succeeds_read (run_getSet hn), succeeds_read run_schema,
      if_pos (TypeId.isEmpty_iff.2 hempty), succeeds_read (run_judge hd)]
    exact exists_run_newComputed _ _ _ _ _ _
  · have hnot : ¬ node.type.isEmpty = true := fun h => hempty (TypeId.isEmpty_iff.1 h)
    cases hconv : env.schema.conversion? node.type c with
    | some conversion =>
        refine Or.inl ⟨Or.inr (Option.isSome_iff_exists.2 ⟨conversion, hconv⟩), ?_⟩
        unfold coerce
        rw [succeeds_read (run_getSet hn), succeeds_read run_schema, if_neg hnot, hconv]
        cases conversion with
        | identity => exact succeeds_pure _
        | upcast => exact succeeds_pure _
        | implicit => exact castSet_succeeds htype
        | explicit => exact castSet_succeeds htype
    | none =>
        refine Or.inr ⟨hempty, rfl, ?_⟩
        unfold coerce
        rw [run_bind_ok (run_getSet hn), run_bind_ok run_schema, if_neg hnot, hconv,
          run_bind_ok run_frame]
        exact ⟨_, rfl⟩

/-- So is a value. What is said of it then is said where it was written. -/
theorem attach_cases (env : Env) (c : TypeId) (hv : st.valueType? v = some t) :
    ((t = .empty ∨ env.schema.Converts t c) ∧ (attach v (some c)).Succeeds env st)
      ∨ (t ≠ .empty ∧ env.schema.conversion? t c = none ∧ ∃ m span st',
        (attach v (some c)).run env st = (.error (.mismatch m span), st')
          ∧ v.From st span) := by
  cases v with
  | set id =>
      obtain ⟨node, hn, rfl⟩ := Arena.type?_eq_some_iff.1 hv
      rcases coerce_cases env c hn with hok | ⟨hne, hconv, m, hrun⟩
      · exact Or.inl hok
      · exact Or.inr ⟨hne, hconv, m, _, _, hrun, node, hn, rfl⟩
  | pending p =>
      obtain rfl : p.type = t := Option.some.inj hv
      by_cases hempty : p.type = .empty
      · -- it is settled at the type that is asked for, and has it then
        refine Or.inl ⟨Or.inl hempty, ?_⟩
        obtain ⟨x, mid, hx⟩ :=
          exists_run_newComputed env st p.operation c p.cardinality p.span
        refine succeeds_bind.2 ⟨x, mid, ?_, ?_⟩
        · unfold settle
          dsimp only
          rw [if_pos (TypeId.isEmpty_iff.2 hempty)]
          exact hx
        · rcases coerce_cases env c (get?_of_newComputed hx) with ⟨-, hok⟩
            | ⟨-, hconv, -⟩
          · exact hok
          · rw [Schema.conversion?_self] at hconv
            cases hconv
      · obtain ⟨x, mid, hx⟩ :=
          exists_run_newComputed env st p.operation p.type p.cardinality p.span
        have hsettle : (settle (.pending p) (some c)).run env st = (.ok x, mid) := by
          unfold settle
          dsimp only
          rw [if_neg fun h => hempty (TypeId.isEmpty_iff.1 h)]
          exact hx
        rcases coerce_cases env c (get?_of_newComputed hx) with ⟨hor, hok⟩
          | ⟨hne, hconv, m, hrun⟩
        · exact Or.inl ⟨hor, succeeds_bind.2 ⟨x, mid, hsettle, hok⟩⟩
        · exact Or.inr ⟨hne, hconv, m, _, _, (run_bind_ok hsettle).trans hrun, rfl⟩

/-- A value fails to be attached with a mismatch where it was written. -/
theorem error_of_attach {hint : Option TypeId} {error : CompileError}
    (hv : st.valueType? v = some t)
    (h : (attach v hint).run env st = (.error error, st')) :
    error.kind = .typeMismatch ∧ v.From st error.span := by
  cases hint with
  | some c =>
      rcases attach_cases env c hv with ⟨-, id, st₁, hok⟩
        | ⟨-, -, m, span, st₁, hrun, hfrom⟩
      · rw [hok] at h
        cases h
      · rw [hrun] at h
        cases h
        exact ⟨rfl, hfrom⟩
  | none =>
      unfold attach settle at h
      cases v with
      | set id =>
          obtain ⟨node, hn, -⟩ := Arena.type?_eq_some_iff.1 hv
          rw [run_bind_ok (run_pure id env st), run_bind_ok (run_getSet hn)] at h
          split at h
          · cases h
            exact ⟨rfl, node, hn, rfl⟩
          · cases h
      | pending p =>
          dsimp only at h
          split at h
          · cases h
            exact ⟨rfl, rfl⟩
          · next hne =>
              obtain ⟨x, mid, hx⟩ :=
                exists_run_newComputed env st p.operation p.type p.cardinality p.span
              rw [run_bind_ok hx, run_bind_ok (run_getSet (get?_of_newComputed hx)),
                if_neg hne] at h
              cases h

/-- What was attached is where the value was written. -/
theorem from_of_attach {hint : Option TypeId} (hv : st.valueType? v = some t)
    (h : (attach v hint).run env st = (.ok id, st')) :
    ∃ node, st'.arena.get? id = some node ∧ v.From st node.span := by
  cases v with
  | set x =>
      obtain ⟨m, hm, -⟩ := Arena.type?_eq_some_iff.1 hv
      obtain ⟨node, hn, hspan⟩ := span_of_attach (v := .set x) ⟨m, hm, rfl⟩ h
      exact ⟨node, hn, m, hm, hspan.symm⟩
  | pending p =>
      obtain ⟨node, hn, hspan⟩ := span_of_attach (v := .pending p) rfl h
      exact ⟨node, hn, hspan.symm⟩

end CompileM

/-- A value that has a type, or awaits one, is counted. -/
theorem Store.exists_valueCount? {st : Store κ} {v : Value} {t : TypeId}
    (scope : ScopeId) (hv : st.valueType? v = some t) :
    ∃ c, st.valueCount? scope v = some c := by
  cases v with
  | set id =>
      obtain ⟨node, hn, -⟩ := Arena.type?_eq_some_iff.1 hv
      exact st.exists_judge? scope hn
  | pending p => exact ⟨p.cardinality, rfl⟩

/-- What is attached at a type has one. -/
theorem Schema.attached_ne_empty {s : Schema} {c : TypeId} (t : TypeId) (hc : c ≠ .empty) :
    s.attached t (some c) ≠ .empty := by
  unfold attached
  dsimp only
  split
  · exact hc
  · next hnot =>
      unfold converted
      split
      · exact hc
      · exact fun h => hnot (TypeId.isEmpty_iff.2 h)

-- ============================================================== sessions

namespace Session

/-- A set that was given for a value when the type `h` was asked for. -/
structure Hinted (s s' : Session κ) (v : Value) (h : TypeId) (r : SetId) : Prop where
  subtype : ∃ t, s'.store.arena.type? r = some t ∧ s.schema.isSubtype t h = true
  /-- It is the value, the value in a cast, or an empty set for one. -/
  unites : s'.store.Unites s.schema h v r
  span : ∃ node, s'.store.arena.get? r = some node ∧ v.From s.store node.span
  /-- It has as many elements, as seen from the active node. -/
  count : ∃ c, s.store.valueCount? s.frame.scope v = some c
    ∧ s'.store.judge? s.frame.scope r = some c
  /-- It is given when the type is asked for again, and no other set is
  made. -/
  again : s'.step (CompileM.attach (.set r) (some h)) = (.ok r, s')

variable [NameDigest] [DecidableEq κ] [PathKey κ]

theorem hinted_of_attach {s s' : Session κ} {v : Value} {h t : TypeId} {r : SetId}
    (hh : h ≠ .empty) (hv : s.store.valueType? v = some t)
    (hawaits : t = .empty → s.store.Awaits v)
    (hattach : s.step (CompileM.attach v (some h)) = (.ok r, s')) : s.Hinted s' v h r := by
  obtain ⟨hrun, henv⟩ := run_of_step hattach
  obtain ⟨u, hu, hsub⟩ := CompileM.isSubtype_of_attach hrun
  obtain ⟨c, hc⟩ := Store.exists_valueCount? s.frame.scope hv
  have hne : u ≠ .empty := by
    rw [CompileM.type?_of_attach hrun hv] at hu
    cases hu
    exact Schema.attached_ne_empty t hh
  refine ⟨⟨u, hu, hsub⟩, CompileM.unites_of_attach hh hv hawaits hrun,
    CompileM.from_of_attach hv hrun, ⟨c, hc, CompileM.judge?_of_attach hrun hc⟩, ?_⟩
  refine step_of_run (CompileM.run_attach_of_isSubtype hu hne ?_)
  rw [henv]
  exact hsub

/-- A session goes on against the schema that it was started against. -/
theorem Steps.schema_eq {lexical : Prop} {s s' : Session κ} (h : Steps lexical s s') :
    s'.schema = s.schema := by
  induction h with
  | refl => rfl
  | @tail s₁ s₂ _ hnext ih =>
      refine Eq.trans ?_ ih
      cases hnext with
      | leave =>
          unfold leave
          cases s₁.outer <;> rfl
      | _ => rfl

end Session

end

open scoped Xxh64

/-- No constant is of the type that is set aside for empty sets. -/
theorem Literal.type_ne_empty (l : Literal) : l.type ≠ .empty := by
  cases l with
  | int n =>
      show TypeId.int ≠ .empty
      decide +kernel
  | float x =>
      show TypeId.float ≠ .empty
      decide +kernel
  | str s =>
      show TypeId.str ≠ .empty
      decide +kernel
  | bool b =>
      show TypeId.bool ≠ .empty
      decide +kernel

namespace Session

open CompileM

variable [DecidableEq κ] [PathKey κ] {s s₁ s₂ : Session κ}

/-- Attaching what an expression has compiled to at a type gives a set of
that type or of a subtype, which is the value, is where the value is and
has as many elements, and attaching that set gives it again. It fails
exactly if the value has a type and that does not convert, and then with a
mismatch where the value is. -/
theorem Reachable.attach_hint {lexical : Prop} {e : Expr} {v : Value} {h : TypeId}
    (hs : Reachable lexical s)
    (hreg : ∀ t, s.schema.isRegistered t = true → t ≠ .empty)
    (hret : s.schema.ReturnsProper) (hstep : s.step (expr e) = (.ok v, s₁))
    (hlater : Steps lexical s₁ s₂) (hh : h ≠ .empty) :
    (∀ r s₃, s₂.step (attach v (some h)) = (.ok r, s₃) → s₂.Hinted s₃ v h r)
      ∧ (∀ error s₃, s₂.step (attach v (some h)) = (.error error, s₃) →
        error.kind = .typeMismatch ∧ v.From s₂.store error.span)
      ∧ ((∃ error s₃, s₂.step (attach v (some h)) = (.error error, s₃))
        ↔ ∃ t, s₂.store.valueType? v = some t ∧ t ≠ .empty
          ∧ s.schema.conversion? t h = none) := by
  obtain ⟨hrun, henv⟩ := run_of_step hstep
  have hready := hs.ready
  obtain ⟨t, ho⟩ := (Upholds.expr e s.env s.store).returned hready.active hrun
  have hready₁ : s₁.Ready (.tracking lexical) := by
    have hkept := (hready.step (.expr e _ _)).1
    rwa [hstep] at hkept
  obtain ⟨-, hext⟩ := hready₁.steps hlater
  have hv := Store.valueType?_mono hext.arena (valueType?_of_offers ho)
  have hschema : s₂.schema = s.schema :=
    hlater.schema_eq.trans (congrArg Env.schema henv)
  have hawaits : t = .empty → s₂.store.Awaits v := by
    rintro rfl
    cases v with
    | set x => exact hv
    | pending p =>
        exact untyped_of_expr Literal.type_ne_empty hreg hret hready.active e hrun
          (Option.some.inj hv)
  have hcases := attach_cases s₂.env h hv
  refine ⟨fun r s₃ hattach => hinted_of_attach hh hv hawaits hattach,
    fun error s₃ hattach => error_of_attach hv (run_of_step hattach).1, ?_⟩
  constructor
  · rintro ⟨error, s₃, hattach⟩
    obtain ⟨hrun', -⟩ := run_of_step hattach
    rcases hcases with ⟨-, r, st, hok⟩ | ⟨hne, hconv, -⟩
    · rw [hok] at hrun'
      cases hrun'
    · exact ⟨t, hv, hne, hschema ▸ hconv⟩
  · rintro ⟨u, hu, hne, hconv⟩
    rw [hv] at hu
    cases hu
    rcases hcases with ⟨hor, -⟩ | ⟨-, -, m, span, st, herr, -⟩
    · have hconverts := hor.resolve_left hne
      unfold Schema.Converts at hconverts
      rw [show s₂.env.schema = s.schema from hschema, hconv] at hconverts
      cases hconverts
    · exact ⟨_, _, step_of_run herr⟩

end Session

-- ============================================================== example

/-- An integer where a float is asked for. -/
theorem attach_hint_number : ∃ r s,
    beforeFriends.step (CompileM.attach (.constant (.int 1) .unknown)
        (some TypeId.float)) = (.ok r, s)
      ∧ beforeFriends.Hinted s (.constant (.int 1) .unknown) TypeId.float r := by
  obtain ⟨hbuilt, -, hproper, -⟩ := numbers_checks
  have hschema : beforeFriends.schema = Registry.builtin.schemaOf people := by
    unfold beforeFriends
    rw [Session.schema_start]
  have hreg : ∀ t, beforeFriends.schema.isRegistered t = true → t ≠ .empty := by
    rw [hschema]
    exact fun t ht => (Registry.builds_schemaOf hbuilt).ne_empty
      Registry.builtin_reached.1 (Schema.proper_of_forall hproper) ht
  have hreturns : beforeFriends.schema.ReturnsRegistered := by
    rw [hschema]
    exact Schema.returnsRegistered_of_check (by decide +kernel)
  have hone : ∀ s : Session PathId, s.step (CompileM.expr (.constant (.int 1) .unknown))
      = (.ok (.constant (.int 1) .unknown), s) := fun _ => rfl
  obtain ⟨hok, -, hfails⟩ := Session.Reachable.attach_hint
    (reachable_beforeFriends True) hreg
    (fun f sig t hf ht => hreg t (hreturns f sig t hf ht))
    (hone beforeFriends) .refl (Literal.type_ne_empty (.float ⟨0⟩))
  have hconverts : beforeFriends.schema.conversion? TypeId.int TypeId.float ≠ none := by
    rw [hschema]
    decide +kernel
  cases hstep : beforeFriends.step (CompileM.attach (.constant (.int 1) .unknown)
      (some TypeId.float)) with
  | mk out s =>
      cases out with
      | ok r => exact ⟨r, s, rfl, hok r s hstep⟩
      | error e =>
          obtain ⟨t, ht, -, hnone⟩ := hfails.1 ⟨e, s, hstep⟩
          cases ht
          exact absurd hnone hconverts

end PathQuery
