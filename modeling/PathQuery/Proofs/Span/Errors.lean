/-
Errors point into the query.

What holds of the compiler's functions (`Cites`) is put together here by
one recursion on the syntax. Then the spans are those of the syntax that
was compiled, so an error of a whole statement points into the statement
(`compile_cites`), and an error of an expression, in whatever session,
points into the expression or, if it is a mismatch of types, to a set
that the session had already (`cited_of_expr`). The second case does
occur (`mismatch_elsewhere`): operators, arguments and casts report on
the set they are given, and that may be a path that other syntax met
first.
-/
import PathQuery.Proofs.Session.Reachable
import PathQuery.Proofs.Span.Citation

namespace PathQuery

open Ast (Expr Select ShapeElement)
open Ir (Value)

variable {κ : Type}

namespace CompileM

-- =========================================================== the syntax

namespace Cites

variable [DecidableEq κ] [PathKey κ] [NameDigest] {S : Sources}

omit [DecidableEq κ] [PathKey κ] [NameDigest] in
theorem span_of_elements (elements : List ShapeElement)
    (h : ∀ span ∈ ShapeElement.spansOf elements, S.own span) :
    ∀ e ∈ elements, S.own e.span := by
  induction elements with
  | nil =>
      intro e he
      cases he
  | cons e es ih =>
      have ⟨he, hes⟩ := List.forall_mem_append.1 h
      exact List.forall_mem_cons.2 ⟨he _ e.span_mem_spans, ih hes⟩

/-- A statement from its parts. -/
theorem selectOf {modules : List Ast.ModuleDecl} {result : Expr}
    {elements : List ShapeElement} {filter offset limit : Option Expr}
    {groupBy : List Expr} {orderBy : List Ast.SortKey} {span : Span}
    (hspan : S.own span) (hmodules : ∀ d ∈ modules, S.own d.span)
    (hspans : ∀ e ∈ elements, S.own e.span)
    (hresult : Cites (κ := κ) S (Value.Spanned S) (CompileM.expr result))
    (helements : ∀ subject, Cites (κ := κ) S (fun _ => True)
      (CompileM.shapeElements subject [] elements))
    (hfilter : Cites (κ := κ) S (fun _ => True) (CompileM.filterClause filter))
    (hgroupBy : Cites (κ := κ) S (fun _ => True) (CompileM.groupKeys groupBy))
    (horderBy : Cites (κ := κ) S (fun _ => True) (CompileM.sortKeys orderBy))
    (hoffset : Cites (κ := κ) S (fun _ => True) (CompileM.boundClause offset))
    (hlimit : Cites (κ := κ) S (fun _ => True) (CompileM.boundClause limit)) :
    Cites (κ := κ) S (fun stmt => S.own stmt.span) (CompileM.select
      ⟨modules, result, elements, filter, groupBy, orderBy, offset, limit,
        span⟩) := by
  unfold CompileM.select
  refine inScope (inClause (withModules hmodules (.bind hresult fun _ hv =>
    .bind (attach hv) fun x _ => underSubject ?_)))
  exact .bind (withShape hspans (helements x)) fun _ _ =>
    .bind hfilter fun _ _ => .bind (inClause hgroupBy) fun _ _ =>
    .bind (inClause horderBy) fun _ _ => .bind (inClause hoffset) fun _ _ =>
    .bind (inClause hlimit) fun _ _ => .bind statementCardinality fun _ _ =>
    .bind frame fun _ _ => pure hspan

mutual

theorem expr : (e : Expr) → (∀ span ∈ e.spans, S.own span) →
    Cites (κ := κ) S (Value.Spanned S) (CompileM.expr e)
  | .constant _ _, h => pure (h _ List.mem_cons_self)
  | .emptySet _, h => pure (h _ List.mem_cons_self)
  | .path _, h => .bind (path h) fun _ _ => pure trivial
  | .binary l _ r _, h =>
      have ⟨hspans, hright⟩ := List.forall_mem_append.1 h
      have ⟨hspan, hleft⟩ := List.forall_mem_cons.1 hspans
      .bind (expr l hleft) fun _ hl => .bind (expr r hright) fun _ hr =>
        binary hl hr hspan
  | .unary .not operand _, h =>
      have ⟨hspan, h⟩ := List.forall_mem_cons.1 h
      .bind (expr operand h) fun _ hv => logicalNot hv hspan
  | .unary .neg operand _, h =>
      have ⟨hspan, h⟩ := List.forall_mem_cons.1 h
      .bind (expr operand h) fun _ hv => arithmeticNeg hv hspan
  | .unary .exists operand _, h =>
      have ⟨hspan, h⟩ := List.forall_mem_cons.1 h
      existence (expr operand h) hspan
  | .call _ args _, h =>
      have ⟨hspan, h⟩ := List.forall_mem_cons.1 h
      have ⟨hname, h⟩ := List.forall_mem_cons.1 h
      .bind (callee hname hspan) fun _ _ => .bind (arguments args h) fun _ _ =>
        call hspan
  | .cast _ operand _, h =>
      have ⟨hspan, h⟩ := List.forall_mem_cons.1 h
      have ⟨hname, h⟩ := List.forall_mem_cons.1 h
      .bind (castTarget hname) fun _ _ => .bind (expr operand h) fun _ hv =>
        cast hv hspan
  | .set elements _, h =>
      have ⟨hspan, h⟩ := List.forall_mem_cons.1 h
      .bind (exprs elements h) fun _ hvs => setOf hvs hspan
  | .select query, h => .bind (select query h) fun _ hspan => subquery hspan
  | .paren inner _, h => expr inner (List.forall_mem_cons.1 h).2
termination_by structural e => e

theorem exprs : (es : List Expr) → (∀ span ∈ Expr.spansOf es, S.own span) →
    Cites (κ := κ) S (fun values => ∀ v ∈ values, v.1.Spanned S ∧ S.own v.2)
      (CompileM.exprs es)
  | [], _ => pure fun _ hv => by cases hv
  | e :: es, h =>
      have ⟨he, hes⟩ := List.forall_mem_append.1 h
      .bind (expr e he) fun _ hv => .bind (exprs es hes) fun _ hvs =>
        pure (List.forall_mem_cons.2 ⟨⟨hv, he _ e.span_mem_spans⟩, hvs⟩)
termination_by structural es => es

theorem arguments : (args : List Expr) →
    (∀ span ∈ Expr.spansOf args, S.own span) →
    ∀ {function : QualifiedName} {position : Nat} {params : List Parameter}
      {c : Cardinality}, Cites (κ := κ) S (fun _ => True)
        (CompileM.arguments function position params c args)
  | [], _, _, _, [], _ => pure trivial
  | [], _, _, _, _ :: _, _ => pure trivial
  | _ :: _, _, _, _, [], _ => pure trivial
  | arg :: args, h, _, _, _ :: _, _ =>
      have ⟨harg, hargs⟩ := List.forall_mem_append.1 h
      .bind (argument (expr arg harg)) fun _ _ =>
        .bind (arguments args hargs) fun _ _ => pure trivial
termination_by structural args => args

theorem filterClause : (f : Option Expr) →
    (∀ span ∈ Expr.spansIn f, S.own span) →
    Cites (κ := κ) S (fun _ => True) (CompileM.filterClause f)
  | none, _ => pure trivial
  | some e, h => .bind (filterBy (expr e h) (h _ e.span_mem_spans)) fun _ _ =>
      pure trivial
termination_by structural f => f

theorem boundClause : (n : Option Expr) →
    (∀ span ∈ Expr.spansIn n, S.own span) →
    Cites (κ := κ) S (fun _ => True) (CompileM.boundClause n)
  | none, _ => pure trivial
  | some e, h => .bind (bound (expr e h) (h _ e.span_mem_spans)) fun _ _ =>
      pure trivial
termination_by structural n => n

theorem groupKeys : (keys : List Expr) →
    (∀ span ∈ Expr.spansOf keys, S.own span) →
    Cites (κ := κ) S (fun _ => True) (CompileM.groupKeys keys)
  | [], _ => pure trivial
  | e :: es, h =>
      have ⟨he, hes⟩ := List.forall_mem_append.1 h
      .bind (key (expr e he) (he _ e.span_mem_spans)) fun _ _ =>
        .bind (groupKeys es hes) fun _ _ => pure trivial
termination_by structural keys => keys

theorem sortKeys : (keys : List Ast.SortKey) →
    (∀ span ∈ Ast.SortKey.spansOf keys, S.own span) →
    Cites (κ := κ) S (fun _ => True) (CompileM.sortKeys keys)
  | [], _ => pure trivial
  | ⟨e, _, _, _⟩ :: keys, h =>
      have ⟨hkey, hkeys⟩ := List.forall_mem_append.1 h
      have he := (List.forall_mem_cons.1 hkey).2
      .bind (key (expr e he) (he _ e.span_mem_spans)) fun _ _ =>
        .bind (sortKeys keys hkeys) fun _ _ => pure trivial
termination_by structural keys => keys

theorem shapeElement : (e : ShapeElement) →
    (∀ span ∈ e.spans, S.own span) → ∀ subject,
      Cites (κ := κ) S (fun _ => True) (CompileM.shapeElement subject e)
  | .mk _ (some e) _ _, h, _ =>
      have ⟨hspans, _⟩ := List.forall_mem_append.1 h
      .bind (expr e (List.forall_mem_cons.1 hspans).2) fun _ hv =>
        .bind (attach hv) fun _ _ => pure trivial
  | .mk _ none elements _, h, _ =>
      have ⟨hspans, helements⟩ := List.forall_mem_append.1 h
      have hown := (List.forall_mem_cons.1 hspans).1
      .bind (extendPath hown) fun set _ =>
        .bind (withShape (span_of_elements elements helements)
          (shapeElements elements helements set [])) fun _ _ => pure trivial
termination_by structural e => e

theorem shapeElements : (es : List ShapeElement) →
    (∀ span ∈ ShapeElement.spansOf es, S.own span) → ∀ subject taken,
      Cites (κ := κ) S (fun _ => True) (CompileM.shapeElements subject taken es)
  | [], _, _, _ => pure trivial
  | e :: es, h, subject, _ =>
      have ⟨he, hes⟩ := List.forall_mem_append.1 h
      .bind (require (.own (he _ e.span_mem_spans))) fun _ _ =>
        .bind (inScope (shapeElement e he subject)) fun _ _ =>
        .bind (shapeElements es hes subject _) fun _ _ => pure trivial
termination_by structural es => es

theorem select : (q : Select) → (∀ span ∈ q.spans, S.own span) →
    Cites (κ := κ) S (fun stmt => S.own stmt.span) (CompileM.select q)
  | ⟨_, result, elements, filter, groupBy, orderBy, offset, limit, _⟩, h =>
      have ⟨h, hlimit⟩ := List.forall_mem_append.1 h
      have ⟨h, hoffset⟩ := List.forall_mem_append.1 h
      have ⟨h, horderBy⟩ := List.forall_mem_append.1 h
      have ⟨h, hgroupBy⟩ := List.forall_mem_append.1 h
      have ⟨h, hfilter⟩ := List.forall_mem_append.1 h
      have ⟨h, hshape⟩ := List.forall_mem_append.1 h
      have ⟨h, hresult⟩ := List.forall_mem_append.1 h
      have ⟨hspan, hmodules⟩ := List.forall_mem_cons.1 h
      selectOf hspan (List.forall_mem_map.1 hmodules)
        (span_of_elements elements hshape) (expr result hresult)
        (fun subject => shapeElements elements hshape subject [])
        (filterClause filter hfilter) (groupKeys groupBy hgroupBy)
        (sortKeys orderBy horderBy) (boundClause offset hoffset)
        (boundClause limit hlimit)
termination_by structural q => q

end

-- =========================================================== the whole

omit [DecidableEq κ] [PathKey κ] [NameDigest] in
theorem checkOptions {o : CompileOptions} {span : Span} (h : S.own span) :
    Cites (κ := κ) S (fun _ => True) (CompileM.checkOptions o span) := by
  unfold CompileM.checkOptions
  generalize o.defaultModule.toList ++ o.aliases.values = modules
  induction modules with
  | nil => exact pure trivial
  | cons module modules ih =>
      exact .bind (f := fun _ => modules.forM _) (checkModule h) fun _ _ => ih

theorem statement (o : CompileOptions) (q : Select)
    (h : ∀ span ∈ q.spans, S.own span) :
    Cites (κ := κ) S (fun _ => True) (CompileM.statement o q) := by
  have hspan : S.own q.span := by
    obtain ⟨modules, result, elements, filter, groupBy, orderBy, offset, limit,
      span⟩ := q
    exact h _ (by simp [Select.spans])
  unfold CompileM.statement CompileM.limitImplicitly
  refine .bind (checkOptions hspan) fun _ _ => .bind (select q h) fun s hs => ?_
  split
  · split
    · exact pure trivial
    · exact .bind (newComputed (S.seen_of_own _ hs)) fun _ _ =>
        .bind limited fun _ _ => pure trivial
  · exact pure trivial

end Cites

end CompileM

-- ============================================================== errors

section

variable [DecidableEq κ] [PathKey κ] [NameDigest]

/-- An error of an expression points into the expression. If it is a
mismatch of types, then it may point to a set instead that was there
before. -/
theorem cited_of_expr {e : Expr} {err : CompileError} {env : Env}
    {st st' : Store κ}
    (h : (CompileM.expr e).run env st = (.error err, st'))
    (hkind : err.kind ≠ .internal) :
    err.span ∈ e.spans ∨ (err.kind = .typeMismatch
      ∧ ∃ id node, st.arena.get? id = some node ∧ node.span = err.span) := by
  have hcites := CompileM.Cites.expr (κ := κ) (S := ⟨(· ∈ e.spans),
    fun span => span ∈ e.spans
      ∨ ∃ id node, st.arena.get? id = some node ∧ node.span = span,
    fun _ => Or.inl⟩) e (fun _ hspan => hspan) env st
    fun id node hn => Or.inr ⟨id, node, hn, rfl⟩
  rw [h] at hcites
  cases hcites.2.2 err rfl with
  | internal hinternal => exact absurd hinternal hkind
  | own hown => exact Or.inl hown
  | mismatch hmismatch hseen =>
      exact hseen.imp_right fun hset => ⟨hmismatch, hset⟩

/-- An error of a whole statement points into the statement. -/
theorem compile_cites {s : Schema} {o : CompileOptions} {q : Select}
    {err : CompileError} (h : compileWith κ s o q = .error err)
    (hkind : err.kind ≠ .internal) : err.span ∈ q.spans := by
  have hcites := CompileM.Cites.statement (κ := κ)
    (S := ⟨(· ∈ q.spans), (· ∈ q.spans), fun _ h => h⟩) o q (fun _ h => h)
    ⟨s, o.frame⟩ .new fun id node hn => by cases hn
  unfold compileWith at h
  split at h
  · cases h
  · next hrun =>
      cases h
      rw [hrun] at hcites
      cases hcites.2.2 err rfl with
      | internal hinternal => exact absurd hinternal hkind
      | own hown => exact hown
      | mismatch _ hseen => exact hseen

end

-- ============================================================= example

open scoped Xxh64

/-- The friends of each person, and then how long they are, which is
nothing that objects have. -/
def friendsAndLength : Expr × Expr := Ast.Build.run do
  let friends ← Ast.Build.path "default::Person" ["friends"]
  let again ← Ast.Build.path "default::Person" ["friends"]
  let length ← Ast.Build.call "len" [.path again]
  return (.path friends, length)

/-- The session in which the friends were compiled. -/
def metFriends : Session PathId :=
  (beforeFriends.step (CompileM.expr friendsAndLength.1)).2

/-- What is said of the friends' length points to where the friends were
met. -/
theorem step_length : (metFriends.step (CompileM.expr friendsAndLength.2)).1
    = .error (.mismatch
      (.argument 1 "std::len" (.type "std::str") "default::Person") ⟨1, 2, 1⟩) := by
  have hrun : (metFriends.step (CompileM.expr friendsAndLength.2)).1.map
      (fun _ => ()) = .error (.mismatch
        (.argument 1 "std::len" (.type "std::str") "default::Person") ⟨1, 2, 1⟩)
      := by
    decide +kernel
  generalize (metFriends.step (CompileM.expr friendsAndLength.2)).1 = out at hrun ⊢
  cases out with
  | ok v => cases hrun
  | error err =>
      cases hrun
      rfl

theorem cited_of_length : ∃ err st',
    (CompileM.expr friendsAndLength.2).run metFriends.env metFriends.store
        = (.error err, st')
      ∧ err.kind ≠ .internal
      ∧ (err.span ∈ friendsAndLength.2.spans ∨ (err.kind = .typeMismatch
        ∧ ∃ id node, metFriends.store.arena.get? id = some node
          ∧ node.span = err.span)) := by
  have hstep := step_length
  unfold Session.step at hstep
  rcases hrun : (CompileM.expr friendsAndLength.2).run metFriends.env
    metFriends.store with ⟨out, st'⟩
  rw [hrun] at hstep
  obtain rfl : out = .error _ := hstep
  exact ⟨_, st', rfl, by simp [CompileError.kind],
    cited_of_expr hrun (by simp [CompileError.kind])⟩

/-- The error of an expression may point to syntax that was compiled
before, and not into the expression. -/
theorem mismatch_elsewhere :
    metFriends.Reachable True
      ∧ ∃ err, (metFriends.step (CompileM.expr friendsAndLength.2)).1 = .error err
        ∧ err.kind = .typeMismatch ∧ err.span ∈ friendsAndLength.1.spans
        ∧ err.span ∉ friendsAndLength.2.spans := by
  have hreach : metFriends.Reachable True := by
    unfold metFriends beforeFriends
    exact ⟨_, _, .single (.expr _)⟩
  exact ⟨hreach, _, step_length, rfl, by decide +kernel, by decide +kernel⟩

end PathQuery
