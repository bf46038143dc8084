/-
One expression, compiled in two places.

Two places in the same schema may have nothing in common but the module
that names are searched in, the modules that aliases stand for and the
type of the subject. The nodes differ, and so do the sets that are bound
there, those that are made and their numbers, and whichever keys
collide. An expression that compiles in both has one type all the same
(`Session.Reachable.same_type`).

The type can be read off the expression, under the lexicon of the place.
What is left to see is that reading it looks names up and does nothing
else with the lexicon, so that two lexicons where lookups agree are as
good as one (`Lexicon.Alike`). They need not be equal: aliases declared
in another order are kept in another order.
-/
import PathQuery.Proofs.Cardinality.Recorded
import PathQuery.Proofs.Operator.ElementOrder

namespace PathQuery

open Ast (Expr Select)
open Ir (Value)

-- ============================================================= lexicons

namespace Lexicon

/-- Two lexicons of one schema, where names are searched in the same
modules. -/
structure Alike (x y : Lexicon) : Prop where
  schema : x.schema = y.schema
  defaultModule : x.defaultModule = y.defaultModule
  aliases : ∀ shorthand, x.aliases.get? shorthand = y.aliases.get? shorthand

namespace Alike

variable {x y : Lexicon}

/-- A declaration overlays both alike. -/
theorem declare (h : x.Alike y) (d : Ast.ModuleDecl) :
    (x.declare d).Alike (y.declare d) := by
  unfold Lexicon.declare
  cases d.shorthand with
  | none => exact ⟨h.schema, rfl, h.aliases⟩
  | some shorthand =>
      refine ⟨h.schema, h.defaultModule, fun other => ?_⟩
      show (x.aliases.insert shorthand d.module).get? other
        = (y.aliases.insert shorthand d.module).get? other
      rw [Table.get?_insert, Table.get?_insert, h.aliases other]

theorem declareAll (h : x.Alike y) (modules : List Ast.ModuleDecl) :
    (x.declareAll modules).Alike (y.declareAll modules) := by
  unfold Lexicon.declareAll
  induction modules generalizing x y with
  | nil => exact h
  | cons d modules ih => exact ih (h.declare d)

theorem resolve?_eq (h : x.Alike y) (name : QualifiedName) :
    x.resolve? name = y.resolve? name := by
  have hmodule : ∀ written, x.module written = y.module written := by
    intro written
    unfold Lexicon.module
    rw [h.aliases written]
  unfold resolve?
  cases name.module with
  | none =>
      dsimp only
      rw [h.schema, h.defaultModule]
  | some written =>
      dsimp only
      rw [h.schema, hmodule written]

theorem pathType?_eq (h : x.Alike y) (subject : Option TypeId) (p : Ast.Path) :
    x.pathType? subject p = y.pathType? subject p := by
  have hstart : x.startType? subject p = y.startType? subject p := by
    unfold startType?
    cases p.root with
    | none => rfl
    | some root =>
        dsimp only
        rw [h.resolve?_eq root.name]
  unfold pathType?
  rw [hstart, h.schema]

end Alike

end Lexicon

-- ========================================================== expressions

section

variable [NameDigest] {subject : Option TypeId}

namespace Ast

mutual

/-- An expression reads the same under lexicons that are alike. -/
theorem Expr.type?_of_alike :
    (e : Expr) → ∀ {x y : Lexicon}, x.Alike y →
      e.type? x subject = e.type? y subject
  | .constant _ _, _, _, _ => rfl
  | .emptySet _, _, _, _ => rfl
  | .path p, _, _, h => h.pathType?_eq subject p
  | .binary l _ r _, _, _, h => by
      unfold Expr.type?
      rw [l.type?_of_alike h, r.type?_of_alike h, h.schema]
  | .unary .neg operand _, _, _, h => by
      unfold Expr.type?
      exact operand.type?_of_alike h
  | .unary .not _ _, _, _, _ => rfl
  | .unary .exists _ _, _, _, _ => rfl
  | .call function args _, _, y, h => by
      unfold Expr.type?
      rw [h.resolve?_eq function.name]
      cases y.resolve? function.name with
      | none => rfl
      | some item =>
          cases item with
          | type id entry => rfl
          | function f signature =>
              dsimp only
              cases signature.returns with
              | concrete t => rfl
              | sameAs position =>
                  exact Expr.argumentType?_of_alike args h position
                    signature.params
  | .cast target _ _, _, _, h => by
      unfold Expr.type?
      rw [h.resolve?_eq target.name]
  | .set elements _, _, _, h => by
      unfold Expr.type?
      rw [Expr.types?_of_alike elements h, h.schema]
  | .select query, _, _, h => by
      unfold Expr.type?
      exact query.type?_of_alike h
  | .paren inner _, _, _, h => by
      unfold Expr.type?
      exact inner.type?_of_alike h
termination_by structural e => e

theorem Expr.types?_of_alike :
    (es : List Expr) → ∀ {x y : Lexicon}, x.Alike y →
      Expr.types? x subject es = Expr.types? y subject es
  | [], _, _, _ => rfl
  | e :: rest, _, _, h => by
      unfold Expr.types?
      rw [e.type?_of_alike h, Expr.types?_of_alike rest h]
termination_by structural es => es

theorem Expr.argumentType?_of_alike :
    (args : List Expr) → ∀ {x y : Lexicon}, x.Alike y →
      ∀ (position : Nat) (params : List Parameter),
        Expr.argumentType? x subject position params args
          = Expr.argumentType? y subject position params args
  | [], _, _, _, position, params => by
      cases position <;> cases params <;> rfl
  | arg :: args, _, _, h, position, params => by
      cases params with
      | nil => cases position <;> rfl
      | cons param params =>
          cases position with
          | zero =>
              unfold Expr.argumentType?
              rw [arg.type?_of_alike h, h.schema]
          | succ position =>
              unfold Expr.argumentType?
              exact Expr.argumentType?_of_alike args h position params
termination_by structural args => args

/-- The declarations of a statement overlay what was alike before. -/
theorem Select.type?_of_alike :
    (q : Select) → ∀ {x y : Lexicon}, x.Alike y →
      q.type? x subject = q.type? y subject
  | ⟨modules, result, _, _, _, _, _, _, _⟩, _, _, h => by
      unfold Select.type?
      exact result.type?_of_alike (h.declareAll modules)
termination_by structural q => q

end

end Ast

end

-- ============================================================= sessions

/-- The type of a value that has one is there to be read. -/
theorem CompileM.run_valueType_of_type? {κ : Type} {env : Env} {st : Store κ}
    {v : Value} {t : TypeId} (h : st.valueType? v = some t) :
    (valueType v).run env st = (.ok t, st) := by
  cases v with
  | pending p =>
      cases h
      rfl
  | set id =>
      obtain ⟨node, hn, rfl⟩ := Ir.Arena.type?_eq_some_iff.1 h
      exact run_typeOf hn

namespace Session

section

variable {κ κ' : Type} [DecidableEq κ] [PathKey κ] [DecidableEq κ']
  [PathKey κ'] [NameDigest]

/-- The type that is read off an expression is the one that its value is
asked for. -/
theorem Reachable.valueType_of_expr {lexical : Prop} {s t : Session κ}
    (h : s.Reachable lexical) {e : Expr} {v : Value}
    (hv : s.step (CompileM.expr e) = (.ok v, t)) :
    ∃ type, e.type? s.env.lexicon (s.env.subjectType? s.store) = some type
      ∧ (t.step (CompileM.valueType v)).1 = .ok type := by
  obtain ⟨type, hread, hvalue⟩ :=
    CompileM.type?_of_expr h.ready.active (run_of_step hv).1
  refine ⟨type, hread, ?_⟩
  unfold step
  rw [CompileM.run_valueType_of_type? hvalue]

/-- An expression that compiles in two reachable sessions of one schema
has one type in both, if names are searched in the same modules, and if
the subjects are of one type or there are none. Nothing else has to
agree, not even the kind of keys. -/
theorem Reachable.same_type {lexical lexical' : Prop} {s t : Session κ}
    {s' t' : Session κ'} (h : s.Reachable lexical) (h' : s'.Reachable lexical')
    (hnames : s.env.lexicon.Alike s'.env.lexicon)
    (hsubject : s.env.subjectType? s.store = s'.env.subjectType? s'.store)
    {e : Expr} {v v' : Value} (hv : s.step (CompileM.expr e) = (.ok v, t))
    (hv' : s'.step (CompileM.expr e) = (.ok v', t')) :
    ∃ type, (t.step (CompileM.valueType v)).1 = .ok type
      ∧ (t'.step (CompileM.valueType v')).1 = .ok type := by
  obtain ⟨type, hread, htype⟩ := h.valueType_of_expr hv
  obtain ⟨type', hread', htype'⟩ := h'.valueType_of_expr hv'
  have hsame : type = type' := by
    rw [e.type?_of_alike hnames, hsubject, hread'] at hread
    exact (Option.some.inj hread).symm
  subst hsame
  exact ⟨type, htype, htype'⟩

/-- A path that compiles is a set. -/
theorem step_pathExpr {s : Session κ} {p : Ast.Path} {id : SetId}
    (h : (s.step (CompileM.path p)).1 = .ok id) :
    s.step (CompileM.expr (.path p))
      = (.ok (.set id), (s.step (CompileM.path p)).2) := by
  have hrun := (run_of_step (Prod.ext h rfl :
    s.step (CompileM.path p) = (.ok id, (s.step (CompileM.path p)).2))).1
  unfold step CompileM.expr
  rw [CompileM.run_bind_ok hrun]
  rfl

omit [DecidableEq κ] [PathKey κ] [NameDigest] in
/-- A node is left for the place where it was entered, whatever was
compiled there before and in between. -/
theorem env_leave {α β : Type} (s : Session κ) (m : CompileM κ α)
    (m' : CompileM κ β) :
    ((s.step m).2.enterScope.step m').2.leave.env = s.env := rfl

end

end Session

-- ============================================================= example

open scoped Xxh64

/-- The names of friends are strings where nothing was met before. They
are where the friends of people are bound, too, as another set. -/
theorem same_type_names : ∃ (t t' : Session PathId) (type : TypeId),
    beforeFriends.step (CompileM.expr (.path friendNames)) = (.ok (.set 2), t)
      ∧ namesBelow.leave.step (CompileM.expr (.path friendNames))
        = (.ok (.set 3), t')
      ∧ (t.step (CompileM.valueType (.set 2))).1 = .ok type
      ∧ (t'.step (CompileM.valueType (.set 3))).1 = .ok type := by
  have hfirst : (beforeFriends.step (CompileM.path friendNames)).1 = .ok 2 := by
    decide +kernel
  have hagain :
      (namesBelow.leave.step (CompileM.path friendNames)).1 = .ok 3 := by
    decide +kernel
  have hv := Session.step_pathExpr hfirst
  have hv' := Session.step_pathExpr hagain
  have hplace : namesBelow.leave.env = beforeFriends.env := by
    unfold namesBelow afterFriends
    exact Session.env_leave _ _ _
  have hnames :
      beforeFriends.env.lexicon.Alike namesBelow.leave.env.lexicon := by
    rw [hplace]
    exact ⟨rfl, rfl, fun _ => rfl⟩
  have hsubject : beforeFriends.env.subjectType? beforeFriends.store
      = namesBelow.leave.env.subjectType? namesBelow.leave.store := by
    have hnone : beforeFriends.env.frame.subject = none := rfl
    unfold Env.subjectType?
    rw [hplace, hnone, Option.bind_none, Option.bind_none]
  obtain ⟨schema, o, hs⟩ := reachable_namesBelow False
  obtain ⟨type, htype, htype'⟩ :=
    Session.Reachable.same_type (reachable_beforeFriends False)
      ⟨schema, o, hs.tail .leave⟩ hnames hsubject hv hv'
  exact ⟨_, _, type, hv, hv', htype, htype'⟩

end PathQuery
