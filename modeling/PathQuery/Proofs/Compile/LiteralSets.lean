/-
Which expressions are sets that stand for a literal.

An expression gives a set, or an operation that is yet to become one. A
literal gives an operation, and so does all that operators, calls and
casts combine; a subquery is a set of its own, and a path that takes a
step is a set of what a pointer leads to. So a set that stands for a
literal was there before: the expression is the subject, or the subject
in parentheses or as the one element of a set literal (`subject_of_expr`).
-/
import PathQuery.Ast.Alike
import PathQuery.Proofs.Compile.Success
import PathQuery.Proofs.Tandem.Mirrored

namespace PathQuery

open Ast (Expr)
open Ir

variable {κ α β : Type}

/-- A set stands for no literal, if nothing that may be it does. -/
theorem Ir.Arena.constant?_eq_none {a : Arena κ} {id : SetId}
    (h : ∀ node, a.get? id = some node → node.origin.constant? = none) :
    a.constant? id = none :=
  Option.bind_eq_none_iff.2 h

/-- A set that stands for a literal still does. -/
theorem Ir.Arena.Extends.constant? {a a' : Arena κ} (h : a.Extends a') {id : SetId}
    (hconst : a.constant? id ≠ none) : a'.constant? id = a.constant? id := by
  obtain ⟨value, hvalue⟩ := Option.ne_none_iff_exists'.1 hconst
  obtain ⟨node, hn, -⟩ := Option.bind_eq_some_iff.1 hvalue
  rw [Arena.constant?_eq hn, Arena.constant?_eq (h id node hn)]

namespace CompileM

-- ========================================================== operations

/-- A step that returns an operation, if anything. -/
def Defers (m : CompileM κ Value) : Prop :=
  ∀ (env : Env) (st st' : Store κ) (id : SetId),
    m.run env st ≠ (.ok (.set id), st')

namespace Defers

variable {m : CompileM κ α} {f : α → CompileM κ Value}

theorem pure {p : Pending} : Defers (Pure.pure (.pending p) : CompileM κ _) := by
  intro env st st' id hrun
  cases hrun

/-- It is for the last of some steps. -/
theorem bind (hf : ∀ a, Defers (f a)) : Defers (m >>= f) := by
  intro env st st' id hrun
  obtain ⟨a, mid, -, hrest⟩ := ok_of_bind hrun
  exact hf a env mid st' id hrest

variable {v w : Value} {span : Span}

theorem binary [NameDigest] {op : BinaryOp} :
    Defers (κ := κ) (CompileM.binary op v w span) :=
  bind fun _ => bind fun _ => bind fun _ => bind fun _ => pure

theorem logicalNot [NameDigest] : Defers (κ := κ) (CompileM.logicalNot v span) :=
  bind fun _ => bind fun _ => pure

theorem arithmeticNeg : Defers (κ := κ) (CompileM.arithmeticNeg v span) :=
  bind fun _ => bind fun _ => bind fun _ => bind fun _ => bind fun _ =>
    bind fun _ => pure

theorem existence [NameDigest] {operand : CompileM κ Value} :
    Defers (CompileM.existence operand span) :=
  bind fun _ => pure

theorem cast {target : TypeId} : Defers (κ := κ) (CompileM.cast v target span) :=
  bind fun _ => bind fun _ => bind fun _ => bind fun _ => bind fun _ =>
    bind fun _ => pure

theorem call {function : QualifiedName} {sig : Signature} {args : List SetId}
    {c : Cardinality} : Defers (κ := κ) (CompileM.call function sig args c span) :=
  bind fun _ => pure

end Defers

-- ================================================================ paths

section Paths

variable {env : Env} {st st' : Store κ} {id x : SetId}

/-- A new set stands for no literal, unless it is made from one. -/
theorem constant?_of_newSet {origin : Origin} {t : TypeId} {c : Cardinality}
    {span : Span} {key : Option κ} (ho : origin.constant? = none)
    (h : (newSet origin t c span key).run env st = (.ok id, st')) :
    st'.arena.constant? id = none := by
  rcases run_newSet_cases origin t c span key env st with
    ⟨_, -, -, hrun⟩ | ⟨hs, hrun⟩
  · rw [hrun] at h
    cases h
  · rw [hrun] at h
    cases h
    exact (Arena.constant?_eq (Arena.get?_push_self _ _ hs)).trans ho

variable [DecidableEq κ]

/-- What is shared stands for no literal, if neither what is found nor
what is made does. -/
theorem constant?_of_shared {key : κ} {confirm : Arena κ → SetId → Bool}
    {make : CompileM κ SetId}
    (hconfirm : ∀ (a : Arena κ) found, confirm a found = true →
      a.constant? found = none)
    (hmake : ∀ (env : Env) (st st' : Store κ) id,
      make.run env st = (.ok id, st') → st'.arena.constant? id = none)
    (h : (shared key confirm make).run env st = (.ok id, st')) :
    st'.arena.constant? id = none := by
  rcases ok_of_shared h with ⟨a, -, hc, rfl⟩ | ⟨mid, hmade, harena⟩
  · exact hconfirm _ id hc
  · rw [← harena]
    exact hmake env st mid id hmade

variable [PathKey κ]

theorem constant?_of_rootSet {t : TypeId} {span : Span}
    (h : (rootSet t span).run env st = (.ok id, st')) :
    st'.arena.constant? id = none := by
  unfold rootSet at h
  refine constant?_of_shared (fun a found hfound => ?_)
    (fun _ _ _ _ hmake => constant?_of_newSet rfl hmake) h
  refine Arena.constant?_eq_none fun node hn => ?_
  obtain ⟨ho, -⟩ := Arena.origin_of_canonical_root hn (Arena.isRootOf_iff.1 hfound)
  rw [ho]
  rfl

theorem constant?_of_extendPath {name : String} {span : Span}
    (h : (extendPath x name span).run env st = (.ok id, st')) :
    st'.arena.constant? id = none := by
  unfold extendPath at h
  obtain ⟨node, _, -, h⟩ := ok_of_bind h
  obtain ⟨_, _, -, h⟩ := ok_of_bind h
  obtain ⟨_, _, -, h⟩ := ok_of_bind h
  obtain ⟨_, _, -, h⟩ := ok_of_bind h
  obtain ⟨_, _, -, h⟩ := ok_of_bind h
  refine constant?_of_shared (fun a found hfound => ?_) (fun _ _ _ _ hmake => ?_) h
  · refine Arena.constant?_eq_none fun node hn => ?_
    obtain ⟨_, _, ho, -⟩ :=
      Arena.origin_of_canonical_step hn (Arena.isStepOf_iff.1 hfound)
    rw [ho]
    rfl
  · obtain ⟨_, _, -, hmake⟩ := ok_of_bind hmake
    exact constant?_of_newSet rfl hmake

/-- Whatever is some pointers further stands for no literal, if what the
path goes on from stands for none. -/
theorem constant?_of_extendAll {steps : List Ast.PathStep}
    (hx : st.arena.constant? x = none)
    (h : (steps.foldlM (fun set step => extendPath set step.name step.span) x).run
      env st = (.ok id, st')) :
    st'.arena.constant? id = none := by
  induction steps generalizing st x with
  | nil =>
      cases h
      exact hx
  | cons step steps ih =>
      rw [List.foldlM_cons] at h
      obtain ⟨y, mid, hstep, hrest⟩ := ok_of_bind h
      exact ih (constant?_of_extendPath hstep) hrest

/-- A path to a set that stands for a literal is the subject. -/
theorem subject_of_path {p : Ast.Path} (h : (path p).run env st = (.ok id, st'))
    (hconst : st'.arena.constant? id ≠ none) :
    (Expr.path p).isSubject = true ∧ env.frame.subject = some id ∧ st' = st := by
  obtain ⟨root, steps, span⟩ := p
  unfold path at h
  obtain ⟨x, mid, hstart, hsteps⟩ := ok_of_bind h
  unfold pathStart at hstart
  cases root with
  | some root =>
      -- the objects of a type are no literal, and nothing after them is
      obtain ⟨item, _, -, hroot⟩ := ok_of_bind hstart
      cases item with
      | function name sig => cases hroot
      | type t entry =>
          obtain ⟨_, _, -, hroot⟩ := ok_of_bind hroot
          exact absurd (constant?_of_extendAll (constant?_of_rootSet hroot) hsteps) hconst
  | none =>
      rw [run_bind_ok run_frame] at hstart
      obtain ⟨hsubject, rfl⟩ := ok_of_orFail hstart
      cases steps with
      | nil =>
          cases hsteps
          exact ⟨rfl, hsubject, rfl⟩
      | cons step steps =>
          rw [List.foldlM_cons] at hsteps
          obtain ⟨y, _, hstep, hrest⟩ := ok_of_bind hsteps
          exact absurd (constant?_of_extendAll (constant?_of_extendPath hstep) hrest)
            hconst

end Paths

-- ========================================================= expressions

variable [DecidableEq κ] [PathKey κ] [NameDigest]

mutual

/-- An expression that is a set and stands for a literal is the subject. -/
theorem subject_of_expr : (e : Expr) → ∀ {env : Env} {st st' : Store κ} {id : SetId},
    (expr e).run env st = (.ok (.set id), st') → st'.arena.constant? id ≠ none →
      e.isSubject = true ∧ env.frame.subject = some id ∧ st' = st
  | .constant _ _, _, _, _, _, h, _ => absurd h (Defers.pure _ _ _ _)
  | .emptySet _, _, _, _, _, h, _ => absurd h (Defers.pure _ _ _ _)
  | .path p, _, _, _, _, h, hconst => by
      obtain ⟨_, _, hpath, hrest⟩ := ok_of_bind h
      cases hrest
      exact subject_of_path hpath hconst
  | .binary _ _ _ _, _, _, _, _, h, _ => by
      refine absurd h (Defers.bind (fun _ => .bind fun _ => ?_) _ _ _ _)
      exact .binary
  | .unary .not _ _, _, _, _, _, h, _ =>
      absurd h (Defers.bind (fun _ => .logicalNot) _ _ _ _)
  | .unary .neg _ _, _, _, _, _, h, _ =>
      absurd h (Defers.bind (fun _ => .arithmeticNeg) _ _ _ _)
  | .unary .exists _ _, _, _, _, _, h, _ => absurd h (Defers.existence _ _ _ _)
  | .call _ _ _, _, _, _, _, h, _ => by
      refine absurd h (Defers.bind (fun _ => .bind fun _ => ?_) _ _ _ _)
      exact .call
  | .cast _ _ _, _, _, _, _, h, _ => by
      refine absurd h (Defers.bind (fun _ => .bind fun _ => ?_) _ _ _ _)
      exact .cast
  | .set es _, _, _, _, _, h, hconst => by
      obtain ⟨values, mid, hvalues, hset⟩ := ok_of_bind h
      cases values with
      | nil => exact absurd hset (Defers.pure _ _ _ _)
      | cons first rest =>
          obtain ⟨value, span⟩ := first
          cases rest with
          | nil =>
              cases hset
              exact subject_of_exprs es hvalues hconst
          | cons second rest =>
              refine absurd hset (Defers.bind (fun _ => .bind fun _ => ?_) _ _ _ _)
              exact .pure
  | .select query, _, _, _, _, h, hconst => by
      obtain ⟨stmt, mid, -, hsub⟩ := ok_of_bind h
      obtain ⟨_, _, -, hsub⟩ := ok_of_bind hsub
      obtain ⟨made, _, hmade, hrest⟩ := ok_of_bind hsub
      cases hrest
      exact absurd (constant?_of_newSet rfl hmade) hconst
  | .paren inner _, _, _, _, _, h, hconst => subject_of_expr inner h hconst
termination_by structural e => e

/-- If the elements of a set literal are one set that stands for a
literal, then they are the subject alone. -/
theorem subject_of_exprs : (es : List Expr) → ∀ {env : Env} {st st' : Store κ}
    {id : SetId} {span : Span}, (exprs es).run env st = (.ok [(.set id, span)], st') →
      st'.arena.constant? id ≠ none →
      Expr.areSubject es = true ∧ env.frame.subject = some id ∧ st' = st
  | [], _, _, _, _, _, h, _ => by cases h
  | [e], _, _, _, _, _, h, hconst => by
      obtain ⟨value, mid, he, hrest⟩ := ok_of_bind h
      cases hrest
      exact subject_of_expr e he hconst
  | e :: e' :: es, _, _, _, _, _, h, _ => by
      obtain ⟨value, mid, -, hrest⟩ := ok_of_bind h
      obtain ⟨values, _, hvalues, hrest⟩ := ok_of_bind hrest
      obtain ⟨value', _, -, hvalues⟩ := ok_of_bind hvalues
      obtain ⟨values', _, -, hvalues⟩ := ok_of_bind hvalues
      cases hvalues
      cases hrest
termination_by structural es => es

end

end CompileM

end PathQuery
