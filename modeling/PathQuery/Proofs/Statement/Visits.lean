/-
Where the expressions in a statement are compiled.

An expression compiles the expressions in it one after the other, each in
the session that those before it have left, and what is consumed as a whole
in a node of its own (`Session.Visits`). A statement compiles its result,
and then, with the result as the subject, the operands of its parts, each
in a node of its own (`Session.ComesTo`). A statement inside is not entered
here: it has a subject of its own.

That these are the places where compilation does arrive shows in what
fails: an expression fails with what it visits (`Visits.fails`), and the
parts of a statement with what it comes to (`ComesTo.fails`). So in a
statement that compiles, everything that it comes to compiles
(`ComesTo.compiles`).
-/
import PathQuery.Proofs.Span.Clauses
import PathQuery.Proofs.Statement.Isolation

namespace PathQuery

open Ast (Expr Select)
open Ir (Value)

variable {κ α β : Type}

section

-- =============================================================== places

/-- The clause that the operand of a part belongs to, and the operand. A
plain element of a shape has none. -/
def Ast.Part.operand? : Ast.Part → Option (Clause × Expr)
  | .element e => e.computed.map fun e => (.shape, e)
  | .filter e => some (.filter, e)
  | .groupBy e => some (.groupBy, e)
  | .orderBy k => some (.orderBy, k.key)
  | .offset e => some (.offset, e)
  | .limit e => some (.limit, e)

namespace Session

/-- The session inside a statement, before its result is compiled. -/
def inside (s : Session κ) (q : Select) : Session κ :=
  { s.enterScope with frame := (s.env.inside s.store.scopes.size q).frame }

/-- The session in which a parameter has its argument compiled. -/
def passing (s : Session κ) (param : Parameter) : Session κ :=
  match param.mode with
  | .wholeSet => s.enterScope
  | .element => s

variable [NameDigest] [DecidableEq κ] [PathKey κ]

/-- Compiling an expression in a session comes to compiling an expression
that stands right in it, in another session. -/
inductive Visits : Session κ → Expr → Session κ → Expr → Prop where
  | left {s : Session κ} {l r : Expr} {op : BinaryOp} {span : Span} :
      Visits s (.binary l op r span) s l
  | right {s t : Session κ} {l r : Expr} {op : BinaryOp} {span : Span} {v : Value}
      (hleft : s.step (CompileM.expr l) = (.ok v, t)) :
      Visits s (.binary l op r span) t r
  | not {s : Session κ} {e : Expr} {span : Span} : Visits s (.unary .not e span) s e
  | neg {s : Session κ} {e : Expr} {span : Span} : Visits s (.unary .neg e span) s e
  | exists {s : Session κ} {e : Expr} {span : Span} :
      Visits s (.unary .exists e span) s.enterScope e
  /-- The arguments before are passed to the parameters before. -/
  | argument {s s₁ t : Session κ} {function : Ast.NameRef} {before after : List Expr}
      {arg : Expr} {span : Span} {name : QualifiedName} {sig : Signature}
      {passed rest : List Parameter} {param : Parameter} {r : List SetId × Cardinality}
      (hcallee : s.step (CompileM.callee function (before ++ arg :: after).length span)
        = (.ok (name, sig), s₁))
      (hparams : sig.params = passed ++ param :: rest)
      (hlength : before.length = passed.length)
      (hbefore : s₁.step (CompileM.arguments name 0 passed sig.cardinality before)
        = (.ok r, t)) :
      Visits s (.call function (before ++ arg :: after) span) (t.passing param) arg
  | cast {s t : Session κ} {target : Ast.NameRef} {e : Expr} {span : Span}
      {type : TypeId} (htarget : s.step (CompileM.castTarget target) = (.ok type, t)) :
      Visits s (.cast target e span) t e
  | member {s t : Session κ} {before after : List Expr} {e : Expr} {span : Span}
      {values : List (Value × Span)}
      (hbefore : s.step (CompileM.exprs before) = (.ok values, t)) :
      Visits s (.set (before ++ e :: after) span) t e
  | paren {s : Session κ} {e : Expr} {span : Span} : Visits s (.paren e span) s e

/-- Compiling a statement in a session comes to compiling an expression in
another, where the result of the statement is the subject: to the operand
of one of its parts, after the parts before it, or to what such an operand
visits. -/
inductive ComesTo (s : Session κ) (q : Select) (result : SetId) :
    Session κ → Expr → Prop where
  | operand {mid t : Session κ} {before after : List Ast.Part} {p : Ast.Part}
      {compiled : List Ir.Part} {clause : Clause} {e : Expr}
      (hresult : (s.inside q).step (CompileM.selectResult q) = (.ok result, mid))
      (hparts : q.parts = before ++ p :: after)
      (hbefore : (mid.setSubject (some result)).step (CompileM.parts result before)
        = (.ok compiled, t))
      (hp : p.operand? = some (clause, e)) :
      ComesTo s q result (t.operand (some clause)) e
  | visits {t t' : Session κ} {e e' : Expr} (h : ComesTo s q result t e)
      (hv : Visits t e t' e') : ComesTo s q result t' e'

end Session

-- ============================================================== failures

namespace CompileM

variable {env : Env} {st mid : Store κ} {error : CompileError} {m : CompileM κ α}

/-- A step fails with this error. -/
def FailsWith (m : CompileM κ α) (env : Env) (st : Store κ) (error : CompileError) : Prop :=
  ∃ st', m.run env st = (.error error, st')

theorem FailsWith.bind {f : α → CompileM κ β} (h : m.FailsWith env st error) :
    (m >>= f).FailsWith env st error := by
  obtain ⟨st', hrun⟩ := h
  refine ⟨st', ?_⟩
  rw [run_bind, hrun]

/-- The second of two steps fails where the first one has left off. -/
theorem FailsWith.after {f : α → CompileM κ β} {a : α} (hm : m.run env st = (.ok a, mid))
    (h : (f a).FailsWith env mid error) : (m >>= f).FailsWith env st error := by
  obtain ⟨st', hrun⟩ := h
  exact ⟨st', (run_bind_ok hm).trans hrun⟩

theorem FailsWith.inScope
    (h : m.FailsWith (env.within st.scopes.size) (st.opened env.frame.scope) error) :
    (inScope m).FailsWith env st error := h

variable [NameDigest] [DecidableEq κ] [PathKey κ]

/-- An argument fails as what is passed does. -/
theorem fails_argument {s : Session κ} {param : Parameter} {arg : Expr}
    (h : (expr arg).FailsWith (s.passing param).env (s.passing param).store error)
    (position : Nat) (name : QualifiedName) (c : Cardinality) :
    (argument (expr arg) param position name c).FailsWith s.env s.store error := by
  unfold Session.passing at h
  unfold argument
  split
  · next hmode =>
      rw [hmode] at h
      exact .bind (.inScope (.bind h))
  · next hmode =>
      rw [hmode] at h
      exact .bind h

/-- An argument is compiled after those before it. -/
theorem fails_arguments {name : QualifiedName} {position : Nat}
    {passed rest : List Parameter} {param : Parameter} {before after : List Expr}
    {arg : Expr} {c : Cardinality} {r : List SetId × Cardinality}
    (hlength : before.length = passed.length)
    (hbefore : (arguments name position passed c before).run env st = (.ok r, mid))
    (h : ∀ position c,
      (argument (expr arg) param position name c).FailsWith env mid error) :
    (arguments name position (passed ++ param :: rest) c (before ++ arg :: after)).FailsWith
      env st error := by
  induction before generalizing passed position c st r with
  | nil =>
      obtain rfl := List.length_eq_zero_iff.1 hlength.symm
      obtain ⟨-, rfl⟩ := ok_of_pure hbefore
      rw [List.nil_append, List.nil_append]
      unfold arguments
      exact .bind (h position c)
  | cons b before ih =>
      cases passed with
      | nil => cases hlength
      | cons p passed =>
          unfold arguments at hbefore
          obtain ⟨⟨id, d⟩, st₁, hfirst, hbefore⟩ := ok_of_bind hbefore
          obtain ⟨⟨ids, d'⟩, st₂, hrest, hbefore⟩ := ok_of_bind hbefore
          obtain ⟨-, rfl⟩ := ok_of_pure hbefore
          rw [List.cons_append, List.cons_append]
          unfold arguments
          exact .after hfirst (.bind (ih (Nat.succ.inj hlength) hrest))

/-- A member of a set literal is compiled after those before it. -/
theorem fails_exprs {before after : List Expr} {e : Expr} {values : List (Value × Span)}
    (hbefore : (exprs before).run env st = (.ok values, mid))
    (h : (expr e).FailsWith env mid error) :
    (exprs (before ++ e :: after)).FailsWith env st error := by
  induction before generalizing st values with
  | nil =>
      obtain ⟨-, rfl⟩ := ok_of_pure hbefore
      rw [List.nil_append]
      unfold exprs
      exact .bind h
  | cons b before ih =>
      unfold exprs at hbefore
      obtain ⟨v, st₁, hfirst, hbefore⟩ := ok_of_bind hbefore
      obtain ⟨vs, st₂, hrest, hbefore⟩ := ok_of_bind hbefore
      obtain ⟨-, rfl⟩ := ok_of_pure hbefore
      rw [List.cons_append]
      unfold exprs
      exact .after hfirst (.bind (ih hrest))

/-- A part fails as its operand does. -/
theorem fails_part {s : Session κ} {result : SetId} {p : Ast.Part} {clause : Clause}
    {e : Expr} (hsubject : s.frame.subject = some result)
    (hp : p.operand? = some (clause, e))
    (h : (expr e).FailsWith (s.operand (some clause)).env (s.operand (some clause)).store
      error) : (part result p).FailsWith s.env s.store error := by
  cases p with
  | element element =>
      obtain ⟨name, computed, elements, span⟩ := element
      obtain ⟨_, rfl, heq⟩ := Option.map_eq_some_iff.1 hp
      cases heq
      have henv : (s.operand (some .shape)).env
          = (({ s.env with frame := { s.frame with clause := some .shape } } :
            Env).about result).within s.store.scopes.size := by
        unfold Env.about
        rw [← hsubject]
        rfl
      rw [henv] at h
      unfold part inClause underSubject shapeElement
      exact .bind (.inScope (.bind h))
  | filter e =>
      cases hp
      unfold part filterBy clauseOperand
      exact .bind (.inScope (.bind h))
  | groupBy e =>
      cases hp
      unfold part inClause key clauseOperand
      exact .bind (.inScope (.bind (.bind h)))
  | orderBy k =>
      obtain ⟨e, direction, empties, span⟩ := k
      cases hp
      unfold part inClause key clauseOperand
      exact .bind (.inScope (.bind (.bind h)))
  | offset e =>
      cases hp
      unfold part inClause bound clauseOperand
      exact .bind (.inScope (.bind (.bind h)))
  | limit e =>
      cases hp
      unfold part inClause bound clauseOperand
      exact .bind (.inScope (.bind (.bind h)))

end CompileM

namespace Session

open CompileM

variable [NameDigest] [DecidableEq κ] [PathKey κ] {s t : Session κ} {e e' : Expr}
  {error : CompileError}

/-- An expression fails with what it visits. -/
theorem Visits.fails (hv : s.Visits e t e')
    (h : (expr e').FailsWith t.env t.store error) :
    (expr e).FailsWith s.env s.store error := by
  cases hv with
  | left =>
      unfold expr
      exact .bind h
  | right hleft =>
      obtain ⟨hrun, henv⟩ := run_of_step hleft
      rw [henv] at h
      unfold expr
      exact .after hrun (.bind h)
  | not | neg =>
      unfold expr
      exact .bind h
  | «exists» =>
      unfold expr existence
      exact .bind (.inScope (.bind h))
  | argument hcallee hparams hlength hbefore =>
      obtain ⟨hrun, henv⟩ := run_of_step hcallee
      obtain ⟨hrun', henv'⟩ := run_of_step hbefore
      have hargument := fails_argument h
      rw [henv', henv] at hargument
      rw [henv] at hrun'
      unfold expr
      refine .after hrun (.bind ?_)
      rw [hparams]
      exact fails_arguments hlength hrun' fun position c => hargument position _ c
  | cast htarget =>
      obtain ⟨hrun, henv⟩ := run_of_step htarget
      rw [henv] at h
      unfold expr
      exact .after hrun (.bind h)
  | member hbefore =>
      obtain ⟨hrun, henv⟩ := run_of_step hbefore
      rw [henv] at h
      unfold expr
      exact .bind (fails_exprs hrun h)
  | paren => exact h

/-- The result of a statement is compiled before it comes to anything. -/
theorem ComesTo.exists_result {q : Select} {result : SetId} (hc : s.ComesTo q result t e) :
    ∃ mid, (s.inside q).step (selectResult q) = (.ok result, mid) := by
  induction hc with
  | operand hresult _ _ _ => exact ⟨_, hresult⟩
  | visits _ _ ih => exact ih

/-- A statement that compiles has that result. -/
theorem ComesTo.result_eq {q : Select} {result : SetId} {stmt : Ir.Statement}
    {s' : Session κ} (hc : s.ComesTo q result t e)
    (h : s.step (select q) = (.ok stmt, s')) : stmt.result = result := by
  obtain ⟨mid, hresult⟩ := hc.exists_result
  obtain ⟨hrun, -⟩ := run_of_step hresult
  obtain ⟨hstmt, -⟩ := run_of_step h
  obtain ⟨result', mid', hrun', hfrom⟩ := ok_of_select hstmt
  cases hrun'.symm.trans hrun
  obtain ⟨-, -, heq, -⟩ := ok_of_selectFrom hfrom
  exact heq

/-- A statement without a shape comes to its filter first. -/
theorem ComesTo.of_filter {q : Select} {result : SetId} {mid : Session κ}
    (hresult : (s.inside q).step (selectResult q) = (.ok result, mid))
    (hshape : q.shape = []) (hfilter : q.filter = some e) :
    s.ComesTo q result ((mid.setSubject (some result)).operand (some .filter)) e := by
  have hparts : q.parts = [] ++ .filter e :: (q.groupBy.map .groupBy
      ++ (q.orderBy.map .orderBy
        ++ (q.offset.toList.map .offset ++ q.limit.toList.map .limit))) := by
    unfold Select.parts
    rw [hshape, hfilter]
    rfl
  exact .operand hresult hparts rfl rfl

/-- The parts of a statement fail with what it comes to. -/
theorem ComesTo.fails {q : Select} {result : SetId} (hc : s.ComesTo q result t e)
    (h : (expr e).FailsWith t.env t.store error) :
    ∃ mid, (s.inside q).step (selectResult q) = (.ok result, mid)
      ∧ (parts result q.parts).FailsWith (mid.env.about result) mid.store error := by
  induction hc with
  | @operand mid t before after p compiled clause e hresult hparts hbefore hp =>
      obtain ⟨hrun, henv⟩ := run_of_step hbefore
      have hsubject : t.frame.subject = some result := congrArg (·.frame.subject) henv
      have hpart := fails_part hsubject hp h
      rw [henv] at hpart
      refine ⟨mid, hresult, ?_⟩
      rw [hparts, parts_append]
      refine .after hrun (.bind ?_)
      unfold parts
      exact .bind hpart
  | visits _ hv ih => exact ih (hv.fails h)

/-- In a statement that compiles, everything that it comes to does. -/
theorem ComesTo.compiles {q : Select} {result : SetId} (hc : s.ComesTo q result t e)
    (hq : s.Accepts q) : ∃ v t', t.step (expr e) = (.ok v, t') := by
  cases hstep : t.step (expr e) with
  | mk out t' =>
      cases out with
      | ok v => exact ⟨v, t', rfl⟩
      | error error =>
          obtain ⟨hrun, -⟩ := run_of_step hstep
          obtain ⟨mid, hresult, st', hfails⟩ := hc.fails ⟨_, hrun⟩
          obtain ⟨stmt, st, hstmt⟩ := hq
          obtain ⟨result', mid', hresult', hfrom⟩ := ok_of_select hstmt
          obtain ⟨hrun', henv⟩ := run_of_step hresult
          cases hresult'.symm.trans hrun'
          obtain ⟨-, -, -, -, hparts⟩ := ok_of_selectFrom hfrom
          rw [henv] at hfails
          cases hparts.symm.trans hfails

end Session

end

end PathQuery
