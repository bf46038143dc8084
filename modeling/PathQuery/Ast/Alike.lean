/-
Queries that differ in where they were written.

Two queries are alike if they are the same but for their spans. What a
query means should not depend on its spans, and hardly does: there is
one place where they count, a limit that is the subject of its statement
and nothing else. So there are degrees of likeness. Queries may be `same`,
spans included; they may be `plain`, alike and with no limit of that kind;
or they may just be alike, which is the `loose` degree.
-/
import Mathlib.Data.List.Forall2
import PathQuery.Ast.Basic

namespace PathQuery.Ast

-- ============================================================= subjects

mutual

/-- Whether an expression is the subject, as it stands. -/
def Expr.isSubject : Expr → Bool
  | .path p => p.root.isNone && p.steps.isEmpty
  | .set elements _ => Expr.areSubject elements
  | .paren inner _ => inner.isSubject
  | _ => false
termination_by structural e => e

/-- Whether the elements of a set literal are the subject alone. -/
def Expr.areSubject : List Expr → Bool
  | [e] => e.isSubject
  | _ => false
termination_by structural es => es

end

-- ============================================================= likeness

/-- How alike two queries are. -/
inductive Likeness where
  /-- They are one query. -/
  | same
  /-- They differ in spans at most, and no limit is the subject. -/
  | plain
  /-- They differ in spans at most. -/
  | loose
  deriving DecidableEq

namespace Likeness

/-- Spans may differ, unless the query is one. -/
def Spans (μ : Likeness) (span span' : Span) : Prop := μ = same → span = span'

@[simp] theorem spans_self (μ : Likeness) (span : Span) : μ.Spans span span :=
  fun _ => rfl

end Likeness

variable (μ : Likeness)

structure NameRef.Alike (r r' : NameRef) : Prop where
  name : r.name = r'.name
  span : μ.Spans r.span r'.span

structure PathStep.Alike (s s' : PathStep) : Prop where
  name : s.name = s'.name
  span : μ.Spans s.span s'.span

structure Path.Alike (p p' : Path) : Prop where
  root : Option.Rel (NameRef.Alike μ) p.root p'.root
  steps : List.Forall₂ (PathStep.Alike μ) p.steps p'.steps
  span : μ.Spans p.span p'.span

structure ModuleDecl.Alike (d d' : ModuleDecl) : Prop where
  shorthand : d.shorthand = d'.shorthand
  module : d.module = d'.module
  span : μ.Spans d.span d'.span

mutual

/-- Two expressions are alike. -/
def Expr.Alike : Expr → Expr → Prop
  | .constant value span, e' => ∃ span', e' = .constant value span' ∧ μ.Spans span span'
  | .emptySet span, e' => ∃ span', e' = .emptySet span' ∧ μ.Spans span span'
  | .path p, e' => ∃ p', e' = .path p' ∧ p.Alike μ p'
  | .binary left op right span, e' => ∃ left' right' span',
      e' = .binary left' op right' span' ∧ Expr.Alike left left' ∧ Expr.Alike right right'
        ∧ μ.Spans span span'
  | .unary op operand span, e' => ∃ operand' span',
      e' = .unary op operand' span' ∧ Expr.Alike operand operand' ∧ μ.Spans span span'
  | .call function args span, e' => ∃ function' args' span',
      e' = .call function' args' span' ∧ function.Alike μ function'
        ∧ Expr.AlikeAll args args' ∧ μ.Spans span span'
  | .cast target operand span, e' => ∃ target' operand' span',
      e' = .cast target' operand' span' ∧ target.Alike μ target'
        ∧ Expr.Alike operand operand' ∧ μ.Spans span span'
  | .set elements span, e' => ∃ elements' span',
      e' = .set elements' span' ∧ Expr.AlikeAll elements elements' ∧ μ.Spans span span'
  | .select query, e' => ∃ query', e' = .select query' ∧ Select.Alike query query'
  | .paren inner span, e' => ∃ inner' span',
      e' = .paren inner' span' ∧ Expr.Alike inner inner' ∧ μ.Spans span span'
termination_by structural e => e

/-- The expressions of two lists are alike one by one. -/
def Expr.AlikeAll : List Expr → List Expr → Prop
  | [], es' => es' = []
  | e :: es, es' => ∃ e' rest', es' = e' :: rest' ∧ Expr.Alike e e' ∧ Expr.AlikeAll es rest'
termination_by structural es => es

/-- Two expressions are alike, if there are any. -/
def Expr.AlikeIn : Option Expr → Option Expr → Prop
  | none, o' => o' = none
  | some e, o' => ∃ e', o' = some e' ∧ Expr.Alike e e'
termination_by structural o => o

/-- Two elements of a shape are alike. -/
def ShapeElement.Alike : ShapeElement → ShapeElement → Prop
  | .mk name computed elements span, e' => ∃ computed' elements' span',
      e' = .mk name computed' elements' span' ∧ Expr.AlikeIn computed computed'
        ∧ ShapeElement.AlikeAll elements elements' ∧ μ.Spans span span'
termination_by structural e => e

/-- The elements of two shapes are alike one by one. -/
def ShapeElement.AlikeAll : List ShapeElement → List ShapeElement → Prop
  | [], es' => es' = []
  | e :: es, es' => ∃ e' rest', es' = e' :: rest' ∧ ShapeElement.Alike e e'
      ∧ ShapeElement.AlikeAll es rest'
termination_by structural es => es

/-- The keys of two lists are alike one by one, and sort alike. -/
def SortKey.AlikeAll : List SortKey → List SortKey → Prop
  | [], keys' => keys' = []
  | ⟨e, direction, empties, span⟩ :: keys, keys' => ∃ e' span' rest',
      keys' = ⟨e', direction, empties, span'⟩ :: rest' ∧ Expr.Alike e e'
        ∧ μ.Spans span span' ∧ SortKey.AlikeAll keys rest'
termination_by structural keys => keys

/-- Two statements are alike. If they are `plain`, then the limit is not
the subject. -/
def Select.Alike : Select → Select → Prop
  | ⟨modules, result, shape, filter, groupBy, orderBy, offset, limit, span⟩, q' =>
      List.Forall₂ (ModuleDecl.Alike μ) modules q'.modules
        ∧ Expr.Alike result q'.result ∧ ShapeElement.AlikeAll shape q'.shape
        ∧ Expr.AlikeIn filter q'.filter ∧ Expr.AlikeAll groupBy q'.groupBy
        ∧ SortKey.AlikeAll orderBy q'.orderBy ∧ Expr.AlikeIn offset q'.offset
        ∧ Expr.AlikeIn limit q'.limit ∧ μ.Spans span q'.span
        ∧ (μ = .plain → limit.any Expr.isSubject = false)
termination_by structural q => q

end

-- ================================================================ laws

variable {μ}

/-- Expressions that are alike have spans that are. -/
theorem Expr.Alike.spans {e e' : Expr} (h : e.Alike μ e') :
    μ.Spans e.span e'.span := by
  cases e with
  | constant value span =>
      obtain ⟨_, rfl, hspan⟩ := h
      exact hspan
  | emptySet span =>
      obtain ⟨_, rfl, hspan⟩ := h
      exact hspan
  | path p =>
      obtain ⟨_, rfl, hp⟩ := h
      exact hp.span
  | binary left op right span =>
      obtain ⟨_, _, _, rfl, -, -, hspan⟩ := h
      exact hspan
  | unary op operand span =>
      obtain ⟨_, _, rfl, -, hspan⟩ := h
      exact hspan
  | call function args span =>
      obtain ⟨_, _, _, rfl, -, -, hspan⟩ := h
      exact hspan
  | cast target operand span =>
      obtain ⟨_, _, _, rfl, -, -, hspan⟩ := h
      exact hspan
  | set elements span =>
      obtain ⟨_, _, rfl, -, hspan⟩ := h
      exact hspan
  | select query =>
      obtain ⟨_, rfl, hq⟩ := h
      obtain ⟨modules, result, shape, filter, groupBy, orderBy, offset, limit, span⟩ :=
        query
      exact hq.2.2.2.2.2.2.2.2.1
  | paren inner span =>
      obtain ⟨_, _, rfl, -, hspan⟩ := h
      exact hspan

theorem Expr.AlikeAll.length_eq {es es' : List Expr}
    (h : Expr.AlikeAll μ es es') : es.length = es'.length := by
  induction es generalizing es' with
  | nil =>
      obtain rfl := h
      rfl
  | cons e es ih =>
      obtain ⟨_, _, rfl, -, hes⟩ := h
      rw [List.length_cons, List.length_cons, ih hes]

theorem Path.alike_self (p : Path) : p.Alike μ p where
  root := by
    cases p.root with
    | none => exact .none
    | some ref => exact .some ⟨rfl, Likeness.spans_self μ _⟩
  steps := List.forall₂_same.2 fun _ _ => ⟨rfl, Likeness.spans_self μ _⟩
  span := Likeness.spans_self μ _

mutual

/-- Whatever is written is the same as itself. -/
theorem Expr.alike_self : (e : Expr) → e.Alike .same e
  | .constant _ span => ⟨span, rfl, fun _ => rfl⟩
  | .emptySet span => ⟨span, rfl, fun _ => rfl⟩
  | .path p => ⟨p, rfl, p.alike_self⟩
  | .binary l _ r span =>
      ⟨l, r, span, rfl, Expr.alike_self l, Expr.alike_self r, fun _ => rfl⟩
  | .unary _ operand span => ⟨operand, span, rfl, Expr.alike_self operand, fun _ => rfl⟩
  | .call function args span =>
      ⟨function, args, span, rfl, ⟨rfl, fun _ => rfl⟩, Expr.alikeAll_self args, fun _ => rfl⟩
  | .cast target operand span =>
      ⟨target, operand, span, rfl, ⟨rfl, fun _ => rfl⟩, Expr.alike_self operand, fun _ => rfl⟩
  | .set elements span => ⟨elements, span, rfl, Expr.alikeAll_self elements, fun _ => rfl⟩
  | .select query => ⟨query, rfl, Select.alike_self query⟩
  | .paren inner span => ⟨inner, span, rfl, Expr.alike_self inner, fun _ => rfl⟩
termination_by structural e => e

theorem Expr.alikeAll_self : (es : List Expr) → Expr.AlikeAll .same es es
  | [] => rfl
  | e :: es => ⟨e, es, rfl, Expr.alike_self e, Expr.alikeAll_self es⟩
termination_by structural es => es

theorem Expr.alikeIn_self : (o : Option Expr) → Expr.AlikeIn .same o o
  | none => rfl
  | some e => ⟨e, rfl, Expr.alike_self e⟩
termination_by structural o => o

theorem ShapeElement.alike_self : (e : ShapeElement) → e.Alike .same e
  | .mk _ computed elements span => ⟨computed, elements, span, rfl,
      Expr.alikeIn_self computed, ShapeElement.alikeAll_self elements, fun _ => rfl⟩
termination_by structural e => e

theorem ShapeElement.alikeAll_self :
    (es : List ShapeElement) → ShapeElement.AlikeAll .same es es
  | [] => rfl
  | e :: es => ⟨e, es, rfl, ShapeElement.alike_self e, ShapeElement.alikeAll_self es⟩
termination_by structural es => es

theorem SortKey.alikeAll_self : (keys : List SortKey) → SortKey.AlikeAll .same keys keys
  | [] => rfl
  | ⟨e, _, _, span⟩ :: keys =>
      ⟨e, span, keys, rfl, Expr.alike_self e, fun _ => rfl, SortKey.alikeAll_self keys⟩
termination_by structural keys => keys

theorem Select.alike_self : (q : Select) → q.Alike .same q
  | ⟨_, result, shape, filter, groupBy, orderBy, offset, limit, _⟩ =>
      ⟨List.forall₂_same.2 fun _ _ => ⟨rfl, rfl, fun _ => rfl⟩, Expr.alike_self result,
        ShapeElement.alikeAll_self shape, Expr.alikeIn_self filter,
        Expr.alikeAll_self groupBy, SortKey.alikeAll_self orderBy,
        Expr.alikeIn_self offset, Expr.alikeIn_self limit, fun _ => rfl,
        fun h => by cases h⟩
termination_by structural q => q

end

end PathQuery.Ast
