/-
What the steps of compilation point to when they fail.

An error other than a fault of the compiler itself has the span of some
syntax. Most errors have one of the syntax that is being compiled. A
mismatch of types is the exception: it has the span of the set whose
type is wrong, and a path set is shared, so that may be the span of the
place that met the path first. Clauses are no exception, for the set of
a clause has the span of its operand as written
(`span_of_clauseOperand`).

`Cites` says so of a step: from a store whose sets have spans that were
`seen`, it leaves such a store, and an error has a span of its `own`
syntax or, if it is a mismatch, a span that was seen. There is a lemma
for each function of the compiler, in the compiler's order. Nothing is
assumed of the store but which spans it holds.
-/
import PathQuery.Ast.Spans
import PathQuery.Proofs.Compile.Clauses
import PathQuery.Proofs.Compile.Success

namespace PathQuery

open Ast (Expr Select ShapeElement)
open Ir (Value Statement ShapeNode Arena SetNode Operation Origin)

variable {κ α β : Type}

-- ============================================================= sources

/-- The spans that errors may have. -/
structure Sources where
  /-- Those of the syntax that is being compiled. -/
  own : Span → Prop
  /-- Those of all syntax that may have made a set. -/
  seen : Span → Prop
  seen_of_own : ∀ span, own span → seen span

/-- An error is a fault of the compiler or points to its own syntax. A
mismatch of types may also point to what made the set in question. -/
inductive CompileError.PointsTo (S : Sources) (e : CompileError) : Prop where
  | internal (h : e.kind = .internal)
  | own (h : S.own e.span)
  | mismatch (h : e.kind = .typeMismatch) (hseen : S.seen e.span)

/-- The sets of a store have spans that were seen. -/
def Store.Spanned (S : Sources) (st : Store κ) : Prop :=
  ∀ id node, st.arena.get? id = some node → S.seen node.span

/-- An operation has a span of its own syntax. -/
def Ir.Value.Spanned (S : Sources) : Value → Prop
  | set _ => True
  | pending p => S.own p.span

/-- A value is from one place in the query. -/
def Ir.Value.From (st : Store κ) (span : Span) : Value → Prop
  | set id => ∃ node, st.arena.get? id = some node ∧ node.span = span
  | pending p => p.span = span

namespace CompileM

/-- A step leaves spans that were seen and fails where it may point. What
it returns is as `post` has it. -/
def Cites (S : Sources) (post : α → Prop) (m : CompileM κ α) : Prop :=
  ∀ (env : Env) (st : Store κ), st.Spanned S →
    (m.run env st).2.Spanned S
      ∧ (∀ a, (m.run env st).1 = .ok a → post a)
      ∧ ∀ e, (m.run env st).1 = .error e → e.PointsTo S

namespace Cites

variable {S : Sources} {mid : α → Prop} {post : β → Prop} {m : CompileM κ α}
  {f : α → CompileM κ β}

-- ============================================================= sequence

/-- A step that adds no set. -/
theorem of_arena (h : ∀ (env : Env) (st : Store κ), ∃ out st',
    m.run env st = (out, st') ∧ st'.arena = st.arena
      ∧ (∀ a, out = .ok a → st.Spanned S → mid a)
      ∧ ∀ e, out = .error e → e.PointsTo S) : Cites S mid m := by
  intro env st hst
  obtain ⟨out, st', hrun, harena, hok, herr⟩ := h env st
  rw [hrun]
  refine ⟨fun id node hn => ?_, fun a ha => hok a ha hst, herr⟩
  exact hst id node (harena ▸ hn)

/-- A step that adds no set and does not fail. -/
theorem of_ok (h : ∀ (env : Env) (st : Store κ), ∃ a st',
    m.run env st = (.ok a, st') ∧ st'.arena = st.arena
      ∧ (st.Spanned S → mid a)) : Cites S mid m := by
  refine of_arena fun env st => ?_
  obtain ⟨a, st', hrun, harena, ha⟩ := h env st
  refine ⟨.ok a, st', hrun, harena, fun b hb hst => ?_, fun e he => ?_⟩
  · cases hb
    exact ha hst
  · cases he

theorem pure {a : α} (h : mid a) : Cites S mid (Pure.pure a : CompileM κ α) :=
  of_ok fun _ st => ⟨a, st, rfl, rfl, fun _ => h⟩

theorem fail {e : CompileError} (h : e.PointsTo S) :
    Cites S mid (CompileM.fail e : CompileM κ α) := by
  refine of_arena fun env st => ⟨.error e, st, rfl, rfl, fun a ha => ?_,
    fun e' he => ?_⟩
  · cases ha
  · cases he
    exact h

theorem bind (hm : Cites S mid m) (hf : ∀ a, mid a → Cites S post (f a)) :
    Cites S post (m >>= f) := by
  intro env st hst
  obtain ⟨hspans, hvalue, herror⟩ := hm env st hst
  rcases run_bind_cases m f env st with ⟨e, st', hrunm, hrun⟩
    | ⟨a, st', hrunm, hrun⟩
  · rw [hrunm] at hspans herror
    rw [hrun]
    refine ⟨hspans, fun b hb => (by cases hb), fun e' he => ?_⟩
    cases he
    exact herror e rfl
  · rw [hrunm] at hspans hvalue
    rw [hrun]
    exact hf a (hvalue a rfl) env st' hspans

theorem underFrame {change : Frame → Frame} (hm : Cites S mid m) :
    Cites S mid (CompileM.underFrame change m) :=
  fun env st hst => hm { env with frame := change env.frame } st hst

theorem inClause {clause : Clause} (hm : Cites S mid m) :
    Cites S mid (CompileM.inClause clause m) :=
  underFrame hm

theorem underSubject {subject : SetId} (hm : Cites S mid m) :
    Cites S mid (CompileM.underSubject subject m) :=
  underFrame hm

theorem inScope (hm : Cites S mid m) : Cites S mid (CompileM.inScope m) :=
  fun env st hst => hm (env.within st.scopes.size) (st.opened env.frame.scope) hst

-- ================================================================ reads

theorem require {condition : Bool} {e : CompileError} (h : e.PointsTo S) :
    Cites S (fun _ => True) (CompileM.require condition e : CompileM κ Unit) := by
  unfold CompileM.require
  split
  · exact pure trivial
  · exact fail h

theorem orFail {value : Option α} {e : CompileError} (h : e.PointsTo S) :
    Cites S (fun _ => True) (CompileM.orFail value e : CompileM κ α) := by
  unfold CompileM.orFail
  split
  · exact pure trivial
  · exact fail h

theorem schema : Cites S (fun _ => True) (CompileM.schema : CompileM κ Schema) :=
  of_ok fun _ st => ⟨_, st, rfl, rfl, fun _ => trivial⟩

theorem frame : Cites S (fun _ => True) (CompileM.frame : CompileM κ Frame) :=
  of_ok fun _ st => ⟨_, st, rfl, rfl, fun _ => trivial⟩

theorem store : Cites S (fun _ => True) (CompileM.store : CompileM κ _) :=
  of_ok fun _ st => ⟨_, st, rfl, rfl, fun _ => trivial⟩

/-- A set has a span that was seen. -/
theorem getSet {id : SetId} :
    Cites S (fun node => S.seen node.span)
      (CompileM.getSet id : CompileM κ (SetNode κ)) := by
  refine of_arena fun env st => ?_
  cases hn : st.arena.get? id with
  | some node =>
      refine ⟨.ok node, st, run_getSet hn, rfl, fun n hok hst => ?_,
        fun e he => by cases he⟩
      cases hok
      exact hst id node hn
  | none =>
      refine ⟨.error (.internal (.danglingSet id)), st, ?_, rfl,
        fun n hok => (by cases hok), fun e he => ?_⟩
      · unfold CompileM.getSet
        rw [run_bind_ok run_store, run_orFail, hn]
      · cases he
        exact .internal rfl

theorem typeOf {id : SetId} :
    Cites S (fun _ => True) (CompileM.typeOf id : CompileM κ TypeId) := by
  unfold CompileM.typeOf
  exact .bind getSet fun _ _ => pure trivial

theorem judge {id : SetId} :
    Cites S (fun _ => True) (CompileM.judge id : CompileM κ Cardinality) := by
  unfold CompileM.judge
  exact .bind store fun _ _ => .bind frame fun _ _ => orFail (.internal rfl)

theorem resolve {ref : Ast.NameRef} (h : S.own ref.span) :
    Cites S (fun _ => True) (CompileM.resolve ref : CompileM κ SchemaItem) := by
  intro env st hst
  rw [run_resolve]
  exact orFail (.own h) env st hst

theorem checkModule {module : String} {span : Span} (h : S.own span) :
    Cites S (fun _ => True) (CompileM.checkModule module span : CompileM κ Unit)
      := by
  unfold CompileM.checkModule
  exact .bind schema fun _ _ => require (.own h)

theorem valueType {v : Value} :
    Cites S (fun _ => True) (CompileM.valueType v : CompileM κ TypeId) := by
  cases v with
  | set id => exact typeOf
  | pending p => exact pure trivial

theorem untypedEmptySet {span : Span} (h : S.seen span) :
    Cites S mid (CompileM.untypedEmptySet span : CompileM κ α) := by
  unfold CompileM.untypedEmptySet
  exact .bind frame fun _ _ => fail (.mismatch rfl h)

-- ================================================================= sets

theorem newSet {origin : Origin} {t : TypeId} {c : Cardinality} {span : Span}
    {key : Option κ} (h : S.seen span) :
    Cites S (fun _ => True) (CompileM.newSet origin t c span key) := by
  intro env st hst
  rcases run_newSet_cases origin t c span key env st with
    ⟨source, -, -, hrun⟩ | ⟨hnew, hrun⟩
  · rw [hrun]
    refine ⟨hst, fun a ha => (by cases ha), fun e he => ?_⟩
    cases he
    exact .internal rfl
  · rw [hrun]
    refine ⟨fun id node hn => ?_, fun _ _ => trivial, fun e he => by cases he⟩
    rcases Arena.get?_push_cases hnew hn with ⟨-, rfl⟩ | hn
    · exact h
    · exact hst id node hn

theorem newComputed {op : Operation} {t : TypeId} {c : Cardinality}
    {span : Span} (h : S.seen span) :
    Cites (κ := κ) S (fun _ => True) (CompileM.newComputed op t c span) :=
  newSet h

section Paths

variable [DecidableEq κ]

/-- Binding a path adds no set, and neither does finding one. -/
theorem shared {key : κ} {confirm : Arena κ → SetId → Bool}
    {make : CompileM κ SetId} (h : Cites S (fun _ => True) make) :
    Cites S (fun _ => True) (CompileM.shared key confirm make) := by
  have hlookup : Cites S (fun _ => True) (CompileM.lookupPath key) :=
    of_ok fun _ st => ⟨_, st, rfl, rfl, fun _ => trivial⟩
  have hbind : ∀ id, Cites S (fun _ => True) (CompileM.bindPath key id) :=
    fun _ => of_ok fun _ _ => ⟨_, _, rfl, rfl, fun _ => trivial⟩
  unfold CompileM.shared
  refine .bind hlookup fun found _ => ?_
  split
  · refine .bind store fun _ _ => ?_
    split
    · exact pure trivial
    · exact h
  · exact .bind h fun _ _ => .bind (hbind _) fun _ _ => pure trivial

variable [PathKey κ]

theorem rootSet {type : TypeId} {span : Span} (h : S.own span) :
    Cites (κ := κ) S (fun _ => True) (CompileM.rootSet type span) := by
  unfold CompileM.rootSet
  exact shared (newSet (S.seen_of_own _ h))

theorem extendPath {source : SetId} {name : String} {span : Span}
    (h : S.own span) :
    Cites (κ := κ) S (fun _ => True) (CompileM.extendPath source name span) := by
  unfold CompileM.extendPath
  exact .bind getSet fun _ _ => .bind schema fun _ _ => .bind frame fun _ _ =>
    .bind (require (.own h)) fun _ _ => .bind (orFail (.own h)) fun _ _ =>
    shared (.bind judge fun _ _ => newSet (S.seen_of_own _ h))

theorem pathStart {p : Ast.Path} (h : ∀ span ∈ p.spans, S.own span) :
    Cites (κ := κ) S (fun _ => True) (CompileM.pathStart p) := by
  unfold CompileM.pathStart
  split
  · exact .bind frame fun _ _ => orFail (.own (h _ List.mem_cons_self))
  · next root hroot =>
      have hown : S.own root.span := by
        refine h _ (List.mem_cons_of_mem _ (List.mem_append_left _ ?_))
        rw [hroot]
        exact List.mem_singleton_self _
      refine .bind (resolve hown) fun item _ => ?_
      split
      · exact .bind (require (.own hown)) fun _ _ => rootSet hown
      · exact fail (.own hown)

theorem extendAll {steps : List Ast.PathStep} {source : SetId}
    (h : ∀ step ∈ steps, S.own step.span) :
    Cites (κ := κ) S (fun _ => True) (steps.foldlM
      (fun set step => CompileM.extendPath set step.name step.span) source) := by
  induction steps generalizing source with
  | nil => exact pure trivial
  | cons step steps ih =>
      rw [List.forall_mem_cons] at h
      rw [List.foldlM_cons]
      exact .bind (extendPath h.1) fun _ _ => ih h.2

theorem path {p : Ast.Path} (h : ∀ span ∈ p.spans, S.own span) :
    Cites (κ := κ) S (fun _ => True) (CompileM.path p) := by
  unfold CompileM.path
  refine .bind (pathStart h) fun _ _ => extendAll fun step hstep => ?_
  exact h _ (List.mem_cons_of_mem _ (List.mem_append_right _
    (List.mem_map_of_mem hstep)))

end Paths

-- =============================================================== values

theorem castSet {id : SetId} {target : TypeId} {conversion : Conversion} :
    Cites (κ := κ) S (fun _ => True)
      (CompileM.castSet id target conversion) := by
  unfold CompileM.castSet
  exact .bind getSet fun _ hspan => .bind judge fun _ _ => newComputed hspan

theorem coerce {id : SetId} {target : TypeId} :
    Cites (κ := κ) S (fun _ => True) (CompileM.coerce id target) := by
  unfold CompileM.coerce
  refine .bind getSet fun _ hspan => .bind schema fun _ _ => ?_
  split
  · exact .bind judge fun _ _ => newComputed hspan
  · split
    · exact pure trivial
    · exact pure trivial
    · exact castSet
    · exact .bind frame fun _ _ => fail (.mismatch rfl hspan)

theorem referenceAt {id : SetId} {span : Span} (h : S.own span) :
    Cites (κ := κ) S (fun _ => True) (CompileM.referenceAt id span) := by
  unfold CompileM.referenceAt
  refine .bind getSet fun _ _ => ?_
  split
  · exact pure trivial
  · exact .bind judge fun _ _ => newComputed (S.seen_of_own _ h)

theorem settle {v : Value} {hint : Option TypeId} (hv : v.Spanned S) :
    Cites (κ := κ) S (fun _ => True) (CompileM.settle v hint) := by
  unfold CompileM.settle
  cases v with
  | set id => exact pure trivial
  | pending p =>
      have hseen := S.seen_of_own _ hv
      dsimp only
      split
      · split
        · exact newComputed hseen
        · exact untypedEmptySet hseen
      · exact newComputed hseen

theorem attach {v : Value} {hint : Option TypeId} (hv : v.Spanned S) :
    Cites (κ := κ) S (fun _ => True) (CompileM.attach v hint) := by
  unfold CompileM.attach
  refine .bind (settle hv) fun _ _ => ?_
  split
  · exact coerce
  · refine .bind getSet fun _ hspan => ?_
    split
    · exact .bind (untypedEmptySet hspan) fun _ (_ : True) => pure trivial
    · exact pure trivial

-- =========================================================== operators

section Operators

theorem convertOperand {id : SetId} {target : TypeId} :
    Cites (κ := κ) S (fun _ => True) (CompileM.convertOperand id target) := by
  unfold CompileM.convertOperand
  refine .bind typeOf fun _ _ => .bind schema fun _ _ => ?_
  split
  · exact castSet
  · exact pure trivial

variable [NameDigest]

theorem attachOperands {op : BinaryOp} {left right : Value}
    (hl : left.Spanned S) (hr : right.Spanned S) :
    Cites (κ := κ) S (fun _ => True)
      (CompileM.attachOperands op left right) := by
  unfold CompileM.attachOperands
  split
  · exact .bind (attach hl) fun _ _ => .bind (attach hr) fun _ _ => pure trivial
  · exact .bind valueType fun _ _ => .bind valueType fun _ _ =>
      .bind (attach hl) fun _ _ => .bind (attach hr) fun _ _ => pure trivial

theorem comparison {left right : SetId} {objects : Bool} {e : CompileError}
    (h : e.PointsTo S) :
    Cites (κ := κ) S (fun _ => True)
      (CompileM.comparison left right objects e) := by
  unfold CompileM.comparison
  refine .bind schema fun _ _ => .bind typeOf fun _ _ => .bind typeOf fun _ _ =>
    .bind (orFail h) fun _ _ => ?_
  split
  · exact pure trivial
  · exact .bind convertOperand fun _ _ => .bind convertOperand fun _ _ =>
      pure trivial

theorem arithmetic {left right : SetId} {e : CompileError} (h : e.PointsTo S) :
    Cites (κ := κ) S (fun _ => True) (CompileM.arithmetic left right e) := by
  unfold CompileM.arithmetic
  refine .bind schema fun _ _ => .bind typeOf fun _ _ => .bind typeOf fun _ _ => ?_
  split
  · exact pure trivial
  · exact .bind (require h) fun _ _ => .bind convertOperand fun _ _ =>
      .bind convertOperand fun _ _ => pure trivial
  · exact fail h

theorem concatenation {left right : SetId} {e : CompileError}
    (h : e.PointsTo S) :
    Cites (κ := κ) S (fun _ => True) (CompileM.concatenation left right e) := by
  unfold CompileM.concatenation
  refine .bind schema fun _ _ => .bind typeOf fun _ _ => .bind typeOf fun _ _ => ?_
  split
  · exact pure trivial
  · exact fail h

variable {span : Span}

theorem typeBinary {op : BinaryOp} {left right : SetId} (h : S.own span) :
    Cites (κ := κ) S (fun _ => True)
      (CompileM.typeBinary op left right span) := by
  unfold CompileM.typeBinary
  refine .bind schema fun _ _ => .bind typeOf fun _ _ => .bind typeOf fun _ _ => ?_
  split
  · exact pure trivial
  · refine .bind (require (.own h)) fun _ _ => ?_
    split
    · exact comparison (.own h)
    · split
      · exact concatenation (.own h)
      · exact arithmetic (.own h)

theorem binary {op : BinaryOp} {left right : Value} (hl : left.Spanned S)
    (hr : right.Spanned S) (h : S.own span) :
    Cites (κ := κ) S (Value.Spanned S) (CompileM.binary op left right span) := by
  unfold CompileM.binary
  refine .bind (attachOperands hl hr) fun _ _ => .bind (typeBinary h) fun _ _ => ?_
  exact .bind judge fun _ _ => .bind judge fun _ _ => pure h

theorem logicalNot {v : Value} (hv : v.Spanned S) (h : S.own span) :
    Cites (κ := κ) S (Value.Spanned S) (CompileM.logicalNot v span) := by
  unfold CompileM.logicalNot
  exact .bind (attach hv) fun _ _ => .bind judge fun _ _ => pure h

omit [NameDigest] in
theorem arithmeticNeg {v : Value} (hv : v.Spanned S) (h : S.own span) :
    Cites (κ := κ) S (Value.Spanned S) (CompileM.arithmeticNeg v span) := by
  unfold CompileM.arithmeticNeg
  exact .bind (attach hv) fun _ _ => .bind schema fun _ _ =>
    .bind typeOf fun _ _ => .bind (require (.own h)) fun _ _ =>
    .bind (require (.own h)) fun _ _ => .bind judge fun _ _ => pure h

variable {operand : CompileM κ Value}

theorem existence (ho : Cites S (Value.Spanned S) operand) (h : S.own span) :
    Cites S (Value.Spanned S) (CompileM.existence operand span) := by
  unfold CompileM.existence
  exact .bind (inScope (.bind ho fun _ hv => attach hv)) fun _ _ => pure h

omit [NameDigest] in
theorem castTarget {target : Ast.NameRef} (h : S.own target.span) :
    Cites (κ := κ) S (fun _ => True) (CompileM.castTarget target) := by
  unfold CompileM.castTarget
  refine .bind (resolve h) fun item _ => ?_
  split
  · exact pure trivial
  · exact fail (.own h)

omit [NameDigest] in
theorem cast {v : Value} {target : TypeId} (hv : v.Spanned S) (h : S.own span) :
    Cites (κ := κ) S (Value.Spanned S) (CompileM.cast v target span) := by
  unfold CompileM.cast
  exact .bind valueType fun _ _ => .bind (attach hv) fun _ _ =>
    .bind schema fun _ _ => .bind typeOf fun _ _ =>
    .bind (orFail (.own h)) fun _ _ => .bind judge fun _ _ => pure h

end Operators

-- ======================================================== set literals

section Elements

variable {elements : List (Value × Span)} {span : Span}

theorem commonElementType {common : TypeId}
    (h : ∀ e ∈ elements, S.own e.2) :
    Cites (κ := κ) S (fun _ => True)
      (CompileM.commonElementType common elements) := by
  induction elements generalizing common with
  | nil => exact pure trivial
  | cons element rest ih =>
      rw [List.forall_mem_cons] at h
      unfold CompileM.commonElementType
      refine .bind valueType fun _ _ => ?_
      split
      · exact ih h.2
      · split
        · exact ih h.2
        · exact .bind schema fun _ _ => .bind (orFail (.own h.1)) fun _ _ =>
            ih h.2

theorem attachMembers {hint : Option TypeId}
    (h : ∀ e ∈ elements, e.1.Spanned S) :
    Cites (κ := κ) S (fun _ => True) (CompileM.attachMembers hint elements) := by
  induction elements with
  | nil => exact pure trivial
  | cons element rest ih =>
      rw [List.forall_mem_cons] at h
      unfold CompileM.attachMembers
      exact .bind (attach h.1) fun _ _ => .bind judge fun _ _ =>
        .bind (ih h.2) fun _ _ => pure trivial

theorem setOf (h : ∀ e ∈ elements, e.1.Spanned S ∧ S.own e.2)
    (hspan : S.own span) :
    Cites (κ := κ) S (Value.Spanned S) (CompileM.setOf elements span) := by
  unfold CompileM.setOf
  split
  · exact pure hspan
  · exact pure (h _ (List.mem_singleton_self _)).1
  · unfold CompileM.unionOf
    exact .bind (commonElementType fun e he => (h e he).2) fun _ _ =>
      .bind (attachMembers fun e he => (h e he).1) fun _ _ => pure hspan

end Elements

-- =============================================================== calls

section Calls

variable {span : Span} {operand : CompileM κ Value}

theorem callee {function : Ast.NameRef} {given : Nat}
    (hname : S.own function.span) (h : S.own span) :
    Cites (κ := κ) S (fun _ => True) (CompileM.callee function given span) := by
  unfold CompileM.callee
  refine .bind (resolve hname) fun item _ => ?_
  split
  · exact fail (.own hname)
  · exact .bind (require (.own h)) fun _ _ => pure trivial

theorem checkArgument {id : SetId} {type : ParamType} {position : Nat}
    {function : QualifiedName} :
    Cites (κ := κ) S (fun _ => True)
      (CompileM.checkArgument id type position function) := by
  unfold CompileM.checkArgument
  refine .bind schema fun _ _ => .bind getSet fun _ hspan => ?_
  dsimp only
  split
  · exact pure trivial
  · exact .bind (require (.mismatch rfl hspan)) fun _ _ => pure trivial
  · split
    · exact castSet
    · exact pure trivial
    · exact fail (.mismatch rfl hspan)

theorem argument {param : Parameter} {position : Nat}
    {function : QualifiedName} {c : Cardinality}
    (ho : Cites S (Value.Spanned S) operand) :
    Cites S (fun _ => True)
      (CompileM.argument operand param position function c) := by
  unfold CompileM.argument
  split
  · exact .bind (inScope (.bind ho fun _ hv => .bind (attach hv)
      fun _ _ => checkArgument)) fun _ _ => pure trivial
  · exact .bind ho fun _ hv => .bind (attach hv) fun _ _ =>
      .bind checkArgument fun _ _ => .bind judge fun _ _ => pure trivial

theorem call {function : QualifiedName} {sig : Signature} {args : List SetId}
    {c : Cardinality} (h : S.own span) :
    Cites (κ := κ) S (Value.Spanned S)
      (CompileM.call function sig args c span) := by
  unfold CompileM.call CompileM.returnType
  refine .bind (show Cites S (fun _ : TypeId => True) _ from ?_)
    fun _ _ => pure h
  split
  · exact pure trivial
  · exact .bind (orFail (.internal rfl)) fun _ _ => typeOf

end Calls

end Cites

-- ============================================================= clauses

section Clauses

variable {env : Env} {st st' : Store κ} {id id' : SetId} {span : Span}
  {target : TypeId} {hint : Option TypeId}

/-- Casting a set, or typing an empty one, keeps where it is from. -/
theorem span_of_coerce {node : SetNode κ} (hn : st.arena.get? id = some node)
    (h : (coerce id target).run env st = (.ok id', st')) :
    ∃ node', st'.arena.get? id' = some node' ∧ node'.span = node.span := by
  unfold coerce castSet at h
  rw [run_bind_ok (run_getSet hn), run_bind_ok run_schema] at h
  split at h
  · obtain ⟨c, mid, -, hnew⟩ := ok_of_bind h
    exact ⟨_, get?_of_newComputed hnew, rfl⟩
  · split at h
    · obtain ⟨rfl, rfl⟩ := ok_of_pure h
      exact ⟨node, hn, rfl⟩
    · obtain ⟨rfl, rfl⟩ := ok_of_pure h
      exact ⟨node, hn, rfl⟩
    · rw [run_bind_ok (run_getSet hn)] at h
      obtain ⟨c, mid, -, hnew⟩ := ok_of_bind h
      exact ⟨_, get?_of_newComputed hnew, rfl⟩
    · rw [run_bind_ok run_frame] at h
      cases h

theorem span_of_settle {v : Value} (hv : v.From st span)
    (h : (settle v hint).run env st = (.ok id, st')) :
    ∃ node, st'.arena.get? id = some node ∧ node.span = span := by
  unfold settle at h
  cases v with
  | set x =>
      obtain ⟨rfl, rfl⟩ := ok_of_pure h
      exact hv
  | pending p =>
      obtain rfl : p.span = span := hv
      dsimp only at h
      split at h
      · split at h
        · exact ⟨_, get?_of_newComputed h, rfl⟩
        · cases h
      · exact ⟨_, get?_of_newComputed h, rfl⟩

/-- The set of a value is where the value was written. -/
theorem span_of_attach {v : Value} (hv : v.From st span)
    (h : (attach v hint).run env st = (.ok id, st')) :
    ∃ node, st'.arena.get? id = some node ∧ node.span = span := by
  unfold attach at h
  obtain ⟨x, mid, hsettle, hrest⟩ := ok_of_bind h
  obtain ⟨node, hn, rfl⟩ := span_of_settle hv hsettle
  split at hrest
  · exact span_of_coerce hn hrest
  · rw [run_bind_ok (run_getSet hn)] at hrest
    split at hrest
    · obtain ⟨_, _, hfail, -⟩ := ok_of_bind hrest
      cases hfail
    · obtain ⟨rfl, rfl⟩ := ok_of_pure hrest
      exact ⟨node, hn, rfl⟩

theorem span_of_referenceAt
    (h : (referenceAt id span).run env st = (.ok id', st')) :
    ∃ node, st'.arena.get? id' = some node ∧ node.span = span := by
  unfold referenceAt at h
  obtain ⟨node, mid, hget, hrest⟩ := ok_of_bind h
  obtain ⟨hn, rfl⟩ := ok_of_getSet hget
  split at hrest
  · next hspan =>
      obtain ⟨rfl, rfl⟩ := ok_of_pure hrest
      exact ⟨node, hn, hspan⟩
  · obtain ⟨c, mid', -, hnew⟩ := ok_of_bind hrest
    exact ⟨_, get?_of_newComputed hnew, rfl⟩

/-- The set of a clause is where its operand was written. -/
theorem span_of_clauseOperand {operand : CompileM κ Value}
    (h : (clauseOperand operand span hint).run env st = (.ok id, st')) :
    ∃ node, st'.arena.get? id = some node ∧ node.span = span := by
  unfold clauseOperand at h
  obtain ⟨v, mid, -, hrest⟩ := ok_of_bind h
  cases v with
  | set x =>
      obtain ⟨y, mid', href, hattach⟩ := ok_of_bind hrest
      exact span_of_attach (v := .set y) (span_of_referenceAt href) hattach
  | pending p =>
      exact span_of_attach (v := .pending { p with span }) rfl hrest

namespace Cites

variable {S : Sources} {operand : CompileM κ Value}

theorem clauseOperand (ho : Cites S (Value.Spanned S) operand)
    (h : S.own span) :
    Cites S (fun _ => True) (CompileM.clauseOperand operand span hint) := by
  unfold CompileM.clauseOperand
  refine .bind ho fun v hv => ?_
  cases v with
  | set x => exact .bind (referenceAt h) fun _ _ => attach trivial
  | pending p => exact attach h

/-- One value is demanded of a set that is where the operand was
written. -/
theorem oneValue (ho : Cites S (Value.Spanned S) operand) (h : S.own span) :
    Cites S (fun _ => True) (do
      let id ← CompileM.clauseOperand operand span hint
      CompileM.requireSingleton id
      return id) := by
  intro env st hst
  have hcites : Cites S _ (CompileM.clauseOperand operand span hint) :=
    clauseOperand ho h
  have hclause := hcites env st hst
  rcases run_bind_cases (CompileM.clauseOperand operand span hint)
    (fun id => CompileM.requireSingleton id >>= fun _ => Pure.pure id) env st with
    ⟨e, mid, hrunm, hrun⟩ | ⟨id, mid, hrunm, hrun⟩
  · rw [hrunm] at hclause
    rw [hrun]
    refine ⟨hclause.1, fun a ha => (by cases ha), fun e' he => ?_⟩
    cases he
    exact hclause.2.2 e rfl
  · obtain ⟨node, hn, hspan⟩ := span_of_clauseOperand hrunm
    obtain ⟨c, hc⟩ := mid.exists_judge? env.frame.scope hn
    rw [hrunm] at hclause
    rw [hrun, run_bind, run_requireSingleton hc hn]
    cases c.isSingleton with
    | true => exact ⟨hclause.1, fun _ _ => trivial, fun e he => by cases he⟩
    | false =>
        refine ⟨hclause.1, fun a ha => (by cases ha), fun e he => ?_⟩
        cases he
        exact .own (hspan.symm ▸ h)

theorem filterBy [NameDigest] (ho : Cites S (Value.Spanned S) operand)
    (h : S.own span) :
    Cites S (fun _ => True) (CompileM.filterBy operand span) := by
  unfold CompileM.filterBy
  exact inScope (inClause (clauseOperand ho h))

theorem bound [NameDigest] (ho : Cites S (Value.Spanned S) operand)
    (h : S.own span) :
    Cites S (fun _ => True) (CompileM.bound operand span) := by
  unfold CompileM.bound
  exact inScope (oneValue ho h)

theorem key (ho : Cites S (Value.Spanned S) operand) (h : S.own span) :
    Cites S (fun _ => True) (CompileM.key operand span) := by
  unfold CompileM.key
  exact inScope (oneValue ho h)

-- ========================================================== statements

theorem withModules {decls : List Ast.ModuleDecl} {post : α → Prop}
    {m : CompileM κ α} (h : ∀ d ∈ decls, S.own d.span) (hm : Cites S post m) :
    Cites S post (CompileM.withModules decls m) := by
  induction decls with
  | nil => exact hm
  | cons d decls ih =>
      rw [List.forall_mem_cons] at h
      unfold CompileM.withModules
      exact .bind (checkModule h.1) fun _ _ => underFrame (ih h.2)

theorem withShape {subject : SetId} {elements : List ShapeElement}
    {m : CompileM κ (List ShapeNode)} (h : ∀ e ∈ elements, S.own e.span)
    (hm : Cites S (fun _ => True) m) :
    Cites S (fun _ => True) (CompileM.withShape subject elements m) := by
  unfold CompileM.withShape CompileM.requireObject
  split
  · exact pure trivial
  · have hown := h _ List.mem_cons_self
    exact .bind (.bind schema fun _ _ => .bind typeOf fun _ _ =>
      require (.own hown)) fun _ _ => inClause (underSubject hm)

theorem limited {c : Cardinality} {limit : SetId} :
    Cites (κ := κ) S (fun _ => True) (CompileM.limited c limit) := by
  unfold CompileM.limited
  refine .bind getSet fun _ _ => ?_
  split
  · exact pure trivial
  · exact pure trivial

theorem statementCardinality {result : SetId} {filter limit : Option SetId} :
    Cites (κ := κ) S (fun _ => True)
      (CompileM.statementCardinality result filter limit) := by
  unfold CompileM.statementCardinality
  refine .bind judge fun _ _ => ?_
  dsimp only
  split
  · exact limited
  · exact pure trivial

theorem subquery {stmt : Statement} (h : S.own stmt.span) :
    Cites (κ := κ) S (Value.Spanned S) (CompileM.subquery stmt) := by
  unfold CompileM.subquery
  exact .bind typeOf fun _ _ =>
    .bind (newComputed (S.seen_of_own _ h)) fun _ _ => pure trivial

end Cites

end Clauses

end CompileM

end PathQuery
