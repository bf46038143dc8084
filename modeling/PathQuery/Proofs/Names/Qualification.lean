/-
Module declarations are shorthand.

A part of a query and the same part with its names in full are compiled
side by side, the second one in a frame without default module and
aliases. Names are read in one place only, and there both parts find
the same item (`Qualifies.resolve`); all other steps do the same in
either frame. So where the first part is compiled the second one is,
from the same store to the same store (`Qualifies.select`), and a
compiled statement is compiled to the same sets without the declarations
(`compileWith_qualify`).

Nothing is said of errors: a name that stands for nothing is shown as it
was written.
-/
import PathQuery.Compile.Qualify
import PathQuery.Proofs.Statement.Parts
import PathQuery.Proofs.Statement.Soundness

namespace PathQuery

open Ast (Expr Select ShapeElement)
open Ir (Value Statement ShapeNode Operation)

variable {κ α β : Type}

-- ============================================================== frames

/-- The frame without any declarations. -/
def Frame.plain (f : Frame) : Frame := { f with defaultModule := none, aliases := .empty }

def Env.plain (env : Env) : Env := { env with frame := env.frame.plain }

@[simp] theorem Env.lexicon_plain (env : Env) :
    env.plain.lexicon = env.lexicon.plain := rfl

/-- Declarations are gone from the frame that they were made in. -/
@[simp] theorem Env.plain_declareAll (env : Env) (modules : List Ast.ModuleDecl) :
    (env.declareAll modules).plain = env.plain := by
  rw [declareAll_eq]
  rfl

namespace CompileM

/-- Where names are read by a lexicon, what the first step compiles to
the second one compiles to without the lexicon. -/
def Qualifies (x : Lexicon) (m m' : CompileM κ α) : Prop :=
  ∀ (env : Env) (st : Store κ) (a : α) (st' : Store κ), env.lexicon = x →
    m.run env st = (.ok a, st') → m'.run env.plain st = (.ok a, st')

namespace Qualifies

variable {x : Lexicon} {m m' : CompileM κ α} {f f' : α → CompileM κ β}

-- =============================================================== rules

/-- A step that reads no frame. -/
theorem of_run (h : ∀ env st, m.run (Env.plain env) st = m.run env st) :
    Qualifies x m m := by
  intro env st a st' _ hrun
  rw [h, hrun]

theorem pure {a : α} : Qualifies x (Pure.pure a : CompileM κ α) (Pure.pure a) :=
  of_run fun _ _ => rfl

theorem bind (hm : Qualifies x m m') (hf : ∀ a, Qualifies x (f a) (f' a)) :
    Qualifies x (m >>= f) (m' >>= f') := by
  intro env st b st' hx hrun
  obtain ⟨a, mid, ha, hb⟩ := ok_of_bind hrun
  rw [run_bind_ok (hm env st a mid hx ha)]
  exact hf a env mid b st' hx hb

/-- A step that fails. -/
theorem fail {e : CompileError} :
    Qualifies x (CompileM.fail e : CompileM κ α) m' := by
  intro env st a st' _ hrun
  cases hrun

theorem require {b : Bool} {e e' : CompileError} :
    Qualifies (κ := κ) x (CompileM.require b e) (CompileM.require b e') := by
  cases b with
  | true => exact pure
  | false => exact fail

theorem orFail {o : Option α} {e e' : CompileError} :
    Qualifies (κ := κ) x (CompileM.orFail o e) (CompileM.orFail o e') := by
  cases o with
  | some a => exact pure
  | none => exact fail

theorem schema : Qualifies (κ := κ) x CompileM.schema CompileM.schema :=
  of_run fun _ _ => rfl

theorem store : Qualifies (κ := κ) x CompileM.store CompileM.store :=
  of_run fun _ _ => rfl

/-- What is read of the frame is anything but names. -/
theorem frame {k k' : Frame → CompileM κ β}
    (h : ∀ frame, Qualifies x (k frame) (k' frame.plain)) :
    Qualifies x (CompileM.frame >>= k) (CompileM.frame >>= k') := by
  intro env st b st' hx hrun
  rw [run_bind_ok run_frame] at hrun ⊢
  exact h env.frame env st b st' hx hrun

/-- A part in another frame of the same names. -/
theorem underFrame {change : Frame → Frame}
    (hnames : ∀ frame, (change frame).defaultModule = frame.defaultModule
      ∧ (change frame).aliases = frame.aliases)
    (hplain : ∀ frame, (change frame).plain = change frame.plain)
    (hm : Qualifies x m m') :
    Qualifies x (CompileM.underFrame change m)
      (CompileM.underFrame change m') := by
  intro env st a st' hx hrun
  rw [run_underFrame] at hrun ⊢
  have hlexicon : ({ env with frame := change env.frame } : Env).lexicon = x := by
    rw [← hx]
    unfold Env.lexicon
    rw [(hnames env.frame).1, (hnames env.frame).2]
  have hrun' := hm _ st a st' hlexicon hrun
  unfold Env.plain at hrun' ⊢
  rw [← hplain]
  exact hrun'

theorem inClause {clause : Clause} (hm : Qualifies x m m') :
    Qualifies x (CompileM.inClause clause m) (CompileM.inClause clause m') :=
  underFrame (fun _ => ⟨rfl, rfl⟩) (fun _ => rfl) hm

theorem underSubject {subject : SetId} (hm : Qualifies x m m') :
    Qualifies x (CompileM.underSubject subject m)
      (CompileM.underSubject subject m') :=
  underFrame (fun _ => ⟨rfl, rfl⟩) (fun _ => rfl) hm

theorem inScope (hm : Qualifies x m m') :
    Qualifies x (CompileM.inScope m) (CompileM.inScope m') := by
  intro env st a st' hx hrun
  rw [run_inScope] at hrun ⊢
  exact hm (env.within st.scopes.size) _ a st' hx hrun

/-- A name and the same name in full. -/
theorem resolve {ref : Ast.NameRef} : Qualifies (κ := κ) x
    (CompileM.resolve ref) (CompileM.resolve (ref.qualify x)) := by
  intro env st item st' hx hrun
  rw [run_resolve] at hrun ⊢
  have hsame : env.plain.resolve? (ref.qualify x).name = env.resolve? ref.name := by
    subst hx
    exact env.lexicon.resolve?_qualify ref.name
  rw [hsame]
  exact orFail env st item st' hx hrun

/-- Declarations that are left out. -/
theorem withModules {modules : List Ast.ModuleDecl}
    (hm : Qualifies (x.declareAll modules) m m') :
    Qualifies x (CompileM.withModules modules m)
      (CompileM.withModules [] m') := by
  intro env st a st' hx hrun
  have hlexicon : (env.declareAll modules).lexicon = x.declareAll modules := by
    rw [Env.lexicon_declareAll, hx]
  have hrun' := hm _ st a st' hlexicon (run_of_withModules hrun)
  rw [Env.plain_declareAll] at hrun'
  exact hrun'

-- ================================================================ sets

variable {id l r : SetId} {t target : TypeId} {span : Span} {v w : Value}
  {hint : Option TypeId}

theorem getSet : Qualifies (κ := κ) x (CompileM.getSet id) (CompileM.getSet id) :=
  bind store fun _ => orFail

theorem typeOf : Qualifies (κ := κ) x (CompileM.typeOf id) (CompileM.typeOf id) :=
  bind getSet fun _ => pure

theorem judge : Qualifies (κ := κ) x (CompileM.judge id) (CompileM.judge id) :=
  bind store fun _ => frame fun _ => orFail

theorem requireSingleton : Qualifies (κ := κ) x (CompileM.requireSingleton id)
    (CompileM.requireSingleton id) := by
  unfold CompileM.requireSingleton
  refine bind judge fun c => ?_
  split
  · exact pure
  · exact frame fun _ => bind getSet fun _ => fail

theorem newSet {origin : Ir.Origin} {c : Cardinality} {key : Option κ} :
    Qualifies x (CompileM.newSet origin t c span key)
      (CompileM.newSet origin t c span key) :=
  of_run fun env st => by
    unfold CompileM.newSet
    rw [run_bind_ok (show (get : CompileM κ (Store κ)).run env.plain st
        = (.ok st, st) from rfl),
      run_bind_ok (show (get : CompileM κ (Store κ)).run env st
        = (.ok st, st) from rfl), run_bind_ok run_frame, run_bind_ok run_frame]
    dsimp only
    split
    · rfl
    · split <;> rfl

theorem newComputed {op : Operation} {c : Cardinality} :
    Qualifies (κ := κ) x (CompileM.newComputed op t c span)
      (CompileM.newComputed op t c span) := newSet

theorem castSet {conversion : Conversion} :
    Qualifies (κ := κ) x (CompileM.castSet id target conversion)
      (CompileM.castSet id target conversion) :=
  bind getSet fun _ => bind judge fun _ => newComputed

theorem coerce : Qualifies (κ := κ) x (CompileM.coerce id target)
    (CompileM.coerce id target) := by
  unfold CompileM.coerce
  refine bind getSet fun node => bind schema fun s => ?_
  split
  · exact bind judge fun _ => newComputed
  · split
    · exact pure
    · exact pure
    · exact castSet
    · exact frame fun _ => fail

theorem referenceAt : Qualifies (κ := κ) x (CompileM.referenceAt id span)
    (CompileM.referenceAt id span) := by
  unfold CompileM.referenceAt
  refine bind getSet fun node => ?_
  split
  · exact pure
  · exact bind judge fun _ => newComputed

-- =============================================================== values

theorem valueType : Qualifies (κ := κ) x (CompileM.valueType v)
    (CompileM.valueType v) := by
  cases v with
  | set id => exact typeOf
  | pending p => exact pure

theorem untypedEmptySet : Qualifies x
    (CompileM.untypedEmptySet span : CompileM κ α)
      (CompileM.untypedEmptySet span) :=
  frame fun _ => fail

theorem settle : Qualifies (κ := κ) x (CompileM.settle v hint)
    (CompileM.settle v hint) := by
  unfold CompileM.settle
  cases v with
  | set id => exact pure
  | pending p =>
      dsimp only
      split
      · split
        · exact newComputed
        · exact untypedEmptySet
      · exact newComputed

theorem attach : Qualifies (κ := κ) x (CompileM.attach v hint)
    (CompileM.attach v hint) := by
  unfold CompileM.attach
  refine bind settle fun id => ?_
  split
  · exact coerce
  · refine bind getSet fun node => ?_
    split
    · exact bind untypedEmptySet fun _ => pure
    · exact pure

-- ============================================================ operators

theorem convertOperand : Qualifies (κ := κ) x
    (CompileM.convertOperand id target) (CompileM.convertOperand id target) := by
  unfold CompileM.convertOperand
  refine bind typeOf fun source => bind schema fun s => ?_
  split
  · exact castSet
  · exact pure

section

variable [NameDigest]

theorem attachOperands {op : BinaryOp} : Qualifies (κ := κ) x
    (CompileM.attachOperands op v w) (CompileM.attachOperands op v w) := by
  unfold CompileM.attachOperands
  split
  · exact bind attach fun _ => bind attach fun _ => pure
  · exact bind valueType fun _ => bind valueType fun _ =>
      bind attach fun _ => bind attach fun _ => pure

theorem comparison {objects : Bool} {e : CompileError} : Qualifies (κ := κ) x
    (CompileM.comparison l r objects e) (CompileM.comparison l r objects e) := by
  unfold CompileM.comparison
  refine bind schema fun _ => bind typeOf fun _ => bind typeOf fun _ =>
    bind orFail fun _ => ?_
  split
  · exact pure
  · exact bind convertOperand fun _ => bind convertOperand fun _ => pure

theorem concatenation {e : CompileError} : Qualifies (κ := κ) x
    (CompileM.concatenation l r e) (CompileM.concatenation l r e) := by
  unfold CompileM.concatenation
  refine bind schema fun _ => bind typeOf fun _ => bind typeOf fun _ => ?_
  split
  · exact pure
  · exact fail

theorem arithmetic {e : CompileError} : Qualifies (κ := κ) x
    (CompileM.arithmetic l r e) (CompileM.arithmetic l r e) := by
  unfold CompileM.arithmetic
  refine bind schema fun _ => bind typeOf fun _ => bind typeOf fun _ => ?_
  split
  · exact pure
  · exact bind require fun _ => bind convertOperand fun _ =>
      bind convertOperand fun _ => pure
  · exact fail

theorem typeBinary {op : BinaryOp} : Qualifies (κ := κ) x
    (CompileM.typeBinary op l r span) (CompileM.typeBinary op l r span) := by
  unfold CompileM.typeBinary
  refine bind schema fun _ => bind typeOf fun _ => bind typeOf fun _ => ?_
  split
  · exact pure
  · refine bind require fun _ => ?_
    split
    · exact comparison
    · split
      · exact concatenation
      · exact arithmetic

theorem binary {op : BinaryOp} : Qualifies (κ := κ) x
    (CompileM.binary op v w span) (CompileM.binary op v w span) :=
  bind attachOperands fun _ => bind typeBinary fun _ => bind judge fun _ =>
    bind judge fun _ => pure

theorem logicalNot : Qualifies (κ := κ) x (CompileM.logicalNot v span)
    (CompileM.logicalNot v span) :=
  bind attach fun _ => bind judge fun _ => pure

omit [NameDigest] in
theorem arithmeticNeg : Qualifies (κ := κ) x (CompileM.arithmeticNeg v span)
    (CompileM.arithmeticNeg v span) :=
  bind attach fun _ => bind schema fun _ => bind typeOf fun _ =>
    bind require fun _ => bind require fun _ => bind judge fun _ => pure

theorem existence {m m' : CompileM κ Value} (hm : Qualifies x m m') :
    Qualifies x (CompileM.existence m span) (CompileM.existence m' span) :=
  bind (inScope (bind hm fun _ => attach)) fun _ => pure

end

theorem castTarget {ref : Ast.NameRef} : Qualifies (κ := κ) x
    (CompileM.castTarget ref) (CompileM.castTarget (ref.qualify x)) := by
  unfold CompileM.castTarget
  refine bind resolve fun item => ?_
  cases item with
  | type id entry => exact pure
  | function name sig => exact fail

theorem cast : Qualifies (κ := κ) x (CompileM.cast v target span)
    (CompileM.cast v target span) :=
  bind valueType fun _ => bind attach fun _ => bind schema fun _ =>
    bind typeOf fun _ => bind orFail fun _ => bind judge fun _ => pure

-- ================================================ set literals and calls

theorem commonElementType {common : TypeId} {elements : List (Value × Span)} :
    Qualifies (κ := κ) x (CompileM.commonElementType common elements)
      (CompileM.commonElementType common elements) := by
  induction elements generalizing common with
  | nil => exact pure
  | cons element rest ih =>
      unfold CompileM.commonElementType
      refine bind valueType fun type => ?_
      split
      · exact ih
      · split
        · exact ih
        · exact bind schema fun _ => bind orFail fun _ => ih

theorem attachMembers {elements : List (Value × Span)} : Qualifies (κ := κ) x
    (CompileM.attachMembers hint elements)
      (CompileM.attachMembers hint elements) := by
  induction elements with
  | nil => exact pure
  | cons element rest ih =>
      exact bind attach fun _ => bind judge fun _ => bind ih fun _ => pure

theorem setOf {elements : List (Value × Span)} : Qualifies (κ := κ) x
    (CompileM.setOf elements span) (CompileM.setOf elements span) := by
  unfold CompileM.setOf
  split
  · exact pure
  · exact pure
  · exact bind commonElementType fun _ => bind attachMembers fun _ => pure

theorem callee {ref : Ast.NameRef} {given : Nat} : Qualifies (κ := κ) x
    (CompileM.callee ref given span)
      (CompileM.callee (ref.qualify x) given span) := by
  unfold CompileM.callee
  refine bind resolve fun item => ?_
  cases item with
  | type id entry => exact fail
  | function name sig => exact bind require fun _ => pure

theorem checkArgument {type : ParamType} {position : Nat}
    {function : QualifiedName} : Qualifies (κ := κ) x
    (CompileM.checkArgument id type position function)
      (CompileM.checkArgument id type position function) := by
  unfold CompileM.checkArgument
  refine bind schema fun s => bind getSet fun node => ?_
  dsimp only
  split
  · exact pure
  · exact bind require fun _ => pure
  · split
    · exact castSet
    · exact pure
    · exact fail

theorem argument {m m' : CompileM κ Value} {param : Parameter} {position : Nat}
    {function : QualifiedName} {c : Cardinality} (hm : Qualifies x m m') :
    Qualifies x (CompileM.argument m param position function c)
      (CompileM.argument m' param position function c) := by
  unfold CompileM.argument
  split
  · exact bind (inScope (bind hm fun _ => bind attach fun _ => checkArgument))
      fun _ => pure
  · exact bind hm fun _ => bind attach fun _ => bind checkArgument fun _ =>
      bind judge fun _ => pure

theorem call {function : QualifiedName} {sig : Signature} {args : List SetId}
    {c : Cardinality} : Qualifies (κ := κ) x
    (CompileM.call function sig args c span)
      (CompileM.call function sig args c span) := by
  unfold CompileM.call CompileM.returnType
  refine bind ?_ fun _ => pure
  split
  · exact pure
  · exact bind orFail fun _ => typeOf

-- ============================================================== clauses

theorem clauseOperand {m m' : CompileM κ Value} (hm : Qualifies x m m') :
    Qualifies x (CompileM.clauseOperand m span hint)
      (CompileM.clauseOperand m' span hint) := by
  unfold CompileM.clauseOperand
  refine bind hm fun v => ?_
  cases v with
  | set id => exact bind referenceAt fun _ => attach
  | pending p => exact attach

theorem filterBy [NameDigest] {m m' : CompileM κ Value}
    (hm : Qualifies x m m') : Qualifies x (CompileM.filterBy m span)
      (CompileM.filterBy m' span) :=
  inScope (inClause (clauseOperand hm))

theorem bound [NameDigest] {m m' : CompileM κ Value} (hm : Qualifies x m m') :
    Qualifies x (CompileM.bound m span) (CompileM.bound m' span) :=
  inScope (bind (clauseOperand hm) fun _ => bind requireSingleton fun _ => pure)

theorem key {m m' : CompileM κ Value} (hm : Qualifies x m m') :
    Qualifies x (CompileM.key m span) (CompileM.key m' span) :=
  inScope (bind (clauseOperand hm) fun _ => bind requireSingleton fun _ => pure)

theorem requireObject : Qualifies (κ := κ) x (CompileM.requireObject id span)
    (CompileM.requireObject id span) :=
  bind schema fun _ => bind typeOf fun _ => require

theorem limited {c : Cardinality} : Qualifies (κ := κ) x
    (CompileM.limited c id) (CompileM.limited c id) := by
  unfold CompileM.limited
  refine bind getSet fun node => ?_
  split
  · exact pure
  · exact pure

theorem statementCardinality {filter limit : Option SetId} :
    Qualifies (κ := κ) x (CompileM.statementCardinality id filter limit)
      (CompileM.statementCardinality id filter limit) := by
  unfold CompileM.statementCardinality
  refine bind judge fun c => ?_
  dsimp only
  split
  · exact limited
  · exact pure

theorem subquery {stmt : Statement} : Qualifies (κ := κ) x
    (CompileM.subquery stmt) (CompileM.subquery stmt) :=
  bind typeOf fun _ => bind newComputed fun _ => pure

-- ================================================================ paths

section

variable [DecidableEq κ]

theorem shared {key : κ} {confirm : Ir.Arena κ → SetId → Bool}
    {m m' : CompileM κ SetId} (hm : Qualifies x m m') :
    Qualifies x (CompileM.shared key confirm m)
      (CompileM.shared key confirm m') := by
  unfold CompileM.shared
  refine bind (of_run fun _ _ => rfl) fun found => ?_
  cases found with
  | some found =>
      refine bind store fun st => ?_
      split
      · exact pure
      · exact hm
  | none => exact bind hm fun _ => bind (of_run fun _ _ => rfl) fun _ => pure

variable [PathKey κ]

theorem rootSet : Qualifies (κ := κ) x (CompileM.rootSet t span)
    (CompileM.rootSet t span) := by
  unfold CompileM.rootSet
  exact shared newSet

theorem extendPath {name : String} : Qualifies (κ := κ) x
    (CompileM.extendPath id name span) (CompileM.extendPath id name span) :=
  bind getSet fun _ => bind schema fun _ => frame fun _ =>
    bind require fun _ => bind orFail fun _ =>
    shared (bind judge fun _ => newSet)

theorem pathStart {p : Ast.Path} : Qualifies (κ := κ) x (CompileM.pathStart p)
    (CompileM.pathStart (p.qualify x)) := by
  obtain ⟨root, steps, span⟩ := p
  unfold CompileM.pathStart
  cases root with
  | none => exact frame fun _ => orFail
  | some root =>
      refine bind resolve fun item => ?_
      cases item with
      | type id entry => exact bind require fun _ => rootSet
      | function name sig => exact fail

theorem extendAll {steps : List Ast.PathStep} : Qualifies (κ := κ) x
    (steps.foldlM
      (fun set step => CompileM.extendPath set step.name step.span) id)
    (steps.foldlM
      (fun set step => CompileM.extendPath set step.name step.span) id) := by
  induction steps generalizing id with
  | nil => exact pure
  | cons step steps ih =>
      rw [List.foldlM_cons]
      exact bind extendPath fun _ => ih

theorem path {p : Ast.Path} : Qualifies (κ := κ) x (CompileM.path p)
    (CompileM.path (p.qualify x)) :=
  bind pathStart fun _ => extendAll

-- =============================================================== syntax

variable [NameDigest]

omit [NameDigest] [DecidableEq κ] [PathKey κ] in
theorem withShape {m m' : CompileM κ (List ShapeNode)}
    {elements : List ShapeElement} (hm : Qualifies x m m') :
    Qualifies x (CompileM.withShape id elements m)
      (CompileM.withShape id (ShapeElement.qualifyAll x elements) m') := by
  unfold CompileM.withShape
  cases elements with
  | nil => exact pure
  | cons first rest =>
      unfold ShapeElement.qualifyAll
      dsimp only
      rw [ShapeElement.span_qualify]
      exact bind requireObject fun _ => inClause (underSubject hm)

/-- A statement from its parts. -/
theorem selectOf {modules : List Ast.ModuleDecl} {result : Expr}
    {elements : List ShapeElement} {filter offset limit : Option Expr}
    {groupBy : List Expr} {orderBy : List Ast.SortKey}
    (hresult : ∀ x, Qualifies (κ := κ) x (CompileM.expr result)
      (CompileM.expr (result.qualify x)))
    (helements : ∀ x subject, Qualifies (κ := κ) x
      (CompileM.shapeElements subject [] elements)
      (CompileM.shapeElements subject [] (ShapeElement.qualifyAll x elements)))
    (hfilter : ∀ x, Qualifies (κ := κ) x (CompileM.filterClause filter)
      (CompileM.filterClause (Expr.qualifyIn x filter)))
    (hgroupBy : ∀ x, Qualifies (κ := κ) x (CompileM.groupKeys groupBy)
      (CompileM.groupKeys (Expr.qualifyAll x groupBy)))
    (horderBy : ∀ x, Qualifies (κ := κ) x (CompileM.sortKeys orderBy)
      (CompileM.sortKeys (Ast.SortKey.qualifyAll x orderBy)))
    (hoffset : ∀ x, Qualifies (κ := κ) x (CompileM.boundClause offset)
      (CompileM.boundClause (Expr.qualifyIn x offset)))
    (hlimit : ∀ x, Qualifies (κ := κ) x (CompileM.boundClause limit)
      (CompileM.boundClause (Expr.qualifyIn x limit))) :
    Qualifies (κ := κ) x
      (CompileM.select ⟨modules, result, elements, filter, groupBy, orderBy,
        offset, limit, span⟩)
      (CompileM.select (Select.qualify x ⟨modules, result, elements, filter,
        groupBy, orderBy, offset, limit, span⟩)) := by
  unfold Select.qualify CompileM.select
  refine inScope (inClause (withModules (bind (hresult _) fun v =>
    bind attach fun id => underSubject ?_)))
  exact bind (withShape (helements _ id)) fun _ => bind (hfilter _) fun _ =>
    bind (inClause (hgroupBy _)) fun _ => bind (inClause (horderBy _)) fun _ =>
    bind (inClause (hoffset _)) fun _ => bind (inClause (hlimit _)) fun _ =>
    bind statementCardinality fun _ => frame fun _ => pure

mutual

theorem expr : (e : Expr) → ∀ x, Qualifies (κ := κ) x (CompileM.expr e)
    (CompileM.expr (e.qualify x))
  | .constant _ _, _ => pure
  | .emptySet _, _ => pure
  | .path _, _ => bind path fun _ => pure
  | .binary l _ r _, x => bind (expr l x) fun _ => bind (expr r x) fun _ => binary
  | .unary .not operand _, x => bind (expr operand x) fun _ => logicalNot
  | .unary .neg operand _, x => bind (expr operand x) fun _ => arithmeticNeg
  | .unary .exists operand _, x => existence (expr operand x)
  | .call _ args _, x => by
      unfold Expr.qualify CompileM.expr
      rw [Expr.length_qualifyAll]
      exact bind callee fun _ => bind (arguments args x) fun _ => call
  | .cast _ operand _, x => bind castTarget fun _ =>
      bind (expr operand x) fun _ => cast
  | .set elements _, x => bind (exprs elements x) fun _ => setOf
  | .select query, x => bind (select query x) fun _ => subquery
  | .paren inner _, x => expr inner x
termination_by structural e => e

theorem exprs : (es : List Expr) → ∀ x, Qualifies (κ := κ) x
    (CompileM.exprs es) (CompileM.exprs (Expr.qualifyAll x es))
  | [], _ => pure
  | e :: es, x => by
      unfold Expr.qualifyAll CompileM.exprs
      rw [Expr.span_qualify]
      exact bind (expr e x) fun _ => bind (exprs es x) fun _ => pure
termination_by structural es => es

theorem arguments : (args : List Expr) → ∀ x {function : QualifiedName}
    {position : Nat} {params : List Parameter} {c : Cardinality},
    Qualifies (κ := κ) x
      (CompileM.arguments function position params c args)
      (CompileM.arguments function position params c (Expr.qualifyAll x args))
  | [], _, _, _, [], _ => pure
  | [], _, _, _, _ :: _, _ => pure
  | _ :: _, _, _, _, [], _ => pure
  | arg :: args, x, _, _, _ :: _, _ => bind (argument (expr arg x)) fun _ =>
      bind (arguments args x) fun _ => pure
termination_by structural args => args

theorem filterClause : (e : Option Expr) → ∀ x, Qualifies (κ := κ) x
    (CompileM.filterClause e) (CompileM.filterClause (Expr.qualifyIn x e))
  | none, _ => pure
  | some e, x => by
      unfold Expr.qualifyIn CompileM.filterClause
      rw [Expr.span_qualify]
      exact bind (filterBy (expr e x)) fun _ => pure
termination_by structural e => e

theorem boundClause : (e : Option Expr) → ∀ x, Qualifies (κ := κ) x
    (CompileM.boundClause e) (CompileM.boundClause (Expr.qualifyIn x e))
  | none, _ => pure
  | some e, x => by
      unfold Expr.qualifyIn CompileM.boundClause
      rw [Expr.span_qualify]
      exact bind (bound (expr e x)) fun _ => pure
termination_by structural e => e

theorem groupKeys : (keys : List Expr) → ∀ x, Qualifies (κ := κ) x
    (CompileM.groupKeys keys) (CompileM.groupKeys (Expr.qualifyAll x keys))
  | [], _ => pure
  | e :: es, x => by
      unfold Expr.qualifyAll CompileM.groupKeys
      rw [Expr.span_qualify]
      exact bind (key (expr e x)) fun _ => bind (groupKeys es x) fun _ => pure
termination_by structural keys => keys

theorem sortKeys : (keys : List Ast.SortKey) → ∀ x, Qualifies (κ := κ) x
    (CompileM.sortKeys keys)
      (CompileM.sortKeys (Ast.SortKey.qualifyAll x keys))
  | [], _ => pure
  | ⟨e, _, _, _⟩ :: keys, x => by
      unfold Ast.SortKey.qualifyAll CompileM.sortKeys
      rw [Expr.span_qualify]
      exact bind (key (expr e x)) fun _ => bind (sortKeys keys x) fun _ => pure
termination_by structural keys => keys

theorem shapeElement : (e : ShapeElement) → ∀ x {subject : SetId},
    Qualifies (κ := κ) x (CompileM.shapeElement subject e)
      (CompileM.shapeElement subject (e.qualify x))
  | .mk _ (some e) _ _, x, _ => bind (expr e x) fun _ =>
      bind attach fun _ => pure
  | .mk _ none elements _, x, _ => bind extendPath fun _ =>
      bind (withShape (shapeElements elements x)) fun _ => pure
termination_by structural e => e

theorem shapeElements : (es : List ShapeElement) → ∀ x {subject : SetId}
    {taken : List String}, Qualifies (κ := κ) x
      (CompileM.shapeElements subject taken es)
      (CompileM.shapeElements subject taken (ShapeElement.qualifyAll x es))
  | [], _, _, _ => pure
  | e :: es, x, _, _ => by
      unfold ShapeElement.qualifyAll CompileM.shapeElements
      rw [ShapeElement.name_qualify]
      exact bind require fun _ => bind (inScope (shapeElement e x)) fun _ =>
        bind (shapeElements es x) fun _ => pure
termination_by structural es => es

/-- A statement and the same statement with its names in full. -/
theorem select : (q : Select) → ∀ x, Qualifies (κ := κ) x (CompileM.select q)
    (CompileM.select (q.qualify x))
  | ⟨_, result, elements, filter, groupBy, orderBy, offset, limit, _⟩, _ =>
      selectOf (expr result) (fun x _ => shapeElements elements x)
        (filterClause filter) (groupKeys groupBy) (sortKeys orderBy)
        (boundClause offset) (boundClause limit)
termination_by structural q => q

end

end

-- ============================================================ the whole

/-- Modules that are not named need not be declared. -/
theorem checkOptions {o : CompileOptions} {limit : Option Int}
    {span span' : Span} : Qualifies (κ := κ) x (CompileM.checkOptions o span)
      (CompileM.checkOptions { implicitLimit := limit } span') := by
  show Qualifies x _ (Pure.pure ())
  unfold CompileM.checkOptions
  generalize o.defaultModule.toList ++ o.aliases.values = modules
  induction modules with
  | nil => exact pure
  | cons module modules ih =>
      intro env st a st' hx hrun
      obtain ⟨_, mid, hcheck, hrest⟩ :=
        ok_of_bind (f := fun _ => modules.forM _) hrun
      unfold CompileM.checkModule at hcheck
      rw [run_bind_ok run_schema, run_require] at hcheck
      obtain rfl : st = mid := congrArg Prod.snd hcheck
      exact ih env st a st' hx hrest

theorem limitImplicitly [NameDigest] {stmt : Statement} {limit : Int} :
    Qualifies (κ := κ) x (CompileM.limitImplicitly stmt limit)
      (CompileM.limitImplicitly stmt limit) := by
  unfold CompileM.limitImplicitly
  split
  · exact pure
  · exact bind newComputed fun _ => bind limited fun _ => pure

theorem statement [DecidableEq κ] [PathKey κ] [NameDigest]
    (o : CompileOptions) (q : Select) :
    Qualifies (κ := κ) x (CompileM.statement o q)
      (CompileM.statement { implicitLimit := o.implicitLimit }
        (q.qualify x)) := by
  unfold CompileM.statement
  refine bind checkOptions fun _ => bind (select q x) fun stmt => ?_
  dsimp only
  cases o.implicitLimit with
  | some limit => exact limitImplicitly
  | none => exact pure

end Qualifies

end CompileM

section

variable [DecidableEq κ] [PathKey κ] [NameDigest]

/-- What names stand for under some options. -/
def CompileOptions.lexicon (o : CompileOptions) (s : Schema) : Lexicon :=
  ⟨s, o.defaultModule, o.aliases⟩

/-- A statement that is accepted compiles to the same sets and the same
statement with its names in full, without default module and aliases. -/
theorem compileWith_qualify {s : Schema} {o : CompileOptions} {q : Select}
    {c : Compiled κ} (h : compileWith κ s o q = .ok c) :
    compileWith κ s { implicitLimit := o.implicitLimit }
      (q.qualify (o.lexicon s)) = .ok c := by
  obtain ⟨scopes, hrun⟩ := exists_run_of_compileWith h
  have hplain : (CompileM.statement { implicitLimit := o.implicitLimit }
      (q.qualify (o.lexicon s))).run
        ⟨s, CompileOptions.frame { implicitLimit := o.implicitLimit }⟩ .new
        = (.ok c.statement, ⟨c.arena, scopes⟩) :=
    CompileM.Qualifies.statement o q ⟨s, o.frame⟩ _ _ _ rfl hrun
  unfold compileWith
  rw [hplain]

end

-- ============================================================= example

open scoped Xxh64

/-- All people, each with the number of friends. -/
def friendCounts : Select := Ast.Build.run do
  let count ← Ast.Build.call "s::count"
    [.path (← Ast.Build.partialPath ["friends"])]
  let inner ← Ast.Build.select (← Ast.Build.cast "int" count)
  let number ← Ast.Build.computed "number"
    (.select (← Ast.Build.withAlias inner "s" "std"))
  let q ← Ast.Build.select (.path (← Ast.Build.path "p::Person" []))
  let q ← Ast.Build.withModule q "std"
  let q ← Ast.Build.withAlias q "p" "default"
  return { q with shape := [number] }

/-- Settings under which names are looked for among people first. -/
def peopleFirst : CompileOptions := { defaultModule := some "default" }

theorem compile_qualify_people : ∃ c,
    compile (Registry.builtin.schemaOf people) peopleFirst friendCounts = .ok c
      ∧ compile (Registry.builtin.schemaOf people) {}
        (friendCounts.qualify
          (peopleFirst.lexicon (Registry.builtin.schemaOf people))) = .ok c := by
  obtain ⟨c, hc⟩ := exists_ok_of_isOk
    (x := compile (Registry.builtin.schemaOf people) peopleFirst friendCounts)
    (by decide +kernel)
  unfold compile at hc
  have h := compileWith_qualify hc
  rw [show peopleFirst.implicitLimit = none from rfl] at h
  exact ⟨c, hc, h⟩

end PathQuery
