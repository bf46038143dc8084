/-
A query against a schema that has grown.

A schema that has grown by items of new names has all its items and
modules still (`Schema.GrownBy`). A part of a query that uses none of
those names is compiled against both, side by side and from the same
store. Names lead to the same items; every other question is about the
types of sets, and these are types of the old schema (`Store.KnownTo`),
about which the new one answers alike. So whatever step of compilation
succeeds against the old schema does the same against the new one
(`CompileM.Endures`); here are the rules of that and the steps up to
clauses.

Nothing is said of errors: what the old schema knows nothing of may be
there in the new one.
-/
import PathQuery.Ast.Named
import PathQuery.Proofs.Schema.Extension
import PathQuery.Proofs.Schema.References
import PathQuery.Proofs.Statement.Parts

namespace PathQuery

open Ast (Expr Select ShapeElement)
open Ir (Value Statement ShapeNode Operation)

variable {κ α β : Type}

-- ============================================================= schemas

namespace Schema

/-- A type of the schema, or none yet. -/
def Knows (s : Schema) (t : TypeId) : Prop :=
  s.isRegistered t = true ∨ t = .empty

theorem Knows.isRegistered {s : Schema} {t : TypeId} (h : s.Knows t)
    (ht : t.isEmpty = false) : s.isRegistered t = true := by
  refine h.resolve_right fun heq => ?_
  rw [heq] at ht
  cases ht

/-- A schema has grown by items with these simple names. Its literals and
functions are of types of its own. -/
structure GrownBy [NameDigest] (added : List String) (s s' : Schema) : Prop
    extends s.ExtendedBy s' where
  modules : ∀ module, s.hasModule module = true → s'.hasModule module = true
  lookup : ∀ name, name.name ∉ added → s'.lookup name = s.lookup name
  literals : ∀ l : Literal, s.isRegistered l.type = true
  functions : ∀ f sig, s.function? f = some sig →
    ∀ t ∈ sig.mentions, s.isRegistered t = true

end Schema

/-- The type of a value that waits is known. -/
def Ir.Value.KnownTo (s : Schema) : Value → Prop
  | .set _ => True
  | .pending p => s.Knows p.type

/-- Sets are of types of the schema. -/
def Store.KnownTo (s : Schema) (st : Store κ) : Prop :=
  ∀ id node, st.arena.get? id = some node → s.isRegistered node.type = true

theorem Store.KnownTo.push {s : Schema} {st : Store κ} (hst : st.KnownTo s)
    {node : Ir.SetNode κ} (h) (ht : s.isRegistered node.type = true) :
    Store.KnownTo s { st with arena := st.arena.push node h } := by
  intro id n hn
  rcases Ir.Arena.get?_push_cases h hn with ⟨-, rfl⟩ | hn
  · exact ht
  · exact hst id n hn

/-- What a name in a query leads to when it is not one of those added. -/
theorem Env.resolve?_grown [NameDigest] {added : List String} {s s' : Schema}
    (hg : s.GrownBy added s') {frame : Frame} {name : QualifiedName}
    (hname : name.name ∉ added) :
    Env.resolve? ⟨s', frame⟩ name = Env.resolve? ⟨s, frame⟩ name := by
  have hlookup : ∀ module, s'.lookup (.within module name.name)
      = s.lookup (.within module name.name) :=
    fun module => hg.lookup (.within module name.name) hname
  unfold resolve?
  cases name.module with
  | some module => exact hlookup _
  | none => exact findSome?_congr fun module _ => hlookup module

/-- None of the names in a part of a query is one of those added. -/
def Avoids (added : List String) (names : List Ast.NameRef) : Prop :=
  ∀ ref ∈ names, ref.name.name ∉ added

namespace CompileM

/-- What the first step compiles to against one schema, the second one
compiles to against the other, and the types of sets are known still. -/
def Endures (s s' : Schema) (m m' : CompileM κ α)
    (post : α → Prop := fun _ => True) : Prop :=
  ∀ (frame : Frame) (st : Store κ) (a : α) (st' : Store κ), st.KnownTo s →
    m.run ⟨s, frame⟩ st = (.ok a, st') →
      m'.run ⟨s', frame⟩ st = (.ok a, st') ∧ st'.KnownTo s ∧ post a

namespace Endures

variable {s s' : Schema} {m m' : CompileM κ α} {P : α → Prop}

-- =============================================================== rules

theorem pure {a : α} (h : P a) :
    Endures s s' (Pure.pure a : CompileM κ α) (Pure.pure a) P := by
  intro frame st b st' hst hrun
  cases hrun
  exact ⟨rfl, hst, h⟩

theorem bind {f f' : α → CompileM κ β} {Q : β → Prop}
    (hm : Endures s s' m m' P)
    (hf : ∀ a, P a → Endures s s' (f a) (f' a) Q) :
    Endures s s' (m >>= f) (m' >>= f') Q := by
  intro frame st b st' hst hrun
  obtain ⟨a, mid, ha, hb⟩ := ok_of_bind hrun
  obtain ⟨ha', hmid, hpost⟩ := hm frame st a mid hst ha
  rw [run_bind_ok ha']
  exact hf a hpost frame mid b st' hmid hb

theorem imp {Q : α → Prop} (hm : Endures s s' m m' P)
    (h : ∀ a, P a → Q a) : Endures s s' m m' Q := by
  intro frame st a st' hst hrun
  obtain ⟨hrun', hst', hpost⟩ := hm frame st a st' hst hrun
  exact ⟨hrun', hst', h a hpost⟩

/-- A step that fails. -/
theorem fail {e : CompileError} :
    Endures s s' (CompileM.fail e : CompileM κ α) m' P := by
  intro frame st a st' _ hrun
  cases hrun

theorem require {b : Bool} {e e' : CompileError} :
    Endures (κ := κ) s s' (CompileM.require b e) (CompileM.require b e') := by
  cases b with
  | true => exact pure trivial
  | false => exact fail

theorem orFail {o : Option α} {e e' : CompileError} (h : ∀ a, o = some a → P a) :
    Endures (κ := κ) s s' (CompileM.orFail o e) (CompileM.orFail o e') P := by
  cases o with
  | some a => exact pure (h a rfl)
  | none => exact fail

/-- Each step reads its own schema. -/
theorem schema {k k' : Schema → CompileM κ β} {P : β → Prop}
    (h : Endures s s' (k s) (k' s') P) :
    Endures s s' (CompileM.schema >>= k) (CompileM.schema >>= k') P := by
  intro frame st b st' hst hrun
  rw [run_bind_ok run_schema] at hrun ⊢
  exact h frame st b st' hst hrun

theorem store {k k' : Store κ → CompileM κ β} {P : β → Prop}
    (h : ∀ st, st.KnownTo s → Endures s s' (k st) (k' st) P) :
    Endures s s' (CompileM.store >>= k) (CompileM.store >>= k') P := by
  intro frame st b st' hst hrun
  rw [run_bind_ok run_store] at hrun ⊢
  exact h st hst frame st b st' hst hrun

theorem frame {k k' : Frame → CompileM κ β} {P : β → Prop}
    (h : ∀ frame, Endures s s' (k frame) (k' frame) P) :
    Endures s s' (CompileM.frame >>= k) (CompileM.frame >>= k') P := by
  intro frame st b st' hst hrun
  rw [run_bind_ok run_frame] at hrun ⊢
  exact h frame frame st b st' hst hrun

theorem underFrame {change : Frame → Frame} (hm : Endures s s' m m' P) :
    Endures s s' (CompileM.underFrame change m) (CompileM.underFrame change m')
      P :=
  fun frame => hm (change frame)

theorem inClause {clause : Clause} (hm : Endures s s' m m' P) :
    Endures s s' (CompileM.inClause clause m) (CompileM.inClause clause m')
      P :=
  underFrame hm

theorem underSubject {subject : SetId} (hm : Endures s s' m m' P) :
    Endures s s' (CompileM.underSubject subject m)
      (CompileM.underSubject subject m') P :=
  underFrame hm

theorem inScope (hm : Endures s s' m m' P) :
    Endures s s' (CompileM.inScope m) (CompileM.inScope m') P := by
  intro frame st a st' hst hrun
  rw [run_inScope] at hrun ⊢
  exact hm _ _ a st' hst hrun

/-- A step that reads no schema and leaves the sets alone. -/
theorem of_arena (h : ∀ frame st,
      m.run ⟨s', frame⟩ st = m.run ⟨s, frame⟩ st
        ∧ (m.run ⟨s, frame⟩ st).2.arena = st.arena) :
    Endures s s' m m := by
  intro frame st a st' hst hrun
  obtain ⟨hsame, harena⟩ := h frame st
  rw [hsame]
  refine ⟨hrun, fun id node hn => ?_, trivial⟩
  rw [hrun] at harena
  exact hst id node (harena ▸ hn)

-- ================================================================ sets

variable {id l r : SetId} {t target : TypeId} {span : Span} {v w : Value}
  {hint : Option TypeId}

/-- A set is of a type that is known. -/
theorem getSet : Endures (κ := κ) s s' (CompileM.getSet id)
    (CompileM.getSet id) fun node => s.isRegistered node.type = true :=
  store fun _ hst => orFail fun node hn => hst id node hn

theorem typeOf : Endures (κ := κ) s s' (CompileM.typeOf id)
    (CompileM.typeOf id) fun t => s.isRegistered t = true :=
  bind getSet fun _ hn => pure hn

theorem judge : Endures (κ := κ) s s' (CompileM.judge id)
    (CompileM.judge id) :=
  store fun _ _ => frame fun _ => orFail fun _ _ => trivial

theorem requireSingleton : Endures (κ := κ) s s'
    (CompileM.requireSingleton id) (CompileM.requireSingleton id) := by
  unfold CompileM.requireSingleton
  refine bind judge fun c _ => ?_
  split
  · exact pure trivial
  · exact frame fun _ => bind getSet fun _ _ => fail

/-- A new set of a type that is known. -/
theorem newSet {origin : Ir.Origin} {c : Cardinality} {key : Option κ}
    (ht : s.isRegistered t = true) :
    Endures s s' (CompileM.newSet origin t c span key)
      (CompileM.newSet origin t c span key) := by
  intro frame st a st' hst hrun
  rcases run_newSet_cases origin t c span key ⟨s, frame⟩ st with
    ⟨source, -, -, herror⟩ | ⟨hsource, hok⟩
  · rw [herror] at hrun
    cases hrun
  · rw [hok] at hrun
    rw [run_newSet hsource]
    cases hrun
    exact ⟨rfl, hst.push hsource ht, trivial⟩

theorem newComputed {op : Operation} {c : Cardinality}
    (ht : s.isRegistered t = true) :
    Endures (κ := κ) s s' (CompileM.newComputed op t c span)
      (CompileM.newComputed op t c span) :=
  newSet ht

theorem castSet {conversion : Conversion}
    (ht : s.isRegistered target = true) :
    Endures (κ := κ) s s' (CompileM.castSet id target conversion)
      (CompileM.castSet id target conversion) :=
  bind getSet fun _ _ => bind judge fun _ _ => newComputed ht

theorem referenceAt : Endures (κ := κ) s s' (CompileM.referenceAt id span)
    (CompileM.referenceAt id span) := by
  unfold CompileM.referenceAt
  refine bind getSet fun node hn => ?_
  split
  · exact pure trivial
  · exact bind judge fun _ _ => newComputed hn

theorem valueType (hv : v.KnownTo s) : Endures (κ := κ) s s'
    (CompileM.valueType v) (CompileM.valueType v) s.Knows := by
  cases v with
  | set id => exact typeOf.imp fun _ => Or.inl
  | pending p => exact pure hv

theorem untypedEmptySet : Endures s s'
    (CompileM.untypedEmptySet span : CompileM κ α)
      (CompileM.untypedEmptySet span) P :=
  frame fun _ => fail

/-- What a use calls for is known. -/
def KnownHint (s : Schema) (hint : Option TypeId) : Prop :=
  ∀ t, hint = some t → s.isRegistered t = true

/-- An item of known types. -/
def KnownItem (s : Schema) : SchemaItem → Prop
  | .type id _ => s.isRegistered id = true
  | .function _ sig => ∀ t ∈ sig.mentions, s.isRegistered t = true

/-- What operands take from each other is known. -/
theorem knownHint_operandHints {t u : TypeId} (ht : s.Knows t) (hu : s.Knows u) :
    KnownHint s (CompileM.operandHints t u).1
      ∧ KnownHint s (CompileM.operandHints t u).2 := by
  have hknown : ∀ x, (CompileM.operandHints t u).1 = some x
      ∨ (CompileM.operandHints t u).2 = some x → s.isRegistered x = true := by
    intro x hx
    rcases CompileM.operandHints_cases hx with ⟨rfl, hne⟩ | ⟨rfl, hne⟩
    · exact hu.resolve_right hne
    · exact ht.resolve_right hne
  exact ⟨fun x hx => hknown x (Or.inl hx), fun x hx => hknown x (Or.inr hx)⟩

theorem settle (hv : v.KnownTo s) (hh : KnownHint s hint) :
    Endures (κ := κ) s s' (CompileM.settle v hint) (CompileM.settle v hint) := by
  unfold CompileM.settle
  cases v with
  | set id => exact pure trivial
  | pending p =>
      dsimp only
      split
      · split
        · next type => exact newComputed (hh type rfl)
        · exact untypedEmptySet
      · next ht => exact newComputed (hv.isRegistered (by simpa using ht))

theorem requireObject (hs : s.ExtendedBy s') : Endures (κ := κ) s s'
    (CompileM.requireObject id span) (CompileM.requireObject id span) := by
  refine schema (bind typeOf fun t ht => ?_)
  rw [hs.isObject_eq ht]
  exact require

theorem limited {c : Cardinality} : Endures (κ := κ) s s'
    (CompileM.limited c id) (CompileM.limited c id) := by
  unfold CompileM.limited
  refine bind getSet fun node _ => ?_
  split
  · exact pure trivial
  · exact pure trivial

theorem statementCardinality {filter limit : Option SetId} :
    Endures (κ := κ) s s'
      (CompileM.statementCardinality id filter limit)
      (CompileM.statementCardinality id filter limit) := by
  unfold CompileM.statementCardinality
  refine bind judge fun c _ => ?_
  dsimp only
  split
  · exact limited
  · exact pure trivial

theorem subquery {stmt : Statement} : Endures (κ := κ) s s'
    (CompileM.subquery stmt) (CompileM.subquery stmt)
    fun v => v.KnownTo s :=
  bind typeOf fun _ ht => bind (newComputed ht) fun _ _ => pure trivial

-- ========================================================= conversions

section

variable (hs : s.ExtendedBy s')

include hs

theorem coerce (ht : s.isRegistered target = true) : Endures (κ := κ) s s'
    (CompileM.coerce id target) (CompileM.coerce id target) := by
  unfold CompileM.coerce
  refine bind getSet fun node hn => schema ?_
  split
  · exact bind judge fun _ _ => newComputed ht
  · rw [hs.conversion?_eq hn ht]
    split
    · exact pure trivial
    · exact pure trivial
    · exact castSet ht
    · exact frame fun _ => fail

theorem attach (hv : v.KnownTo s) (hh : KnownHint s hint) :
    Endures (κ := κ) s s' (CompileM.attach v hint) (CompileM.attach v hint) := by
  unfold CompileM.attach
  refine bind (settle hv hh) fun id _ => ?_
  split
  · next type => exact coerce hs (hh type rfl)
  · refine bind getSet fun node _ => ?_
    split
    · exact bind (untypedEmptySet (P := fun _ => True)) fun _ _ => pure trivial
    · exact pure trivial

theorem convertOperand (ht : s.isRegistered target = true) :
    Endures (κ := κ) s s' (CompileM.convertOperand id target)
      (CompileM.convertOperand id target) := by
  unfold CompileM.convertOperand
  refine bind typeOf fun source hsource => schema ?_
  rw [hs.conversion?_eq hsource ht]
  split
  · exact castSet ht
  · exact pure trivial

theorem cast (hv : v.KnownTo s) (ht : s.isRegistered target = true) :
    Endures (κ := κ) s s' (CompileM.cast v target span)
      (CompileM.cast v target span) fun v => v.KnownTo s := by
  unfold CompileM.cast
  refine bind (valueType hv) fun type _ => bind (attach hs hv ?_) fun id _ =>
    schema (bind typeOf fun source hsource => ?_)
  · intro t heq
    split at heq
    · cases heq
      exact ht
    · cases heq
  · rw [hs.cast?_eq hsource ht]
    exact bind (orFail (P := fun _ => True) fun _ _ => trivial) fun _ _ =>
      bind judge fun _ _ => pure (Or.inl ht)

end

-- ============================================================ operators

section

variable [NameDigest] {added : List String} (hg : s.GrownBy added s')

include hg

/-- What two known types have in common is known. -/
theorem commonType? {t u : TypeId} (ht : s.isRegistered t = true)
    (hu : s.isRegistered u = true) {e e' : CompileError} :
    Endures (κ := κ) s s' (CompileM.orFail (s.commonType? t u) e)
      (CompileM.orFail (s'.commonType? t u) e')
      fun c => s.isRegistered c = true := by
  rw [hg.commonType?_eq ht hu]
  refine orFail fun c hc => ?_
  rcases Schema.commonType?_cases hc with ⟨rfl, -⟩ | ⟨rfl, -⟩ | ⟨-, -, hmem, -⟩
  · exact hu
  · exact ht
  · exact Schema.isRegistered_of_mem_ancestors hmem

theorem attachOperands {op : BinaryOp} (hv : v.KnownTo s) (hw : w.KnownTo s) :
    Endures (κ := κ) s s' (CompileM.attachOperands op v w)
      (CompileM.attachOperands op v w) := by
  have hattach : ∀ {v : Value} {hint}, v.KnownTo s → KnownHint s hint →
      Endures (κ := κ) s s' (CompileM.attach v hint) (CompileM.attach v hint) :=
    attach hg.toExtendedBy
  unfold CompileM.attachOperands
  split
  · have hbool : KnownHint s (some TypeId.bool) := by
      intro t heq
      cases heq
      exact hg.literals (.bool true)
    exact bind (hattach hv hbool) fun _ _ => bind (hattach hw hbool) fun _ _ =>
      pure trivial
  · refine bind (valueType hv) fun t ht => bind (valueType hw) fun u hu => ?_
    obtain ⟨hleft, hright⟩ := knownHint_operandHints ht hu
    exact bind (hattach hv hleft) fun _ _ => bind (hattach hw hright) fun _ _ =>
      pure trivial

/-- The type that an operator gives is known. -/
abbrev Typed (s : Schema) (out : SetId × SetId × TypeId) : Prop :=
  s.isRegistered out.2.2 = true

theorem comparison {objects : Bool} {e e' : CompileError} :
    Endures (κ := κ) s s' (CompileM.comparison l r objects e)
      (CompileM.comparison l r objects e') (Typed s) := by
  have hbool : s.isRegistered TypeId.bool = true := hg.literals (.bool true)
  unfold CompileM.comparison
  refine schema (bind typeOf fun t ht => bind typeOf fun u hu =>
    bind (commonType? hg ht hu) fun c hc => ?_)
  split
  · exact pure hbool
  · exact bind (convertOperand hg.toExtendedBy hc) fun _ _ =>
      bind (convertOperand hg.toExtendedBy hc) fun _ _ => pure hbool

theorem concatenation {e e' : CompileError} : Endures (κ := κ) s s'
    (CompileM.concatenation l r e) (CompileM.concatenation l r e')
    (Typed s) := by
  unfold CompileM.concatenation
  refine schema (bind typeOf fun t ht => bind typeOf fun u hu => ?_)
  rw [hg.scalarKind?_eq ht, hg.scalarKind?_eq hu]
  split
  · exact pure (hg.literals (.str ""))
  · exact fail

theorem arithmetic {e e' : CompileError} : Endures (κ := κ) s s'
    (CompileM.arithmetic l r e) (CompileM.arithmetic l r e') (Typed s) := by
  have hfloat : s.isRegistered TypeId.float = true := hg.literals (.float default)
  unfold CompileM.arithmetic
  refine schema (bind typeOf fun t ht => bind typeOf fun u hu => ?_)
  rw [hg.scalarKind?_eq ht, hg.scalarKind?_eq hu]
  split
  · exact pure (hg.literals (.int 0))
  · exact bind require fun _ _ =>
      bind (convertOperand hg.toExtendedBy hfloat) fun _ _ =>
      bind (convertOperand hg.toExtendedBy hfloat) fun _ _ => pure hfloat
  · exact fail

theorem typeBinary {op : BinaryOp} : Endures (κ := κ) s s'
    (CompileM.typeBinary op l r span) (CompileM.typeBinary op l r span)
    (Typed s) := by
  unfold CompileM.typeBinary
  refine schema (bind typeOf fun t ht => bind typeOf fun u hu => ?_)
  dsimp only
  rw [hg.isObject_eq ht, hg.isObject_eq hu]
  split
  · exact pure (hg.literals (.bool true))
  · refine bind require fun _ _ => ?_
    split
    · exact comparison hg
    · split
      · exact concatenation hg
      · exact arithmetic hg

theorem binary {op : BinaryOp} (hv : v.KnownTo s) (hw : w.KnownTo s) :
    Endures (κ := κ) s s' (CompileM.binary op v w span)
      (CompileM.binary op v w span) fun v => v.KnownTo s :=
  bind (attachOperands hg hv hw) fun _ _ => bind (typeBinary hg) fun _ ht =>
    bind judge fun _ _ => bind judge fun _ _ => pure (Or.inl ht)

theorem logicalNot (hv : v.KnownTo s) : Endures (κ := κ) s s'
    (CompileM.logicalNot v span) (CompileM.logicalNot v span)
    fun v => v.KnownTo s := by
  have hbool : s.isRegistered TypeId.bool = true := hg.literals (.bool true)
  refine bind (attach hg.toExtendedBy hv fun t heq => ?_) fun _ _ =>
    bind judge fun _ _ => pure (Or.inl hbool)
  cases heq
  exact hbool

/-- A use that calls for no type. -/
theorem attachAny (hv : v.KnownTo s) : Endures (κ := κ) s s'
    (CompileM.attach v none) (CompileM.attach v none) :=
  attach hg.toExtendedBy hv nofun

theorem arithmeticNeg (hv : v.KnownTo s) : Endures (κ := κ) s s'
    (CompileM.arithmeticNeg v span) (CompileM.arithmeticNeg v span)
    fun v => v.KnownTo s := by
  refine bind (attachAny hg hv) fun _ _ => schema (bind typeOf fun t ht => ?_)
  rw [hg.isObject_eq ht, hg.isNumeric_eq ht]
  exact bind require fun _ _ => bind require fun _ _ => bind judge fun _ _ =>
    pure (Or.inl ht)

theorem existence {m m' : CompileM κ Value}
    (hm : Endures s s' m m' fun v => v.KnownTo s) :
    Endures s s' (CompileM.existence m span) (CompileM.existence m' span)
      fun v => v.KnownTo s :=
  bind (inScope (bind hm fun _ hv => attachAny hg hv)) fun _ _ =>
    pure (Or.inl (hg.literals (.bool true)))

-- ================================================ set literals and calls

theorem commonElementType {common : TypeId} {elements : List (Value × Span)}
    (hc : s.Knows common) (he : ∀ e ∈ elements, e.1.KnownTo s) :
    Endures (κ := κ) s s' (CompileM.commonElementType common elements)
      (CompileM.commonElementType common elements) s.Knows := by
  induction elements generalizing common with
  | nil => exact pure hc
  | cons element rest ih =>
      obtain ⟨hv, he⟩ := List.forall_mem_cons.1 he
      unfold CompileM.commonElementType
      refine bind (valueType hv) fun type ht => ?_
      split
      · exact ih hc he
      · next hte =>
          split
          · exact ih ht he
          · next hce =>
              exact schema (bind
                (commonType? hg (hc.isRegistered (by simpa using hce))
                  (ht.isRegistered (by simpa using hte)))
                fun _ hwider => ih (Or.inl hwider) he)

theorem attachMembers {elements : List (Value × Span)}
    (he : ∀ e ∈ elements, e.1.KnownTo s) (hh : KnownHint s hint) :
    Endures (κ := κ) s s' (CompileM.attachMembers hint elements)
      (CompileM.attachMembers hint elements) := by
  induction elements with
  | nil => exact pure trivial
  | cons element rest ih =>
      obtain ⟨hv, he⟩ := List.forall_mem_cons.1 he
      exact bind (attach hg.toExtendedBy hv hh) fun _ _ => bind judge fun _ _ =>
        bind (ih he) fun _ _ => pure trivial

theorem setOf {elements : List (Value × Span)}
    (he : ∀ e ∈ elements, e.1.KnownTo s) : Endures (κ := κ) s s'
    (CompileM.setOf elements span) (CompileM.setOf elements span)
    fun v => v.KnownTo s := by
  unfold CompileM.setOf
  split
  · exact pure (Or.inr rfl)
  · next value _ => exact pure (he _ List.mem_cons_self)
  · refine bind (commonElementType hg (Or.inr rfl) he) fun common hc =>
      bind (attachMembers hg he fun t heq => ?_) fun _ _ => pure hc
    split at heq
    · cases heq
    · next hce =>
        cases heq
        exact hc.isRegistered (by simpa using hce)

/-- A name that is not one of those added leads to an item of known
types. -/
theorem resolve {ref : Ast.NameRef} (hname : ref.name.name ∉ added) :
    Endures (κ := κ) s s' (CompileM.resolve ref) (CompileM.resolve ref)
      (KnownItem s) := by
  intro frame st item st' hst hrun
  rw [run_resolve] at hrun ⊢
  rw [Env.resolve?_grown hg hname]
  have hread : ∀ {e e' : CompileError}, Endures (κ := κ) s s'
      (CompileM.orFail (Env.resolve? ⟨s, frame⟩ ref.name) e)
      (CompileM.orFail (Env.resolve? ⟨s, frame⟩ ref.name) e') (KnownItem s) := by
    refine orFail fun item hitem => ?_
    cases item with
    | type id entry =>
        exact Schema.isRegistered_of_type? (Env.type?_of_resolve? hitem)
    | function name sig =>
        exact hg.functions name sig (Env.function?_of_resolve? hitem)
  exact hread frame st item st' hst hrun

theorem castTarget {ref : Ast.NameRef} (hname : ref.name.name ∉ added) :
    Endures (κ := κ) s s' (CompileM.castTarget ref) (CompileM.castTarget ref)
      fun t => s.isRegistered t = true := by
  unfold CompileM.castTarget
  refine bind (resolve hg hname) fun item hitem => ?_
  cases item with
  | type id entry => exact pure hitem
  | function name sig => exact fail

theorem callee {ref : Ast.NameRef} {given : Nat}
    (hname : ref.name.name ∉ added) : Endures (κ := κ) s s'
    (CompileM.callee ref given span) (CompileM.callee ref given span)
    fun out => ∀ t ∈ out.2.mentions, s.isRegistered t = true := by
  unfold CompileM.callee
  refine bind (resolve hg hname) fun item hitem => ?_
  cases item with
  | type id entry => exact fail
  | function name sig => exact bind require fun _ _ => pure hitem

theorem checkArgument {type : ParamType} {position : Nat}
    {function : QualifiedName}
    (ht : ∀ t ∈ type.mentions, s.isRegistered t = true) :
    Endures (κ := κ) s s'
      (CompileM.checkArgument id type position function)
      (CompileM.checkArgument id type position function) := by
  unfold CompileM.checkArgument
  refine schema (bind getSet fun node hn => ?_)
  dsimp only
  split
  · exact pure trivial
  · rw [hg.isNumeric_eq hn]
    exact bind require fun _ _ => pure trivial
  · next target =>
      have htarget : s.isRegistered target = true := ht target List.mem_cons_self
      rw [hg.conversion?_eq hn htarget]
      split
      · exact castSet htarget
      · exact pure trivial
      · exact fail

theorem argument {m m' : CompileM κ Value} {param : Parameter} {position : Nat}
    {function : QualifiedName} {c : Cardinality}
    (hm : Endures s s' m m' fun v => v.KnownTo s)
    (ht : ∀ t ∈ param.type.mentions, s.isRegistered t = true) :
    Endures s s' (CompileM.argument m param position function c)
      (CompileM.argument m' param position function c) := by
  unfold CompileM.argument
  split
  · exact bind (inScope (bind hm fun _ hv => bind (attachAny hg hv)
      fun _ _ => checkArgument hg ht)) fun _ _ => pure trivial
  · exact bind hm fun _ hv => bind (attachAny hg hv) fun _ _ =>
      bind (checkArgument hg ht) fun _ _ => bind judge fun _ _ => pure trivial

omit hg [NameDigest] in
theorem call {function : QualifiedName} {sig : Signature} {args : List SetId}
    {c : Cardinality} (ht : ∀ t ∈ sig.mentions, s.isRegistered t = true) :
    Endures (κ := κ) s s' (CompileM.call function sig args c span)
      (CompileM.call function sig args c span) fun v => v.KnownTo s := by
  unfold CompileM.call CompileM.returnType
  refine bind (P := fun t => s.isRegistered t = true) ?_ fun _ ht =>
    pure (Or.inl ht)
  cases hreturns : sig.returns with
  | concrete type =>
      refine pure (ht type (List.mem_append_right _ ?_))
      rw [hreturns]
      exact List.mem_cons_self
  | sameAs position =>
      exact bind (orFail (P := fun _ => True) fun _ _ => trivial)
        fun _ _ => typeOf

-- ============================================================== clauses

theorem clauseOperand {m m' : CompileM κ Value}
    (hm : Endures s s' m m' fun v => v.KnownTo s) (hh : KnownHint s hint) :
    Endures s s' (CompileM.clauseOperand m span hint)
      (CompileM.clauseOperand m' span hint) := by
  unfold CompileM.clauseOperand
  refine bind hm fun v hv => ?_
  cases v with
  | set id => exact bind referenceAt fun _ _ => attach hg.toExtendedBy hv hh
  | pending p => exact attach hg.toExtendedBy hv hh

theorem filterBy {m m' : CompileM κ Value}
    (hm : Endures s s' m m' fun v => v.KnownTo s) :
    Endures s s' (CompileM.filterBy m span) (CompileM.filterBy m' span) := by
  refine inScope (inClause (clauseOperand hg hm fun t heq => ?_))
  cases heq
  exact hg.literals (.bool true)

theorem bound {m m' : CompileM κ Value}
    (hm : Endures s s' m m' fun v => v.KnownTo s) :
    Endures s s' (CompileM.bound m span) (CompileM.bound m' span) := by
  refine inScope (bind (clauseOperand hg hm fun t heq => ?_) fun _ _ =>
    bind requireSingleton fun _ _ => pure trivial)
  cases heq
  exact hg.literals (.int 0)

theorem key {m m' : CompileM κ Value}
    (hm : Endures s s' m m' fun v => v.KnownTo s) :
    Endures s s' (CompileM.key m span) (CompileM.key m' span) :=
  inScope (bind (clauseOperand hg hm nofun) fun _ _ =>
    bind requireSingleton fun _ _ => pure trivial)

/-- Modules stay declared. -/
theorem checkModule {module : String} : Endures (κ := κ) s s'
    (CompileM.checkModule module span) (CompileM.checkModule module span) := by
  refine schema ?_
  cases h : s.hasModule module with
  | true =>
      rw [hg.modules module h]
      exact require
  | false => exact fail

theorem withModules {modules : List Ast.ModuleDecl} {m m' : CompileM κ α}
    (hm : Endures s s' m m' P) :
    Endures s s' (CompileM.withModules modules m)
      (CompileM.withModules modules m') P := by
  induction modules with
  | nil => exact hm
  | cons d modules ih => exact bind (checkModule hg) fun _ _ => underFrame ih

end

end Endures

end CompileM

end PathQuery
