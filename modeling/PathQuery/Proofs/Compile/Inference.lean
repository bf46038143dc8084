/-
The type of an expression can be read off the expression.

What an expression compiles to depends on the scope nodes, on the sets
bound there and on whichever keys collide. Its type does not: it is a
matter of the schema, of the names in effect and of the type of the
subject (`Ast.Expr.type?`). Where compiling succeeds, that is the type of
the value (`CompileM.type?_of_expr`).

The function says nothing of whether an expression compiles. A negated
operand is a boolean here whatever the operand is, and a call has the
type that the function returns.
-/
import PathQuery.Proofs.Path.Pointers
import PathQuery.Proofs.Schema.Join
import PathQuery.Proofs.Statement.Parts

namespace PathQuery

open Ast (Expr Select)
open Ir (Arena Value)

variable {κ : Type}

-- ============================================================== schemas

namespace Schema

variable (s : Schema)

/-- The type that a value of type `t` has once it was attached. -/
def attached (t : TypeId) : Option TypeId → TypeId
  | none => t
  | some hint => if t.isEmpty then hint else s.converted t hint

/-- The type of an argument of type `t` once it was checked. -/
def passed (param : ParamType) (t : TypeId) : TypeId :=
  match param with
  | .concrete target => s.converted t target
  | .any | .numeric => t

/-- The type that elements of some types give a set literal. -/
def setType? : List TypeId → Option TypeId
  | [] => some .empty
  | [t] => some t
  | types => s.elementsType? .empty types

variable [NameDigest]

/-- The type of a binary operation on sets of some types. -/
def resultType (op : BinaryOp) (t u : TypeId) : TypeId :=
  if op.isLogical || op.isComparison then TypeId.bool
  else if op = .concat then TypeId.str
  else if s.scalarKind? t = some .int ∧ s.scalarKind? u = some .int then
    TypeId.int
  else TypeId.float

/-- The type of a binary operation on values of some types. -/
def binaryType (op : BinaryOp) (t u : TypeId) : TypeId :=
  let hints := CompileM.operandHints t u
  s.resultType op (s.attached t hints.1) (s.attached u hints.2)

end Schema

-- ================================================================ paths

namespace Lexicon

/-- The type that a path starts at. -/
def startType? (x : Lexicon) (subject : Option TypeId) (p : Ast.Path) :
    Option TypeId :=
  match p.root with
  | none => subject
  | some root =>
    match x.resolve? root.name with
    | some (.type id entry) => if entry.isObject then some id else none
    | some (.function _ _) | none => none

/-- The type that a path leads to. -/
def pathType? (x : Lexicon) (subject : Option TypeId) (p : Ast.Path) :
    Option TypeId :=
  (x.startType? subject p).bind fun t => (x.schema.along t p.steps).toOption

end Lexicon

-- ========================================================== expressions

variable [NameDigest]

namespace Ast

mutual

/-- The type of what an expression compiles to, if it does. -/
def Expr.type? (x : Lexicon) (subject : Option TypeId) :
    Expr → Option TypeId
  | .constant value _ => some value.type
  | .emptySet _ => some .empty
  | .path p => x.pathType? subject p
  | .binary left op right _ =>
    (left.type? x subject).bind fun t =>
      (right.type? x subject).map fun u => x.schema.binaryType op t u
  | .unary .neg operand _ => operand.type? x subject
  | .unary .not _ _ | .unary .exists _ _ => some TypeId.bool
  | .call function args _ =>
    match x.resolve? function.name with
    | some (.function _ signature) =>
      match signature.returns with
      | .concrete t => some t
      | .sameAs position => Expr.argumentType? x subject position signature.params args
    | some (.type _ _) | none => none
  | .cast target _ _ =>
    match x.resolve? target.name with
    | some (.type id _) => some id
    | some (.function _ _) | none => none
  | .set elements _ => (Expr.types? x subject elements).bind x.schema.setType?
  | .select query => query.type? x subject
  | .paren inner _ => inner.type? x subject
termination_by structural e => e

def Expr.types? (x : Lexicon) (subject : Option TypeId) :
    List Expr → Option (List TypeId)
  | [] => some []
  | e :: rest =>
    (e.type? x subject).bind fun t =>
      (Expr.types? x subject rest).map fun types => t :: types
termination_by structural es => es

/-- The type of the argument at a position, as its parameter takes it. -/
def Expr.argumentType? (x : Lexicon) (subject : Option TypeId) :
    Nat → List Parameter → List Expr → Option TypeId
  | 0, param :: _, arg :: _ =>
    (arg.type? x subject).map fun t => x.schema.passed param.type t
  | position + 1, _ :: params, _ :: args =>
    Expr.argumentType? x subject position params args
  | _, _, _ => none
termination_by structural _ _ args => args

/-- The type of what a statement selects. -/
def Select.type? (x : Lexicon) (subject : Option TypeId) :
    Select → Option TypeId
  | ⟨modules, result, _, _, _, _, _, _, _⟩ =>
    result.type? (x.declareAll modules) subject
termination_by structural q => q

end

end Ast

-- ============================================================== values

omit [NameDigest] in
/-- No conversion without a cast is an explicit one. -/
theorem Schema.conversion?_ne_explicit (s : Schema) (a b : TypeId) :
    s.conversion? a b ≠ some .explicit := by
  unfold conversion?
  split
  · simp
  · split
    · simp
    · split <;> simp

omit [NameDigest] in
@[simp] theorem Schema.converted_self (s : Schema) (t : TypeId) :
    s.converted t t = t := by
  unfold converted
  split <;> rfl

/-- The type of a value. -/
def Store.valueType? (st : Store κ) : Value → Option TypeId
  | .set id => st.arena.type? id
  | .pending p => some p.type

namespace CompileM

variable {env : Env} {st st' : Store κ} {id id' l r l' r' : SetId}
  {t u target type : TypeId} {v w : Value} {hint : Option TypeId} {span : Span}

section

omit [NameDigest]

theorem type?_of_newComputed {op : Ir.Operation} {c : Cardinality}
    (h : (newComputed op t c span).run env st = (.ok id, st')) :
    st'.arena.type? id = some t :=
  Arena.type?_eq_some_iff.2 ⟨_, get?_of_newComputed h, rfl⟩

/-- A set that was coerced has the type wanted if it was cast, or had no
type. -/
theorem type?_of_coerce
    (h : (coerce id target).run env st = (.ok id', st'))
    (hid : st.arena.type? id = some t) :
    st'.arena.type? id' = some (env.schema.attached t (some target)) := by
  obtain ⟨node, hn, rfl⟩ := Arena.type?_eq_some_iff.1 hid
  unfold coerce at h
  rw [run_bind_ok (run_getSet hn), run_bind_ok run_schema] at h
  unfold Schema.attached Schema.converted
  dsimp only
  split at h
  · next hempty =>
      obtain ⟨c, mid, -, hnew⟩ := ok_of_bind h
      rw [if_pos hempty]
      exact type?_of_newComputed hnew
  · next hne =>
      rw [if_neg hne]
      have hkept : ∀ conversion, conversion ≠ .implicit →
          env.schema.conversion? node.type target = some conversion →
          (pure id : CompileM κ SetId).run env st = (.ok id', st') →
          st'.arena.type? id' = some (if env.schema.conversion? node.type target
            = some .implicit then target else node.type) := by
        intro conversion himplicit hconv hpure
        obtain ⟨rfl, rfl⟩ := ok_of_pure hpure
        rw [hconv, if_neg (by simpa using himplicit)]
        exact hid
      split at h
      · next hconv => exact hkept _ (by simp) hconv h
      · next hconv => exact hkept _ (by simp) hconv h
      · next conversion hidentity hupcast hconv =>
          cases conversion with
          | identity => exact absurd rfl hidentity
          | upcast => exact absurd rfl hupcast
          | explicit =>
              exact absurd hconv (Schema.conversion?_ne_explicit _ _ _)
          | implicit =>
              rw [hconv, if_pos rfl]
              exact type?_of_castSet h
      · rw [run_bind_ok run_frame] at h
        cases h

/-- A value is settled at its type, or takes the one of the hint. -/
theorem type?_of_settle (h : (settle v hint).run env st = (.ok id, st'))
    (hv : st.valueType? v = some t) :
    ∃ t', st'.arena.type? id = some t'
      ∧ (t' = t ∨ (t.isEmpty = true ∧ hint = some t')) := by
  cases v with
  | set y =>
      obtain ⟨rfl, rfl⟩ := ok_of_pure h
      exact ⟨t, hv, Or.inl rfl⟩
  | pending p =>
      cases hv
      unfold settle at h
      dsimp only at h
      split at h
      · next hempty =>
          cases hint with
          | none =>
              unfold untypedEmptySet at h
              rw [run_bind_ok run_frame] at h
              cases h
          | some type =>
              exact ⟨type, type?_of_newComputed h, Or.inr ⟨hempty, rfl⟩⟩
      · exact ⟨p.type, type?_of_newComputed h, Or.inl rfl⟩

/-- A value that was attached has its own type, or that of the hint. -/
theorem type?_of_attach (h : (attach v hint).run env st = (.ok id, st'))
    (hv : st.valueType? v = some t) :
    st'.arena.type? id = some (env.schema.attached t hint) := by
  unfold attach at h
  obtain ⟨x, mid, hsettle, hrest⟩ := ok_of_bind h
  obtain ⟨t', hx, hor⟩ := type?_of_settle hsettle hv
  cases hint with
  | none =>
      obtain ⟨node, mid', hget, hcheck⟩ := ok_of_bind hrest
      obtain ⟨hn, rfl⟩ := ok_of_getSet hget
      split at hcheck
      · obtain ⟨_, _, hfail, -⟩ := ok_of_bind hcheck
        cases hfail
      · obtain ⟨rfl, rfl⟩ := ok_of_pure hcheck
        rcases hor with rfl | ⟨-, hnone⟩
        · exact hx
        · cases hnone
  | some type =>
      rw [type?_of_coerce hrest hx]
      rcases hor with rfl | ⟨hempty, heq⟩
      · rfl
      · cases heq
        unfold Schema.attached
        dsimp only
        rw [if_pos hempty, Schema.converted_self, ite_self]

/-- An argument that was checked has the type wanted if it was cast. -/
theorem type?_of_checkArgument {param : ParamType} {position : Nat}
    {function : QualifiedName}
    (h : (checkArgument id param position function).run env st
      = (.ok id', st')) (hid : st.arena.type? id = some t) :
    st'.arena.type? id' = some (env.schema.passed param t) := by
  obtain ⟨node, hn, rfl⟩ := Arena.type?_eq_some_iff.1 hid
  unfold checkArgument at h
  rw [run_bind_ok run_schema, run_bind_ok (run_getSet hn)] at h
  unfold Schema.passed
  cases param with
  | any =>
      obtain ⟨rfl, rfl⟩ := ok_of_pure h
      exact hid
  | numeric =>
      obtain ⟨_, mid, hcheck, h⟩ := ok_of_bind h
      obtain ⟨rfl, rfl⟩ := ok_of_pure h
      rw [run_require] at hcheck
      obtain rfl : st = st' := congrArg Prod.snd hcheck
      exact hid
  | concrete target =>
      dsimp only at h ⊢
      unfold Schema.converted
      split at h
      · next hconv =>
          rw [hconv, if_pos rfl]
          exact type?_of_castSet h
      · next conversion himplicit hconv =>
          obtain ⟨rfl, rfl⟩ := ok_of_pure h
          rw [hconv, if_neg fun heq => himplicit (Option.some.inj heq)]
          exact hid
      · cases h

end

-- =========================================================== operators

theorem type_of_comparison {objects : Bool} {mismatch : CompileError}
    (h : (comparison l r objects mismatch).run env st
      = (.ok (l', r', type), st')) : type = TypeId.bool := by
  unfold comparison at h
  obtain ⟨s, _, -, h⟩ := ok_of_bind h
  obtain ⟨t, _, -, h⟩ := ok_of_bind h
  obtain ⟨u, _, -, h⟩ := ok_of_bind h
  obtain ⟨c, _, -, h⟩ := ok_of_bind h
  split at h
  · cases h
    rfl
  · obtain ⟨x, _, -, h⟩ := ok_of_bind h
    obtain ⟨y, _, -, h⟩ := ok_of_bind h
    cases h
    rfl

theorem type_of_concatenation {mismatch : CompileError}
    (h : (concatenation l r mismatch).run env st = (.ok (l', r', type), st')) :
    type = TypeId.str := by
  unfold concatenation at h
  obtain ⟨s, _, -, h⟩ := ok_of_bind h
  obtain ⟨t, _, -, h⟩ := ok_of_bind h
  obtain ⟨u, _, -, h⟩ := ok_of_bind h
  split at h
  · cases h
    rfl
  · cases h

theorem type_of_arithmetic {mismatch : CompileError}
    (h : (arithmetic l r mismatch).run env st = (.ok (l', r', type), st'))
    (hl : st.arena.type? l = some t) (hr : st.arena.type? r = some u) :
    type = if env.schema.scalarKind? t = some .int
        ∧ env.schema.scalarKind? u = some .int then TypeId.int
      else TypeId.float := by
  obtain ⟨n, hn, rfl⟩ := Arena.type?_eq_some_iff.1 hl
  obtain ⟨m, hm, rfl⟩ := Arena.type?_eq_some_iff.1 hr
  unfold arithmetic at h
  rw [run_bind_ok run_schema, run_bind_ok (run_typeOf hn),
    run_bind_ok (run_typeOf hm)] at h
  split at h
  · next hint hint' =>
      cases h
      rw [if_pos ⟨hint, hint'⟩]
  · next k k' hnot hk hk' =>
      obtain ⟨_, _, -, h⟩ := ok_of_bind h
      obtain ⟨x, _, -, h⟩ := ok_of_bind h
      obtain ⟨y, _, -, h⟩ := ok_of_bind h
      cases h
      rw [if_neg]
      intro hboth
      rw [hk, hk'] at hboth
      obtain ⟨hint, hint'⟩ := hboth
      exact hnot (Option.some.inj hint) (Option.some.inj hint')
  · cases h

theorem type_of_typeBinary {op : BinaryOp}
    (h : (typeBinary op l r span).run env st = (.ok (l', r', type), st'))
    (hl : st.arena.type? l = some t) (hr : st.arena.type? r = some u) :
    type = env.schema.resultType op t u := by
  obtain ⟨n, hn, rfl⟩ := Arena.type?_eq_some_iff.1 hl
  obtain ⟨m, hm, rfl⟩ := Arena.type?_eq_some_iff.1 hr
  unfold typeBinary at h
  rw [run_bind_ok run_schema, run_bind_ok (run_typeOf hn),
    run_bind_ok (run_typeOf hm)] at h
  unfold Schema.resultType
  split at h
  · next hop =>
      cases h
      rw [hop]
      rfl
  · next hlog =>
      obtain ⟨_, mid, hcheck, h⟩ := ok_of_bind h
      rw [run_require] at hcheck
      obtain rfl : st = mid := congrArg Prod.snd hcheck
      rw [Bool.eq_false_iff.2 hlog, Bool.false_or]
      split at h
      · next hcmp =>
          rw [if_pos hcmp]
          exact type_of_comparison h
      · next hcmp =>
          rw [if_neg hcmp]
          split at h
          · next hcat =>
              rw [if_pos hcat]
              exact type_of_concatenation h
          · next hcat =>
              rw [if_neg hcat]
              exact type_of_arithmetic h hl hr

-- ========================================================= expressions

variable [DecidableEq κ] [PathKey κ] {R : Regime}

/-- A step that was run has kept what it upholds. -/
theorem Upholds.kept {α : Type} {m : CompileM κ α}
    {mid : Store κ → α → Prop} (hm : Upholds R env st m mid)
    (hr : env.Ready R st) {out : Except CompileError α}
    (h : m.run env st = (out, st')) : env.Ready R st' ∧ st.Extends st' := by
  have hout := hm hr
  rw [h] at hout
  exact ⟨hout.ready, hout.extends hr⟩

/-- What it returns is as it should be. -/
theorem Upholds.returned {α : Type} {m : CompileM κ α}
    {mid : Store κ → α → Prop} (hm : Upholds R env st m mid)
    (hr : env.Ready R st) {a : α} (h : m.run env st = (.ok a, st')) :
    mid st' a := by
  have hout := hm hr
  rw [h] at hout
  exact hout.value a rfl

omit [DecidableEq κ] [PathKey κ] in
theorem valueType?_of_offers {s : Schema} {scope : ScopeId}
    (h : st.Offers R s scope v t) : st.valueType? v = some t := by
  cases v with
  | set id => exact Store.Holds.type? h
  | pending p => exact congrArg some h.1

/-- Operands that were attached have their own types, or take them from
each other. Logical operators want booleans. -/
theorem types?_of_attachOperands {op : BinaryOp} (hr : env.Ready R st)
    (hv : st.Offers R env.schema env.frame.scope v t)
    (hw : st.Offers R env.schema env.frame.scope w u)
    (h : (attachOperands op v w).run env st = (.ok (l, r), st')) :
    ∃ t' u', st'.arena.type? l = some t' ∧ st'.arena.type? r = some u'
      ∧ (op.isLogical = false →
        t' = env.schema.attached t (operandHints t u).1
          ∧ u' = env.schema.attached u (operandHints t u).2) := by
  unfold attachOperands at h
  -- the left operand keeps its type while the right one is attached
  have hboth : ∀ {hint hint' : Option TypeId} {mid : Store κ},
      (∀ type, hint' = some type → R.known type) →
      (attach v hint).run env st = (.ok l, mid) → mid.Offers R env.schema
        env.frame.scope w u → env.Ready R mid →
      (attach w hint').run env mid = (.ok r, st') →
      st'.arena.type? l = some (env.schema.attached t hint)
        ∧ st'.arena.type? r = some (env.schema.attached u hint') := by
    intro hint hint' mid hknown hl hw hready hr'
    have hext := ((Upholds.attach hw hknown).kept hready hr').2
    exact ⟨hext.arena.type? (type?_of_attach hl (valueType?_of_offers hv)),
      type?_of_attach hr' (valueType?_of_offers hw)⟩
  split at h
  · next hop =>
      have hknown : ∀ type, some TypeId.bool = some type → R.known type := by
        intro type heq
        cases heq
        exact hr.suits.literal (.bool true)
      obtain ⟨x, mid, hl, h⟩ := ok_of_bind h
      obtain ⟨y, mid', hr', hpure⟩ := ok_of_bind h
      cases hpure
      obtain ⟨hready, hext⟩ := (Upholds.attach hv hknown).kept hr hl
      obtain ⟨ht, hu⟩ := hboth hknown hl (hw.mono hext hr.active) hready hr'
      exact ⟨_, _, ht, hu, fun hlog => absurd (hop.symm.trans hlog) (by simp)⟩
  · rw [run_bind_ok (run_valueType hv), run_bind_ok (run_valueType hw)] at h
    have hhint : ∀ type, (operandHints t u).1 = some type
        ∨ (operandHints t u).2 = some type → R.known type := by
      intro type htype
      rcases operandHints_cases htype with ⟨rfl, hne⟩ | ⟨rfl, hne⟩
      · exact (hw.known hr.sound).resolve_right hne
      · exact (hv.known hr.sound).resolve_right hne
    obtain ⟨x, mid, hl, h⟩ := ok_of_bind h
    obtain ⟨y, mid', hr', hpure⟩ := ok_of_bind h
    cases hpure
    obtain ⟨hready, hext⟩ :=
      (Upholds.attach hv fun type h => hhint type (Or.inl h)).kept hr hl
    obtain ⟨ht, hu⟩ := hboth (fun type h => hhint type (Or.inr h)) hl
      (hw.mono hext hr.active) hready hr'
    exact ⟨_, _, ht, hu, fun _ => ⟨rfl, rfl⟩⟩

theorem valueType?_of_binary {op : BinaryOp} {x : Value}
    (hr : env.Ready R st)
    (hv : st.Offers R env.schema env.frame.scope v t)
    (hw : st.Offers R env.schema env.frame.scope w u)
    (h : (binary op v w span).run env st = (.ok x, st')) :
    st'.valueType? x = some (env.schema.binaryType op t u) := by
  unfold binary at h
  obtain ⟨⟨a, b⟩, mid, hattach, h⟩ := ok_of_bind h
  obtain ⟨t', u', ht, hu, hsame⟩ := types?_of_attachOperands hr hv hw hattach
  obtain ⟨⟨c, d, type⟩, mid', htype, h⟩ := ok_of_bind h
  obtain rfl := type_of_typeBinary htype ht hu
  obtain ⟨m, _, -, h⟩ := ok_of_bind h
  obtain ⟨n, _, -, h⟩ := ok_of_bind h
  obtain ⟨rfl, rfl⟩ := ok_of_pure h
  refine congrArg some ?_
  unfold Schema.binaryType
  cases hlog : op.isLogical with
  | true =>
      unfold Schema.resultType
      rw [hlog]
      rfl
  | false =>
      obtain ⟨rfl, rfl⟩ := hsame hlog
      rfl

omit [NameDigest] [DecidableEq κ] [PathKey κ] in
/-- A negated number has the type of the number. -/
theorem valueType?_of_arithmeticNeg {x : Value} (hv : st.valueType? v = some t)
    (h : (arithmeticNeg v span).run env st = (.ok x, st')) :
    st'.valueType? x = some t := by
  unfold arithmeticNeg at h
  obtain ⟨id, mid, hattach, h⟩ := ok_of_bind h
  have ht := type?_of_attach hattach hv
  obtain ⟨s, _, hs, h⟩ := ok_of_bind h
  cases hs
  obtain ⟨t', _, htype, h⟩ := ok_of_bind h
  obtain ⟨ht', rfl⟩ := ok_of_typeOf htype
  rw [ht] at ht'
  cases ht'
  obtain ⟨_, _, -, h⟩ := ok_of_bind h
  obtain ⟨_, _, -, h⟩ := ok_of_bind h
  obtain ⟨c, _, -, h⟩ := ok_of_bind h
  obtain ⟨rfl, rfl⟩ := ok_of_pure h
  rfl

-- ======================================================== set literals

variable {elements : List (Value × Span)} {types : List TypeId}
  {common : TypeId}

omit [DecidableEq κ] [PathKey κ] in
/-- The common type of the elements of a set literal is a matter of their
types. -/
theorem run_commonElementType (common : TypeId)
    (ho : OfferedAll R env st elements types) :
    ∃ out, (commonElementType common elements).run env st = (out, st)
      ∧ out.toOption = env.schema.elementsType? common types := by
  induction ho generalizing common with
  | nil => exact ⟨.ok common, rfl, rfl⟩
  | @cons e t elements types ho _ ih =>
      unfold commonElementType Schema.elementsType?
      rw [run_bind_ok (run_valueType ho)]
      split
      · exact ih _
      · split
        · exact ih _
        · rw [run_bind_ok run_schema]
          cases hw : env.schema.commonType? common t with
          | none => exact ⟨_, rfl, rfl⟩
          | some wider =>
              rw [run_bind_ok (run_orFail _ _ _ _)]
              exact ih _

omit [DecidableEq κ] [PathKey κ] in
/-- A set literal has the type that its elements give it. -/
theorem valueType?_of_setOf {x : Value}
    (ho : OfferedAll R env st elements types)
    (h : (setOf elements span).run env st = (.ok x, st')) :
    ∃ t, env.schema.setType? types = some t ∧ st'.valueType? x = some t := by
  unfold setOf at h
  split at h
  · cases ho
    cases h
    exact ⟨_, rfl, rfl⟩
  · cases ho with
    | cons hv hrest =>
        cases hrest
        cases h
        exact ⟨_, rfl, valueType?_of_offers hv⟩
  · next hnil hone =>
      unfold unionOf at h
      obtain ⟨out, hrun, htype⟩ := run_commonElementType .empty ho
      obtain ⟨c, mid, hc, h⟩ := ok_of_bind h
      rw [hrun] at hc
      cases hc
      obtain ⟨members, _, -, h⟩ := ok_of_bind h
      obtain ⟨rfl, rfl⟩ := ok_of_pure h
      refine ⟨c, ?_, rfl⟩
      cases ho with
      | nil => exact absurd rfl hnil
      | @cons e t _ _ _ hrest =>
          cases hrest with
          | nil => exact absurd rfl (hone e.1 e.2)
          | cons _ _ => exact htype.symm

end CompileM

-- =========================================================== the whole

/-- The type of the subject. -/
def Env.subjectType? (env : Env) (st : Store κ) : Option TypeId :=
  env.frame.subject.bind st.arena.type?

section

variable [DecidableEq κ] [PathKey κ] {R : Regime} {env env' : Env}
  {st st' : Store κ}

/-- The subject keeps its type. -/
theorem Env.Ready.subjectType?_eq (hr : env.Ready R st) (h : st.Extends st')
    (hsame : env'.frame.subject = env.frame.subject) :
    env'.subjectType? st' = env.subjectType? st := by
  unfold Env.subjectType?
  rw [hsame]
  cases hs : env.frame.subject with
  | none => rfl
  | some id =>
      obtain ⟨t, ht⟩ := hr.subject id hs
      rw [Option.bind_some, Option.bind_some, ht.type?]
      exact h.arena.type? ht.type?

namespace CompileM

/-- A path is a set of the type that its pointers lead to. -/
theorem type?_of_path (hr : env.Ready R st) {p : Ast.Path} {id : SetId}
    (h : (path p).run env st = (.ok id, st')) :
    ∃ t, env.lexicon.pathType? (env.subjectType? st) p = some t
      ∧ st'.arena.type? id = some t := by
  obtain ⟨t, -, hdenotes⟩ := Upholds.path.returned hr h
  rw [Upholds.denotes?_mono (Upholds.path.kept hr h).2 hr] at hdenotes
  unfold Env.denotes? at hdenotes
  obtain ⟨start, hstart, -⟩ := Option.map_eq_some_iff.1 hdenotes
  have htype : ∃ t, env.startType? st.arena p = some t := by
    unfold Env.startType?
    rcases Env.start?_cases hstart with ⟨subject, hroot, hsubject, -⟩
      | ⟨root, type, entry, hroot, hresolve, hobj, -⟩
    · obtain ⟨u, hu⟩ := hr.subject subject hsubject
      rw [hroot, hsubject]
      exact ⟨u, hu.type?⟩
    · rw [hroot]
      simp only [hresolve, hobj, if_true]
      exact ⟨_, rfl⟩
  obtain ⟨t, htype⟩ := htype
  have hfollows := run_path_follows hr hstart htype
  rw [h] at hfollows
  have hsame : env.lexicon.startType? (env.subjectType? st) p = some t := by
    rw [← htype]
    rfl
  unfold Lexicon.pathType?
  rw [hsame, Option.bind_some]
  revert hfollows
  show Follows _ _ (env.schema.along t p.steps) _ →
    ∃ t', (env.schema.along t p.steps).toOption = _ ∧ _
  generalize env.schema.along t p.steps = out
  intro hfollows
  cases hfollows with
  | found hn => exact ⟨_, rfl, Arena.type?_eq_some_iff.2 ⟨_, hn, rfl⟩⟩

-- ========================================================= expressions

/-- Wherever an expression compiles, the value has the type that is read
off the expression. -/
def Infers (κ : Type) [DecidableEq κ] [PathKey κ] (R : Regime) (e : Expr) :
    Prop :=
  ∀ (env : Env) (st : Store κ) v st', env.Ready R st →
    (expr e).run env st = (.ok v, st') →
      ∃ t, e.type? env.lexicon (env.subjectType? st) = some t
        ∧ st'.valueType? v = some t

/-- Values are of the types that are read off the expressions, one for
one. -/
def InfersAll (κ : Type) [DecidableEq κ] [PathKey κ] (R : Regime)
    (es : List Expr) : Prop :=
  ∀ (env : Env) (st : Store κ) values st', env.Ready R st →
    (exprs es).run env st = (.ok values, st') →
      ∃ types, Expr.types? env.lexicon (env.subjectType? st) es = some types
        ∧ OfferedAll R env st' values types

/-- Arguments are of the types that are read off them, as their
parameters take them. -/
def InfersArguments (κ : Type) [DecidableEq κ] [PathKey κ] (R : Regime)
    (args : List Expr) : Prop :=
  ∀ (function : QualifiedName) (position : Nat) (params : List Parameter)
    (c : Cardinality) (env : Env) (st : Store κ) ids st', env.Ready R st →
    (arguments function position params c args).run env st = (.ok ids, st') →
      ∀ (n : Nat) id, ids.1[n]? = some id →
        ∃ t, Expr.argumentType? env.lexicon (env.subjectType? st) n params args
            = some t
          ∧ st'.arena.type? id = some t

/-- What a statement selects is of the type that is read off it. -/
def InfersSelect (κ : Type) [DecidableEq κ] [PathKey κ] (R : Regime)
    (q : Select) : Prop :=
  ∀ (env : Env) (st : Store κ) stmt st', env.Ready R st →
    (select q).run env st = (.ok stmt, st') →
      ∃ t, q.type? env.lexicon (env.subjectType? st) = some t
        ∧ st'.arena.type? stmt.result = some t

namespace Infers

variable {e l r : Expr} {span : Span}

/-- What is offered by an expression is of the type read off it. -/
theorem offers (he : Infers κ R e) {v : Value} (hr : env.Ready R st)
    (h : (expr e).run env st = (.ok v, st')) :
    ∃ t, e.type? env.lexicon (env.subjectType? st) = some t
      ∧ st'.Offers R env.schema env.frame.scope v t ∧ env.Ready R st'
      ∧ st.Extends st' := by
  obtain ⟨t, ht, hv⟩ := he env st v st' hr h
  obtain ⟨u, hu⟩ := (Upholds.expr e env st).returned hr h
  rw [valueType?_of_offers hu] at hv
  cases hv
  exact ⟨_, ht, hu, (Upholds.expr e env st).kept hr h⟩

theorem binaryExpr {op : BinaryOp} (hl : Infers κ R l) (hr : Infers κ R r) :
    Infers κ R (.binary l op r span) := by
  intro env st x st' hready h
  unfold CompileM.expr at h
  obtain ⟨v, st₁, hv, h⟩ := ok_of_bind h
  obtain ⟨t, ht, hoffer, hready₁, hext⟩ := hl.offers hready hv
  obtain ⟨w, st₂, hw, h⟩ := ok_of_bind h
  obtain ⟨u, hu, hoffer', hready₂, hext'⟩ := hr.offers hready₁ hw
  rw [hready.subjectType?_eq hext rfl] at hu
  refine ⟨_, ?_, valueType?_of_binary hready₂
    (hoffer.mono hext' hready₁.active) hoffer' h⟩
  unfold Expr.type?
  rw [ht, hu]
  rfl

theorem unaryExpr {op : UnaryOp} (he : Infers κ R e) :
    Infers κ R (.unary op e span) := by
  intro env st x st' hready h
  cases op with
  | not =>
      unfold CompileM.expr logicalNot at h
      obtain ⟨v, _, -, h⟩ := ok_of_bind h
      obtain ⟨y, _, -, h⟩ := ok_of_bind h
      obtain ⟨c, _, -, h⟩ := ok_of_bind h
      obtain ⟨rfl, rfl⟩ := ok_of_pure h
      exact ⟨TypeId.bool, rfl, rfl⟩
  | neg =>
      unfold CompileM.expr at h
      obtain ⟨v, st₁, hv, h⟩ := ok_of_bind h
      obtain ⟨t, ht, hoffer, -⟩ := he.offers hready hv
      exact ⟨t, ht, valueType?_of_arithmeticNeg (valueType?_of_offers hoffer) h⟩
  | «exists» =>
      unfold CompileM.expr existence at h
      obtain ⟨y, _, -, h⟩ := ok_of_bind h
      obtain ⟨rfl, rfl⟩ := ok_of_pure h
      exact ⟨TypeId.bool, rfl, rfl⟩

theorem pathExpr {p : Ast.Path} : Infers κ R (.path p) := by
  intro env st v st' hready h
  unfold CompileM.expr at h
  obtain ⟨id, st₁, hpath, h⟩ := ok_of_bind h
  obtain ⟨rfl, rfl⟩ := ok_of_pure h
  exact type?_of_path hready hpath

omit [NameDigest] [DecidableEq κ] [PathKey κ] in
/-- What is resolved is what the name stands for. -/
theorem ok_of_resolve {ref : Ast.NameRef}
    {item : SchemaItem} (h : (resolve ref).run env st = (.ok item, st')) :
    env.lexicon.resolve? ref.name = some item ∧ st' = st := by
  rw [run_resolve] at h
  exact ok_of_orFail h

theorem castExpr {target : Ast.NameRef} :
    Infers κ R (.cast target e span) := by
  intro env st x st' hready h
  unfold CompileM.expr castTarget at h
  obtain ⟨type, st₁, htarget, hcast⟩ := ok_of_bind h
  obtain ⟨item, st₂, hitem, hname⟩ := ok_of_bind htarget
  obtain ⟨hresolve, -⟩ := ok_of_resolve hitem
  cases item with
  | function name sig => cases hname
  | type id entry =>
      obtain ⟨rfl, -⟩ := ok_of_pure hname
      obtain ⟨v, st₃, -, h⟩ := ok_of_bind hcast
      unfold cast at h
      obtain ⟨t, _, -, h⟩ := ok_of_bind h
      obtain ⟨y, _, -, h⟩ := ok_of_bind h
      obtain ⟨s, _, -, h⟩ := ok_of_bind h
      obtain ⟨source, _, -, h⟩ := ok_of_bind h
      obtain ⟨conversion, _, -, h⟩ := ok_of_bind h
      obtain ⟨c, _, -, h⟩ := ok_of_bind h
      obtain ⟨rfl, rfl⟩ := ok_of_pure h
      refine ⟨type, ?_, rfl⟩
      unfold Expr.type?
      rw [hresolve]

theorem exprsCons {es : List Expr} (he : Infers κ R e)
    (hes : InfersAll κ R es) : InfersAll κ R (e :: es) := by
  intro env st values st' hready h
  unfold CompileM.exprs at h
  obtain ⟨v, st₁, hv, h⟩ := ok_of_bind h
  obtain ⟨t, ht, hoffer, hready₁, hext⟩ := he.offers hready hv
  obtain ⟨rest, st₂, hrest, h⟩ := ok_of_bind h
  obtain ⟨types, htypes, hoffers⟩ := hes env st₁ rest st₂ hready₁ hrest
  obtain ⟨-, hext'⟩ := (Upholds.exprs es env st₁).kept hready₁ hrest
  obtain ⟨rfl, rfl⟩ := ok_of_pure h
  rw [hready.subjectType?_eq hext rfl] at htypes
  refine ⟨t :: types, ?_, .cons (hoffer.mono hext' hready₁.active) hoffers⟩
  unfold Expr.types?
  rw [ht, htypes]
  rfl

theorem setExpr {es : List Expr} (hes : InfersAll κ R es) :
    Infers κ R (.set es span) := by
  intro env st x st' hready h
  unfold CompileM.expr at h
  obtain ⟨values, st₁, hvalues, h⟩ := ok_of_bind h
  obtain ⟨types, htypes, hoffers⟩ := hes env st values st₁ hready hvalues
  obtain ⟨t, ht, hx⟩ := valueType?_of_setOf hoffers h
  refine ⟨t, ?_, hx⟩
  unfold Expr.type?
  rw [htypes]
  exact ht

theorem argumentsNil : InfersArguments κ R [] := by
  intro function position params c env st ids st' hready h n id hid
  have hnil : ids = ([], c) := by
    cases params with
    | nil => exact (ok_of_pure h).1
    | cons param params => exact (ok_of_pure h).1
  rw [hnil] at hid
  cases hid

/-- An argument has the type that is read off it, as its parameter takes
it. -/
theorem type?_of_argument {function : QualifiedName} {param : Parameter}
    {position : Nat} {c : Cardinality} {r : SetId × Cardinality}
    (he : Infers κ R e) (hr : env.Ready R st)
    (h : (argument (expr e) param position function c).run env st
      = (.ok r, st')) :
    ∃ t, e.type? env.lexicon (env.subjectType? st) = some t
      ∧ st'.arena.type? r.1 = some (env.schema.passed param.type t) := by
  -- whichever node it is compiled in
  have hchecked : ∀ (env' : Env) (st : Store κ) id st', env'.Ready R st →
      env'.schema = env.schema →
      (expr e >>= fun v => attach v none >>= fun id =>
        checkArgument id param.type position function).run env' st
          = (.ok id, st') →
      ∃ t, e.type? env'.lexicon (env'.subjectType? st) = some t
        ∧ st'.arena.type? id = some (env.schema.passed param.type t) := by
    intro env' st id st' hready hschema hrun
    obtain ⟨v, st₁, hv, hrest⟩ := ok_of_bind hrun
    obtain ⟨t, ht, hvalue⟩ := he env' st v st₁ hready hv
    obtain ⟨x, st₂, hx, hcheck⟩ := ok_of_bind hrest
    rw [← hschema]
    exact ⟨t, ht, type?_of_checkArgument hcheck (type?_of_attach hx hvalue)⟩
  unfold argument at h
  cases hmode : param.mode with
  | wholeSet =>
      rw [hmode] at h
      obtain ⟨id, st₁, hscope, hpure⟩ := ok_of_bind h
      obtain ⟨rfl, rfl⟩ := ok_of_pure hpure
      rw [run_inScope] at hscope
      obtain ⟨t, ht, hid⟩ := hchecked _ _ _ _ hr.opened rfl hscope
      have hsame : (env.within st.scopes.size).subjectType?
          (st.opened env.frame.scope) = env.subjectType? st :=
        hr.subjectType?_eq hr.extends_opened rfl
      rw [hsame] at ht
      exact ⟨t, ht, hid⟩
  | element =>
      rw [hmode] at h
      obtain ⟨v, st₁, hv, hrest⟩ := ok_of_bind h
      obtain ⟨x, st₂, hx, hrest⟩ := ok_of_bind hrest
      obtain ⟨y, st₃, hy, hrest⟩ := ok_of_bind hrest
      obtain ⟨d, st₄, hjudge, hpure⟩ := ok_of_bind hrest
      obtain ⟨rfl, rfl⟩ := ok_of_pure hpure
      obtain ⟨-, rfl⟩ := ok_of_judge hjudge
      refine hchecked env st y _ hr rfl ?_
      rw [run_bind_ok hv, run_bind_ok hx, hy]

theorem argumentsCons {args : List Expr} (he : Infers κ R e)
    (hargs : InfersArguments κ R args) : InfersArguments κ R (e :: args) := by
  intro function position params c env st ids st' hready h n id hid
  cases params with
  | nil =>
      obtain ⟨rfl, -⟩ := ok_of_pure h
      cases hid
  | cons param params =>
      unfold CompileM.arguments at h
      obtain ⟨⟨x, d⟩, st₁, hx, hrest⟩ := ok_of_bind h
      obtain ⟨⟨rest, d'⟩, st₂, hids, hpure⟩ := ok_of_bind hrest
      obtain ⟨rfl, rfl⟩ := ok_of_pure hpure
      have hkept := (Upholds.argument (Upholds.expr e)).kept hready hx
      obtain ⟨hready₁, hext⟩ := hkept
      cases n with
      | zero =>
          obtain rfl : x = id := Option.some.inj hid
          obtain ⟨t, ht, htype⟩ := type?_of_argument he hready hx
          refine ⟨_, ?_, (Arena.Extends.type? ?_ htype)⟩
          · unfold Expr.argumentType?
            rw [ht]
            rfl
          · have hcomposed : Composes (fun _ => True)
                (arguments function (position + 1) params d args
                  : CompileM κ (List SetId × Cardinality)) :=
              Composed.arguments args fun _ _ => trivial
            have hspread := hcomposed.spreads env st₁
            rw [hids] at hspread
            exact hspread.grows.arena
      | succ n =>
          obtain ⟨t, ht, htype⟩ := hargs function (position + 1) params d env
            st₁ (rest, d') _ hready₁ hids n id hid
          rw [hready.subjectType?_eq hext rfl] at ht
          exact ⟨t, ht, htype⟩

theorem callExpr {function : Ast.NameRef} {args : List Expr}
    (hargs : InfersArguments κ R args) :
    Infers κ R (.call function args span) := by
  intro env st v st' hready h
  unfold CompileM.expr at h
  obtain ⟨⟨name, sig⟩, st₁, hcallee, hrest⟩ := ok_of_bind h
  obtain ⟨⟨ids, c⟩, st₂, hids, hcall⟩ := ok_of_bind hrest
  have hready₁ := (Upholds.callee.kept hready hcallee).1
  unfold callee at hcallee
  obtain ⟨item, st₃, hitem, hname⟩ := ok_of_bind hcallee
  obtain ⟨hresolve, rfl⟩ := ok_of_resolve hitem
  cases item with
  | type id entry => cases hname
  | function f signature =>
      obtain ⟨_, st₄, hcheck, hpure⟩ := ok_of_bind hname
      rw [run_require] at hcheck
      obtain rfl : st₃ = st₄ := congrArg Prod.snd hcheck
      cases hpure
      unfold call at hcall
      obtain ⟨t, st₅, hreturns, hpure⟩ := ok_of_bind hcall
      obtain ⟨rfl, rfl⟩ := ok_of_pure hpure
      refine ⟨t, ?_, rfl⟩
      unfold Expr.type?
      rw [hresolve]
      unfold returnType at hreturns
      cases hret : sig.returns with
      | concrete type =>
          rw [hret] at hreturns
          obtain ⟨rfl, -⟩ := ok_of_pure hreturns
          dsimp only
          rw [hret]
      | sameAs position =>
          rw [hret] at hreturns
          obtain ⟨id, st₆, horFail, htypeOf⟩ := ok_of_bind hreturns
          obtain ⟨hid, rfl⟩ := ok_of_orFail horFail
          obtain ⟨htype, -⟩ := ok_of_typeOf htypeOf
          obtain ⟨u, hu, hu'⟩ := hargs name 0 sig.params sig.cardinality env _
            (ids, c) _ hready₁ hids position id hid
          rw [htype] at hu'
          cases hu'
          dsimp only
          rw [hret]
          exact hu

theorem selectOf {q : Select} (he : Infers κ R q.result) :
    InfersSelect κ R q := by
  intro env st stmt st' hready h
  obtain ⟨result, mid, hresult, hfrom⟩ := ok_of_select h
  have hready₁ := hready.inside q
  unfold selectResult at hresult
  obtain ⟨v, st₁, hv, hattach⟩ := ok_of_bind hresult
  obtain ⟨t, ht, hvalue⟩ := he _ _ v st₁ hready₁ hv
  have htype := type?_of_attach hattach hvalue
  rw [Env.lexicon_inside, hready.subjectType?_eq hready.extends_opened
    (Env.subject_inside _ _ _)] at ht
  refine ⟨t, ?_, ?_⟩
  · obtain ⟨_, _, _, _, _, _, _, _, _⟩ := q
    exact ht
  · -- the rest of the statement leaves its result as it is
    have hcomposed : Composes (fun _ => True)
        (selectFrom q result : CompileM κ Ir.Statement) :=
      Composed.selectFrom fun _ _ => trivial
    have hspread := hcomposed.spreads (env.inside st.scopes.size q) mid
    rw [hfrom] at hspread
    rw [result_of_selectFrom hfrom]
    exact hspread.grows.arena.type? htype

theorem selectExpr {q : Select} (hq : InfersSelect κ R q) :
    Infers κ R (.select q) := by
  intro env st v st' hready h
  unfold CompileM.expr at h
  obtain ⟨stmt, st₁, hstmt, hsub⟩ := ok_of_bind h
  obtain ⟨t, ht, htype⟩ := hq env st stmt st₁ hready hstmt
  unfold subquery at hsub
  obtain ⟨u, st₂, hu, hsub⟩ := ok_of_bind hsub
  obtain ⟨hu, rfl⟩ := ok_of_typeOf hu
  rw [htype] at hu
  cases hu
  obtain ⟨id, st₃, hid, hpure⟩ := ok_of_bind hsub
  obtain ⟨rfl, rfl⟩ := ok_of_pure hpure
  exact ⟨t, ht, type?_of_newComputed hid⟩

-- ======================================================= by recursion

mutual

theorem expr : (e : Expr) → Infers κ R e
  | .constant value _ => fun _ _ _ _ _ h => by
      obtain ⟨rfl, rfl⟩ := ok_of_pure h
      exact ⟨value.type, rfl, rfl⟩
  | .emptySet _ => fun _ _ _ _ _ h => by
      obtain ⟨rfl, rfl⟩ := ok_of_pure h
      exact ⟨.empty, rfl, rfl⟩
  | .path _ => pathExpr
  | .binary l _ r _ => binaryExpr (expr l) (expr r)
  | .unary _ operand _ => unaryExpr (expr operand)
  | .call _ args _ => callExpr (arguments args)
  | .cast _ _ _ => castExpr
  | .set elements _ => setExpr (exprs elements)
  | .select q => selectExpr (select q)
  | .paren inner _ => expr inner
termination_by structural e => e

theorem exprs : (es : List Expr) → InfersAll κ R es
  | [] => fun _ _ _ _ _ h => by
      obtain ⟨rfl, rfl⟩ := ok_of_pure h
      exact ⟨[], rfl, .nil⟩
  | e :: es => exprsCons (expr e) (exprs es)
termination_by structural es => es

theorem arguments : (args : List Expr) → InfersArguments κ R args
  | [] => argumentsNil
  | e :: args => argumentsCons (expr e) (arguments args)
termination_by structural args => args

theorem select : (q : Select) → InfersSelect κ R q
  | ⟨_, result, _, _, _, _, _, _, _⟩ => selectOf (expr result)
termination_by structural q => q

end

end Infers

/-- The value of an expression has the type that is read off the
expression. -/
theorem type?_of_expr (hr : env.Ready R st) {e : Expr} {v : Value}
    (h : (expr e).run env st = (.ok v, st')) :
    ∃ t, e.type? env.lexicon (env.subjectType? st) = some t
      ∧ st'.valueType? v = some t :=
  Infers.expr e env st v st' hr h

end CompileM

end

end PathQuery
