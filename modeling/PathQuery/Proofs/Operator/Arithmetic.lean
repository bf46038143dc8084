/-
What arithmetic gives.

A binary operator computes with integers if both operands are integers,
and with floats otherwise (`Schema.computes`); operands that are not of
that family already are cast to it, and the result has the built-in type
of the family, whatever types the operands extend it by.

Negation changes no number and no type: the result has the type of the
operand, which may be one that extends the built-in type of its family.
-/
import PathQuery.Proofs.Operator.Comparison

namespace PathQuery

open Ast (Expr)
open Ir

section

variable {κ : Type} [NameDigest]

-- =============================================================== types

/-- The type of an operand beside one of another type, which an untyped
empty set takes. -/
def TypeId.beside (t u : TypeId) : TypeId := if t.isEmpty then u else t

namespace Schema

variable {s : Schema} {t u : TypeId}

omit [NameDigest] in
/-- The family that operands of some types are computed in. -/
def computes (s : Schema) (types : List TypeId) : ScalarKind :=
  if types.all fun t => s.scalarKind? t == some .int then .int else .float

omit [NameDigest] in
theorem computes_pair (s : Schema) (t u : TypeId) : s.computes [t, u]
    = if s.scalarKind? t = some .int ∧ s.scalarKind? u = some .int then .int
      else .float := by
  simp [computes]

omit [NameDigest] in
/-- What operands are attached at is their own type, or each other's. -/
theorem attached_operandHints (s : Schema) (t u : TypeId) :
    s.attached t (CompileM.operandHints t u).1 = t.beside u
      ∧ s.attached u (CompileM.operandHints t u).2 = u.beside t := by
  unfold CompileM.operandHints attached TypeId.beside
  cases ht : t.isEmpty with
  | false => cases u.isEmpty <;> simp
  | true =>
      cases hu : u.isEmpty with
      | false => simp
      | true =>
          obtain rfl := TypeId.isEmpty_iff.1 ht
          obtain rfl := TypeId.isEmpty_iff.1 hu
          simp

omit [NameDigest] in
theorem isNumeric_iff : s.isNumeric t = true
    ↔ s.scalarKind? t = some .int ∨ s.scalarKind? t = some .float := by
  unfold isNumeric
  cases s.scalarKind? t with
  | none => simp
  | some k => cases k <;> simp [ScalarKind.isNumeric]

omit [NameDigest] in
/-- A number is computed with as what it is. -/
theorem computes_single (h : s.isNumeric t = true) :
    s.scalarKind? t = some (s.computes [t]) := by
  unfold computes
  rcases isNumeric_iff.1 h with hk | hk
  · simp [hk]
  · simp [hk]

end Schema

/-- The family of a set. -/
def Store.kind? (st : Store κ) (s : Schema) (id : SetId) : Option ScalarKind :=
  (st.arena.type? id).bind s.scalarKind?

omit [NameDigest] in
theorem Store.kind?_of_type? {st : Store κ} {s : Schema} {id : SetId} {t : TypeId}
    (h : st.arena.type? id = some t) : st.kind? s id = s.scalarKind? t := by
  unfold kind?
  rw [h, Option.bind_some]

namespace CompileM

variable {R : Regime} {env : Env} {st st' : Store κ} {id id' l r : SetId}
  {t u target : TypeId} {v w x : Value} {op : BinaryOp} {span : Span}

-- ============================================================ operands

omit [NameDigest] in
/-- An operand that was converted has the type wanted if it was cast. -/
theorem type?_of_convertOperand
    (h : (convertOperand id target).run env st = (.ok id', st'))
    (hid : st.arena.type? id = some t) :
    st'.arena.type? id' = some (env.schema.converted t target) := by
  obtain ⟨node, hn, rfl⟩ := Arena.type?_eq_some_iff.1 hid
  unfold convertOperand at h
  rw [run_bind_ok (run_typeOf hn), run_bind_ok run_schema] at h
  unfold Schema.converted
  split at h
  · next hconv =>
      rw [if_pos hconv]
      exact type?_of_castSet h
  · next hconv =>
      rw [if_neg hconv]
      obtain ⟨rfl, rfl⟩ := ok_of_pure h
      exact hid

/-- Both operands end up in the family that is computed in, and the result
has its built-in type. -/
theorem kinds_of_arithmetic [DecidableEq κ] [PathKey κ] {mismatch : CompileError}
    {out : SetId × SetId × TypeId} (hcoh : env.schema.Coherent)
    (hl : st.arena.type? l = some t) (hr : st.arena.type? r = some u)
    (h : (arithmetic l r mismatch).run env st = (.ok out, st')) :
    out.2.2 = (env.schema.computes [t, u]).root
      ∧ st'.kind? env.schema out.1 = some (env.schema.computes [t, u])
      ∧ st'.kind? env.schema out.2.1 = some (env.schema.computes [t, u]) := by
  obtain ⟨n, hn, rfl⟩ := Arena.type?_eq_some_iff.1 hl
  obtain ⟨m, hm, rfl⟩ := Arena.type?_eq_some_iff.1 hr
  rw [Schema.computes_pair]
  unfold arithmetic at h
  rw [run_bind_ok run_schema, run_bind_ok (run_typeOf hn),
    run_bind_ok (run_typeOf hm)] at h
  split at h
  · next hint hint' =>
      obtain ⟨rfl, rfl⟩ := ok_of_pure h
      rw [if_pos ⟨hint, hint'⟩, Store.kind?_of_type? hl, Store.kind?_of_type? hr]
      exact ⟨rfl, hint, hint'⟩
  · next k k' hnot hk hk' =>
      obtain ⟨_, mid, hcheck, h⟩ := ok_of_bind h
      have hnum := (ok_of_require hcheck).1
      obtain rfl := (ok_of_require hcheck).2.symm
      rw [Bool.and_eq_true] at hnum
      obtain ⟨a, mid, ha, h⟩ := ok_of_bind h
      obtain ⟨b, mid', hb, h⟩ := ok_of_bind h
      obtain ⟨rfl, rfl⟩ := ok_of_pure h
      have hmixed : ¬(env.schema.scalarKind? n.type = some .int
          ∧ env.schema.scalarKind? m.type = some .int) := by
        rintro ⟨hint, hint'⟩
        rw [hk] at hint
        rw [hk'] at hint'
        exact hnot (Option.some.inj hint) (Option.some.inj hint')
      have hfloat : ∀ {type kind}, env.schema.scalarKind? type = some kind →
          kind.isNumeric = true → env.schema.scalarKind?
            (env.schema.converted type TypeId.float) = some .float := by
        intro type kind htype hkind
        refine hcoh.scalarKind?_converted ?_
        unfold Schema.isNumeric
        rw [htype]
        exact hkind
      -- the left operand keeps its type while the right one is converted
      have hext := Growing.grows (m := convertOperand r TypeId.float) env mid
      rw [hb] at hext
      have hext' := Growing.grows (m := convertOperand l TypeId.float) env st
      rw [ha] at hext'
      have hta := hext.type? (type?_of_convertOperand ha hl)
      have htb := type?_of_convertOperand hb (hext'.type? hr)
      rw [if_neg hmixed, Store.kind?_of_type? hta, Store.kind?_of_type? htb]
      exact ⟨rfl, hfloat hk hnum.1, hfloat hk' hnum.2⟩
  · cases h

-- ============================================================ operations

/-- Two operands of an arithmetic operator are computed with in one
family. -/
theorem calculated_of_binary [DecidableEq κ] [PathKey κ]
    (hr : env.Ready R st) (hcoh : env.schema.Coherent)
    (hop : op.isArithmetic = true)
    (hv : st.Offers R env.schema env.frame.scope v t)
    (hw : st.Offers R env.schema env.frame.scope w u)
    (h : (binary op v w span).run env st = (.ok x, st')) :
    ∃ l r c, x = .pending ⟨.binary l op r,
        (env.schema.computes [t.beside u, u.beside t]).root, c, span⟩
      ∧ st'.kind? env.schema l
        = some (env.schema.computes [t.beside u, u.beside t])
      ∧ st'.kind? env.schema r
        = some (env.schema.computes [t.beside u, u.beside t]) := by
  obtain ⟨hlogical, hcomparison, hconcat⟩ := BinaryOp.ne_of_isArithmetic hop
  unfold binary at h
  obtain ⟨⟨l, r⟩, mid, hattach, h⟩ := ok_of_bind h
  obtain ⟨t', u', ht, hu, hsame⟩ := types?_of_attachOperands hr hv hw hattach
  obtain ⟨rfl, rfl⟩ := hsame hlogical
  obtain ⟨hleft, hright⟩ := Schema.attached_operandHints env.schema t u
  rw [hleft] at ht
  rw [hright] at hu
  obtain ⟨⟨l', r', type⟩, mid', htyped, h⟩ := ok_of_bind h
  obtain ⟨n, hn, hnt⟩ := Arena.type?_eq_some_iff.1 ht
  obtain ⟨m, hm, hmu⟩ := Arena.type?_eq_some_iff.1 hu
  unfold typeBinary at htyped
  rw [run_bind_ok run_schema, run_bind_ok (run_typeOf hn),
    run_bind_ok (run_typeOf hm), hlogical, hcomparison, if_neg Bool.false_ne_true]
    at htyped
  obtain ⟨_, _, hcheck, htyped⟩ := ok_of_bind htyped
  obtain rfl := (ok_of_require hcheck).2.symm
  rw [if_neg Bool.false_ne_true, if_neg hconcat] at htyped
  obtain ⟨htype, hkind, hkind'⟩ := kinds_of_arithmetic hcoh ht hu htyped
  obtain ⟨c, _, hc, h⟩ := ok_of_bind h
  obtain rfl := (ok_of_judge hc).2.symm
  obtain ⟨d, _, hd, h⟩ := ok_of_bind h
  obtain rfl := (ok_of_judge hd).2.symm
  obtain ⟨rfl, rfl⟩ := ok_of_pure h
  dsimp only at htype hkind hkind'
  rw [htype]
  exact ⟨l', r', _, rfl, hkind, hkind'⟩

omit [NameDigest] in
/-- A number that is negated is computed with as what it is, and keeps its
type. -/
theorem calculated_of_neg (hv : st.valueType? v = some t)
    (h : (arithmeticNeg v span).run env st = (.ok x, st')) :
    ∃ y c, x = .pending ⟨.unary .neg y, t, c, span⟩
      ∧ env.schema.scalarKind? t = some (env.schema.computes [t])
      ∧ st'.kind? env.schema y = some (env.schema.computes [t]) := by
  unfold arithmeticNeg at h
  obtain ⟨y, mid, hattach, h⟩ := ok_of_bind h
  have hy := type?_of_attach hattach hv
  obtain ⟨n, hn, hnt⟩ := Arena.type?_eq_some_iff.1 hy
  rw [run_bind_ok run_schema, run_bind_ok (run_typeOf hn), hnt] at h
  obtain ⟨_, _, hcheck, h⟩ := ok_of_bind h
  obtain rfl := (ok_of_require hcheck).2.symm
  obtain ⟨_, _, hcheck, h⟩ := ok_of_bind h
  have hnum := (ok_of_require hcheck).1
  obtain rfl := (ok_of_require hcheck).2.symm
  obtain ⟨c, _, hc, h⟩ := ok_of_bind h
  obtain rfl := (ok_of_judge hc).2.symm
  obtain ⟨rfl, rfl⟩ := ok_of_pure h
  have hkind := Schema.computes_single hnum
  exact ⟨y, c, rfl, hkind, (Store.kind?_of_type? hy).trans hkind⟩

end CompileM

-- ============================================================= sessions

namespace Session

open CompileM

variable [DecidableEq κ] [PathKey κ]

/-- An arithmetic operator computes with integers if its operands are
integers, else with floats. The result of a binary one has the built-in
type of that family, and the result of a negation the type of the operand,
which extends it. -/
theorem Reachable.arithmetic_typed {lexical : Prop} {s : Session κ}
    (hs : Reachable lexical s) (hbuilt : Registry.builtin.Builds s.schema)
    (hapart : s.schema.Apart) :
    (∀ op a b span x s', op.isArithmetic = true →
      s.step (expr (.binary a op b span)) = (.ok x, s') →
        ∃ v sa w sb t u l r c k, s.step (expr a) = (.ok v, sa)
          ∧ sa.step (expr b) = (.ok w, sb)
          ∧ sa.store.valueType? v = some t ∧ sb.store.valueType? w = some u
          ∧ k = s.schema.computes [t.beside u, u.beside t]
          ∧ x = .pending ⟨.binary l op r, k.root, c, span⟩
          ∧ s'.store.kind? s.schema l = some k
          ∧ s'.store.kind? s.schema r = some k)
      ∧ ∀ a span x s', s.step (expr (.unary .neg a span)) = (.ok x, s') →
        ∃ v sa t y c k, s.step (expr a) = (.ok v, sa)
          ∧ sa.store.valueType? v = some t ∧ k = s.schema.computes [t]
          ∧ x = .pending ⟨.unary .neg y, t, c, span⟩
          ∧ s'.store.kind? s.schema y = some k
          ∧ s.schema.isSubtype t k.root = true := by
  have hready := hs.ready.active
  refine ⟨fun op a b span x s' hop h => ?_, fun a span x s' h => ?_⟩
  · obtain ⟨hrun, -⟩ := run_of_step h
    unfold expr at hrun
    obtain ⟨v, sa, ha, hrun⟩ := ok_of_bind hrun
    obtain ⟨w, sb, hb, hrun⟩ := ok_of_bind hrun
    obtain ⟨hra, -⟩ := (Upholds.expr a _ _).kept hready ha
    obtain ⟨hrb, hext⟩ := (Upholds.expr b _ _).kept hra hb
    obtain ⟨t, hv⟩ := (Upholds.expr a _ _).returned hready ha
    obtain ⟨u, hw⟩ := (Upholds.expr b _ _).returned hra hb
    obtain ⟨l, r, c, hx, hl, hr⟩ := calculated_of_binary hrb
      (hbuilt.coherent hapart) hop (hv.mono hext hra.active) hw hrun
    exact ⟨v, _, w, _, t, u, l, r, c, _, step_of_run ha, step_of_run hb,
      valueType?_of_offers hv, valueType?_of_offers hw, rfl, hx, hl, hr⟩
  · obtain ⟨hrun, -⟩ := run_of_step h
    unfold expr at hrun
    obtain ⟨v, sa, ha, hrun⟩ := ok_of_bind hrun
    obtain ⟨t, hv⟩ := (Upholds.expr a _ _).returned hready ha
    obtain ⟨y, c, hx, hkind, hy⟩ :=
      calculated_of_neg (valueType?_of_offers hv) hrun
    exact ⟨v, _, t, y, c, _, step_of_run ha, valueType?_of_offers hv, rfl, hx, hy,
      hbuilt.isSubtype_root hapart hkind⟩

end Session

end

-- ============================================================= examples

open scoped Xxh64
open Declaration (typeNamed)

/-- A scalar that extends a built-in one. -/
def ages : List Declaration := [.scalar "default::Age" "std::int"]

/-- A session that has not begun. -/
def beforeAges : Session PathId := .start (Registry.builtin.schemaOf ages) {}

theorem schema_beforeAges :
    beforeAges.schema = Registry.builtin.schemaOf ages := by
  unfold beforeAges
  rw [Session.schema_start]

/-- A number as an age, and another one that is none. -/
def oneYear : Expr := Ast.Build.run do
  Ast.Build.cast "default::Age" (← Ast.Build.constant (.int 1))

def half : Expr :=
  Ast.Build.run (Ast.Build.constant (.float ⟨0x3fe0000000000000⟩))

/-- What is computed of them. -/
theorem ages_checks :
    ((Registry.builtin.declareAll ages).bind Registry.build).isOk = true
      ∧ ((Registry.builtin.schemaOf ages).names.entries.map Prod.snd).Nodup
      ∧ (∀ e ∈ (Registry.builtin.schemaOf ages).names.entries, e.2 ≠ .empty)
      ∧ beforeAges.typeOf? (CompileM.expr oneYear) = some (typeNamed "default::Age")
      ∧ (beforeAges.step (CompileM.expr oneYear)).2.typeOf? (CompileM.expr half)
        = some TypeId.float
      ∧ beforeAges.typeOf? (CompileM.expr (.binary oneYear .add half .unknown))
        = some TypeId.float
      ∧ (Registry.builtin.schemaOf ages).computes
        [(typeNamed "default::Age").beside TypeId.float,
          TypeId.float.beside (typeNamed "default::Age")] = .float
      ∧ beforeAges.typeOf? (CompileM.expr (.unary .neg oneYear .unknown))
        = some (typeNamed "default::Age")
      ∧ (Registry.builtin.schemaOf ages).scalarKind? (typeNamed "default::Age")
        = some .int
      ∧ typeNamed "default::Age" ≠ TypeId.int := by
  decide +kernel

theorem arithmetic_typed_ages : ∃ s' l r c,
    beforeAges.step (CompileM.expr (.binary oneYear .add half .unknown))
        = (.ok (.pending ⟨.binary l .add r, TypeId.float, c, .unknown⟩), s')
      ∧ s'.store.kind? beforeAges.schema l = some .float
      ∧ s'.store.kind? beforeAges.schema r = some .float := by
  obtain ⟨hbuilt, hnodup, -, hage, hhalf, hsum, hfloat, -⟩ := ages_checks
  have hb : Registry.builtin.Builds beforeAges.schema := by
    rw [schema_beforeAges]
    exact Registry.builds_schemaOf hbuilt
  have hapart : beforeAges.schema.Apart := by
    rw [schema_beforeAges]
    exact Schema.apart_of_nodup hnodup
  have hreach : Session.Reachable True beforeAges := by
    unfold beforeAges
    exact ⟨_, _, .refl⟩
  obtain ⟨x, h, -⟩ := Session.exists_step_of_typeOf? hsum
  obtain ⟨hbinary, -⟩ := Session.Reachable.arithmetic_typed hreach hb hapart
  obtain ⟨v, sa, w, sb, t, u, l, r, c, k, ha, hw, ht, hu, hk, rfl, hl, hr⟩ :=
    hbinary .add oneYear half .unknown x _ rfl h
  obtain rfl : typeNamed "default::Age" = t :=
    Option.some.inj (hage.symm.trans ((Session.typeOf?_of_step ha).trans ht))
  rw [ha] at hhalf
  obtain rfl : TypeId.float = u :=
    Option.some.inj (hhalf.symm.trans ((Session.typeOf?_of_step hw).trans hu))
  rw [schema_beforeAges, hfloat] at hk
  subst hk
  exact ⟨_, l, r, c, h, hl, hr⟩

/-- The negation of an age is an age, though an age is an integer. -/
theorem neg_mistyped_ages :
    Session.Reachable True beforeAges
      ∧ Registry.builtin.Builds beforeAges.schema ∧ beforeAges.schema.Apart
      ∧ beforeAges.schema.Proper
      ∧ beforeAges.typeOf? (CompileM.expr oneYear) = some (typeNamed "default::Age")
      ∧ beforeAges.schema.scalarKind? (typeNamed "default::Age") = some .int
      ∧ beforeAges.typeOf? (CompileM.expr (.unary .neg oneYear .unknown))
        = some (typeNamed "default::Age")
      ∧ typeNamed "default::Age" ≠ TypeId.int := by
  obtain ⟨hbuilt, hnodup, hproper, hage, -, -, -, hneg, hkind, hne⟩ := ages_checks
  rw [schema_beforeAges]
  refine ⟨?_, Registry.builds_schemaOf hbuilt, Schema.apart_of_nodup hnodup,
    Schema.proper_of_forall hproper, hage, hkind, hneg, hne⟩
  unfold beforeAges
  exact ⟨_, _, .refl⟩

end PathQuery
