/-
Which operands can be compared.

Scalars should be comparable if they have a scalar type in common, and
objects, by = and != only, if one of the two types extends the other
(`Schema.Compares`). A comparison asks for a common type and nothing
else, and that is not the same. Objects always have one, since they all
extend `std::Object`, so any two of them are accepted by = and !=; and of
siblings no common type is found, so these are refused
(`Session.Reachable.comparison_iff`). Elsewhere the two agree.
-/
import PathQuery.Proofs.Operator.Operands
import PathQuery.Proofs.Schema.CommonType

namespace PathQuery

open Ast (Expr)
open Ir (Value)

section

-- =============================================================== types

namespace Schema

variable {s : Schema} {op : BinaryOp} {t u : TypeId}

/-- Two types that a comparison should take: scalars with a scalar type
in common, and for equality objects of which one extends the other. -/
def Compares (s : Schema) (op : BinaryOp) (t u : TypeId) : Prop :=
  (s.isObject t = false ∧ s.isObject u = false
      ∧ ∃ c, s.isObject c = false ∧ s.Common t u c)
    ∨ (s.isObject t = true ∧ s.isObject u = true ∧ op.isEquality = true
      ∧ (s.isSubtype t u = true ∨ s.isSubtype u t = true))

variable [NameDigest]

/-- A comparison of typed operands is a matter of their common type. -/
theorem operates_comparison_iff (hop : op.isComparison = true)
    (ht : t ≠ .empty) (hu : u ≠ .empty) :
    s.Operates op t u
      ↔ (!(s.isObject t || s.isObject u) || op.isEquality) = true
        ∧ (s.commonType? t u).isSome = true := by
  have hlogical := BinaryOp.isLogical_of_isComparison hop
  have hempty : ∀ x : TypeId, x ≠ .empty → x.isEmpty = false := by
    intro x hx
    cases hx' : x.isEmpty with
    | false => rfl
    | true => exact absurd (TypeId.isEmpty_iff.1 hx') hx
  -- operands with types of their own are attached at no other
  have hwants : wants op t u = (none, none) := by
    unfold wants CompileM.operandHints
    rw [hlogical, hempty t ht, hempty u hu]
    rfl
  have htakes : s.Takes op t u
      ↔ (!(s.isObject t || s.isObject u) || op.isEquality) = true
        ∧ (s.commonType? t u).isSome = true := by
    unfold Takes
    rw [if_pos hop, hlogical]
    simp
  constructor
  · intro h
    have htakes' := h.takes
    rw [hwants] at htakes'
    exact htakes.1 htakes'
  · intro h
    refine ⟨?_, ?_, ?_⟩
    all_goals rw [hwants]
    · exact ht
    · exact hu
    · exact htakes.2 h

end Schema

variable [NameDigest] {s : Schema} {op : BinaryOp} {t u : TypeId}

/-- What a comparison takes, and what it should. -/
theorem Registry.Builds.operates_iff_compares (h : builtin.Builds s)
    (ha : s.Apart) (hp : s.Proper) (hop : op.isComparison = true)
    (ht : s.isRegistered t = true) (hu : s.isRegistered u = true) :
    s.Operates op t u ↔ (s.Compares op t u ∧ ¬s.Siblings t u)
      ∨ (s.isObject t = true ∧ s.isObject u = true ∧ op.isEquality = true) := by
  have hordered := h.ordered builtin_reached.1 ha
  have hne : ∀ x, s.isRegistered x = true → x ≠ .empty := fun x hx =>
    h.ne_empty builtin_reached.1 hp hx
  rw [Schema.operates_comparison_iff hop (hne t ht) (hne u hu),
    Schema.isSome_commonType?_iff hordered ht]
  -- operands with a type in common are both objects or both scalars
  have hsame : ∀ c, s.Common t u c → s.isObject t = s.isObject u := fun c hc =>
    (hc.isObject_eq hordered).1.symm.trans (hc.isObject_eq hordered).2
  constructor
  · rintro ⟨heq, ⟨c, hc⟩, hno⟩
    cases htobj : s.isObject t with
    | true =>
        have huobj := (hsame c hc).symm.trans htobj
        rw [htobj, Bool.true_or, Bool.not_true, Bool.false_or] at heq
        exact Or.inr ⟨rfl, huobj, heq⟩
    | false =>
        have huobj := (hsame c hc).symm.trans htobj
        have hcobj := (hc.isObject_eq hordered).1.trans htobj
        exact Or.inl ⟨Or.inl ⟨htobj, huobj, c, hcobj, hc⟩, hno⟩
  · have hobjects : s.isObject t = true → s.isObject u = true →
        op.isEquality = true →
        (!(s.isObject t || s.isObject u) || op.isEquality) = true
          ∧ (∃ c, s.Common t u c) ∧ ¬s.Siblings t u := by
      intro htobj huobj heq
      refine ⟨by rw [heq, Bool.or_true],
        ⟨_, h.common_of_objects ha htobj huobj⟩, fun hsiblings => ?_⟩
      cases hsiblings.not_isObject.1.symm.trans htobj
    rintro (⟨⟨htobj, huobj, c, -, hc⟩ | ⟨htobj, huobj, heq, -⟩, hno⟩
      | ⟨htobj, huobj, heq⟩)
    · exact ⟨by rw [htobj, huobj]; rfl, ⟨c, hc⟩, hno⟩
    · exact hobjects htobj huobj heq
    · exact hobjects htobj huobj heq

-- ============================================================ operands

variable {κ : Type} [DecidableEq κ] [PathKey κ]

omit [DecidableEq κ] [PathKey κ] in
/-- A value is counted. -/
theorem Store.Offers.exists_valueCount? {R : Regime} {st : Store κ} {v : Value}
    {scope : ScopeId} (h : st.Offers R s scope v t) :
    ∃ c, st.valueCount? scope v = some c := by
  cases v with
  | set id => exact Holds.exists_judge? h scope
  | pending p => exact ⟨p.cardinality, rfl⟩

namespace CompileM

variable {R : Regime} {env : Env} {st sa sb : Store κ} {a b : Expr} {v w : Value}
  {span : Span}

/-- Whether compiled operands combine is a matter of their types. -/
theorem binaryExpr_succeeds_iff (hr : env.Ready R st)
    (ha : (expr a).run env st = (.ok v, sa))
    (hb : (expr b).run env sa = (.ok w, sb)) (hv : sa.valueType? v = some t)
    (hw : sb.valueType? w = some u) :
    (expr (.binary a op b span)).Succeeds env st
      ↔ env.schema.Operates op t u := by
  obtain ⟨hra, -⟩ := (Upholds.expr a env st).kept hr ha
  obtain ⟨hrb, hext⟩ := (Upholds.expr b env sa).kept hra hb
  obtain ⟨t', hv'⟩ := (Upholds.expr a env st).returned hr ha
  obtain ⟨u', hw'⟩ := (Upholds.expr b env sa).returned hra hb
  rw [valueType?_of_offers hv'] at hv
  rw [valueType?_of_offers hw'] at hw
  cases hv
  cases hw
  have hv'' := hv'.mono hext hra.active
  obtain ⟨c, hc⟩ := hv''.exists_valueCount?
  obtain ⟨d, hd⟩ := hw'.exists_valueCount?
  unfold expr Succeeds
  rw [run_bind_ok ha, run_bind_ok hb]
  exact binary_succeeds_iff hrb hv'' hw' hc hd

end CompileM

namespace Session

open CompileM

omit [NameDigest] [DecidableEq κ] [PathKey κ] in
/-- A step of a session is a run from its store. -/
theorem step_of_run {α : Type} {s : Session κ} {m : CompileM κ α}
    {out : Except CompileError α} {st : Store κ}
    (h : m.run s.env s.store = (out, st)) :
    s.step m = (out, { s with store := st }) := by
  unfold step
  rw [h]

omit [NameDigest] [DecidableEq κ] [PathKey κ] in
theorem exists_step_iff {α : Type} {s : Session κ} {m : CompileM κ α} :
    (∃ x s', s.step m = (.ok x, s')) ↔ m.Succeeds s.env s.store := by
  constructor
  · rintro ⟨x, s', h⟩
    exact ⟨x, s'.store, (run_of_step h).1⟩
  · rintro ⟨x, st, h⟩
    exact ⟨x, _, step_of_run h⟩

omit [DecidableEq κ] [PathKey κ] [NameDigest] in
theorem typeOf?_of_step {s s' : Session κ} {m : CompileM κ Value} {v : Value}
    (h : s.step m = (.ok v, s')) : s.typeOf? m = s'.store.valueType? v := by
  unfold typeOf?
  rw [h]

omit [DecidableEq κ] [PathKey κ] [NameDigest] in
/-- A step that gives something of a type gives a value of that type. -/
theorem exists_step_of_typeOf? {s : Session κ} {m : CompileM κ Value}
    (h : s.typeOf? m = some t) :
    ∃ v, s.step m = (.ok v, (s.step m).2)
      ∧ (s.step m).2.store.valueType? v = some t := by
  cases hstep : s.step m with
  | mk out s' =>
      cases out with
      | error e =>
          unfold typeOf? at h
          rw [hstep] at h
          cases h
      | ok v => exact ⟨v, rfl, (typeOf?_of_step hstep).symm.trans h⟩

/-- A comparison of operands that have types is accepted where the types
compare, siblings apart, which compare and are refused; and any two
objects are accepted by = and !=. -/
theorem Reachable.comparison_iff {lexical : Prop} {s sa sb : Session κ}
    {a b : Expr} {v w : Value} (hs : Reachable lexical s)
    (hbuilt : Registry.builtin.Builds s.schema) (hapart : s.schema.Apart)
    (hproper : s.schema.Proper) (hop : op.isComparison = true)
    (ha : s.step (expr a) = (.ok v, sa)) (hb : sa.step (expr b) = (.ok w, sb))
    (hv : sa.store.valueType? v = some t) (hw : sb.store.valueType? w = some u)
    (ht : s.schema.isRegistered t = true) (hu : s.schema.isRegistered u = true)
    (span : Span) :
    ((∃ x s', s.step (expr (.binary a op b span)) = (.ok x, s'))
        ↔ (s.schema.Compares op t u ∧ ¬s.schema.Siblings t u)
          ∨ (s.schema.isObject t = true ∧ s.schema.isObject u = true
            ∧ op.isEquality = true))
      ∧ (s.schema.Siblings t u → s.schema.Compares op t u) := by
  obtain ⟨hrun, henv⟩ := run_of_step ha
  obtain ⟨hrun', -⟩ := run_of_step hb
  rw [henv] at hrun'
  refine ⟨?_, fun hsiblings => ?_⟩
  · rw [exists_step_iff, binaryExpr_succeeds_iff hs.ready.active hrun hrun' hv hw]
    exact hbuilt.operates_iff_compares hapart hproper hop ht hu
  · obtain ⟨k, hcommon⟩ := hbuilt.common_of_siblings hapart hsiblings
    obtain ⟨hkt, hku⟩ := hsiblings.not_isObject
    exact Or.inl ⟨hkt, hku, k.root,
      Schema.not_isObject_of_scalarKind? (hbuilt.scalarKind?_root hapart k), hcommon⟩

end Session

end

-- ============================================================= examples

open scoped Xxh64
open Declaration (typeNamed)

/-- A session that has not begun. -/
def beforeKin : Session PathId := .start kinSchema {}

theorem schema_beforeKin : beforeKin.schema = kinSchema := by
  unfold beforeKin
  rw [Session.schema_start]

theorem reachable_beforeKin : Session.Reachable True beforeKin := by
  unfold beforeKin
  exact ⟨_, _, .refl⟩

/-- A string. -/
def word : Expr := Ast.Build.run (Ast.Build.constant (.str "x"))

/-- It as a code and as a tag. -/
def codeWord : Expr := Ast.Build.run (Ast.Build.cast "default::Code" word)

def tagWord : Expr := Ast.Build.run (Ast.Build.cast "default::Tag" word)

/-- All members and all guests. -/
def members : Expr := Ast.Build.run do
  return .path (← Ast.Build.path "default::Member" [])

def guests : Expr := Ast.Build.run do
  return .path (← Ast.Build.path "default::Guest" [])

/-- What is computed of them. -/
theorem kin_operands :
    (beforeKin.typeOf? (CompileM.expr codeWord) = some (typeNamed "default::Code")
      ∧ (beforeKin.step (CompileM.expr codeWord)).2.typeOf? (CompileM.expr word)
        = some TypeId.str
      ∧ (beforeKin.step (CompileM.expr codeWord)).2.typeOf? (CompileM.expr tagWord)
        = some (typeNamed "default::Tag")
      ∧ (beforeKin.step (CompileM.expr (.binary codeWord .eq tagWord .unknown))).1.isOk
        = false)
    ∧ (beforeKin.typeOf? (CompileM.expr members) = some (typeNamed "default::Member")
      ∧ (beforeKin.step (CompileM.expr members)).2.typeOf? (CompileM.expr guests)
        = some (typeNamed "default::Guest")
      ∧ (beforeKin.step (CompileM.expr (.binary members .eq guests .unknown))).1.isOk
        = true)
    ∧ (kinSchema.isObject (typeNamed "default::Code") = false
      ∧ kinSchema.isObject (typeNamed "default::Tag") = false
      ∧ kinSchema.isObject TypeId.str = false
      ∧ kinSchema.isSubtype (typeNamed "default::Code") TypeId.str = true
      ∧ kinSchema.Common (typeNamed "default::Code") TypeId.str TypeId.str)
    ∧ kinSchema.isObject (typeNamed "default::Member") = true
      ∧ kinSchema.isSubtype (typeNamed "default::Member")
        (typeNamed "default::Guest") = false
      ∧ kinSchema.isSubtype (typeNamed "default::Guest")
        (typeNamed "default::Member") = false := by
  decide +kernel

theorem comparison_iff_word : ∃ x s',
    beforeKin.step (CompileM.expr (.binary codeWord .lt word .unknown))
      = (.ok x, s') := by
  obtain ⟨-, hnodup, hproper, -⟩ := kin_checks
  obtain ⟨⟨hcode, hword, -⟩, -, ⟨hobj, -, hobj', hsub, hcommon⟩, -⟩ := kin_operands
  obtain ⟨v, ha, hv⟩ := Session.exists_step_of_typeOf? hcode
  obtain ⟨w, hb, hw⟩ := Session.exists_step_of_typeOf? hword
  have hreg : kinSchema.isRegistered (typeNamed "default::Code") = true :=
    Schema.isRegistered_of_supertype hsub hcommon.1
  have hlt : BinaryOp.isComparison .lt = true := rfl
  have hnot : ¬kinSchema.Siblings (typeNamed "default::Code") TypeId.str := by
    intro h
    rw [h.2.1] at hsub
    cases hsub
  obtain ⟨hiff, -⟩ := reachable_beforeKin.comparison_iff
    (schema_beforeKin ▸ builds_kin)
    (schema_beforeKin ▸ Schema.apart_of_nodup hnodup)
    (schema_beforeKin ▸ Schema.proper_of_forall hproper) hlt ha hb hv hw
    (schema_beforeKin ▸ hreg) (schema_beforeKin ▸ hcommon.1) .unknown
  rw [schema_beforeKin] at hiff
  exact hiff.2 (Or.inl ⟨Or.inl ⟨hobj, hobj', _, hobj', hcommon⟩, hnot⟩)

/-- Two strings that should compare are refused, and objects that should not
are accepted. -/
theorem comparison_misjudges_kin :
    Session.Reachable True beforeKin
      ∧ Registry.builtin.Builds beforeKin.schema ∧ beforeKin.schema.Apart
      ∧ beforeKin.schema.Proper
      ∧ (beforeKin.typeOf? (CompileM.expr codeWord) = some (typeNamed "default::Code")
        ∧ (beforeKin.step (CompileM.expr codeWord)).2.typeOf? (CompileM.expr tagWord)
          = some (typeNamed "default::Tag")
        ∧ beforeKin.schema.Compares .eq (typeNamed "default::Code")
          (typeNamed "default::Tag")
        ∧ (beforeKin.step
          (CompileM.expr (.binary codeWord .eq tagWord .unknown))).1.isOk = false)
      ∧ beforeKin.typeOf? (CompileM.expr members) = some (typeNamed "default::Member")
        ∧ (beforeKin.step (CompileM.expr members)).2.typeOf? (CompileM.expr guests)
          = some (typeNamed "default::Guest")
        ∧ ¬beforeKin.schema.Compares .eq (typeNamed "default::Member")
          (typeNamed "default::Guest")
        ∧ (beforeKin.step
          (CompileM.expr (.binary members .eq guests .unknown))).1.isOk = true := by
  obtain ⟨-, hnodup, hproper, -, hstr, -⟩ := kin_checks
  obtain ⟨⟨hcode, -, htag, hrefused⟩, ⟨hmembers, hguests, haccepted⟩,
    ⟨hobj, hobj', hstrobj, -⟩, hmember, hsub, hsub'⟩ := kin_operands
  rw [schema_beforeKin]
  refine ⟨reachable_beforeKin, builds_kin, Schema.apart_of_nodup hnodup,
    Schema.proper_of_forall hproper, ⟨hcode, htag,
      Or.inl ⟨hobj, hobj', TypeId.str, hstrobj, hstr⟩, hrefused⟩,
    hmembers, hguests, ?_, haccepted⟩
  rintro (⟨hscalar, -⟩ | ⟨-, -, -, hext | hext⟩)
  · cases hmember.symm.trans hscalar
  · cases hsub.symm.trans hext
  · cases hsub'.symm.trans hext

end PathQuery
