/-
What a binary operator asks of its operands.

Whether operands combine is a matter of their types, whatever else the
store holds (`CompileM.binary_succeeds_iff`). They must be values that
can be attached, at a type if the operator wants one or the other side
offers one (`Schema.Attaches`), and the operator must take the types that
they have then (`Schema.Takes`). What they combine to has the cardinality
of both (`CompileM.pending_of_binary`).

None of this tells the left side from the right. A type that two types
have in common is found from either, though not always the same one; and
a comparison does not show which (`Schema.isSome_commonType?_comm`).
-/
import PathQuery.Proofs.Lead.Blind
import PathQuery.Proofs.Operator.ElementOrder

namespace PathQuery

open Ir

variable {κ α : Type}

-- =============================================================== types

namespace Schema

variable {s : Schema} {op : BinaryOp} {t u : TypeId}

/-- Two types have a type in common, in whichever order. -/
theorem isSome_commonType?_comm (s : Schema) (t u : TypeId) :
    (s.commonType? t u).isSome = (s.commonType? u t).isSome := by
  have himp : ∀ t u, (s.commonType? t u).isSome = true →
      (s.commonType? u t).isSome = true := by
    intro t u h
    obtain ⟨c, hc⟩ := Option.isSome_iff_exists.1 h
    rw [Option.isSome_iff_exists]
    rcases commonType?_cases hc with ⟨-, htu⟩ | ⟨-, hut⟩ | ⟨ht, hu, hmem, hsub⟩
    · obtain ⟨d, hd, -⟩ := exists_commonType?_of_converts (Or.inr htu)
      exact ⟨d, hd⟩
    · obtain ⟨d, hd, -⟩ := exists_commonType?_of_converts (Or.inl hut)
      exact ⟨d, hd⟩
    · unfold commonType?
      split
      · exact ⟨_, rfl⟩
      · split
        · exact ⟨_, rfl⟩
        · rw [hu, ht]
          exact exists_commonSupertype (isRegistered_of_isObject hu) hsub
            (isSubtype_of_mem_ancestors hmem)
  exact Bool.eq_iff_iff.2 ⟨himp t u, himp u t⟩

/-- A value of a type can be attached. -/
def Attaches (s : Schema) (t : TypeId) : Option TypeId → Prop
  | none => t ≠ .empty
  | some target => t = .empty ∨ s.Converts t target

variable [NameDigest]

/-- The types that the operands of an operator are attached at. -/
def wants (op : BinaryOp) (t u : TypeId) : Option TypeId × Option TypeId :=
  if op.isLogical then (some TypeId.bool, some TypeId.bool)
  else CompileM.operandHints t u

/-- An operator takes sets of two types. -/
def Takes (s : Schema) (op : BinaryOp) (t u : TypeId) : Prop :=
  op.isLogical = true ∨ (!(s.isObject t || s.isObject u) || op.isEquality) = true
    ∧ if op.isComparison then (s.commonType? t u).isSome = true
      else if op = .concat then s.scalarKind? t = some .str ∧ s.scalarKind? u = some .str
      else s.isNumeric t = true ∧ s.isNumeric u = true

/-- Values of two types combine. -/
structure Operates (s : Schema) (op : BinaryOp) (t u : TypeId) : Prop where
  left : s.Attaches t (wants op t u).1
  right : s.Attaches u (wants op t u).2
  takes : s.Takes op (s.attached t (wants op t u).1) (s.attached u (wants op t u).2)

theorem wants_swap (op : BinaryOp) (t u : TypeId) :
    wants op u t = ((wants op t u).2, (wants op t u).1) := by
  unfold wants
  split <;> rfl

omit [NameDigest] in
theorem Takes.symm (h : s.Takes op t u) : s.Takes op u t := by
  refine h.imp_right fun h => ?_
  rw [Bool.or_comm (s.isObject t), isSome_commonType?_comm s t u] at h
  refine ⟨h.1, ?_⟩
  have htakes := h.2
  split
  · next hop => rwa [if_pos hop] at htakes
  · next hop =>
      rw [if_neg hop] at htakes
      split
      · next hop =>
          rw [if_pos hop] at htakes
          exact htakes.symm
      · next hop =>
          rw [if_neg hop] at htakes
          exact htakes.symm

theorem Operates.symm (h : s.Operates op t u) : s.Operates op u t := by
  obtain ⟨hl, hr, htakes⟩ := h
  refine ⟨?_, ?_, ?_⟩
  · rw [wants_swap]
    exact hr
  · rw [wants_swap]
    exact hl
  · rw [wants_swap]
    exact htakes.symm

/-- The type of a binary operation is a matter of both operands alike. -/
theorem binaryType_comm (s : Schema) (op : BinaryOp) (t u : TypeId) :
    s.binaryType op t u = s.binaryType op u t := by
  have hresult : ∀ t u, s.resultType op t u = s.resultType op u t := by
    intro t u
    unfold resultType
    exact if_congr Iff.rfl rfl (if_congr Iff.rfl rfl (if_congr and_comm rfl rfl))
  exact hresult _ _

end Schema

-- =============================================================== counts

/-- The cardinality of a value, as seen from a node. -/
def Store.valueCount? (st : Store κ) (v : ScopeId) : Value → Option Cardinality
  | .set id => st.judge? v id
  | .pending p => some p.cardinality

namespace CompileM

variable {env : Env} {st st' : Store κ} {id id' x y x' y' : SetId} {t u type target : TypeId}
  {v w : Value} {hint : Option TypeId} {c d : Cardinality} {span : Span}

/-- A blind step that only adds sets leaves the others counted as they
were. -/
theorem Blind.judge?_eq {m : CompileM κ α} [Blind m] [Growing m]
    {out : Except CompileError α} (hr : st.scopes.Rooted)
    (hactive : env.frame.scope < st.scopes.size) (h : m.run env st = (out, st'))
    (hc : st.judge? env.frame.scope id = some c) :
    st'.judge? env.frame.scope id = some c := by
  have hscopes := Blind.scopes_eq (m := m) env st
  have harena := Growing.grows (m := m) env st
  rw [h] at hscopes harena
  obtain ⟨arena, scopes⟩ := st'
  subst hscopes
  have hext : st.Extends ⟨arena, st.scopes⟩ :=
    ⟨harena, hr, hr, Nat.le_refl _, fun _ _ => rfl⟩
  exact hext.judge?_eq hactive hc

theorem judge?_of_newComputed {op : Operation}
    (h : (newComputed op t c span).run env st = (.ok id, st')) :
    st'.judge? env.frame.scope id = some c :=
  st'.judge?_own (get?_of_newComputed h) rfl

theorem judge?_of_castSet {conversion : Conversion}
    (h : (castSet id target conversion).run env st = (.ok id', st'))
    (hc : st.judge? env.frame.scope id = some c) :
    st'.judge? env.frame.scope id' = some c := by
  obtain ⟨node, hn⟩ := Store.exists_get?_of_judge? hc
  unfold castSet at h
  rw [run_bind_ok (run_getSet hn), run_bind_ok (run_judge hc)] at h
  exact judge?_of_newComputed h

theorem judge?_of_coerce (h : (coerce id target).run env st = (.ok id', st'))
    (hc : st.judge? env.frame.scope id = some c) :
    st'.judge? env.frame.scope id' = some c := by
  obtain ⟨node, hn⟩ := Store.exists_get?_of_judge? hc
  unfold coerce at h
  rw [run_bind_ok (run_getSet hn), run_bind_ok run_schema] at h
  split at h
  · rw [run_bind_ok (run_judge hc)] at h
    exact judge?_of_newComputed h
  · split at h
    · obtain ⟨rfl, rfl⟩ := ok_of_pure h
      exact hc
    · obtain ⟨rfl, rfl⟩ := ok_of_pure h
      exact hc
    · exact judge?_of_castSet h hc
    · rw [run_bind_ok run_frame] at h
      cases h

/-- A value is counted as the set that it is attached as. -/
theorem judge?_of_attach (h : (attach v hint).run env st = (.ok id, st'))
    (hv : st.valueCount? env.frame.scope v = some c) :
    st'.judge? env.frame.scope id = some c := by
  unfold attach at h
  obtain ⟨x, mid, hsettle, hrest⟩ := ok_of_bind h
  have hx : mid.judge? env.frame.scope x = some c := by
    unfold settle at hsettle
    cases v with
    | set y =>
        obtain ⟨rfl, rfl⟩ := ok_of_pure hsettle
        exact hv
    | pending p =>
        cases hv
        dsimp only at hsettle
        split at hsettle
        · cases hint with
          | none => cases hsettle
          | some type => exact judge?_of_newComputed hsettle
        · exact judge?_of_newComputed hsettle
  cases hint with
  | some type => exact judge?_of_coerce hrest hx
  | none =>
      obtain ⟨node, mid', hget, hcheck⟩ := ok_of_bind hrest
      obtain ⟨-, rfl⟩ := ok_of_getSet hget
      split at hcheck
      · obtain ⟨_, _, hfail, -⟩ := ok_of_bind hcheck
        cases hfail
      · obtain ⟨rfl, rfl⟩ := ok_of_pure hcheck
        exact hx

-- =========================================================== acceptance

/-- A step ends well. -/
def Succeeds (m : CompileM κ α) (env : Env) (st : Store κ) : Prop :=
  ∃ a st', m.run env st = (.ok a, st')

section Succeeds

variable {β : Type} {m : CompileM κ α} {f : α → CompileM κ β}

theorem succeeds_bind : (m >>= f).Succeeds env st
    ↔ ∃ a mid, m.run env st = (.ok a, mid) ∧ (f a).Succeeds env mid := by
  constructor
  · intro h
    obtain ⟨b, st', h⟩ := h
    obtain ⟨a, mid, hm, hf⟩ := ok_of_bind h
    exact ⟨a, mid, hm, b, st', hf⟩
  · intro h
    obtain ⟨a, mid, hm, b, st', hf⟩ := h
    exact ⟨b, st', (run_bind_ok hm).trans hf⟩

/-- A sequence ends well if what it starts with does, and what follows
does whatever was returned. -/
theorem succeeds_bind_iff {P Q : Prop} (hm : m.Succeeds env st ↔ P)
    (hf : ∀ a mid, m.run env st = (.ok a, mid) → ((f a).Succeeds env mid ↔ Q)) :
    (m >>= f).Succeeds env st ↔ P ∧ Q := by
  rw [succeeds_bind, ← hm]
  constructor
  · intro h
    obtain ⟨a, mid, ha, hrest⟩ := h
    exact ⟨⟨a, mid, ha⟩, (hf a mid ha).1 hrest⟩
  · intro h
    obtain ⟨⟨a, mid, ha⟩, hQ⟩ := h
    exact ⟨a, mid, ha, (hf a mid ha).2 hQ⟩

theorem succeeds_read {a : α} (h : m.run env st = (.ok a, st)) :
    (m >>= f).Succeeds env st ↔ (f a).Succeeds env st := by
  unfold Succeeds
  rw [run_bind_ok h]

theorem succeeds_pure (a : α) : (pure a : CompileM κ α).Succeeds env st :=
  ⟨a, st, rfl⟩

/-- A sequence that goes on well in any case. -/
theorem succeeds_bind_of_forall
    (hf : ∀ a mid, m.run env st = (.ok a, mid) → (f a).Succeeds env mid) :
    (m >>= f).Succeeds env st ↔ m.Succeeds env st := by
  rw [succeeds_bind_iff Iff.rfl fun a mid ha => iff_true_intro (hf a mid ha)]
  exact and_iff_left trivial

theorem not_succeeds_fail (e : CompileError) : ¬ (fail e : CompileM κ α).Succeeds env st := by
  intro h
  obtain ⟨_, _, h⟩ := h
  cases h

theorem succeeds_require {b : Bool} {e : CompileError} {f : Unit → CompileM κ β} :
    (require b e >>= f).Succeeds env st ↔ b = true ∧ (f ()).Succeeds env st := by
  cases b with
  | true =>
      rw [succeeds_read (run_require true e env st)]
      simp
  | false =>
      refine iff_of_false (fun h => ?_) (by simp)
      obtain ⟨_, _, h, -⟩ := succeeds_bind.1 h
      cases h

theorem succeeds_orFail {o : Option α} {e : CompileError} :
    (orFail o e >>= f).Succeeds env st ↔ ∃ a, o = some a ∧ (f a).Succeeds env st := by
  cases o with
  | some a =>
      rw [succeeds_read (run_orFail (some a) e env st)]
      simp
  | none =>
      refine iff_of_false (fun h => ?_) (by simp)
      obtain ⟨_, _, h, -⟩ := succeeds_bind.1 h
      cases h

end Succeeds

/-- Only sets that convert to a type, or have none, are made to have it. -/
theorem converts_of_coerce (h : (coerce id target).run env st = (.ok id', st'))
    (hid : st.arena.type? id = some t) : t = .empty ∨ env.schema.Converts t target := by
  obtain ⟨node, hn, rfl⟩ := Arena.type?_eq_some_iff.1 hid
  unfold coerce at h
  rw [run_bind_ok (run_getSet hn), run_bind_ok run_schema] at h
  split at h
  · next hempty => exact Or.inl (TypeId.isEmpty_iff.1 hempty)
  · refine Or.inr ?_
    unfold Schema.Converts
    cases hconv : env.schema.conversion? node.type target with
    | some conversion => rfl
    | none =>
        rw [hconv, run_bind_ok run_frame] at h
        cases h

theorem castSet_succeeds {conversion : Conversion} (hid : st.arena.type? id = some t) :
    (castSet id target conversion).Succeeds env st := by
  obtain ⟨node, hn, -⟩ := Arena.type?_eq_some_iff.1 hid
  obtain ⟨c, hc⟩ := st.exists_judge? env.frame.scope hn
  unfold castSet
  rw [succeeds_read (run_getSet hn), succeeds_read (run_judge hc)]
  exact exists_run_newComputed _ _ _ _ _ _

theorem convertOperand_succeeds (env : Env) (target : TypeId)
    (hid : st.arena.type? id = some t) :
    (convertOperand id target).Succeeds env st := by
  obtain ⟨node, hn, rfl⟩ := Arena.type?_eq_some_iff.1 hid
  unfold convertOperand
  rw [succeeds_read (run_typeOf hn), succeeds_read run_schema]
  split
  · exact castSet_succeeds hid
  · exact succeeds_pure _

/-- Both operands at a common type. -/
theorem convertBoth_succeeds [DecidableEq κ] [PathKey κ] [NameDigest]
    (hx : st.arena.type? x = some t) (hy : st.arena.type? y = some u) :
    (do
      let a ← convertOperand x target
      let b ← convertOperand y target
      return (a, b, type) : CompileM κ _).Succeeds env st := by
  obtain ⟨a, mid, ha⟩ := convertOperand_succeeds env target hx
  have hext := Growing.grows (m := convertOperand x target) env st
  rw [ha] at hext
  refine succeeds_bind.2 ⟨a, mid, ha, succeeds_bind.2 ?_⟩
  obtain ⟨b, st', hb⟩ := convertOperand_succeeds env target (hext.type? hy)
  exact ⟨b, st', hb, succeeds_pure _⟩

variable {R : Regime} [DecidableEq κ] [PathKey κ] [NameDigest]

omit [DecidableEq κ] [PathKey κ] [NameDigest] in
theorem settle_succeeds (env : Env) (hv : st.valueType? v = some t) (hne : t ≠ .empty) :
    (settle v none).Succeeds env st := by
  unfold settle
  cases v with
  | set id => exact succeeds_pure _
  | pending p =>
      cases hv
      dsimp only
      rw [if_neg fun h => hne (TypeId.isEmpty_iff.1 h)]
      exact exists_run_newComputed _ _ _ _ _ _

/-- A value is attached if it has a type, or converts to the one that is
wanted. -/
theorem attach_succeeds_iff (hr : env.Ready R st)
    (ho : st.Offers R env.schema env.frame.scope v t)
    (hknown : ∀ type, hint = some type → R.known type) :
    (attach v hint).Succeeds env st ↔ env.schema.Attaches t hint := by
  have hv := valueType?_of_offers ho
  cases hint with
  | some target =>
      refine ⟨fun h => ?_, fun h => exists_run_attach hr ho (hknown _ rfl) h⟩
      obtain ⟨id, st', h⟩ := h
      obtain ⟨x, mid, hsettle, hcoerce⟩ := ok_of_bind h
      obtain ⟨u, hu, hor⟩ := type?_of_settle hsettle hv
      rcases hor with rfl | ⟨hempty, -⟩
      · exact converts_of_coerce hcoerce hu
      · exact Or.inl (TypeId.isEmpty_iff.1 hempty)
  | none =>
      refine ⟨fun h => ?_, fun hne => ?_⟩
      · obtain ⟨id, st', h⟩ := h
        obtain ⟨u, -, -, hnone⟩ := (Upholds.attach ho hknown).returned hr h
        exact (hnone rfl).2
      · obtain ⟨x, mid, hsettle⟩ := settle_succeeds env hv hne
        obtain ⟨u, hu, hor⟩ := type?_of_settle hsettle hv
        obtain ⟨node, hn, rfl⟩ := Arena.type?_eq_some_iff.1 hu
        have htype : ¬ node.type.isEmpty = true := by
          rcases hor with heq | ⟨-, hnone⟩
          · rw [heq]
            exact fun h => hne (TypeId.isEmpty_iff.1 h)
          · cases hnone
        unfold attach
        refine succeeds_bind.2 ⟨x, mid, hsettle, ?_⟩
        rw [succeeds_read (run_getSet hn), if_neg htype]
        exact succeeds_pure _

/-- Two values are attached one after the other. -/
theorem attachBoth_succeeds_iff {hint' : Option TypeId} (hr : env.Ready R st)
    (hv : st.Offers R env.schema env.frame.scope v t)
    (hw : st.Offers R env.schema env.frame.scope w u)
    (hknown : ∀ type, hint = some type → R.known type)
    (hknown' : ∀ type, hint' = some type → R.known type) :
    (do
      let a ← attach v hint
      let b ← attach w hint'
      return (a, b) : CompileM κ _).Succeeds env st
      ↔ env.schema.Attaches t hint ∧ env.schema.Attaches u hint' := by
  refine succeeds_bind_iff (attach_succeeds_iff hr hv hknown) fun a mid ha => ?_
  obtain ⟨hr', hext⟩ := (Upholds.attach hv hknown).kept hr ha
  rw [succeeds_bind_of_forall fun _ _ _ => succeeds_pure _]
  exact attach_succeeds_iff hr' (hw.mono hext hr.active) hknown'

/-- Operands are attached at the types that the operator wants. -/
theorem attachOperands_succeeds_iff {op : BinaryOp} (hr : env.Ready R st)
    (hv : st.Offers R env.schema env.frame.scope v t)
    (hw : st.Offers R env.schema env.frame.scope w u) :
    (attachOperands op v w).Succeeds env st
      ↔ env.schema.Attaches t (Schema.wants op t u).1
        ∧ env.schema.Attaches u (Schema.wants op t u).2 := by
  unfold attachOperands Schema.wants
  split
  · have hbool : ∀ type, some TypeId.bool = some type → R.known type := by
      intro type heq
      cases heq
      exact hr.suits.literal (.bool true)
    exact attachBoth_succeeds_iff hr hv hw hbool hbool
  · have hhint : ∀ type, (operandHints t u).1 = some type
        ∨ (operandHints t u).2 = some type → R.known type := by
      intro type htype
      rcases operandHints_cases htype with ⟨rfl, hne⟩ | ⟨rfl, hne⟩
      · exact (hw.known hr.sound).resolve_right hne
      · exact (hv.known hr.sound).resolve_right hne
    rw [succeeds_read (run_valueType hv), succeeds_read (run_valueType hw)]
    exact attachBoth_succeeds_iff hr hv hw (fun type h => hhint type (Or.inl h))
      fun type h => hhint type (Or.inr h)

theorem comparison_succeeds_iff {objects : Bool} {mismatch : CompileError}
    (hx : st.arena.type? x = some t) (hy : st.arena.type? y = some u) :
    (comparison x y objects mismatch).Succeeds env st
      ↔ (env.schema.commonType? t u).isSome = true := by
  obtain ⟨n, hn, rfl⟩ := Arena.type?_eq_some_iff.1 hx
  obtain ⟨m, hm, rfl⟩ := Arena.type?_eq_some_iff.1 hy
  unfold comparison
  rw [succeeds_read run_schema, succeeds_read (run_typeOf hn),
    succeeds_read (run_typeOf hm), succeeds_orFail, Option.isSome_iff_exists]
  refine exists_congr fun common => and_iff_left ?_
  cases objects with
  | true => exact succeeds_pure _
  | false => exact convertBoth_succeeds hx hy

theorem arithmetic_succeeds_iff {mismatch : CompileError}
    (hx : st.arena.type? x = some t) (hy : st.arena.type? y = some u) :
    (arithmetic x y mismatch).Succeeds env st
      ↔ env.schema.isNumeric t = true ∧ env.schema.isNumeric u = true := by
  obtain ⟨n, hn, rfl⟩ := Arena.type?_eq_some_iff.1 hx
  obtain ⟨m, hm, rfl⟩ := Arena.type?_eq_some_iff.1 hy
  unfold arithmetic Schema.isNumeric
  rw [succeeds_read run_schema, succeeds_read (run_typeOf hn),
    succeeds_read (run_typeOf hm)]
  split
  · next hint hint' =>
      rw [hint, hint']
      exact iff_of_true (succeeds_pure _) ⟨rfl, rfl⟩
  · next l r _ hl hr =>
      rw [hl, hr, Option.any_some, Option.any_some, succeeds_require, Bool.and_eq_true]
      exact and_iff_left (convertBoth_succeeds hx hy)
  · next hnone =>
      refine iff_of_false (not_succeeds_fail _) fun h => ?_
      obtain ⟨l, hl, -⟩ := (Option.any_eq_true _ _).1 h.1
      obtain ⟨r, hr, -⟩ := (Option.any_eq_true _ _).1 h.2
      exact hnone l r hl hr

omit [DecidableEq κ] [PathKey κ] in
theorem concatenation_succeeds_iff {mismatch : CompileError}
    (hx : st.arena.type? x = some t) (hy : st.arena.type? y = some u) :
    (concatenation x y mismatch).Succeeds env st
      ↔ env.schema.scalarKind? t = some .str ∧ env.schema.scalarKind? u = some .str := by
  obtain ⟨n, hn, rfl⟩ := Arena.type?_eq_some_iff.1 hx
  obtain ⟨m, hm, rfl⟩ := Arena.type?_eq_some_iff.1 hy
  unfold concatenation
  rw [succeeds_read run_schema, succeeds_read (run_typeOf hn),
    succeeds_read (run_typeOf hm)]
  split
  · next hl hr => exact iff_of_true (succeeds_pure _) ⟨hl, hr⟩
  · next hnone =>
      exact iff_of_false (not_succeeds_fail _) fun h => hnone h.1 h.2

/-- An operator takes sets by their types. -/
theorem typeBinary_succeeds_iff {op : BinaryOp}
    (hx : st.arena.type? x = some t) (hy : st.arena.type? y = some u) :
    (typeBinary op x y span).Succeeds env st ↔ env.schema.Takes op t u := by
  obtain ⟨n, hn, rfl⟩ := Arena.type?_eq_some_iff.1 hx
  obtain ⟨m, hm, rfl⟩ := Arena.type?_eq_some_iff.1 hy
  unfold typeBinary Schema.Takes
  rw [succeeds_read run_schema, succeeds_read (run_typeOf hn),
    succeeds_read (run_typeOf hm)]
  by_cases hlogical : op.isLogical = true
  · rw [if_pos hlogical]
    exact iff_of_true (succeeds_pure _) (Or.inl hlogical)
  · rw [if_neg hlogical, or_iff_right hlogical, succeeds_require]
    refine and_congr_right fun _ => ?_
    split
    · exact comparison_succeeds_iff hx hy
    · split
      · exact concatenation_succeeds_iff hx hy
      · exact arithmetic_succeeds_iff hx hy

-- ========================================================= both operands

/-- Two sets, counted as seen from the active node. -/
def Counts (env : Env) (st : Store κ) (c d : Cardinality) (x y : SetId) : Prop :=
  st.judge? env.frame.scope x = some c ∧ st.judge? env.frame.scope y = some d

omit [DecidableEq κ] [PathKey κ] [NameDigest] in
/-- Two blind steps, one after the other, give sets that are counted as
what each was given. -/
theorem counts_of_both {first second : CompileM κ SetId} [Blind first] [Growing first]
    [Blind second] [Growing second] {mid : Store κ}
    (hroot : st.scopes.Rooted) (hactive : env.frame.scope < st.scopes.size)
    (hc : st.valueCount? env.frame.scope v = some c)
    (hd : st.valueCount? env.frame.scope w = some d)
    (ha : first.run env st = (.ok x, mid)) (hb : second.run env mid = (.ok y, st'))
    (hx : st.valueCount? env.frame.scope v = some c →
      mid.judge? env.frame.scope x = some c)
    (hy : mid.valueCount? env.frame.scope w = some d →
      st'.judge? env.frame.scope y = some d) : Counts env st' c d x y := by
  have hd' : mid.valueCount? env.frame.scope w = some d := by
    cases w with
    | pending q => exact hd
    | set y => exact Blind.judge?_eq hroot hactive ha hd
  have hscopes := Blind.scopes_eq (m := first) env st
  rw [ha] at hscopes
  rw [← hscopes] at hroot hactive
  exact ⟨Blind.judge?_eq hroot hactive hb (hx hc), hy hd'⟩

/-- Operands that were attached are counted as they were. -/
theorem counts_of_attachOperands {op : BinaryOp} {r : SetId × SetId}
    (hr : env.Ready R st) (hv : st.Offers R env.schema env.frame.scope v t)
    (hw : st.Offers R env.schema env.frame.scope w u)
    (hc : st.valueCount? env.frame.scope v = some c)
    (hd : st.valueCount? env.frame.scope w = some d)
    (h : (attachOperands op v w).run env st = (.ok r, st')) : Counts env st' c d r.1 r.2 := by
  have hboth : ∀ {hint hint' : Option TypeId}, (do
      let a ← attach v hint
      let b ← attach w hint'
      return (a, b) : CompileM κ _).run env st = (.ok r, st') →
        Counts env st' c d r.1 r.2 := by
    intro hint hint' h
    obtain ⟨a, mid, ha, h⟩ := ok_of_bind h
    obtain ⟨b, st₂, hb, h⟩ := ok_of_bind h
    obtain ⟨rfl, rfl⟩ := ok_of_pure h
    exact counts_of_both hr.sound.rooted hr.active hc hd ha hb (judge?_of_attach ha)
      (judge?_of_attach hb)
  unfold attachOperands at h
  split at h
  · exact hboth h
  · rw [run_bind_ok (run_valueType hv), run_bind_ok (run_valueType hw)] at h
    exact hboth h

omit [DecidableEq κ] [PathKey κ] [NameDigest] in
theorem judge?_of_convertOperand (h : (convertOperand id target).run env st = (.ok id', st'))
    (hc : st.judge? env.frame.scope id = some c) :
    st'.judge? env.frame.scope id' = some c := by
  obtain ⟨node, hn⟩ := Store.exists_get?_of_judge? hc
  unfold convertOperand at h
  rw [run_bind_ok (run_typeOf hn), run_bind_ok run_schema] at h
  split at h
  · exact judge?_of_castSet h hc
  · obtain ⟨rfl, rfl⟩ := ok_of_pure h
    exact hc

omit [DecidableEq κ] [PathKey κ] in
/-- An operator takes sets as they are, or both at one type. -/
theorem typeBinary_cases {op : BinaryOp} {r : SetId × SetId × TypeId}
    (hx : st.arena.type? x = some t) (hy : st.arena.type? y = some u)
    (h : (typeBinary op x y span).run env st = (.ok r, st')) :
    (r.1 = x ∧ r.2.1 = y ∧ st' = st) ∨ ∃ target mid,
      (convertOperand x target).run env st = (.ok r.1, mid)
        ∧ (convertOperand y target).run env mid = (.ok r.2.1, st') := by
  have hsame : ∀ {type : TypeId},
      (pure (x, y, type) : CompileM κ _).run env st = (.ok r, st') →
        r.1 = x ∧ r.2.1 = y ∧ st' = st := by
    intro type h
    obtain ⟨rfl, rfl⟩ := ok_of_pure h
    exact ⟨rfl, rfl, rfl⟩
  have hboth : ∀ {target type : TypeId}, (do
      let a ← convertOperand x target
      let b ← convertOperand y target
      return (a, b, type) : CompileM κ _).run env st = (.ok r, st') → ∃ target mid,
        (convertOperand x target).run env st = (.ok r.1, mid)
          ∧ (convertOperand y target).run env mid = (.ok r.2.1, st') := by
    intro target type h
    obtain ⟨a, mid, ha, h⟩ := ok_of_bind h
    obtain ⟨b, st₂, hb, h⟩ := ok_of_bind h
    obtain ⟨rfl, rfl⟩ := ok_of_pure h
    exact ⟨target, mid, ha, hb⟩
  obtain ⟨n, hn, rfl⟩ := Arena.type?_eq_some_iff.1 hx
  obtain ⟨m, hm, rfl⟩ := Arena.type?_eq_some_iff.1 hy
  unfold typeBinary at h
  rw [run_bind_ok run_schema, run_bind_ok (run_typeOf hn), run_bind_ok (run_typeOf hm)] at h
  split at h
  · exact Or.inl (hsame h)
  · obtain ⟨_, mid, hcheck, h⟩ := ok_of_bind h
    obtain rfl := (ok_of_require hcheck).2.symm
    split at h
    -- scalars are compared at a common type, mixed numbers meet as floats
    · unfold comparison at h
      rw [run_bind_ok run_schema, run_bind_ok (run_typeOf hn),
        run_bind_ok (run_typeOf hm)] at h
      obtain ⟨common, mid, hcommon, hrest⟩ := ok_of_bind h
      obtain ⟨-, rfl⟩ := ok_of_orFail hcommon
      split at hrest
      · exact Or.inl (hsame hrest)
      · exact Or.inr (hboth hrest)
    · split at h
      · unfold concatenation at h
        rw [run_bind_ok run_schema, run_bind_ok (run_typeOf hn),
          run_bind_ok (run_typeOf hm)] at h
        split at h
        · exact Or.inl (hsame h)
        · cases h
      · unfold arithmetic at h
        rw [run_bind_ok run_schema, run_bind_ok (run_typeOf hn),
          run_bind_ok (run_typeOf hm)] at h
        split at h
        · exact Or.inl (hsame h)
        · obtain ⟨_, mid, hcheck, h⟩ := ok_of_bind h
          obtain rfl := (ok_of_require hcheck).2.symm
          exact Or.inr (hboth h)
        · cases h

/-- Operands as an operator takes them are counted as they were. -/
theorem counts_of_typeBinary {op : BinaryOp} {r : SetId × SetId × TypeId}
    (hroot : st.scopes.Rooted) (hactive : env.frame.scope < st.scopes.size)
    (hx : st.arena.type? x = some t) (hy : st.arena.type? y = some u)
    (hxy : Counts env st c d x y)
    (h : (typeBinary op x y span).run env st = (.ok r, st')) :
    Counts env st' c d r.1 r.2.1 := by
  rcases typeBinary_cases hx hy h with ⟨hleft, hright, rfl⟩ | ⟨target, mid, ha, hb⟩
  · rw [hleft, hright]
    exact hxy
  · exact counts_of_both (v := .set x) (w := .set y) hroot hactive hxy.1 hxy.2 ha hb
      (judge?_of_convertOperand ha) (judge?_of_convertOperand hb)

-- ============================================================ operations

variable {op : BinaryOp}

/-- Operands combine to an operation of both their types and both their
cardinalities. -/
theorem pending_of_binary {a : Value} (hr : env.Ready R st)
    (hv : st.Offers R env.schema env.frame.scope v t)
    (hw : st.Offers R env.schema env.frame.scope w u)
    (hc : st.valueCount? env.frame.scope v = some c)
    (hd : st.valueCount? env.frame.scope w = some d)
    (h : (binary op v w span).run env st = (.ok a, st')) :
    ∃ p, a = .pending p ∧ p.type = env.schema.binaryType op t u
      ∧ p.cardinality = c.mul d := by
  have htype := valueType?_of_binary hr hv hw h
  unfold binary at h
  obtain ⟨r, mid, hattach, h⟩ := ok_of_bind h
  have hcounts := counts_of_attachOperands hr hv hw hc hd hattach
  obtain ⟨hr', -⟩ := (Upholds.attachOperands hv hw).kept hr hattach
  obtain ⟨t', u', ht, hu, -⟩ := types?_of_attachOperands hr hv hw hattach
  obtain ⟨r', mid', htyped, h⟩ := ok_of_bind h
  have hcounts' := counts_of_typeBinary hr'.sound.rooted hr'.active ht hu hcounts htyped
  rw [run_bind_ok (run_judge hcounts'.1), run_bind_ok (run_judge hcounts'.2)] at h
  obtain ⟨rfl, rfl⟩ := ok_of_pure h
  exact ⟨_, rfl, Option.some.inj htype, rfl⟩

/-- What is left to do once both operands are attached goes well if the
operator takes them. -/
theorem combine_succeeds_iff (hr : env.Ready R st) (hx : st.arena.type? x = some t)
    (hy : st.arena.type? y = some u) (hxy : Counts env st c d x y) :
    (do
      let r ← typeBinary op x y span
      let cardinality := (← judge r.1).mul (← judge r.2.1)
      return Value.pending ⟨.binary r.1 op r.2.1, r.2.2, cardinality, span⟩ :
        CompileM κ _).Succeeds env st ↔ env.schema.Takes op t u := by
  rw [← typeBinary_succeeds_iff hx hy]
  refine succeeds_bind_of_forall fun r mid htyped => ?_
  have hcounts := counts_of_typeBinary hr.sound.rooted hr.active hx hy hxy htyped
  rw [succeeds_read (run_judge hcounts.1), succeeds_read (run_judge hcounts.2)]
  exact succeeds_pure _

/-- Whether operands combine is a matter of their types. -/
theorem binary_succeeds_iff (hr : env.Ready R st)
    (hv : st.Offers R env.schema env.frame.scope v t)
    (hw : st.Offers R env.schema env.frame.scope w u)
    (hc : st.valueCount? env.frame.scope v = some c)
    (hd : st.valueCount? env.frame.scope w = some d) :
    (binary op v w span).Succeeds env st ↔ env.schema.Operates op t u := by
  have htakes : ∀ r mid, (attachOperands op v w).run env st = (.ok r, mid) →
      ∃ t' u', mid.arena.type? r.1 = some t' ∧ mid.arena.type? r.2 = some u'
        ∧ (env.schema.Takes op t' u'
          ↔ env.schema.Takes op (env.schema.attached t (Schema.wants op t u).1)
            (env.schema.attached u (Schema.wants op t u).2)) := by
    intro r mid hattach
    obtain ⟨t', u', ht, hu, hsame⟩ := types?_of_attachOperands hr hv hw hattach
    refine ⟨t', u', ht, hu, ?_⟩
    cases hlog : op.isLogical with
    | true => exact iff_of_true (Or.inl hlog) (Or.inl hlog)
    | false =>
        obtain ⟨rfl, rfl⟩ := hsame hlog
        unfold Schema.wants
        rw [hlog]
        exact Iff.rfl
  have hoperates : env.schema.Operates op t u
      ↔ (env.schema.Attaches t (Schema.wants op t u).1
          ∧ env.schema.Attaches u (Schema.wants op t u).2)
        ∧ env.schema.Takes op (env.schema.attached t (Schema.wants op t u).1)
          (env.schema.attached u (Schema.wants op t u).2) :=
    ⟨fun h => ⟨⟨h.left, h.right⟩, h.takes⟩, fun h => ⟨h.1.1, h.1.2, h.2⟩⟩
  rw [hoperates]
  unfold binary
  refine succeeds_bind_iff (attachOperands_succeeds_iff hr hv hw) fun r mid hattach => ?_
  obtain ⟨hr', -⟩ := (Upholds.attachOperands hv hw).kept hr hattach
  obtain ⟨t', u', ht, hu, hsame⟩ := htakes r mid hattach
  rw [← hsame]
  exact combine_succeeds_iff hr' ht hu (counts_of_attachOperands hr hv hw hc hd hattach)

/-- What two operands combine to, operands of the same types and
cardinalities combine to in the other order. -/
theorem exists_run_binary_swapped {st₁ st₂ : Store κ} {v' w' a : Value} {span' : Span}
    (hr : env.Ready R st) (hr' : env.Ready R st₁)
    (hv : st.Offers R env.schema env.frame.scope v t)
    (hw : st.Offers R env.schema env.frame.scope w u)
    (hv' : st₁.Offers R env.schema env.frame.scope v' t)
    (hw' : st₁.Offers R env.schema env.frame.scope w' u)
    (hc : st.valueCount? env.frame.scope v = some c)
    (hd : st.valueCount? env.frame.scope w = some d)
    (hc' : st₁.valueCount? env.frame.scope v' = some c)
    (hd' : st₁.valueCount? env.frame.scope w' = some d)
    (h : (binary op v w span).run env st = (.ok a, st₂)) :
    ∃ p q st', a = .pending p
      ∧ (binary op w' v' span').run env st₁ = (.ok (.pending q), st')
      ∧ p.type = q.type ∧ p.cardinality = q.cardinality := by
  have hoperates := (binary_succeeds_iff hr hv hw hc hd).1 ⟨a, st₂, h⟩
  have hswapped : (binary op w' v' span').Succeeds env st₁ :=
    (binary_succeeds_iff hr' hw' hv' hd' hc').2 hoperates.symm
  obtain ⟨b, st', hb⟩ := hswapped
  obtain ⟨p, rfl, hp, hpc⟩ := pending_of_binary hr hv hw hc hd h
  obtain ⟨q, rfl, hq, hqc⟩ := pending_of_binary hr' hw' hv' hd' hc' hb
  refine ⟨p, q, st', rfl, hb, ?_, ?_⟩
  · rw [hp, hq, Schema.binaryType_comm]
  · rw [hpc, hqc, Cardinality.mul_comm]

end CompileM

end PathQuery
