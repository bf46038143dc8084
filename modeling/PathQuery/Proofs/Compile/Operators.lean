/-
Operators, casts and set literals make operations that fit.

The operands are offered values. They are attached, converted where
needed, and judged, all from the node the operation will stand in; so
the cardinality computed is the one that the rules give, and the types
of the converted operands are those that the typing rules ask for. The
argument about types is in the lemmas on schemas; what is shown here is
that the compiler brings their hypotheses together (`Suited`).
-/
import PathQuery.Proofs.Compile.Attachment

namespace PathQuery

open Ir

variable {κ : Type}

-- ============================================================ operators

/-- Whatever is no logical operator, comparison or concatenation is
arithmetic. -/
theorem BinaryOp.isArithmetic_of_ne {op : BinaryOp} (hl : op.isLogical = false)
    (hc : op.isComparison = false) (hne : op ≠ .concat) :
    op.isArithmetic = true := by
  cases op <;> simp_all [isLogical, isComparison, isArithmetic]

/-- Comparisons are no logical operators. -/
theorem BinaryOp.isLogical_of_isComparison {op : BinaryOp}
    (h : op.isComparison = true) : op.isLogical = false := by
  cases op <;> simp_all [isLogical, isComparison]

/-- Nor are arithmetic operators any of the others. -/
theorem BinaryOp.ne_of_isArithmetic {op : BinaryOp} (h : op.isArithmetic = true) :
    op.isLogical = false ∧ op.isComparison = false ∧ op ≠ .concat := by
  cases op <;> simp_all [isLogical, isComparison, isArithmetic]

/-- A hint is the other operand's type, if that is not empty. -/
theorem CompileM.operandHints_cases {t u h : TypeId}
    (hh : (operandHints t u).1 = some h ∨ (operandHints t u).2 = some h) :
    (h = u ∧ u ≠ .empty) ∨ (h = t ∧ t ≠ .empty) := by
  unfold operandHints at hh
  simp only [TypeId.isEmpty, Bool.and_eq_true, Bool.not_eq_true', beq_iff_eq,
    beq_eq_false_iff_ne, Option.ite_none_right_eq_some, Option.some.injEq] at hh
  rcases hh with ⟨⟨-, hu⟩, rfl⟩ | ⟨⟨-, ht⟩, rfl⟩
  · exact Or.inl ⟨rfl, hu⟩
  · exact Or.inr ⟨rfl, ht⟩

variable [DecidableEq κ] [PathKey κ] [NameDigest]

/-- Operands as a binary operator takes them, with the type of the
result. -/
def Store.Suited (R : Regime) (s : Schema) (scope : Nat) (op : BinaryOp)
    (st : Store κ) (r : SetId × SetId × TypeId) : Prop :=
  (∃ t, st.Holds R scope r.1 t) ∧ (∃ t, st.Holds R scope r.2.1 t)
    ∧ R.known r.2.2
    ∧ (R.typed → HasType s st.arena (.binary r.1 op r.2.1) r.2.2)

/-- What an expression compiles to. -/
def Offered (R : Regime) (env : Env) (st : Store κ) (v : Value) : Prop :=
  ∃ t, st.Offers R env.schema env.frame.scope v t

/-- Wherever it is compiled, an expression gives a value that is
offered there. -/
def CompileM.Yields (R : Regime) (m : CompileM κ Value) : Prop :=
  ∀ env st, Upholds R env st m (Offered R env)

namespace CompileM.Upholds

variable {R : Regime} {env : Env} {st : Store κ} {op : BinaryOp} {l r : Nat}
  {t u target : TypeId} {mismatch : CompileError} {span : Span}

theorem convertOperand {id : Nat} (hid : st.Holds R env.frame.scope id t)
    (hknown : R.known target) :
    Upholds R env st (CompileM.convertOperand id target) fun st' id =>
      st'.Holds R env.frame.scope id (env.schema.converted t target) := by
  unfold CompileM.convertOperand Schema.converted
  refine read (run_typeOf_of_holds hid) (read run_schema ?_)
  split
  · next hconv =>
      rw [if_pos hconv]
      exact castSet hid hknown fun _ => Schema.cast?_of_conversion? hconv
  · next hconv =>
      rw [if_neg hconv]
      exact pure hid

/-- Logical operators take booleans, others whatever the operands
are. -/
theorem attachOperands {left right : Value}
    (hl : st.Offers R env.schema env.frame.scope left t)
    (hr : st.Offers R env.schema env.frame.scope right u) :
    Upholds R env st (CompileM.attachOperands op left right) fun st' ids =>
      ∃ t u, st'.Holds R env.frame.scope ids.1 t
        ∧ st'.Holds R env.frame.scope ids.2 u
        ∧ (op.isLogical = true → env.schema.isSubtype t TypeId.bool = true
            ∧ env.schema.isSubtype u TypeId.bool = true) := by
  refine intro fun hready => ?_
  unfold CompileM.attachOperands
  split
  · next hop =>
      have hbool : ∀ h, some TypeId.bool = some h → R.known h := by
        intro h heq
        cases heq
        exact hready.suits.literal (.bool true)
      refine bind (attach hl hbool) ?_
      intro a st₁ h₁ h
      obtain ⟨t₁, ha, hsub, -⟩ := h
      refine bind (attach (hr.mono h₁ hready.active) hbool) ?_
      intro b st₂ h₂ h
      obtain ⟨u₁, hb, hsub', -⟩ := h
      exact pure ⟨t₁, u₁, ha.mono h₂, hb, fun _ => ⟨hsub _ rfl, hsub' _ rfl⟩⟩
  · next hop =>
      refine read (run_valueType hl) (read (run_valueType hr) ?_)
      have hhint : ∀ h, (operandHints t u).1 = some h
          ∨ (operandHints t u).2 = some h →
          R.known h := by
        intro h hh
        rcases operandHints_cases hh with ⟨rfl, hne⟩ | ⟨rfl, hne⟩
        · exact (hr.known hready.sound).resolve_right hne
        · exact (hl.known hready.sound).resolve_right hne
      refine bind (attach hl fun h hh => hhint h (Or.inl hh)) ?_
      intro a st₁ h₁ h
      obtain ⟨t₁, ha, -⟩ := h
      refine bind
        (attach (hr.mono h₁ hready.active) fun h hh => hhint h (Or.inr hh)) ?_
      intro b st₂ h₂ h
      obtain ⟨u₁, hb, -⟩ := h
      exact pure ⟨t₁, u₁, ha.mono h₂, hb, fun hlog => absurd hlog hop⟩

/-- Scalars are converted to a common type, objects left alone. -/
theorem comparison {objects : Bool} (hop : op.isComparison = true)
    (hl : st.Holds R env.frame.scope l t) (hr : st.Holds R env.frame.scope r u)
    (hobjects : objects = (env.schema.isObject t || env.schema.isObject u))
    (heq : objects = true → op.isEquality = true)
    (hkind : mismatch.kind ≠ .internal) :
    Upholds R env st (CompileM.comparison l r objects mismatch)
      (Store.Suited R env.schema env.frame.scope op) := by
  refine intro fun hready => ?_
  have hbool := hready.suits.literal (.bool true)
  unfold CompileM.comparison
  refine read run_schema
    (read (run_typeOf_of_holds hl) (read (run_typeOf_of_holds hr) ?_))
  refine orFail hkind fun c hc => ?_
  cases objects with
  | true =>
      refine pure ⟨⟨t, hl⟩, ⟨u, hr⟩, hbool, fun hty => ?_⟩
      have hobj : env.schema.isObject t = true
          ∨ env.schema.isObject u = true := by
        rw [← Bool.or_eq_true, ← hobjects]
      obtain ⟨htc, huc⟩ := Schema.isSubtype_of_commonType? hc hobj
      have hcoh := hready.suits.coherent hty
      have hsame : env.schema.isObject t = env.schema.isObject u := by
        rw [← hcoh.isObject_eq htc, hcoh.isObject_eq huc]
      refine .objects (heq rfl) hl.type? hr.type? ?_ ?_ htc huc
      · exact hobj.elim id fun hu => hsame.trans hu
      · exact hobj.elim (fun ht => hsame.symm.trans ht) id
  | false =>
      obtain ⟨ht, hu⟩ := Bool.or_eq_false_iff.1 hobjects.symm
      have hknown :=
        hready.suits.common (hl.known hready.sound) (hr.known hready.sound) hc
      refine bind (convertOperand hl hknown) ?_
      intro l' st₁ h₁ hl'
      refine bind (convertOperand (hr.mono h₁) hknown) ?_
      intro r' st₂ h₂ hr'
      have hl' := hl'.mono h₂
      refine pure ⟨⟨_, hl'⟩, ⟨_, hr'⟩, hbool, fun _ => ?_⟩
      exact .comparison hop hl'.type? hr'.type? (Schema.isObject_converted ht)
        (Schema.isObject_converted hu) (Schema.isSubtype_converted hc ht hu)

/-- Integers are left alone, other numbers converted to floats. -/
theorem arithmetic (hop : op.isArithmetic = true)
    (hl : st.Holds R env.frame.scope l t) (hr : st.Holds R env.frame.scope r u)
    (hkind : mismatch.kind ≠ .internal) :
    Upholds R env st (CompileM.arithmetic l r mismatch)
      (Store.Suited R env.schema env.frame.scope op) := by
  refine intro fun hready => ?_
  unfold CompileM.arithmetic
  refine read run_schema
    (read (run_typeOf_of_holds hl) (read (run_typeOf_of_holds hr) ?_))
  split
  · next ht hu =>
      exact pure ⟨⟨t, hl⟩, ⟨u, hr⟩, hready.suits.literal (.int 0), fun _ =>
        .integers hop hl.type? hr.type? ht hu⟩
  · next k k' _ ht hu =>
      have hfloat := hready.suits.literal (.float ⟨0⟩)
      refine require hkind fun hnum => ?_
      rw [Bool.and_eq_true] at hnum
      have htnum : env.schema.isNumeric t = true := by
        unfold Schema.isNumeric
        rw [ht]
        exact hnum.1
      have hunum : env.schema.isNumeric u = true := by
        unfold Schema.isNumeric
        rw [hu]
        exact hnum.2
      refine bind (convertOperand hl hfloat) ?_
      intro l' st₁ h₁ hl'
      refine bind (convertOperand (hr.mono h₁) hfloat) ?_
      intro r' st₂ h₂ hr'
      have hl' := hl'.mono h₂
      refine pure ⟨⟨_, hl'⟩, ⟨_, hr'⟩, hfloat, fun hty => ?_⟩
      have hcoh := hready.suits.coherent hty
      exact .floats hop hl'.type? hr'.type? (hcoh.scalarKind?_converted htnum)
        (hcoh.scalarKind?_converted hunum)
  · exact fail hkind

/-- Both operands are strings. -/
theorem concatenation (hl : st.Holds R env.frame.scope l t)
    (hr : st.Holds R env.frame.scope r u) (hkind : mismatch.kind ≠ .internal) :
    Upholds R env st (CompileM.concatenation l r mismatch)
      (Store.Suited R env.schema env.frame.scope .concat) := by
  refine intro fun hready => ?_
  unfold CompileM.concatenation
  refine read run_schema
    (read (run_typeOf_of_holds hl) (read (run_typeOf_of_holds hr) ?_))
  split
  · next ht hu =>
      exact pure ⟨⟨t, hl⟩, ⟨u, hr⟩, hready.suits.literal (.str ""), fun _ =>
        .concat hl.type? hr.type? ht hu⟩
  · exact fail hkind

/-- The operands of any binary operator come to suit it. -/
theorem typeBinary (hl : st.Holds R env.frame.scope l t)
    (hr : st.Holds R env.frame.scope r u)
    (hlogical : op.isLogical = true → env.schema.isSubtype t TypeId.bool = true
      ∧ env.schema.isSubtype u TypeId.bool = true) :
    Upholds R env st (CompileM.typeBinary op l r span)
      (Store.Suited R env.schema env.frame.scope op) := by
  refine intro fun hready => ?_
  unfold CompileM.typeBinary
  refine read run_schema
    (read (run_typeOf_of_holds hl) (read (run_typeOf_of_holds hr) ?_))
  split
  · next hop =>
      obtain ⟨ht, hu⟩ := hlogical hop
      exact pure ⟨⟨t, hl⟩, ⟨u, hr⟩, hready.suits.literal (.bool true), fun _ =>
        .logical hop hl.type? hr.type? ht hu⟩
  · next hlog =>
      refine require (by simp [CompileError.kind]) fun hobj => ?_
      split
      · next hcmp =>
          refine comparison hcmp hl hr rfl (fun hobjects => ?_)
            (by simp [CompileError.kind])
          rw [hobjects] at hobj
          simpa using hobj
      · next hcmp =>
          split
          · next hcat =>
              subst hcat
              exact concatenation hl hr (by simp [CompileError.kind])
          · next hcat =>
              have harith := BinaryOp.isArithmetic_of_ne (by simpa using hlog)
                (by simpa using hcmp) hcat
              exact arithmetic harith hl hr (by simp [CompileError.kind])

theorem binary {left right : Value}
    (hl : st.Offers R env.schema env.frame.scope left t)
    (hr : st.Offers R env.schema env.frame.scope right u) :
    Upholds R env st (CompileM.binary op left right span) (Offered R env) := by
  unfold CompileM.binary
  refine bind (attachOperands hl hr) ?_
  intro r st₁ _ h
  obtain ⟨a, b⟩ := r
  obtain ⟨t₁, u₁, ha, hb, hlogical⟩ := h
  refine bind (typeBinary ha hb hlogical) ?_
  intro r st₂ _ h
  obtain ⟨c, d, type⟩ := r
  obtain ⟨⟨t₂, hc⟩, ⟨u₂, hd⟩, hknown, htyped⟩ := h
  obtain ⟨m, hm⟩ := hc.exists_judge? env.frame.scope
  obtain ⟨n, hn⟩ := hd.exists_judge? env.frame.scope
  refine read (run_judge hm)
    (read (run_judge hn) (pure ⟨type, Store.Fits.offers ?_ span⟩))
  refine ⟨hknown, Or.inl ?_, ⟨⟨t₂, hc⟩, ⟨u₂, hd⟩⟩, htyped⟩
  simp only [Store.counted?]
  rw [hm, Option.bind_some, hn, Option.map_some]

-- ====================================================== unary operators

theorem logicalNot {v : Value}
    (ho : st.Offers R env.schema env.frame.scope v t) :
    Upholds R env st (CompileM.logicalNot v span) (Offered R env) := by
  refine intro fun hready => ?_
  have hbool := hready.suits.literal (.bool true)
  unfold CompileM.logicalNot
  refine bind (attach ho fun h heq => by cases heq; exact hbool) ?_
  intro x st₁ _ h
  obtain ⟨t₁, hx, hsub, -⟩ := h
  obtain ⟨c, hc⟩ := hx.exists_judge? env.frame.scope
  refine read (run_judge hc) (pure ⟨_, Store.Fits.offers ?_ span⟩)
  exact ⟨hbool, Or.inl hc, ⟨t₁, hx⟩, fun _ => .not hx.type? (hsub _ rfl)⟩

theorem arithmeticNeg {v : Value}
    (ho : st.Offers R env.schema env.frame.scope v t) :
    Upholds R env st (CompileM.arithmeticNeg v span) (Offered R env) := by
  unfold CompileM.arithmeticNeg
  refine bind (attach ho fun h heq => by cases heq) ?_
  intro x st₁ _ h
  obtain ⟨t₁, hx, -⟩ := h
  refine intro fun hready => ?_
  obtain ⟨c, hc⟩ := hx.exists_judge? env.frame.scope
  refine read run_schema (read (run_typeOf_of_holds hx) ?_)
  refine require (by simp [CompileError.kind]) fun _ => ?_
  refine require (by simp [CompileError.kind]) fun hnum => ?_
  refine read (run_judge hc) (pure ⟨_, Store.Fits.offers ?_ span⟩)
  exact ⟨hx.known hready.sound, Or.inl hc, ⟨t₁, hx⟩,
    fun _ => .neg hx.type? hnum⟩

/-- The operand has a node of its own. -/
theorem existence {operand : CompileM κ Value}
    (ho : Yields R operand) :
    Upholds R env st (CompileM.existence operand span) (Offered R env) := by
  unfold CompileM.existence
  have hscope : Upholds R env st
      (CompileM.inScope do CompileM.attach (← operand) none)
      fun st' id => st'.Below R env.frame.scope id fun t => t ≠ .empty := by
    refine inScope
      (fun st' id => ∃ t, st'.Holds R st.scopes.size id t ∧ t ≠ .empty)
      (fun _ => ?_) fun st' id _ hparent => ?_
    · refine bind (ho _ _) ?_
      intro v st₁ _ h
      obtain ⟨t, hv⟩ := h
      refine (attach hv fun h heq => by cases heq).imp ?_
      intro st₂ id _ _ h
      obtain ⟨t', hid, -, hsame⟩ := h
      exact ⟨t', hid, (hsame rfl).1 ▸ (hsame rfl).2⟩
    · intro h
      obtain ⟨t, hid, hne⟩ := h
      exact ⟨_, t, hparent, hid, hne⟩
  refine bind hscope ?_
  intro id st₁ _ hbelow
  refine intro fun hready => pure ⟨_, Store.Fits.offers ?_ span⟩
  refine ⟨hready.suits.literal (.bool true), Or.inl rfl, hbelow, fun _ => ?_⟩
  obtain ⟨_, t, -, hid, -⟩ := hbelow
  exact .exists hid.type?

-- =============================================================== casts

theorem cast {v : Value} (ho : st.Offers R env.schema env.frame.scope v t)
    (hknown : R.known target) :
    Upholds R env st (CompileM.cast v target span) (Offered R env) := by
  unfold CompileM.cast
  refine read (run_valueType ho) (bind (attach ho fun h heq => ?_) ?_)
  · split at heq
    · cases heq
      exact hknown
    · cases heq
  intro x st₁ _ h
  obtain ⟨t₁, hx, -⟩ := h
  obtain ⟨c, hc⟩ := hx.exists_judge? env.frame.scope
  refine read run_schema (read (run_typeOf_of_holds hx) ?_)
  refine orFail (by simp [CompileError.kind]) fun conversion hconv => ?_
  refine read (run_judge hc) (pure ⟨_, Store.Fits.offers ?_ span⟩)
  exact ⟨hknown, Or.inl hc, ⟨t₁, hx⟩, fun _ => .cast hx.type? hconv⟩

end CompileM.Upholds

end PathQuery
