/-
Operands that match combine to values that match.

What an expression gives on the two sides are sets that correspond, or
operations that answer each other. Put to use, they give sets that agree
as seen from the active nodes. Operators, casts, set literals and calls
read of them what is the same on both sides, their types, or alike, their
cardinalities; so they fail for one cause, or combine to values that
match again. There is one lemma for each function of the compiler that
combines operands, in the order of the compiler's modules.

A clause refers to a set that was made elsewhere by a set of its own, and
a span tells where a set was made. So on one side the clause may refer to
a set that it takes as it is on the other; for all but constants that
makes no difference (`referenceAt`).
-/
import PathQuery.Proofs.Compile.Composed
import PathQuery.Proofs.Correspondence.Steps

namespace PathQuery

open Ast (Likeness)
open Ir

variable {κ α α' β β' : Type} [DecidableEq κ] [PathKey κ]

-- ============================================================== growth

namespace CompileM.Growing

omit [DecidableEq κ] [PathKey κ] in
theorem of_bind {m : CompileM κ α} {f : α → CompileM κ β} (_ : Growing m)
    (_ : ∀ a, Growing (f a)) : Growing (m >>= f) :=
  inferInstance

section Attachment

omit [DecidableEq κ] [PathKey κ]

instance (v : Value) : Growing (valueType v : CompileM κ _) := by
  unfold valueType
  cases v <;> infer_instance

instance (id : SetId) (target : TypeId) :
    Growing (coerce id target : CompileM κ _) := by
  unfold coerce castSet
  refine of_bind inferInstance fun _ => of_bind inferInstance fun _ => ?_
  split
  · infer_instance
  · split <;> infer_instance

instance (id : SetId) (span : Span) :
    Growing (referenceAt id span : CompileM κ _) := by
  unfold referenceAt
  infer_instance

instance (span : Span) : Growing (untypedEmptySet span : CompileM κ α) := by
  unfold untypedEmptySet
  infer_instance

instance (v : Value) (hint : Option TypeId) :
    Growing (settle v hint : CompileM κ _) := by
  unfold settle
  cases v with
  | set id => infer_instance
  | pending p => cases hint <;> dsimp only <;> infer_instance

instance (v : Value) (hint : Option TypeId) :
    Growing (attach v hint : CompileM κ _) := by
  unfold attach
  cases hint <;> infer_instance

instance (hint : Option TypeId) (es : List (Value × Span)) :
    Growing (attachMembers hint es : CompileM κ _) := by
  induction es with
  | nil => exact inferInstanceAs (Growing (pure _))
  | cons e es ih =>
      unfold attachMembers
      infer_instance

end Attachment

variable [NameDigest]

/-- All that the compiler is put together from only adds sets. -/
theorem of_composed {post : α → Prop} {m : CompileM κ α}
    (h : Composed (fun _ => True) post m) : Growing m :=
  ⟨fun env st => (h.spreads env st).grows.arena⟩

instance (id : SetId) (target : TypeId) :
    Growing (convertOperand id target : CompileM κ _) :=
  of_composed .convertOperand

instance (op : BinaryOp) (x y : SetId) (span : Span) :
    Growing (typeBinary op x y span : CompileM κ _) :=
  of_composed .typeBinary

end CompileM.Growing

namespace CompileM.Corresponds

variable {μ : Likeness} {C : Correspondence κ} {env env' : Env} {v w : Value}
  {x y : SetId} {span span' : Span} {post : Correspondence κ → β → β' → Prop}

-- =============================================================== reads

/-- Sets that agree are read. -/
theorem getSet {scope scope' : ScopeId} (hxy : C.Agree μ scope scope' x y)
    {f : SetNode κ → CompileM κ β} {f' : SetNode κ → CompileM κ β'}
    (hf : ∀ n m, C.left.arena.get? x = some n → C.right.arena.get? y = some m →
      n.type = m.type → μ.Spans n.span m.span →
        Corresponds μ C env env' (f n) (f' m) post) :
    Corresponds μ C env env' (CompileM.getSet x >>= f) (CompileM.getSet y >>= f')
      post := by
  refine intro fun hc _ => ?_
  obtain ⟨n, m, hn, hm, htype⟩ := hxy.exists_get?
  exact read (run_getSet hn) (run_getSet hm)
    (hf n m hn hm htype (hc.spans_of_agree hxy hn hm))

theorem typeOf {scope scope' : ScopeId} (hxy : C.Agree μ scope scope' x y)
    {f : TypeId → CompileM κ β} {f' : TypeId → CompileM κ β'}
    (hf : ∀ t, Corresponds μ C env env' (f t) (f' t) post) :
    Corresponds μ C env env' (CompileM.typeOf x >>= f) (CompileM.typeOf y >>= f')
      post := by
  obtain ⟨n, m, hn, hm, htype⟩ := hxy.exists_get?
  refine read (run_typeOf hn) (run_typeOf hm) ?_
  rw [← htype]
  exact hf n.type

/-- Sets that agree are counted, as seen from the active nodes. -/
theorem judgeOf (hxy : C.Agree μ env.frame.scope env'.frame.scope x y)
    {f : Cardinality → CompileM κ β} {f' : Cardinality → CompileM κ β'}
    (hf : ∀ c d, C.left.judge? env.frame.scope x = some c → μ.Tally c d →
      Corresponds μ C env env' (f c) (f' d) post) :
    Corresponds μ C env env' (CompileM.judge x >>= f) (CompileM.judge y >>= f')
      post := by
  obtain ⟨c, d, hc, hd, htally⟩ := hxy.count
  exact read (run_judge hc) (run_judge hd) (hf c d hc htally)

theorem judge (hxy : C.Agree μ env.frame.scope env'.frame.scope x y)
    {f : Cardinality → CompileM κ β} {f' : Cardinality → CompileM κ β'}
    (hf : ∀ c d, μ.Tally c d → Corresponds μ C env env' (f c) (f' d) post) :
    Corresponds μ C env env' (CompileM.judge x >>= f) (CompileM.judge y >>= f')
      post :=
  judgeOf hxy fun c d _ => hf c d

theorem valueType (hvw : C.Values μ v w) {f : TypeId → CompileM κ β}
    {f' : TypeId → CompileM κ β'}
    (hf : ∀ t, Corresponds μ C env env' (f t) (f' t) post) :
    Corresponds μ C env env' (CompileM.valueType v >>= f)
      (CompileM.valueType w >>= f') post := by
  cases hvw with
  | set hxy =>
      exact intro fun hc hframe => typeOf (hc.agree hxy hframe.scope) hf
  | pending hpq =>
      refine read rfl rfl ?_
      rw [← hpq.type]
      exact hf _

-- =================================================== one set for another

theorem castSet {target : TypeId} {conversion : Conversion}
    (hxy : C.Agree μ env.frame.scope env'.frame.scope x y) :
    Corresponds μ C env env' (CompileM.castSet x target conversion)
      (CompileM.castSet y target conversion) fun C' a b =>
        C'.Agree μ env.frame.scope env'.frame.scope a b ∧ C'.SameConstant a b := by
  unfold CompileM.castSet
  refine getSet hxy fun n m _ _ _ hspan => judge hxy fun c d htally => ?_
  exact newComputed_agree htally rfl rfl hspan fun hμ => .cast _ _ (hxy.sets hμ)

/-- Sets that agree do so at any type that they can be used at, and stand
for one literal if they did. -/
theorem coerce {target : TypeId}
    (hxy : C.Agree μ env.frame.scope env'.frame.scope x y) :
    Corresponds μ C env env' (CompileM.coerce x target) (CompileM.coerce y target)
      fun C' a b => C'.Agree μ env.frame.scope env'.frame.scope a b
        ∧ (C.SameConstant x y → C'.SameConstant a b) := by
  unfold CompileM.coerce
  refine getSet hxy fun n m _ _ htype hspan => readSchema ?_
  rw [← htype]
  by_cases hempty : n.type.isEmpty = true
  · rw [if_pos hempty, if_pos hempty]
    refine judge hxy fun c d htally => ?_
    exact (newComputed_agree htally rfl rfl hspan fun _ => .emptySet).imp
      fun _ _ _ _ _ _ h => ⟨h.1, fun _ => h.2⟩
  · rw [if_neg hempty, if_neg hempty]
    have hcast : ∀ conversion, Corresponds μ C env env'
        (CompileM.castSet x target conversion)
        (CompileM.castSet y target conversion) fun C' a b =>
          C'.Agree μ env.frame.scope env'.frame.scope a b
            ∧ (C.SameConstant x y → C'.SameConstant a b) :=
      fun _ => (castSet hxy).imp fun _ _ _ _ _ _ h => ⟨h.1, fun _ => h.2⟩
    cases env.schema.conversion? n.type target with
    | none =>
        refine intro fun _ hframe => readFrame (fail ?_)
        rw [hframe.clause]
        rfl
    | some conversion =>
        cases conversion with
        | identity => exact pure ⟨hxy, id⟩
        | upcast => exact pure ⟨hxy, id⟩
        | implicit => exact hcast _
        | explicit => exact hcast _

/-- The first side alone refers to a set by a set of its own. -/
theorem reference_left (hxy : C.sets x y) (hμ : μ ≠ .same) {t : TypeId}
    (ht : C.left.arena.type? x = some t) :
    Corresponds μ C env env' (do
      let c ← CompileM.judge x
      CompileM.newComputed (.reference x) t c span) (Pure.pure y)
      fun C' a b => C'.Agree μ env.frame.scope env'.frame.scope a b
        ∧ (C.left.arena.constant? x = none → C'.SameConstant a b) := by
  intro hc hframe _ _
  have hagree := hc.agree hxy hframe.scope
  obtain ⟨c, d, hx, hy, htally⟩ := hagree.count
  obtain ⟨t', ht', hty⟩ := hagree.type
  rw [ht] at ht'
  cases ht'
  obtain ⟨node, hsource, ho, hkey, hrun, htype, hcount, hconst⟩ :=
    exists_run_reference t span hx
  obtain ⟨hlater, hc'⟩ := hc.push_left hsource ho hkey
  rw [hrun]
  exact .ok hlater hc' ⟨⟨hagree.active, hagree.active', ⟨t, htype, hty⟩,
    ⟨c, d, hcount, hy, htally⟩, fun h => absurd h hμ⟩,
    fun hnone => hconst.trans (hnone.symm.trans (hc.sameConstant hxy))⟩

/-- The other side alone refers to a set by a set of its own. -/
theorem reference_right (hxy : C.sets x y) (hμ : μ ≠ .same) {t : TypeId}
    (ht : C.right.arena.type? y = some t) :
    Corresponds μ C env env' (Pure.pure x) (do
      let d ← CompileM.judge y
      CompileM.newComputed (.reference y) t d span)
      fun C' a b => C'.Agree μ env.frame.scope env'.frame.scope a b
        ∧ (C.left.arena.constant? x = none → C'.SameConstant a b) := by
  intro hc hframe _ _
  have hagree := hc.agree hxy hframe.scope
  obtain ⟨c, d, hx, hy, htally⟩ := hagree.count
  obtain ⟨t', hty, ht'⟩ := hagree.type
  rw [ht] at ht'
  cases ht'
  obtain ⟨node, hsource, ho, hkey, hrun, htype, hcount, hconst⟩ :=
    exists_run_reference t span hy
  obtain ⟨hlater, hc'⟩ := hc.push_right hsource ho hkey
  rw [hrun]
  exact .ok hlater hc' ⟨⟨hagree.active, hagree.active', ⟨t, hty, htype⟩,
    ⟨c, d, hx, hcount, htally⟩, fun h => absurd h hμ⟩,
    fun hnone => hnone.trans hconst.symm⟩

/-- A set as the syntax refers to it, on the two sides. Where spans may
differ, one side may refer to it by a set of its own and the other not.
That shows if the set stands for a literal, and not otherwise. -/
theorem referenceAt (hxy : C.sets x y) (hspans : μ.Spans span span') :
    Corresponds μ C env env' (CompileM.referenceAt x span)
      (CompileM.referenceAt y span') fun C' a b =>
        C'.Agree μ env.frame.scope env'.frame.scope a b
          ∧ (C.left.arena.constant? x = none ∨ μ = .same →
            C'.SameConstant a b) := by
  refine intro fun hc hframe => ?_
  have hagree := hc.agree hxy hframe.scope
  unfold CompileM.referenceAt
  refine getSet hagree fun n m hn hm htype hspan => ?_
  by_cases hleft : n.span = span
  · rw [if_pos hleft]
    by_cases hright : m.span = span'
    · rw [if_pos hright]
      exact pure ⟨hagree, fun _ => hc.sameConstant hxy⟩
    · have hμ : μ ≠ .same := fun hμ =>
        hright ((hspan hμ).symm.trans (hleft.trans (hspans hμ)))
      rw [if_neg hright]
      exact (reference_right hxy hμ (Arena.type?_eq_some_iff.2 ⟨m, hm, rfl⟩)).imp
        fun _ _ _ _ _ _ h => ⟨h.1, fun hor => h.2 (hor.resolve_right hμ)⟩
  · rw [if_neg hleft]
    by_cases hright : m.span = span'
    · have hμ : μ ≠ .same := fun hμ =>
        hleft ((hspan hμ).trans (hright.trans (hspans hμ).symm))
      rw [if_pos hright]
      exact (reference_left hxy hμ (Arena.type?_eq_some_iff.2 ⟨n, hn, rfl⟩)).imp
        fun _ _ _ _ _ _ h => ⟨h.1, fun hor => h.2 (hor.resolve_right hμ)⟩
    · rw [if_neg hright, ← htype]
      refine judge hagree fun c d htally => ?_
      exact (newComputed_agree htally rfl rfl hspans fun _ => .reference hxy).imp
        fun _ _ _ _ _ _ h => ⟨h.1, fun _ => h.2⟩

-- ========================================================== attachment

theorem untypedEmptySet {mid : Correspondence κ → α → α' → Prop} :
    Corresponds μ C env env' (CompileM.untypedEmptySet span)
      (CompileM.untypedEmptySet span') mid := by
  unfold CompileM.untypedEmptySet
  refine intro fun _ hframe => readFrame (fail ?_)
  rw [hframe.clause]
  rfl

theorem settle {hint : Option TypeId} (hvw : C.Values μ v w) :
    Corresponds μ C env env' (CompileM.settle v hint) (CompileM.settle w hint)
      fun C' x y => C'.sets x y := by
  cases hvw with
  | set hxy => exact pure hxy
  | @pending p q hpq =>
      have hnew : ∀ t, Corresponds μ C env env'
          (CompileM.newComputed p.operation t p.cardinality p.span)
          (CompileM.newComputed q.operation t q.cardinality q.span)
          fun C' x y => C'.sets x y :=
        fun _ => newComputed hpq.count hpq.constant hpq.span hpq.single
          hpq.renamed
      unfold CompileM.settle
      dsimp only
      rw [← hpq.type]
      by_cases hempty : p.type.isEmpty = true
      · rw [if_pos hempty, if_pos hempty]
        cases hint with
        | none => exact untypedEmptySet
        | some t => exact hnew t
      · rw [if_neg hempty, if_neg hempty]
        exact hnew p.type

/-- Sets that agree, used at a type if a hint is given. -/
theorem attachSet {hint : Option TypeId}
    (hxy : C.Agree μ env.frame.scope env'.frame.scope x y) :
    Corresponds μ C env env' (CompileM.attach (.set x) hint)
      (CompileM.attach (.set y) hint) fun C' a b =>
        C'.Agree μ env.frame.scope env'.frame.scope a b
          ∧ (C.SameConstant x y → C'.SameConstant a b)
          ∧ (hint = none → a = x ∧ b = y) := by
  unfold CompileM.attach
  refine read rfl rfl ?_
  cases hint with
  | some t =>
      exact (coerce hxy).imp fun _ _ _ _ _ _ h =>
        ⟨h.1, h.2, fun hnone => by cases hnone⟩
  | none =>
      refine getSet hxy fun n m _ _ htype _ => ?_
      rw [← htype]
      by_cases hempty : n.type.isEmpty = true
      · rw [if_pos hempty, if_pos hempty]
        exact bind untypedEmptySet fun _ _ _ _ h => False.elim h
      · rw [if_neg hempty, if_neg hempty]
        exact pure ⟨hxy, id, fun _ => ⟨rfl, rfl⟩⟩

/-- A value is attached to sets that agree, and without a hint to sets
that correspond. -/
theorem attach {hint : Option TypeId} (hvw : C.Values μ v w) :
    Corresponds μ C env env' (CompileM.attach v hint) (CompileM.attach w hint)
      fun C' a b => C'.Agree μ env.frame.scope env'.frame.scope a b
        ∧ C'.SameConstant a b ∧ (hint = none → C'.sets a b) := by
  have hsettled : ∀ C' x y, C.Later C' → C'.sets x y →
      Corresponds μ C' env env' (CompileM.attach (.set x) hint)
        (CompileM.attach (.set y) hint) fun C' a b =>
          C'.Agree μ env.frame.scope env'.frame.scope a b
            ∧ C'.SameConstant a b ∧ (hint = none → C'.sets a b) := by
    intro C' x y _ hxy
    refine intro fun hc hframe => (attachSet (hc.agree hxy hframe.scope)).imp ?_
    intro C'' a b hlater _ _ hab
    refine ⟨hab.1, hab.2.1 (hc.sameConstant hxy), fun hnone => ?_⟩
    rw [(hab.2.2 hnone).1, (hab.2.2 hnone).2]
    exact hlater.sets x y hxy
  have hgrows : ∀ x : SetId, Growing (CompileM.attach (.set x) hint : CompileM κ _) :=
    fun _ => inferInstance
  unfold CompileM.attach at hsettled hgrows ⊢
  exact bind_growing hgrows hgrows (settle hvw) hsettled

-- =========================================================== operators

section Operators

variable [NameDigest]

omit [NameDigest] in
theorem convertOperand {target : TypeId}
    (hxy : C.Agree μ env.frame.scope env'.frame.scope x y) :
    Corresponds μ C env env' (CompileM.convertOperand x target)
      (CompileM.convertOperand y target) fun C' a b =>
        C'.Agree μ env.frame.scope env'.frame.scope a b := by
  unfold CompileM.convertOperand
  refine typeOf hxy fun t => readSchema ?_
  cases env.schema.conversion? t target with
  | none => exact pure hxy
  | some conversion =>
      cases conversion with
      | implicit => exact (castSet hxy).imp fun _ _ _ _ _ _ h => h.1
      | identity => exact pure hxy
      | upcast => exact pure hxy
      | explicit => exact pure hxy

/-- Two operands, each of which agrees. -/
def AgreeTwo (μ : Likeness) (scope scope' : ScopeId) (C : Correspondence κ)
    (a b : SetId × SetId) : Prop :=
  C.Agree μ scope scope' a.1 b.1 ∧ C.Agree μ scope scope' a.2 b.2

/-- Two operands that agree, and one type of the result. -/
def AgreeTyped (μ : Likeness) (scope scope' : ScopeId) (C : Correspondence κ)
    (a b : SetId × SetId × TypeId) : Prop :=
  C.Agree μ scope scope' a.1 b.1 ∧ C.Agree μ scope scope' a.2.1 b.2.1
    ∧ a.2.2 = b.2.2

variable {v' w' : Value} {x' y' : SetId}

omit [NameDigest] in
/-- Both operands at a type. -/
theorem attachBoth {hint hint' : Option TypeId} (hvw : C.Values μ v w)
    (hvw' : C.Values μ v' w') :
    Corresponds μ C env env'
      (do
        let a ← CompileM.attach v hint
        let b ← CompileM.attach v' hint'
        return (a, b))
      (do
        let a ← CompileM.attach w hint
        let b ← CompileM.attach w' hint'
        return (a, b))
      (AgreeTwo μ env.frame.scope env'.frame.scope) := by
  refine bind (attach hvw) ?_
  intro C₁ a b h₁ hab
  refine bind (attach (hvw'.mono h₁)) ?_
  intro C₂ a' b' h₂ hab'
  exact pure ⟨hab.1.mono h₂, hab'.1⟩

theorem attachOperands {op : BinaryOp} (hvw : C.Values μ v w)
    (hvw' : C.Values μ v' w') :
    Corresponds μ C env env' (CompileM.attachOperands op v v')
      (CompileM.attachOperands op w w')
      (AgreeTwo μ env.frame.scope env'.frame.scope) := by
  unfold CompileM.attachOperands
  by_cases hop : op.isLogical = true
  · rw [if_pos hop, if_pos hop]
    exact attachBoth hvw hvw'
  · rw [if_neg hop, if_neg hop]
    exact valueType hvw fun t => valueType hvw' fun u => attachBoth hvw hvw'

/-- Both operands at a common type. -/
theorem convertBoth {target t : TypeId}
    (hxy : C.Agree μ env.frame.scope env'.frame.scope x y)
    (hxy' : C.Agree μ env.frame.scope env'.frame.scope x' y') :
    Corresponds μ C env env'
      (do
        let a ← CompileM.convertOperand x target
        let b ← CompileM.convertOperand x' target
        return (a, b, t))
      (do
        let a ← CompileM.convertOperand y target
        let b ← CompileM.convertOperand y' target
        return (a, b, t))
      (AgreeTyped μ env.frame.scope env'.frame.scope) := by
  refine bind (convertOperand hxy) ?_
  intro C₁ a b h₁ hab
  refine bind (convertOperand (hxy'.mono h₁)) ?_
  intro C₂ a' b' h₂ hab'
  exact pure ⟨hab.mono h₂, hab', rfl⟩

variable {mismatch mismatch' : CompileError}

theorem comparison {objects : Bool} (hcause : mismatch.cause = mismatch'.cause)
    (hxy : C.Agree μ env.frame.scope env'.frame.scope x y)
    (hxy' : C.Agree μ env.frame.scope env'.frame.scope x' y') :
    Corresponds μ C env env' (CompileM.comparison x x' objects mismatch)
      (CompileM.comparison y y' objects mismatch')
      (AgreeTyped μ env.frame.scope env'.frame.scope) := by
  unfold CompileM.comparison
  refine readSchema (typeOf hxy fun t => typeOf hxy' fun u => ?_)
  refine orFail hcause fun common _ => ?_
  cases objects with
  | true => exact pure ⟨hxy, hxy', rfl⟩
  | false => exact convertBoth hxy hxy'

theorem arithmetic (hcause : mismatch.cause = mismatch'.cause)
    (hxy : C.Agree μ env.frame.scope env'.frame.scope x y)
    (hxy' : C.Agree μ env.frame.scope env'.frame.scope x' y') :
    Corresponds μ C env env' (CompileM.arithmetic x x' mismatch)
      (CompileM.arithmetic y y' mismatch')
      (AgreeTyped μ env.frame.scope env'.frame.scope) := by
  unfold CompileM.arithmetic
  refine readSchema (typeOf hxy fun t => typeOf hxy' fun u => ?_)
  split
  · exact pure ⟨hxy, hxy', rfl⟩
  · exact require hcause fun _ => convertBoth hxy hxy'
  · exact fail hcause

theorem concatenation (hcause : mismatch.cause = mismatch'.cause)
    (hxy : C.Agree μ env.frame.scope env'.frame.scope x y)
    (hxy' : C.Agree μ env.frame.scope env'.frame.scope x' y') :
    Corresponds μ C env env' (CompileM.concatenation x x' mismatch)
      (CompileM.concatenation y y' mismatch')
      (AgreeTyped μ env.frame.scope env'.frame.scope) := by
  unfold CompileM.concatenation
  refine readSchema (typeOf hxy fun t => typeOf hxy' fun u => ?_)
  split
  · exact pure ⟨hxy, hxy', rfl⟩
  · exact fail hcause

theorem typeBinary {op : BinaryOp}
    (hxy : C.Agree μ env.frame.scope env'.frame.scope x y)
    (hxy' : C.Agree μ env.frame.scope env'.frame.scope x' y') :
    Corresponds μ C env env' (CompileM.typeBinary op x x' span)
      (CompileM.typeBinary op y y' span')
      (AgreeTyped μ env.frame.scope env'.frame.scope) := by
  unfold CompileM.typeBinary
  refine readSchema (typeOf hxy fun t => typeOf hxy' fun u => ?_)
  by_cases hlogical : op.isLogical = true
  · rw [if_pos hlogical, if_pos hlogical]
    exact pure ⟨hxy, hxy', rfl⟩
  rw [if_neg hlogical, if_neg hlogical]
  refine require rfl fun _ => ?_
  by_cases hcomparison : op.isComparison = true
  · rw [if_pos hcomparison, if_pos hcomparison]
    exact comparison rfl hxy hxy'
  rw [if_neg hcomparison, if_neg hcomparison]
  by_cases hconcat : op = .concat
  · rw [if_pos hconcat, if_pos hconcat]
    exact concatenation rfl hxy hxy'
  · rw [if_neg hconcat, if_neg hconcat]
    exact arithmetic rfl hxy hxy'

omit [DecidableEq κ] [PathKey κ] [NameDigest] in
/-- Operations that are no literals answer each other if they are alike. -/
theorem values_of_plain {op op' : Operation} {t : TypeId} {c d : Cardinality}
    (hspan : μ.Spans span span') (htally : μ.Tally c d)
    (hconst : op.constant? = none) (hconst' : op'.constant? = none)
    (hop : μ = .same → C.OperationRenamed op op') :
    C.Values μ (.pending ⟨op, t, c, span⟩) (.pending ⟨op', t, d, span'⟩) :=
  .pending ⟨rfl, hspan, htally, hconst.trans hconst'.symm,
    fun _ h => absurd hconst h, hop⟩

theorem binary {op : BinaryOp} (hvw : C.Values μ v w) (hvw' : C.Values μ v' w')
    (hspan : μ.Spans span span') :
    Corresponds μ C env env' (CompileM.binary op v v' span)
      (CompileM.binary op w w' span') fun C' => C'.Values μ := by
  have hgrows : ∀ (a : SetId × SetId × TypeId) (span : Span), Growing (do
      let c ← CompileM.judge a.1
      let d ← CompileM.judge a.2.1
      return Value.pending ⟨.binary a.1 op a.2.1, a.2.2, c.mul d, span⟩ :
        CompileM κ _) := fun _ _ => inferInstance
  have hgrows' : ∀ (a : SetId × SetId) (span : Span), Growing (do
      let b ← CompileM.typeBinary op a.1 a.2 span
      let c ← CompileM.judge b.1
      let d ← CompileM.judge b.2.1
      return Value.pending ⟨.binary b.1 op b.2.1, b.2.2, c.mul d, span⟩ :
        CompileM κ _) := fun _ span => .of_bind inferInstance fun a => hgrows a span
  unfold CompileM.binary
  refine bind_growing (hgrows' · _) (hgrows' · _) (attachOperands hvw hvw') ?_
  intro C₁ a b _ hab
  refine bind_growing (hgrows · _) (hgrows · _) (typeBinary hab.1 hab.2) ?_
  intro C₂ a b _ hab
  obtain ⟨hl, hr, htype⟩ := hab
  refine judge hl fun c d htally => judge hr fun c' d' htally' => ?_
  rw [htype]
  exact pure (values_of_plain hspan (htally.mul htally') rfl rfl
    fun hμ => .binary op (hl.sets hμ) (hr.sets hμ))

theorem logicalNot (hvw : C.Values μ v w) (hspan : μ.Spans span span') :
    Corresponds μ C env env' (CompileM.logicalNot v span)
      (CompileM.logicalNot w span') fun C' => C'.Values μ := by
  unfold CompileM.logicalNot
  refine bind (attach hvw) ?_
  intro C₁ a b _ hab
  refine judge hab.1 fun c d htally => pure ?_
  exact values_of_plain hspan htally rfl rfl fun hμ => .unary .not (hab.1.sets hμ)

omit [NameDigest] in
theorem arithmeticNeg (hvw : C.Values μ v w) (hspan : μ.Spans span span') :
    Corresponds μ C env env' (CompileM.arithmeticNeg v span)
      (CompileM.arithmeticNeg w span') fun C' => C'.Values μ := by
  unfold CompileM.arithmeticNeg
  refine bind (attach hvw) ?_
  intro C₁ a b _ hab
  refine readSchema (typeOf hab.1 fun t => ?_)
  refine require rfl fun _ => require rfl fun _ => ?_
  refine judge hab.1 fun c d htally => pure ?_
  exact values_of_plain hspan htally rfl rfl fun hμ => .unary .neg (hab.1.sets hμ)

end Operators

-- =============================================================== casts

theorem castTarget {target target' : Ast.NameRef} (h : target.Alike μ target') :
    Corresponds μ C env env' (CompileM.castTarget target)
      (CompileM.castTarget target') fun _ t u => t = u := by
  unfold CompileM.castTarget
  refine resolve h.name fun item => ?_
  cases item with
  | type id entry => exact pure rfl
  | function name sig => exact fail rfl

theorem cast {target : TypeId} (hvw : C.Values μ v w) (hspan : μ.Spans span span') :
    Corresponds μ C env env' (CompileM.cast v target span)
      (CompileM.cast w target span') fun C' => C'.Values μ := by
  unfold CompileM.cast
  refine valueType hvw fun t => bind (attach hvw) ?_
  intro C₁ a b _ hab
  refine readSchema (typeOf hab.1 fun u => orFail rfl fun conversion _ => ?_)
  refine judge hab.1 fun c d htally => pure ?_
  exact values_of_plain hspan htally rfl rfl
    fun hμ => .cast target conversion (hab.1.sets hμ)

-- ======================================================== set literals

/-- The elements of a set literal. -/
def ValuesAll (μ : Likeness) (C : Correspondence κ)
    (es es' : List (Value × Span)) : Prop :=
  List.Forall₂ (fun e e' => C.Values μ e.1 e'.1) es es'

omit [DecidableEq κ] [PathKey κ] in
theorem ValuesAll.mono {C' : Correspondence κ} (h : C.Later C')
    {es es' : List (Value × Span)} (hes : ValuesAll μ C es es') :
    ValuesAll μ C' es es' :=
  hes.imp fun _ _ he => he.mono h

/-- The members of a union, with their cardinalities. -/
def AgreeAll (μ : Likeness) (scope scope' : ScopeId) (C : Correspondence κ)
    (ms ms' : List (SetId × Cardinality)) : Prop :=
  List.Forall₂ (fun m m' => C.Agree μ scope scope' m.1 m'.1 ∧ μ.Tally m.2 m'.2)
    ms ms'

theorem commonElementType {common : TypeId} {es es' : List (Value × Span)}
    (hes : ValuesAll μ C es es') :
    Corresponds μ C env env' (CompileM.commonElementType common es)
      (CompileM.commonElementType common es') fun _ t u => t = u := by
  induction hes generalizing common with
  | nil => exact pure rfl
  | @cons e e' es es' he _ ih =>
      obtain ⟨v, span⟩ := e
      obtain ⟨w, span'⟩ := e'
      unfold CompileM.commonElementType
      refine valueType he fun t => ?_
      by_cases htype : t.isEmpty = true
      · rw [if_pos htype, if_pos htype]
        exact ih
      rw [if_neg htype, if_neg htype]
      by_cases hcommon : common.isEmpty = true
      · rw [if_pos hcommon, if_pos hcommon]
        exact ih
      · rw [if_neg hcommon, if_neg hcommon]
        exact readSchema (orFail rfl fun _ _ => ih)

theorem attachMembers {hint : Option TypeId} {es es' : List (Value × Span)}
    (hes : ValuesAll μ C es es') :
    Corresponds μ C env env' (CompileM.attachMembers hint es)
      (CompileM.attachMembers hint es')
      (AgreeAll μ env.frame.scope env'.frame.scope) := by
  induction es generalizing C es' with
  | nil =>
      cases hes
      exact pure .nil
  | cons e es ih =>
      cases hes with
      | @cons _ e' _ es' he hes =>
          obtain ⟨v, span⟩ := e
          obtain ⟨w, span'⟩ := e'
          unfold CompileM.attachMembers
          refine bind (attach he) ?_
          intro C₁ a b h₁ hab
          refine judge hab.1 fun c d htally => ?_
          refine bind (ih (ValuesAll.mono h₁ hes)) ?_
          intro C₂ ms ms' h₂ hms
          exact pure (.cons ⟨hab.1.mono h₂, htally⟩ hms)

theorem unionOf {es es' : List (Value × Span)} (hes : ValuesAll μ C es es')
    (hspan : μ.Spans span span') :
    Corresponds μ C env env' (CompileM.unionOf es span)
      (CompileM.unionOf es' span') fun C' => C'.Values μ := by
  unfold CompileM.unionOf
  refine bind (commonElementType hes) ?_
  intro C₁ common _ h₁ heq
  subst heq
  refine bind (attachMembers (hes.mono h₁)) ?_
  intro C₂ ms ms' _ hms
  refine pure (values_of_plain hspan (.unionCardinality ?_) rfl rfl
    fun hμ => .union ?_)
  · exact List.forall₂_map_left_iff.2 (List.forall₂_map_right_iff.2
      (hms.imp fun _ _ hm => hm.2))
  · exact List.forall₂_map_left_iff.2 (List.forall₂_map_right_iff.2
      (hms.imp fun _ _ hm => hm.1.sets hμ))

theorem setOf {es es' : List (Value × Span)} (hes : ValuesAll μ C es es')
    (hspan : μ.Spans span span') :
    Corresponds μ C env env' (CompileM.setOf es span)
      (CompileM.setOf es' span') fun C' => C'.Values μ := by
  cases hes with
  | nil =>
      exact pure (values_of_plain hspan (.refl _ _) rfl rfl fun _ => .emptySet)
  | @cons e e' _ _ he hes =>
      obtain ⟨v, span⟩ := e
      obtain ⟨w, span'⟩ := e'
      cases hes with
      | nil => exact pure he
      | cons he' hes => exact unionOf (.cons he (.cons he' hes)) hspan

-- =============================================================== calls

theorem callee {function function' : Ast.NameRef} {given : Nat}
    (h : function.Alike μ function') :
    Corresponds μ C env env' (CompileM.callee function given span)
      (CompileM.callee function' given span') fun _ r r' => r = r' := by
  unfold CompileM.callee
  refine resolve h.name fun item => ?_
  cases item with
  | type id entry => exact fail rfl
  | function name sig => exact require rfl fun _ => pure rfl

theorem checkArgument {type : ParamType} {position : Nat}
    {function : QualifiedName}
    (hxy : C.Agree μ env.frame.scope env'.frame.scope x y) :
    Corresponds μ C env env' (CompileM.checkArgument x type position function)
      (CompileM.checkArgument y type position function) fun C' a b =>
        C'.Agree μ env.frame.scope env'.frame.scope a b := by
  unfold CompileM.checkArgument
  refine readSchema (getSet hxy fun n m _ _ htype _ => ?_)
  dsimp only
  rw [← htype]
  cases type with
  | any => exact pure hxy
  | numeric => exact require rfl fun _ => pure hxy
  | concrete target =>
      dsimp only
      cases env.schema.conversion? n.type target with
      | none => exact fail rfl
      | some conversion =>
          cases conversion with
          | implicit => exact (castSet hxy).imp fun _ _ _ _ _ _ h => h.1
          | identity => exact pure hxy
          | upcast => exact pure hxy
          | explicit => exact pure hxy

/-- Arguments agree as seen from some nodes. -/
def AgreeSomewhere (μ : Likeness) (C : Correspondence κ) (x y : SetId) : Prop :=
  ∃ scope scope', C.Agree μ scope scope' x y

omit [DecidableEq κ] [PathKey κ] in
theorem AgreeSomewhere.mono {C' : Correspondence κ} (h : C.Later C')
    (hxy : AgreeSomewhere μ C x y) : AgreeSomewhere μ C' x y := by
  obtain ⟨scope, scope', hagree⟩ := hxy
  exact ⟨scope, scope', hagree.mono h⟩

theorem returnType {returns : ReturnType} {function : QualifiedName}
    {args args' : List SetId}
    (hargs : List.Forall₂ (AgreeSomewhere μ C) args args') :
    Corresponds μ C env env' (CompileM.returnType returns function args)
      (CompileM.returnType returns function args') fun _ t u => t = u := by
  unfold CompileM.returnType
  cases returns with
  | concrete t => exact pure rfl
  | sameAs position =>
      dsimp only
      obtain ⟨hlen, hget⟩ := List.forall₂_iff_get.1 hargs
      by_cases hlt : position < args.length
      · have hlt' : position < args'.length := hlen ▸ hlt
        rw [List.getElem?_eq_getElem hlt, List.getElem?_eq_getElem hlt']
        obtain ⟨scope, scope', hagree⟩ := hget position hlt hlt'
        obtain ⟨n, m, hn, hm, htype⟩ := hagree.exists_get?
        refine read (run_orFail _ _ _ _) (run_orFail _ _ _ _) ?_
        exact of_run (run_typeOf hn) (run_typeOf hm) htype
      · rw [List.getElem?_eq_none (by omega), List.getElem?_eq_none (by omega)]
        exact orFail rfl fun _ h => by cases h

theorem call {function : QualifiedName} {sig : Signature}
    {args args' : List SetId} {c d : Cardinality}
    (hargs : List.Forall₂ (AgreeSomewhere μ C) args args') (htally : μ.Tally c d)
    (hspan : μ.Spans span span') :
    Corresponds μ C env env' (CompileM.call function sig args c span)
      (CompileM.call function sig args' d span') fun C' => C'.Values μ := by
  unfold CompileM.call
  refine bind (returnType hargs) ?_
  intro C₁ t _ h₁ heq
  subst heq
  refine pure (values_of_plain hspan htally rfl rfl fun hμ => ?_)
  refine .call function sig.isAggregate (hargs.imp fun x y h => ?_)
  obtain ⟨scope, scope', hagree⟩ := h
  exact h₁.sets x y (hagree.sets hμ)

end CompileM.Corresponds

end PathQuery
