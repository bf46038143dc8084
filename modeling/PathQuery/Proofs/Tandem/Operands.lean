/-
Operands that agree combine to values that agree.

What an expression gives on the two sides are sets that are mates, or
operations that answer each other (`Values`). Putting such values to use
gives sets that agree as seen from the active node, and these are all
that operators, calls and clauses ask for: they read types, which are
the same, and cardinalities, of which the second is no greater. So they
combine to values of which the same is true.

There is one lemma for each function of the compiler that combines
operands, in the order of the compiler's modules. One of them is not
alike on both sides: a clause refers to a shared path by a set of its
own, unless the path was first met in that clause, which may be so on
one side and not on the other (`referenceAt`).
-/
import PathQuery.Compile.Query
import PathQuery.Proofs.Tandem.Follows

namespace PathQuery

open Ir

variable {κ κ' α α' β β' : Type} [DecidableEq κ] [PathKey κ]

-- ============================================================== values

namespace Tandem

variable {T T' : Tandem κ κ'} {v w : Value}

/-- An operation and one of the same type that counts no more. -/
structure Answers (T : Tandem κ κ') (p q : Pending) : Prop where
  type : p.type = q.type
  span : p.span = q.span
  count : q.cardinality ≤ p.cardinality
  constant : p.operation.constant? = q.operation.constant?
  exact : T.left.arena.Faithful → p = q

/-- What an expression gives on the two sides. -/
inductive Values (T : Tandem κ κ') : Value → Value → Prop where
  | set {x y : SetId} (h : T.mates x y) : Values T (.set x) (.set y)
  | pending {p q : Pending} (h : T.Answers p q) :
      Values T (.pending p) (.pending q)

omit [DecidableEq κ] in
theorem Answers.mono (h : T.Later T') {p q : Pending} (hpq : T.Answers p q) :
    T'.Answers p q :=
  ⟨hpq.type, hpq.span, hpq.count, hpq.constant,
    fun hf => hpq.exact (hf.of_extends h.left.arena)⟩

omit [DecidableEq κ] in
theorem Values.mono (h : T.Later T') (hvw : T.Values v w) : T'.Values v w := by
  cases hvw with
  | set hxy => exact .set (h.mates _ _ hxy)
  | pending hpq => exact .pending (hpq.mono h)

end Tandem

namespace CompileM.Follows

variable {T : Tandem κ κ'} {env : Env} {subject : Option SetId} {x y : SetId}
  {v w : Value} {span : Span} {post : Tandem κ κ' → β → β' → Prop}

-- =============================================================== reads

/-- Sets that agree are read. -/
theorem getSet {scope : ScopeId} (hxy : T.Agree scope x y)
    {f : SetNode κ → CompileM κ β} {f' : SetNode κ' → CompileM κ' β'}
    (hf : ∀ n m, T.left.arena.get? x = some n → T.right.arena.get? y = some m →
      n.type = m.type → (T.left.arena.Faithful → n.span = m.span) →
        Follows T env subject (f n) (f' m) post) :
    Follows T env subject (CompileM.getSet x >>= f) (CompileM.getSet y >>= f')
      post := by
  refine intro fun h => ?_
  obtain ⟨n, m, c, d, hn, hm, htype, -, -, -, hsame⟩ := h.exists_of_agree hxy
  exact read (run_getSet hn) (run_getSet hm)
    (hf n m hn hm htype fun hfaith => (hsame hfaith).2.1)

theorem typeOf {scope : ScopeId} (hxy : T.Agree scope x y)
    {f : TypeId → CompileM κ β} {f' : TypeId → CompileM κ' β'}
    (hf : ∀ t, Follows T env subject (f t) (f' t) post) :
    Follows T env subject (CompileM.typeOf x >>= f) (CompileM.typeOf y >>= f')
      post := by
  obtain ⟨n, m, hn, hm, htype⟩ := hxy.exists_get?
  refine read (run_typeOf hn) (run_typeOf hm) ?_
  rw [← htype]
  exact hf n.type

theorem judge (hxy : T.Agree env.frame.scope x y)
    {f : Cardinality → CompileM κ β} {f' : Cardinality → CompileM κ' β'}
    (hf : ∀ c d, d ≤ c → (T.left.arena.Faithful → c = d) →
      Follows T env subject (f c) (f' d) post) :
    Follows T env subject (CompileM.judge x >>= f) (CompileM.judge y >>= f')
      post := by
  refine intro fun h => ?_
  obtain ⟨n, m, c, d, -, -, -, hc, hd, hle, hsame⟩ := h.exists_of_agree hxy
  exact read (run_judge hc) (run_judge hd)
    (hf c d hle fun hfaith => (hsame hfaith).2.2)

theorem valueType (hvw : T.Values v w) (hs : env.frame.scope < T.left.scopes.size)
    {f : TypeId → CompileM κ β} {f' : TypeId → CompileM κ' β'}
    (hf : ∀ t, Follows T env subject (f t) (f' t) post) :
    Follows T env subject (CompileM.valueType v >>= f)
      (CompileM.valueType w >>= f') post := by
  cases hvw with
  | set hxy => exact intro fun h => typeOf (h.agree hxy hs) hf
  | pending hpq =>
      refine read rfl rfl ?_
      rw [← hpq.type]
      exact hf _

-- =================================================== one set for another

theorem castSet {target : TypeId} {conversion : Conversion}
    (hxy : T.Agree env.frame.scope x y) :
    Follows T env subject (CompileM.castSet x target conversion)
      (CompileM.castSet y target conversion) fun T' a b =>
        T'.Agree env.frame.scope a b := by
  unfold CompileM.castSet
  refine getSet hxy fun n m _ _ _ hspan => ?_
  refine judge hxy fun c d hle hcount => ?_
  refine newComputed_agree hxy.active hle rfl fun hf => ?_
  exact ⟨by rw [hxy.exact hf], hcount hf, hspan hf⟩

theorem coerce {target : TypeId} (hxy : T.Agree env.frame.scope x y) :
    Follows T env subject (CompileM.coerce x target) (CompileM.coerce y target)
      fun T' a b => T'.Agree env.frame.scope a b := by
  unfold CompileM.coerce
  refine getSet hxy fun n m _ _ htype hspan => readSchema ?_
  rw [← htype]
  by_cases hempty : n.type.isEmpty = true
  · rw [if_pos hempty, if_pos hempty]
    refine judge hxy fun c d hle hcount => ?_
    exact newComputed_agree hxy.active hle rfl fun hf =>
      ⟨rfl, hcount hf, hspan hf⟩
  · rw [if_neg hempty, if_neg hempty]
    cases env.schema.conversion? n.type target with
    | none =>
        exact readFrame (fail rfl fun hf => by rw [hspan hf])
    | some conversion =>
        cases conversion with
        | identity => exact pure hxy
        | upcast => exact pure hxy
        | implicit => exact castSet hxy
        | explicit => exact castSet hxy

/-- The first side alone refers to a set by a set of its own. -/
theorem reference_left (hxy : T.mates x y)
    (hs : env.frame.scope < T.left.scopes.size)
    (hf : ¬ T.left.arena.Faithful) {t : TypeId}
    (ht : T.left.arena.type? x = some t)
    (hconst : T.right.arena.constant? y = none) :
    Follows T env subject (do
      let c ← CompileM.judge x
      CompileM.newComputed (.reference x) t c span) (Pure.pure y)
      fun T' a b => T'.Agree env.frame.scope a b := by
  intro h
  have hagree := h.agree hxy hs
  obtain ⟨c, d, hc, hd, hle⟩ := hagree.refines.count
  obtain ⟨t', ht', hty⟩ := hagree.refines.type
  rw [ht] at ht'
  cases ht'
  obtain ⟨node, hsource, -, -, hrun, htype, hcount, hnone⟩ :=
    exists_run_reference t span hc
  obtain ⟨mates, hlater, hmirrored⟩ := h.push_left hsource hf
  rw [hrun]
  exact .of_ok hlater hmirrored ⟨hs, hagree.active',
    ⟨⟨t, htype, hty⟩, c, d, hcount, hd, hle⟩, hnone.trans hconst.symm,
    fun hf' => absurd (hf'.of_extends hlater.left.arena) hf⟩

/-- The other side alone refers to a set by a set of its own. -/
theorem reference_right (hxy : T.mates x y)
    (hs : env.frame.scope < T.left.scopes.size)
    (hf : ¬ T.left.arena.Faithful) {t : TypeId}
    (ht : T.right.arena.type? y = some t)
    (hconst : T.left.arena.constant? x = none) :
    Follows T env subject (Pure.pure x) (do
      let d ← CompileM.judge y
      CompileM.newComputed (.reference y) t d span)
      fun T' a b => T'.Agree env.frame.scope a b := by
  intro h
  have hagree := h.agree hxy hs
  obtain ⟨c, d, hc, hd, hle⟩ := hagree.refines.count
  obtain ⟨t', hty, ht'⟩ := hagree.refines.type
  rw [ht] at ht'
  cases ht'
  -- the other side may be under another subject, which judging ignores
  change T.right.judge? (env.onSubject subject).frame.scope y = some d at hd
  obtain ⟨node, hsource, -, -, hrun, htype, hcount, hnone⟩ :=
    exists_run_reference t span hd
  obtain ⟨mates, hlater, hmirrored⟩ := h.push_right hsource hf
  rw [hrun]
  exact .of_ok hlater hmirrored ⟨hs, hagree.active',
    ⟨⟨t, hty, htype⟩, c, d, hc, hcount, hle⟩, hconst.trans hnone.symm,
    fun hf' => absurd hf' hf⟩

/-- A set as the syntax at `span` refers to it, on the two sides. Where
one side refers to it by a set of its own and the other does not, keys
have collided. -/
theorem referenceAt (hxy : T.mates x y)
    (hs : env.frame.scope < T.left.scopes.size) :
    Follows T env subject (CompileM.referenceAt x span)
      (CompileM.referenceAt y span) fun T' a b =>
        T'.Agree env.frame.scope a b := by
  refine intro fun h => ?_
  have hagree := h.agree hxy hs
  obtain ⟨n, m, hn, hm, hnm⟩ := h.mated x y hxy
  -- computed mates have one span, so sets that have two are paths
  have hpath : n.span ≠ m.span → T.left.arena.constant? x = none
      ∧ T.right.arena.constant? y = none := by
    intro hne
    rw [Arena.constant?_eq hn, Arena.constant?_eq hm]
    cases hnm.kin with
    | root ho ho' =>
        rw [ho, ho']
        exact ⟨rfl, rfl⟩
    | step ho ho' =>
        rw [ho, ho']
        exact ⟨rfl, rfl⟩
    | computed _ _ _ hspan => exact absurd hspan hne
  unfold CompileM.referenceAt
  refine getSet hagree fun n' m' hn' hm' _ hspan => ?_
  rw [hn] at hn'
  rw [hm] at hm'
  cases hn'
  cases hm'
  by_cases hleft : n.span = span
  · rw [if_pos hleft]
    by_cases hright : m.span = span
    · rw [if_pos hright]
      exact pure hagree
    · have hne : n.span ≠ m.span := fun heq => hright (heq ▸ hleft)
      rw [if_neg hright]
      exact reference_right hxy hs (fun hf => hne (hspan hf))
        (Arena.type?_eq_some_iff.2 ⟨m, hm, rfl⟩) (hpath hne).1
  · rw [if_neg hleft]
    by_cases hright : m.span = span
    · have hne : n.span ≠ m.span := fun heq => hleft (heq.trans hright)
      rw [if_pos hright]
      exact reference_left hxy hs (fun hf => hne (hspan hf))
        (Arena.type?_eq_some_iff.2 ⟨n, hn, rfl⟩) (hpath hne).2
    · rw [if_neg hright, ← hnm.type]
      refine judge hagree fun c d hle hcount => ?_
      refine newComputed_agree hs hle rfl fun hf => ?_
      exact ⟨by rw [hagree.exact hf], hcount hf, rfl⟩

-- ========================================================== attachment

theorem untypedEmptySet {span' : Span} {mid : Tandem κ κ' → α → α' → Prop}
    (hspan : T.left.arena.Faithful → span = span') :
    Follows T env subject (CompileM.untypedEmptySet span)
      (CompileM.untypedEmptySet span') mid := by
  unfold CompileM.untypedEmptySet
  exact readFrame (fail rfl fun hf => by rw [hspan hf])

theorem settle {hint : Option TypeId} (hvw : T.Values v w)
    (hs : env.frame.scope < T.left.scopes.size) :
    Follows T env subject (CompileM.settle v hint) (CompileM.settle w hint)
      fun T' x y => T'.mates x y := by
  cases hvw with
  | set hxy => exact pure hxy
  | @pending p q hpq =>
      have hnew : ∀ t, Follows T env subject
          (CompileM.newComputed p.operation t p.cardinality p.span)
          (CompileM.newComputed q.operation t q.cardinality q.span)
          fun T' x y => T'.mates x y := by
        intro t
        refine (newComputed hs hpq.count hpq.constant fun hf => ?_).imp
          fun _ _ _ _ h => h.2 hpq.span
        obtain rfl := hpq.exact hf
        exact ⟨rfl, rfl, rfl⟩
      unfold CompileM.settle
      dsimp only
      rw [← hpq.type]
      by_cases hempty : p.type.isEmpty = true
      · rw [if_pos hempty, if_pos hempty]
        cases hint with
        | none => exact untypedEmptySet fun _ => hpq.span
        | some t => exact hnew t
      · rw [if_neg hempty, if_neg hempty]
        exact hnew p.type

/-- A set that agrees, used at a type if a hint is given. -/
theorem attachSet {hint : Option TypeId} (hxy : T.Agree env.frame.scope x y) :
    Follows T env subject (CompileM.attach (.set x) hint)
      (CompileM.attach (.set y) hint) fun T' a b =>
        T'.Agree env.frame.scope a b ∧ (hint = none → a = x ∧ b = y) := by
  unfold CompileM.attach
  refine read rfl rfl ?_
  cases hint with
  | some t =>
      exact (coerce hxy).imp fun _ _ _ _ h => ⟨h, fun hnone => by cases hnone⟩
  | none =>
      refine getSet hxy fun n m _ _ htype hspan => ?_
      rw [← htype]
      by_cases hempty : n.type.isEmpty = true
      · rw [if_pos hempty, if_pos hempty]
        exact bind (untypedEmptySet hspan) fun _ _ _ _ h => False.elim h
      · rw [if_neg hempty, if_neg hempty]
        exact pure ⟨hxy, fun _ => ⟨rfl, rfl⟩⟩

/-- A value is attached to sets that agree, and without a hint to
mates. -/
theorem attach {hint : Option TypeId} (hvw : T.Values v w)
    (hs : env.frame.scope < T.left.scopes.size) :
    Follows T env subject (CompileM.attach v hint) (CompileM.attach w hint)
      fun T' a b => T'.Agree env.frame.scope a b
        ∧ (hint = none → T'.mates a b) := by
  have hsettled : ∀ T' x y, T.Later T' → T'.mates x y →
      Follows T' env subject (CompileM.attach (.set x) hint)
        (CompileM.attach (.set y) hint) fun T' a b =>
          T'.Agree env.frame.scope a b ∧ (hint = none → T'.mates a b) := by
    intro T' x y hlater hxy
    refine intro fun h => (attachSet (h.agree hxy
      (Nat.lt_of_lt_of_le hs hlater.left.size_le))).imp ?_
    intro T'' a b hlater' hab
    refine ⟨hab.1, fun hnone => ?_⟩
    rw [(hab.2 hnone).1, (hab.2 hnone).2]
    exact hlater'.mates x y hxy
  unfold CompileM.attach at hsettled ⊢
  exact bind (settle hvw hs) hsettled

-- =========================================================== operators

section Operators

variable [NameDigest]

omit [NameDigest] in
theorem convertOperand {target : TypeId} (hxy : T.Agree env.frame.scope x y) :
    Follows T env subject (CompileM.convertOperand x target)
      (CompileM.convertOperand y target) fun T' a b =>
        T'.Agree env.frame.scope a b := by
  unfold CompileM.convertOperand
  refine typeOf hxy fun t => readSchema ?_
  cases env.schema.conversion? t target with
  | none => exact pure hxy
  | some conversion =>
      cases conversion with
      | implicit => exact castSet hxy
      | identity => exact pure hxy
      | upcast => exact pure hxy
      | explicit => exact pure hxy

/-- Two operands, each of which agrees. -/
def AgreeTwo (T : Tandem κ κ') (scope : ScopeId) (a b : SetId × SetId) : Prop :=
  T.Agree scope a.1 b.1 ∧ T.Agree scope a.2 b.2

/-- Two operands that agree, and one type of the result. -/
def AgreeTyped (T : Tandem κ κ') (scope : ScopeId)
    (a b : SetId × SetId × TypeId) : Prop :=
  T.Agree scope a.1 b.1 ∧ T.Agree scope a.2.1 b.2.1 ∧ a.2.2 = b.2.2

variable {v' w' : Value} {x' y' : SetId}

omit [NameDigest] in
/-- Both operands at a type. -/
theorem attachBoth {hint hint' : Option TypeId} (hvw : T.Values v w)
    (hvw' : T.Values v' w') (hs : env.frame.scope < T.left.scopes.size) :
    Follows T env subject
      (do
        let a ← CompileM.attach v hint
        let b ← CompileM.attach v' hint'
        return (a, b))
      (do
        let a ← CompileM.attach w hint
        let b ← CompileM.attach w' hint'
        return (a, b))
      fun T' a b => AgreeTwo T' env.frame.scope a b := by
  refine bind (attach hvw hs) ?_
  intro T₁ a b h₁ hab
  refine bind (attach (hvw'.mono h₁) hab.1.active) ?_
  intro T₂ a' b' h₂ hab'
  exact pure ⟨hab.1.mono h₂, hab'.1⟩

theorem attachOperands {op : BinaryOp} (hvw : T.Values v w)
    (hvw' : T.Values v' w') (hs : env.frame.scope < T.left.scopes.size) :
    Follows T env subject (CompileM.attachOperands op v v')
      (CompileM.attachOperands op w w') fun T' a b =>
        AgreeTwo T' env.frame.scope a b := by
  unfold CompileM.attachOperands
  by_cases hop : op.isLogical = true
  · rw [if_pos hop, if_pos hop]
    exact attachBoth hvw hvw' hs
  · rw [if_neg hop, if_neg hop]
    exact valueType hvw hs fun t => valueType hvw' hs fun u =>
      attachBoth hvw hvw' hs

omit [NameDigest] in
/-- Both operands at a common type. -/
theorem convertBoth {target t : TypeId} (hxy : T.Agree env.frame.scope x y)
    (hxy' : T.Agree env.frame.scope x' y') :
    Follows T env subject
      (do
        let a ← CompileM.convertOperand x target
        let b ← CompileM.convertOperand x' target
        return (a, b, t))
      (do
        let a ← CompileM.convertOperand y target
        let b ← CompileM.convertOperand y' target
        return (a, b, t))
      fun T' a b => AgreeTyped T' env.frame.scope a b := by
  refine bind (convertOperand hxy) ?_
  intro T₁ a b h₁ hab
  refine bind (convertOperand (hxy'.mono h₁)) ?_
  intro T₂ a' b' h₂ hab'
  exact pure ⟨hab.mono h₂, hab', rfl⟩

theorem comparison {objects : Bool} {mismatch : CompileError}
    (hxy : T.Agree env.frame.scope x y) (hxy' : T.Agree env.frame.scope x' y') :
    Follows T env subject (CompileM.comparison x x' objects mismatch)
      (CompileM.comparison y y' objects mismatch) fun T' a b =>
        AgreeTyped T' env.frame.scope a b := by
  unfold CompileM.comparison
  refine readSchema (typeOf hxy fun t => typeOf hxy' fun u => ?_)
  refine orFail rfl (fun _ => rfl) fun common _ => ?_
  cases objects with
  | true => exact pure ⟨hxy, hxy', rfl⟩
  | false => exact convertBoth hxy hxy'

theorem arithmetic {mismatch : CompileError}
    (hxy : T.Agree env.frame.scope x y) (hxy' : T.Agree env.frame.scope x' y') :
    Follows T env subject (CompileM.arithmetic x x' mismatch)
      (CompileM.arithmetic y y' mismatch) fun T' a b =>
        AgreeTyped T' env.frame.scope a b := by
  unfold CompileM.arithmetic
  refine readSchema (typeOf hxy fun t => typeOf hxy' fun u => ?_)
  split
  · exact pure ⟨hxy, hxy', rfl⟩
  · exact require rfl (fun _ => rfl) fun _ => convertBoth hxy hxy'
  · exact fail rfl fun _ => rfl

theorem concatenation {mismatch : CompileError}
    (hxy : T.Agree env.frame.scope x y) (hxy' : T.Agree env.frame.scope x' y') :
    Follows T env subject (CompileM.concatenation x x' mismatch)
      (CompileM.concatenation y y' mismatch) fun T' a b =>
        AgreeTyped T' env.frame.scope a b := by
  unfold CompileM.concatenation
  refine readSchema (typeOf hxy fun t => typeOf hxy' fun u => ?_)
  split
  · exact pure ⟨hxy, hxy', rfl⟩
  · exact fail rfl fun _ => rfl

theorem typeBinary {op : BinaryOp} (hxy : T.Agree env.frame.scope x y)
    (hxy' : T.Agree env.frame.scope x' y') :
    Follows T env subject (CompileM.typeBinary op x x' span)
      (CompileM.typeBinary op y y' span) fun T' a b =>
        AgreeTyped T' env.frame.scope a b := by
  unfold CompileM.typeBinary
  refine readSchema (typeOf hxy fun t => typeOf hxy' fun u => ?_)
  by_cases hlogical : op.isLogical = true
  · rw [if_pos hlogical, if_pos hlogical]
    exact pure ⟨hxy, hxy', rfl⟩
  rw [if_neg hlogical, if_neg hlogical]
  refine require rfl (fun _ => rfl) fun _ => ?_
  by_cases hcomparison : op.isComparison = true
  · rw [if_pos hcomparison, if_pos hcomparison]
    exact comparison hxy hxy'
  rw [if_neg hcomparison, if_neg hcomparison]
  by_cases hconcat : op = .concat
  · rw [if_pos hconcat, if_pos hconcat]
    exact concatenation hxy hxy'
  · rw [if_neg hconcat, if_neg hconcat]
    exact arithmetic hxy hxy'

theorem binary {op : BinaryOp} (hvw : T.Values v w) (hvw' : T.Values v' w')
    (hs : env.frame.scope < T.left.scopes.size) :
    Follows T env subject (CompileM.binary op v v' span)
      (CompileM.binary op w w' span) Tandem.Values := by
  unfold CompileM.binary
  refine bind (attachOperands hvw hvw' hs) ?_
  intro T₁ a b _ hab
  refine bind (typeBinary hab.1 hab.2) ?_
  intro T₂ a b _ hab
  obtain ⟨hl, hr, htype⟩ := hab
  refine judge hl fun c d hle hc => judge hr fun c' d' hle' hc' => ?_
  refine pure (.pending ⟨htype, rfl, Cardinality.mul_le_mul hle hle', rfl,
    fun hf => ?_⟩)
  rw [hl.exact hf, hr.exact hf, htype, hc hf, hc' hf]

theorem logicalNot (hvw : T.Values v w)
    (hs : env.frame.scope < T.left.scopes.size) :
    Follows T env subject (CompileM.logicalNot v span)
      (CompileM.logicalNot w span) Tandem.Values := by
  unfold CompileM.logicalNot
  refine bind (attach hvw hs) ?_
  intro T₁ a b _ hab
  refine judge hab.1 fun c d hle hc => ?_
  refine pure (.pending ⟨rfl, rfl, hle, rfl, fun hf => ?_⟩)
  rw [hab.1.exact hf, hc hf]

omit [NameDigest] in
theorem arithmeticNeg (hvw : T.Values v w)
    (hs : env.frame.scope < T.left.scopes.size) :
    Follows T env subject (CompileM.arithmeticNeg v span)
      (CompileM.arithmeticNeg w span) Tandem.Values := by
  unfold CompileM.arithmeticNeg
  refine bind (attach hvw hs) ?_
  intro T₁ a b _ hab
  refine readSchema (typeOf hab.1 fun t => ?_)
  refine require rfl (fun _ => rfl) fun _ => ?_
  refine require rfl (fun _ => rfl) fun _ => ?_
  refine judge hab.1 fun c d hle hc => ?_
  refine pure (.pending ⟨rfl, rfl, hle, rfl, fun hf => ?_⟩)
  rw [hab.1.exact hf, hc hf]

end Operators

-- =============================================================== casts

theorem castTarget {target : Ast.NameRef} :
    Follows T env subject (CompileM.castTarget target)
      (CompileM.castTarget target) fun _ t u => t = u := by
  unfold CompileM.castTarget
  refine resolve fun item _ => ?_
  cases item with
  | type id entry => exact pure rfl
  | function name sig => exact fail rfl fun _ => rfl

theorem cast {target : TypeId} (hvw : T.Values v w)
    (hs : env.frame.scope < T.left.scopes.size) :
    Follows T env subject (CompileM.cast v target span)
      (CompileM.cast w target span) Tandem.Values := by
  unfold CompileM.cast
  refine valueType hvw hs fun t => bind (attach hvw hs) ?_
  intro T₁ a b _ hab
  refine readSchema (typeOf hab.1 fun u => ?_)
  refine orFail rfl (fun _ => rfl) fun conversion _ => ?_
  refine judge hab.1 fun c d hle hc => ?_
  refine pure (.pending ⟨rfl, rfl, hle, rfl, fun hf => ?_⟩)
  rw [hab.1.exact hf, hc hf]

-- ======================================================== set literals

/-- The elements of a set literal, with their spans. -/
def ValuesAll (T : Tandem κ κ') (es es' : List (Value × Span)) : Prop :=
  List.Forall₂ (fun e e' => T.Values e.1 e'.1 ∧ e.2 = e'.2) es es'

omit [DecidableEq κ] in
theorem ValuesAll.mono {T' : Tandem κ κ'} (h : T.Later T')
    {es es' : List (Value × Span)} (hes : ValuesAll T es es') :
    ValuesAll T' es es' :=
  hes.imp fun _ _ he => ⟨he.1.mono h, he.2⟩

/-- The members of a union, with their cardinalities. -/
def AgreeAll (T : Tandem κ κ') (scope : ScopeId)
    (ms ms' : List (SetId × Cardinality)) : Prop :=
  List.Forall₂ (fun m m' => T.Agree scope m.1 m'.1 ∧ m'.2 ≤ m.2
    ∧ (T.left.arena.Faithful → m.2 = m'.2)) ms ms'

theorem commonElementType {common : TypeId} {es es' : List (Value × Span)}
    (hes : ValuesAll T es es') (hs : env.frame.scope < T.left.scopes.size) :
    Follows T env subject (CompileM.commonElementType common es)
      (CompileM.commonElementType common es') fun _ t u => t = u := by
  induction hes generalizing common with
  | nil => exact pure rfl
  | @cons e e' es es' he _ ih =>
      obtain ⟨v, span⟩ := e
      obtain ⟨w, span'⟩ := e'
      obtain ⟨hvw, rfl⟩ := he
      unfold CompileM.commonElementType
      refine valueType hvw hs fun t => ?_
      by_cases htype : t.isEmpty = true
      · rw [if_pos htype, if_pos htype]
        exact ih
      rw [if_neg htype, if_neg htype]
      by_cases hcommon : common.isEmpty = true
      · rw [if_pos hcommon, if_pos hcommon]
        exact ih
      · rw [if_neg hcommon, if_neg hcommon]
        exact readSchema (orFail rfl (fun _ => rfl) fun _ _ => ih)

theorem attachMembers {hint : Option TypeId} {es es' : List (Value × Span)}
    (hes : ValuesAll T es es') (hs : env.frame.scope < T.left.scopes.size) :
    Follows T env subject (CompileM.attachMembers hint es)
      (CompileM.attachMembers hint es') fun T' ms ms' =>
        AgreeAll T' env.frame.scope ms ms' := by
  induction es generalizing T es' with
  | nil =>
      cases hes
      exact pure .nil
  | cons e es ih =>
      cases hes with
      | @cons _ e' _ es' he hes =>
          obtain ⟨v, span⟩ := e
          obtain ⟨w, span'⟩ := e'
          unfold CompileM.attachMembers
          refine bind (attach he.1 hs) ?_
          intro T₁ a b h₁ hab
          refine judge hab.1 fun c d hle hc => ?_
          refine bind (ih (ValuesAll.mono h₁ hes) hab.1.active) ?_
          intro T₂ ms ms' h₂ hms
          exact pure (.cons ⟨hab.1.mono h₂, hle,
            fun hf => hc (hf.of_extends h₂.left.arena)⟩ hms)

theorem unionOf {es es' : List (Value × Span)} (hes : ValuesAll T es es')
    (hs : env.frame.scope < T.left.scopes.size) :
    Follows T env subject (CompileM.unionOf es span)
      (CompileM.unionOf es' span) Tandem.Values := by
  unfold CompileM.unionOf
  refine bind (commonElementType hes hs) ?_
  intro T₁ common _ h₁ heq
  subst heq
  refine bind (attachMembers (hes.mono h₁)
    (Nat.lt_of_lt_of_le hs h₁.left.size_le)) ?_
  intro T₂ ms ms' _ hms
  refine pure (.pending ⟨rfl, rfl, CompileM.unionCardinality_le ?_, rfl,
    fun hf => ?_⟩)
  · exact (List.forall₂_map_left_iff.2 (List.forall₂_map_right_iff.2
      (hms.flip.imp fun _ _ hm => hm.2.1)))
  · have heq : List.Forall₂ (· = ·) ms ms' := hms.imp fun _ _ hm =>
      Prod.ext (hm.1.exact hf) (hm.2.2 hf)
    rw [List.forall₂_eq_eq_eq] at heq
    rw [heq]

theorem setOf {es es' : List (Value × Span)} (hes : ValuesAll T es es')
    (hs : env.frame.scope < T.left.scopes.size) :
    Follows T env subject (CompileM.setOf es span) (CompileM.setOf es' span)
      Tandem.Values := by
  cases hes with
  | nil => exact pure (.pending ⟨rfl, rfl, le_refl _, rfl, fun _ => rfl⟩)
  | @cons e e' _ _ he hes =>
      obtain ⟨v, span⟩ := e
      obtain ⟨w, span'⟩ := e'
      cases hes with
      | nil => exact pure he.1
      | cons he' hes => exact unionOf (.cons he (.cons he' hes)) hs

-- =============================================================== calls

theorem callee {function : Ast.NameRef} {given : Nat} :
    Follows T env subject (CompileM.callee function given span)
      (CompileM.callee function given span) fun _ r r' => r = r' := by
  unfold CompileM.callee
  refine resolve fun item _ => ?_
  cases item with
  | type id entry => exact fail rfl fun _ => rfl
  | function name sig => exact require rfl (fun _ => rfl) fun _ => pure rfl

theorem checkArgument {type : ParamType} {position : Nat}
    {function : QualifiedName} (hxy : T.Agree env.frame.scope x y) :
    Follows T env subject (CompileM.checkArgument x type position function)
      (CompileM.checkArgument y type position function) fun T' a b =>
        T'.Agree env.frame.scope a b := by
  unfold CompileM.checkArgument
  refine readSchema (getSet hxy fun n m _ _ htype hspan => ?_)
  dsimp only
  rw [← htype]
  cases type with
  | any => exact pure hxy
  | numeric =>
      exact require rfl (fun hf => by rw [hspan hf]) fun _ => pure hxy
  | concrete target =>
      dsimp only
      cases env.schema.conversion? n.type target with
      | none => exact fail rfl fun hf => by rw [hspan hf]
      | some conversion =>
          cases conversion with
          | implicit => exact castSet hxy
          | identity => exact pure hxy
          | upcast => exact pure hxy
          | explicit => exact pure hxy

/-- An argument agrees as seen from some node. -/
def AgreeSomewhere (T : Tandem κ κ') (x y : SetId) : Prop :=
  ∃ scope, T.Agree scope x y

omit [DecidableEq κ] in
theorem AgreeSomewhere.mono {T' : Tandem κ κ'} (h : T.Later T')
    (hxy : AgreeSomewhere T x y) : AgreeSomewhere T' x y :=
  hxy.imp fun _ hagree => hagree.mono h

theorem returnType {returns : ReturnType} {function : QualifiedName}
    {args args' : List SetId} (hargs : List.Forall₂ (AgreeSomewhere T) args args') :
    Follows T env subject (CompileM.returnType returns function args)
      (CompileM.returnType returns function args') fun _ t u => t = u := by
  unfold CompileM.returnType
  cases returns with
  | concrete t => exact pure rfl
  | sameAs position =>
      dsimp only
      obtain ⟨hlen, hget⟩ := List.forall₂_iff_get.1 hargs
      by_cases hlt : position < args.length
      · have hlt' : position < args'.length := hlen ▸ hlt
        rw [List.getElem?_eq_getElem hlt, List.getElem?_eq_getElem hlt']
        obtain ⟨scope, hagree⟩ := hget position hlt hlt'
        obtain ⟨n, m, hn, hm, htype⟩ := hagree.exists_get?
        refine read (run_orFail _ _ _ _) (run_orFail _ _ _ _) ?_
        exact of_run (run_typeOf hn) (run_typeOf hm) htype
      · rw [List.getElem?_eq_none (by omega), List.getElem?_eq_none (by omega)]
        exact orFail rfl (fun _ => rfl) fun _ h => by cases h

theorem call {function : QualifiedName} {sig : Signature}
    {args args' : List SetId} {c d : Cardinality}
    (hargs : List.Forall₂ (AgreeSomewhere T) args args') (hle : d ≤ c)
    (hc : T.left.arena.Faithful → c = d) :
    Follows T env subject (CompileM.call function sig args c span)
      (CompileM.call function sig args' d span) Tandem.Values := by
  unfold CompileM.call
  refine bind (returnType hargs) ?_
  intro T₁ t _ h₁ heq
  subst heq
  refine pure (.pending ⟨rfl, rfl, hle, rfl, fun hf => ?_⟩)
  have hf := hf.of_extends h₁.left.arena
  have heq : List.Forall₂ (· = ·) args args' :=
    hargs.imp fun _ _ h => h.elim fun _ hab => hab.exact hf
  rw [List.forall₂_eq_eq_eq] at heq
  rw [heq, hc hf]

end CompileM.Follows

end PathQuery
