/-
Steps that do not look at what is bound.

Only paths are looked up. An operator, a cast, a call or a clause works
on sets that are there already; it reads them, counts them, and adds sets
that are bound nowhere. Such a step is `Blind`: where nothing is bound at
all it does the same, and it binds nothing.

So what is known of two blind steps in stores where nothing is bound is
known of them in any stores. With nothing bound, two stores correspond
as soon as their sets and nodes do (`Consistent.bare`), and the lemmas on
steps that correspond apply (`Corresponds`).
-/
import PathQuery.Proofs.Correspondence.Syntax

namespace PathQuery

open Ast (Likeness)
open Ir

variable {κ α β : Type}

-- =============================================================== stores

namespace ScopeTree

/-- The same nodes, with nothing bound in them. -/
def bare (t : ScopeTree κ) : ScopeTree κ :=
  ⟨t.nodes.map fun node => { node with bindings := .empty }⟩

variable (t : ScopeTree κ)

@[simp] theorem size_bare : t.bare.size = t.size := by
  simp [bare, size]

@[simp] theorem parent?_bare (n : Nat) : t.bare.parent? n = t.parent? n := by
  unfold bare parent?
  rw [Array.getElem?_map]
  cases t.nodes[n]? <;> rfl

theorem bare_attach (p : Nat) : (t.attach p).bare = t.bare.attach p := by
  unfold bare attach
  rw [Array.map_push]

@[simp] theorem ancestors_bare (n : Nat) : t.bare.ancestors n = t.ancestors n := by
  have hwalk : ∀ count m, t.bare.walk count m = t.walk count m := by
    intro count
    induction count with
    | zero => intro m; rfl
    | succ count ih =>
        intro m
        unfold walk
        rw [parent?_bare]
        cases t.parent? m with
        | none => rfl
        | some p => exact congrArg (m :: ·) (ih p)
  unfold ancestors
  rw [hwalk, size_bare]

@[simp] theorem isStrictAncestor_bare (a n : Nat) :
    t.bare.isStrictAncestor a n = t.isStrictAncestor a n := by
  unfold isStrictAncestor
  rw [ancestors_bare]

variable {t}

theorem Rooted.bare (h : t.Rooted) : t.bare.Rooted where
  size_pos := by
    rw [size_bare]
    exact h.size_pos
  parent_lt := fun id parent hp => h.parent_lt id parent (parent?_bare t id ▸ hp)

variable [DecidableEq κ]

@[simp] theorem binding?_bare (n : Nat) (key : κ) : t.bare.binding? n key = none := by
  unfold bare binding?
  rw [Array.getElem?_map]
  cases t.nodes[n]? <;> rfl

theorem not_bound_bare (t : ScopeTree κ) (n : Nat) (key : κ) (set : SetId) :
    t.bare.binding? n key ≠ some set := by
  simp

end ScopeTree

namespace Store

/-- The same sets and nodes, with nothing bound. -/
def bare (st : Store κ) : Store κ := { st with scopes := st.scopes.bare }

variable {st st' : Store κ}

theorem bare_opened (st : Store κ) (scope : ScopeId) :
    (st.opened scope).bare = st.bare.opened scope :=
  congrArg (Store.mk st.arena) (ScopeTree.bare_attach st.scopes scope)

@[simp] theorem judge?_bare (st : Store κ) (v id : Nat) :
    st.bare.judge? v id = st.judge? v id := by
  induction id using Nat.strongRecOn with
  | ind id ih =>
      cases hn : st.arena.get? id with
      | none =>
          have hnone : ∀ st' : Store κ, st'.arena = st.arena →
              st'.judge? v id = none := by
            intro st' harena
            rw [Option.eq_none_iff_forall_ne_some]
            intro c hc
            obtain ⟨node, hsome⟩ := exists_get?_of_judge? hc
            rw [harena, hn] at hsome
            cases hsome
          exact (hnone st.bare rfl).trans (hnone st rfl).symm
      | some node =>
          have habove : st.bare.scopes.isStrictAncestor node.scope v
              = st.scopes.isStrictAncestor node.scope v :=
            ScopeTree.isStrictAncestor_bare _ _ _
          have hn' : st.bare.arena.get? id = some node := hn
          rw [judge?_eq hn, judge?_eq hn', habove]
          cases ho : node.origin with
          | root => rfl
          | computed op => rfl
          | step source name per =>
              dsimp only
              rw [ih source (Arena.lt_of_source hn (by rw [ho]; rfl))]

theorem Extends.bare (h : st.Extends st') : st.bare.Extends st'.bare where
  arena := h.arena
  rooted := h.rooted.bare
  rooted' := h.rooted'.bare
  size_le := by
    show st.scopes.bare.size ≤ st'.scopes.bare.size
    rw [ScopeTree.size_bare, ScopeTree.size_bare]
    exact h.size_le
  parent_old := fun id hid => by
    change id < st.scopes.bare.size at hid
    show st'.scopes.bare.parent? id = st.scopes.bare.parent? id
    rw [ScopeTree.size_bare] at hid
    rw [ScopeTree.parent?_bare, ScopeTree.parent?_bare, h.parent_old id hid]

variable [DecidableEq κ] [PathKey κ]

theorem Indexed.bare (h : st.Indexed) : st.bare.Indexed where
  key_eq := h.key_eq
  bound := fun n key id hb => absurd hb (ScopeTree.not_bound_bare _ n key id)

end Store

-- ====================================================== correspondences

theorem Ast.Likeness.Tally.eq {c d : Cardinality} (h : Likeness.plain.Tally c d) : c = d :=
  h.2 (by simp)

namespace Correspondence

variable {C : Correspondence κ} {μ : Likeness}

/-- The same sets and nodes correspond, with nothing bound. -/
def bare (C : Correspondence κ) : Correspondence κ :=
  ⟨C.left.bare, C.right.bare, C.sets, C.nodes⟩

theorem bare_opened (C : Correspondence κ) (v w : ScopeId) :
    (C.opened v w).bare = C.bare.opened v w := by
  have hsize : ∀ st : Store κ, st.bare.scopes.size = st.scopes.size :=
    fun st => ScopeTree.size_bare st.scopes
  unfold bare opened
  dsimp only
  rw [Store.bare_opened, Store.bare_opened, hsize, hsize]

/-- What is alike is alike in the degree that says nothing of spans. -/
theorem Matched.plain {n m : SetNode κ} (h : C.Matched .same n m) :
    C.bare.Matched .plain n m where
  type := h.type
  scope := h.scope
  span := fun hμ => by cases hμ
  count := ⟨h.count.1, fun _ => h.count.2 (by simp)⟩
  kin := by
    cases h.kin with
    | root ho ho' => exact .root ho ho'
    | step ho ho' hs => exact .step ho ho' hs
    | computed ho ho' hconst => exact .computed ho ho' hconst fun hμ => by cases hμ
  single := fun hμ => by cases hμ

/-- What it takes to be alike in that degree. -/
theorem Matched.of_plain {n m : SetNode κ} (htype : n.type = m.type)
    (hscope : C.nodes n.scope m.scope) (hcount : n.cardinality = m.cardinality)
    (hkin : C.Kin .plain n m) : C.Matched .plain n m where
  type := htype
  scope := hscope
  span := fun hμ => by cases hμ
  count := hcount ▸ .refl _ _
  kin := hkin
  single := fun hμ => by cases hμ

/-- Sets that agree in that degree are counted alike. -/
theorem Agree.exists_judge? {v w : ScopeId} {x y : SetId}
    (h : C.bare.Agree .plain v w x y) :
    ∃ c, C.left.judge? v x = some c ∧ C.right.judge? w y = some c := by
  obtain ⟨c, d, hc, hd, htally⟩ := h.count
  obtain rfl := htally.eq
  change C.left.bare.judge? v x = some c at hc
  change C.right.bare.judge? w y = some c at hd
  rw [Store.judge?_bare] at hc hd
  exact ⟨c, hc, hd⟩

/-- What it takes for two operations to be. -/
theorem Answers.of_plain {p q : Pending} (htype : p.type = q.type)
    (hcount : p.cardinality = q.cardinality)
    (hconst : p.operation.constant? = q.operation.constant?) : C.Answers .plain p q where
  type := htype
  span := fun hμ => by cases hμ
  count := hcount ▸ .refl _ _
  constant := hconst
  single := fun hμ => by cases hμ
  renamed := fun hμ => by cases hμ

variable [DecidableEq κ] [PathKey κ]

/-- Where nothing is bound, less has to correspond. -/
theorem Consistent.bare (h : C.Consistent .same) : C.bare.Consistent .plain where
  rooted := h.rooted.bare
  rooted' := h.rooted'.bare
  indexed := h.indexed.bare
  indexed' := h.indexed'.bare
  active := fun a b hab => by
    show a < C.left.scopes.bare.size ∧ b < C.right.scopes.bare.size
    rw [ScopeTree.size_bare, ScopeTree.size_bare]
    exact h.active a b hab
  nodes_unique := h.nodes_unique
  parents := fun a b hab => by
    show Option.Rel C.nodes (C.left.scopes.bare.parent? a) (C.right.scopes.bare.parent? b)
    rw [ScopeTree.parent?_bare, ScopeTree.parent?_bare]
    exact h.parents a b hab
  sets_unique := h.sets_unique
  matched := fun x y hxy => by
    obtain ⟨n, m, hn, hm, hnm⟩ := h.matched x y hxy
    exact ⟨n, m, hn, hm, hnm.plain⟩
  bound := fun a _ key x _ hx => absurd hx (ScopeTree.not_bound_bare _ a key x)
  bound' := fun _ b key y _ hy => absurd hy (ScopeTree.not_bound_bare _ b key y)

end Correspondence

-- ================================================================ steps

namespace CompileM

/-- A step that does the same with nothing bound, and binds nothing. -/
class Blind (m : CompileM κ α) : Prop where
  run_bare : ∀ (env : Env) (st : Store κ),
    m.run env st.bare = ((m.run env st).1, (m.run env st).2.bare)
  scopes_eq : ∀ (env : Env) (st : Store κ), (m.run env st).2.scopes = st.scopes

namespace Blind

variable {m : CompileM κ α} {f : α → CompileM κ β}

/-- A step that leaves the store alone, and does the same with nothing
bound. -/
theorem of_reads (h : ∀ (env : Env) (st : Store κ),
    ∃ out, m.run env st = (out, st) ∧ m.run env st.bare = (out, st.bare)) :
    Blind m where
  run_bare := fun env st => by
    obtain ⟨out, hrun, hbare⟩ := h env st
    rw [hrun, hbare]
  scopes_eq := fun env st => by
    obtain ⟨out, hrun, -⟩ := h env st
    rw [hrun]

instance (a : α) : Blind (pure a : CompileM κ α) :=
  of_reads fun _ _ => ⟨_, rfl, rfl⟩

instance (e : CompileError) : Blind (fail e : CompileM κ α) :=
  of_reads fun _ _ => ⟨_, rfl, rfl⟩

instance (b : Bool) (e : CompileError) : Blind (require b e : CompileM κ Unit) :=
  of_reads fun _ _ => ⟨_, run_require b e _ _, run_require b e _ _⟩

instance (o : Option α) (e : CompileError) : Blind (orFail o e : CompileM κ α) :=
  of_reads fun _ _ => ⟨_, run_orFail o e _ _, run_orFail o e _ _⟩

instance : Blind (schema : CompileM κ Schema) := of_reads fun _ _ => ⟨_, rfl, rfl⟩

instance : Blind (frame : CompileM κ Frame) := of_reads fun _ _ => ⟨_, rfl, rfl⟩

instance (ref : Ast.NameRef) : Blind (resolve ref : CompileM κ SchemaItem) :=
  of_reads fun _ _ => ⟨_, run_resolve.trans (run_orFail _ _ _ _),
    run_resolve.trans (run_orFail _ _ _ _)⟩

instance [hm : Blind m] [hf : ∀ a, Blind (f a)] : Blind (m >>= f) where
  run_bare := fun env st => by
    rw [run_bind, run_bind, hm.run_bare]
    rcases m.run env st with ⟨e | a, st'⟩
    · rfl
    · exact (hf a).run_bare env st'
  scopes_eq := fun env st => by
    have hscopes := hm.scopes_eq env st
    rw [run_bind]
    generalize m.run env st = out at hscopes ⊢
    obtain ⟨e | a, st'⟩ := out
    · exact hscopes
    · exact ((hf a).scopes_eq env st').trans hscopes

theorem of_bind (_ : Blind m) (_ : ∀ a, Blind (f a)) : Blind (m >>= f) :=
  inferInstance

instance {p : Prop} [Decidable p] {m' : CompileM κ α} [Blind m] [Blind m'] :
    Blind (if p then m else m') := by
  split <;> infer_instance

instance (id : SetId) : Blind (getSet id : CompileM κ _) :=
  of_reads fun env st => ⟨_, by
      unfold getSet
      rw [run_bind_ok run_store, run_orFail], by
      unfold getSet
      rw [run_bind_ok run_store, run_orFail]
      rfl⟩

instance (id : SetId) : Blind (typeOf id : CompileM κ _) := by
  unfold typeOf
  infer_instance

instance (id : SetId) : Blind (judge id : CompileM κ _) :=
  of_reads fun env st => ⟨_, by
      unfold judge
      rw [run_bind_ok run_store, run_bind_ok run_frame, run_orFail], by
      unfold judge
      rw [run_bind_ok run_store, run_bind_ok run_frame, run_orFail, Store.judge?_bare]⟩

instance (op : Operation) (t : TypeId) (c : Cardinality) (span : Span) :
    Blind (newComputed op t c span : CompileM κ _) := by
  refine ⟨fun env st => ?_, fun env st => ?_⟩
  · rw [run_newComputed, run_newComputed]
    rfl
  · rw [run_newComputed]

-- =============================================================== values

instance (v : Value) : Blind (valueType v : CompileM κ _) := by
  unfold valueType
  cases v <;> infer_instance

instance (id : SetId) (target : TypeId) (conversion : Conversion) :
    Blind (castSet id target conversion : CompileM κ _) := by
  unfold castSet
  infer_instance

instance (id : SetId) (target : TypeId) : Blind (coerce id target : CompileM κ _) := by
  unfold coerce
  refine of_bind inferInstance fun _ => of_bind inferInstance fun _ => ?_
  split
  · infer_instance
  · split <;> infer_instance

instance (id : SetId) (span : Span) : Blind (referenceAt id span : CompileM κ _) := by
  unfold referenceAt
  infer_instance

instance (span : Span) : Blind (untypedEmptySet span : CompileM κ α) := by
  unfold untypedEmptySet
  infer_instance

instance (v : Value) (hint : Option TypeId) : Blind (settle v hint : CompileM κ _) := by
  unfold settle
  cases v with
  | set id => infer_instance
  | pending p => cases hint <;> dsimp only <;> infer_instance

instance (v : Value) (hint : Option TypeId) : Blind (attach v hint : CompileM κ _) := by
  unfold attach
  cases hint <;> infer_instance

-- ============================================================ operators

section

variable [NameDigest]

instance (id : SetId) (target : TypeId) :
    Blind (convertOperand id target : CompileM κ _) := by
  unfold convertOperand
  refine of_bind inferInstance fun _ => of_bind inferInstance fun _ => ?_
  split <;> infer_instance

instance (op : BinaryOp) (v w : Value) :
    Blind (attachOperands op v w : CompileM κ _) := by
  unfold attachOperands
  infer_instance

instance (x y : SetId) (objects : Bool) (mismatch : CompileError) :
    Blind (comparison x y objects mismatch : CompileM κ _) := by
  unfold comparison
  infer_instance

instance (x y : SetId) (mismatch : CompileError) :
    Blind (arithmetic x y mismatch : CompileM κ _) := by
  unfold arithmetic
  refine of_bind inferInstance fun _ => of_bind inferInstance fun _ =>
    of_bind inferInstance fun _ => ?_
  split <;> infer_instance

instance (x y : SetId) (mismatch : CompileError) :
    Blind (concatenation x y mismatch : CompileM κ _) := by
  unfold concatenation
  refine of_bind inferInstance fun _ => of_bind inferInstance fun _ =>
    of_bind inferInstance fun _ => ?_
  split <;> infer_instance

instance (op : BinaryOp) (x y : SetId) (span : Span) :
    Blind (typeBinary op x y span : CompileM κ _) := by
  unfold typeBinary
  infer_instance

instance (op : BinaryOp) (v w : Value) (span : Span) :
    Blind (binary op v w span : CompileM κ _) := by
  unfold binary
  refine of_bind inferInstance fun a => of_bind ?_ fun b => inferInstance
  exact inferInstanceAs (Blind (typeBinary op a.1 a.2 span))

instance (v : Value) (span : Span) : Blind (logicalNot v span : CompileM κ _) := by
  unfold logicalNot
  infer_instance

end

instance (v : Value) (span : Span) : Blind (arithmeticNeg v span : CompileM κ _) := by
  unfold arithmeticNeg
  infer_instance

instance (target : Ast.NameRef) : Blind (castTarget target : CompileM κ _) := by
  unfold castTarget
  refine of_bind inferInstance fun item => ?_
  split <;> infer_instance

instance (v : Value) (target : TypeId) (span : Span) :
    Blind (cast v target span : CompileM κ _) := by
  unfold cast
  infer_instance

-- ======================================================== set literals

instance (common : TypeId) (es : List (Value × Span)) :
    Blind (commonElementType common es : CompileM κ _) := by
  induction es generalizing common with
  | nil => exact inferInstanceAs (Blind (pure _))
  | cons e es ih =>
      unfold commonElementType
      infer_instance

instance (hint : Option TypeId) (es : List (Value × Span)) :
    Blind (attachMembers hint es : CompileM κ _) := by
  induction es with
  | nil => exact inferInstanceAs (Blind (pure _))
  | cons e es ih =>
      unfold attachMembers
      infer_instance

instance (es : List (Value × Span)) (span : Span) :
    Blind (setOf es span : CompileM κ _) := by
  unfold setOf unionOf
  split <;> infer_instance

-- =============================================================== calls

instance (function : Ast.NameRef) (given : Nat) (span : Span) :
    Blind (callee function given span : CompileM κ _) := by
  unfold callee
  refine of_bind inferInstance fun item => ?_
  split <;> infer_instance

instance (id : SetId) (type : ParamType) (position : Nat) (function : QualifiedName) :
    Blind (checkArgument id type position function : CompileM κ _) := by
  unfold checkArgument
  refine of_bind inferInstance fun _ => of_bind inferInstance fun _ => ?_
  dsimp only
  split
  · infer_instance
  · infer_instance
  · split <;> infer_instance

instance (returns : ReturnType) (function : QualifiedName) (args : List SetId) :
    Blind (returnType returns function args : CompileM κ _) := by
  unfold returnType
  split <;> infer_instance

instance (function : QualifiedName) (sig : Signature) (args : List SetId)
    (c : Cardinality) (span : Span) :
    Blind (call function sig args c span : CompileM κ _) := by
  unfold call
  infer_instance

-- ============================================================= clauses

instance (id : SetId) : Blind (requireSingleton id : CompileM κ _) := by
  unfold requireSingleton
  infer_instance

instance (subject : SetId) (span : Span) :
    Blind (requireObject subject span : CompileM κ _) := by
  unfold requireObject
  infer_instance

instance (c : Cardinality) (limit : SetId) :
    Blind (limited c limit : CompileM κ _) := by
  unfold limited
  refine of_bind inferInstance fun _ => ?_
  split <;> infer_instance

instance (result : SetId) (filter limit : Option SetId) :
    Blind (statementCardinality result filter limit : CompileM κ _) := by
  unfold statementCardinality
  refine of_bind inferInstance fun _ => ?_
  dsimp only
  split <;> infer_instance

end Blind

end CompileM

end PathQuery
