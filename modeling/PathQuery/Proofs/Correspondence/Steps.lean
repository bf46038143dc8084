/-
What two compilations do in step.

`Corresponds` is said of two steps, one for each side of a
correspondence. Started in environments that are the same but for
numbers, either both end well, in stores that correspond again and with
what they return related as `post` has it, or both fail for one cause.

Keys may collide, and then the two sides may part. So all of this is said
of runs that end in stores where keys tell the paths apart. A step only
adds to its store (`Growing`), so the stores on the way are such stores
too; that is all there is to the assumption, until paths are looked up.

There is one rule for each way in which steps are put together.
-/
import PathQuery.Proofs.Compile.Clauses
import PathQuery.Proofs.Compile.Composition
import PathQuery.Proofs.Correspondence.Growth
import PathQuery.Proofs.Tandem.Follows

namespace PathQuery

open Ast (Likeness)
open Ir

variable {κ α α' β β' : Type}

-- ============================================================== growth

/-- A step keeps every set under its number. -/
class CompileM.Growing (m : CompileM κ α) : Prop where
  grows : ∀ (env : Env) (st : Store κ), st.arena.Extends (m.run env st).2.arena

namespace CompileM.Growing

variable {m : CompileM κ α} {f : α → CompileM κ β}

/-- A step that leaves the store alone. -/
theorem of_reads (h : ∀ (env : Env) (st : Store κ),
    ∃ out, m.run env st = (out, st)) : Growing m where
  grows := fun env st => by
    obtain ⟨out, hrun⟩ := h env st
    rw [hrun]
    exact .refl _

instance (a : α) : Growing (pure a : CompileM κ α) :=
  of_reads fun _ _ => ⟨_, rfl⟩

instance (e : CompileError) : Growing (fail e : CompileM κ α) :=
  of_reads fun _ _ => ⟨_, rfl⟩

instance (b : Bool) (e : CompileError) : Growing (require b e : CompileM κ Unit) :=
  of_reads fun _ _ => ⟨_, run_require b e _ _⟩

instance (o : Option α) (e : CompileError) : Growing (orFail o e : CompileM κ α) :=
  of_reads fun _ _ => ⟨_, run_orFail o e _ _⟩

instance : Growing (schema : CompileM κ Schema) := of_reads fun _ _ => ⟨_, rfl⟩

instance : Growing (frame : CompileM κ Frame) := of_reads fun _ _ => ⟨_, rfl⟩

instance : Growing (store : CompileM κ (Store κ)) := of_reads fun _ _ => ⟨_, rfl⟩

/-- What the second of two steps ends in extends what the first one ended
in. -/
theorem extends_of_bind [hf : ∀ a, Growing (f a)] (env : Env) (st : Store κ) :
    (m.run env st).2.arena.Extends ((m >>= f).run env st).2.arena := by
  rcases run_bind_cases m f env st with ⟨e, st', hm, hrun⟩ | ⟨a, st', hm, hrun⟩
  · rw [hm, hrun]
    exact .refl _
  · rw [hm, hrun]
    exact (hf a).grows env st'

instance [hm : Growing m] [∀ a, Growing (f a)] : Growing (m >>= f) where
  grows := fun env st => (hm.grows env st).trans (extends_of_bind env st)

instance {p : Prop} [Decidable p] {m' : CompileM κ α} [Growing m] [Growing m'] :
    Growing (if p then m else m') := by
  split <;> infer_instance

theorem underFrame {change : Frame → Frame} [hm : Growing m] :
    Growing (CompileM.underFrame change m) :=
  ⟨fun _ _ => hm.grows _ _⟩

instance {clause : Clause} [Growing m] : Growing (inClause clause m) := underFrame

instance {subject : SetId} [Growing m] : Growing (underSubject subject m) :=
  underFrame

instance [hm : Growing m] : Growing (inScope m) where
  grows := fun env st => hm.grows (env.within st.scopes.size)
    (st.opened env.frame.scope)

instance (id : SetId) : Growing (getSet id : CompileM κ _) := by
  unfold getSet
  infer_instance

instance (id : SetId) : Growing (typeOf id : CompileM κ _) := by
  unfold typeOf
  infer_instance

instance (id : SetId) : Growing (judge id : CompileM κ _) := by
  unfold judge
  infer_instance

instance (id : SetId) : Growing (requireSingleton id : CompileM κ _) := by
  unfold requireSingleton
  infer_instance

instance (module : String) (span : Span) :
    Growing (checkModule module span : CompileM κ _) := by
  unfold checkModule
  infer_instance

instance (origin : Origin) (t : TypeId) (c : Cardinality) (span : Span)
    (key : Option κ) : Growing (newSet origin t c span key) where
  grows := fun env st => by
    rcases run_newSet_cases origin t c span key env st with
      ⟨_, -, -, hrun⟩ | ⟨h, hrun⟩
    · rw [hrun]
      exact .refl _
    · rw [hrun]
      exact Arena.extends_push _ _ h

instance (op : Operation) (t : TypeId) (c : Cardinality) (span : Span) :
    Growing (newComputed op t c span : CompileM κ _) := by
  unfold newComputed
  infer_instance

end CompileM.Growing

-- ============================================================ outcomes

variable [DecidableEq κ] [PathKey κ]

/-- The outcomes of a step on both sides: both values, in stores that
correspond, or both failures for one cause. -/
inductive Correspondence.Outcomes (C : Correspondence κ) (μ : Likeness)
    (post : Correspondence κ → α → α' → Prop) :
    Except CompileError α × Store κ → Except CompileError α' × Store κ → Prop where
  | ok {C' : Correspondence κ} {a : α} {b : α'} (hlater : C.Later C')
      (hconsistent : C'.Consistent μ) (h : post C' a b) :
      Outcomes C μ post (.ok a, C'.left) (.ok b, C'.right)
  | error {e e' : CompileError} {st st' : Store κ} (hcause : e.cause = e'.cause) :
      Outcomes C μ post (.error e, st) (.error e', st')

/-- If one side gives a value then the other does. -/
theorem Correspondence.Outcomes.of_ok {C : Correspondence κ} {μ : Likeness}
    {post : Correspondence κ → α → α' → Prop} {a : α} {st : Store κ}
    {out' : Except CompileError α' × Store κ}
    (h : C.Outcomes μ post (.ok a, st) out') :
    ∃ (C' : Correspondence κ) (b : α'), C'.left = st ∧ out' = (.ok b, C'.right)
      ∧ C.Later C' ∧ C'.Consistent μ ∧ post C' a b := by
  generalize hout : (Except.ok a, st) = out at h
  cases h with
  | error => cases hout
  | ok hlater hconsistent h =>
      cases hout
      exact ⟨_, _, rfl, rfl, hlater, hconsistent, h⟩

namespace CompileM

/-- A step and a step on the other side, in environments that are the
same but for numbers. -/
def Corresponds (μ : Likeness) (C : Correspondence κ) (env env' : Env)
    (m : CompileM κ α) (m' : CompileM κ α')
    (post : Correspondence κ → α → α' → Prop) : Prop :=
  C.Consistent μ → C.Framed env env' →
    (m.run env C.left).2.arena.Faithful →
    (m'.run env' C.right).2.arena.Faithful →
    C.Outcomes μ post (m.run env C.left) (m'.run env' C.right)

namespace Corresponds

variable {μ : Likeness} {C : Correspondence κ} {env env' : Env}
  {m : CompileM κ α} {m' : CompileM κ α'} {f : α → CompileM κ β}
  {f' : α' → CompileM κ β'} {mid mid' : Correspondence κ → α → α' → Prop}
  {post : Correspondence κ → β → β' → Prop}

/-- The correspondence that a step starts from may be taken to be
consistent, and the environments to be the same but for numbers. -/
theorem intro (h : C.Consistent μ → C.Framed env env' →
    Corresponds μ C env env' m m' mid) : Corresponds μ C env env' m m' mid :=
  fun hc hframe => h hc hframe hc hframe

-- ============================================================ sequence

/-- Steps that leave both stores alone. -/
theorem of_run {a : α} {b : α'} (hl : m.run env C.left = (.ok a, C.left))
    (hr : m'.run env' C.right = (.ok b, C.right)) (h : mid C a b) :
    Corresponds μ C env env' m m' mid := by
  intro hc _ _ _
  rw [hl, hr]
  exact .ok (.refl hc) hc h

theorem pure {a : α} {b : α'} (h : mid C a b) :
    Corresponds μ C env env' (Pure.pure a) (Pure.pure b) mid :=
  of_run (run_pure a _ _) (run_pure b _ _) h

/-- Both sides fail for one cause. -/
theorem fail {e e' : CompileError} (hcause : e.cause = e'.cause) :
    Corresponds μ C env env' (CompileM.fail e) (CompileM.fail e') mid :=
  fun _ _ _ _ => .error hcause

/-- Both sides go on from what the first step left them with. -/
theorem bind [∀ a, Growing (f a)] [∀ b, Growing (f' b)]
    (hm : Corresponds μ C env env' m m' mid)
    (hf : ∀ C' a b, C.Later C' → mid C' a b →
      Corresponds μ C' env env' (f a) (f' b) post) :
    Corresponds μ C env env' (m >>= f) (m' >>= f') post := by
  intro hc hframe hleft hright
  have hout := hm hc hframe (hleft.of_extends (Growing.extends_of_bind _ _))
    (hright.of_extends (Growing.extends_of_bind _ _))
  rw [run_bind] at hleft hright ⊢
  rw [run_bind]
  generalize m.run env C.left = out at hout hleft ⊢
  generalize m'.run env' C.right = out' at hout hright ⊢
  cases hout with
  | error hcause => exact .error hcause
  | @ok C' a b hlater hc' hmid =>
      have hrest := hf C' a b hlater hmid hc' (hframe.mono hlater) hleft hright
      dsimp only at hrest ⊢
      generalize (f a).run env C'.left = out at hrest ⊢
      generalize (f' b).run env' C'.right = out' at hrest ⊢
      cases hrest with
      | error hcause => exact .error hcause
      | ok hlater' hc'' hpost => exact .ok (hlater.trans hlater') hc'' hpost

/-- The same, where the growth of what follows has to be told. -/
theorem bind_growing (hgrows : ∀ a, Growing (f a)) (hgrows' : ∀ b, Growing (f' b))
    (hm : Corresponds μ C env env' m m' mid)
    (hf : ∀ C' a b, C.Later C' → mid C' a b →
      Corresponds μ C' env env' (f a) (f' b) post) :
    Corresponds μ C env env' (m >>= f) (m' >>= f') post :=
  bind hm hf

/-- Steps that only read give what they read. -/
theorem read {a : α} {b : α'} (hl : m.run env C.left = (.ok a, C.left))
    (hr : m'.run env' C.right = (.ok b, C.right))
    (hf : Corresponds μ C env env' (f a) (f' b) post) :
    Corresponds μ C env env' (m >>= f) (m' >>= f') post := by
  intro hc hframe hleft hright
  rw [run_bind_ok hl] at hleft ⊢
  rw [run_bind_ok hr] at hright ⊢
  exact hf hc hframe hleft hright

theorem readSchema {f : Schema → CompileM κ β} {f' : Schema → CompileM κ β'}
    (hf : Corresponds μ C env env' (f env.schema) (f' env.schema) post) :
    Corresponds μ C env env' (schema >>= f) (schema >>= f') post := by
  refine intro fun _ hframe => read run_schema run_schema ?_
  rw [hframe.schema]
  exact hf

theorem readFrame {f : Frame → CompileM κ β} {f' : Frame → CompileM κ β'}
    (hf : Corresponds μ C env env' (f env.frame) (f' env'.frame) post) :
    Corresponds μ C env env' (frame >>= f) (frame >>= f') post :=
  read run_frame run_frame hf

/-- Nothing comes after a step that fails on both sides. -/
theorem stop {e e' : CompileError} (hcause : e.cause = e'.cause) :
    Corresponds μ C env env' (CompileM.fail e >>= f) (CompileM.fail e' >>= f')
      post := by
  have hfail : Corresponds μ C env env' (CompileM.fail e) (CompileM.fail e') post :=
    fail hcause
  exact hfail

/-- A condition that both sides require. -/
theorem require {b : Bool} {e e' : CompileError} {f : Unit → CompileM κ β}
    {f' : Unit → CompileM κ β'} (hcause : e.cause = e'.cause)
    (hf : b = true → Corresponds μ C env env' (f ()) (f' ()) post) :
    Corresponds μ C env env' (CompileM.require b e >>= f)
      (CompileM.require b e' >>= f') post := by
  cases b with
  | true => exact read (run_require true e _ _) (run_require true e' _ _) (hf rfl)
  | false => exact stop hcause

theorem require_last {b : Bool} {e e' : CompileError}
    {mid : Correspondence κ → Unit → Unit → Prop} (hcause : e.cause = e'.cause)
    (h : mid C () ()) :
    Corresponds μ C env env' (CompileM.require b e) (CompileM.require b e') mid := by
  cases b with
  | true => exact pure h
  | false => exact fail hcause

/-- What must be there on both sides. -/
theorem orFail {o : Option α} {e e' : CompileError} {f' : α → CompileM κ β'}
    (hcause : e.cause = e'.cause)
    (hf : ∀ a, o = some a → Corresponds μ C env env' (f a) (f' a) post) :
    Corresponds μ C env env' (CompileM.orFail o e >>= f)
      (CompileM.orFail o e' >>= f') post := by
  cases o with
  | some a =>
      exact read (run_orFail (some a) e _ _) (run_orFail (some a) e' _ _) (hf a rfl)
  | none => exact stop hcause

/-- A weaker relation of what is returned. -/
theorem imp (hm : Corresponds μ C env env' m m' mid)
    (h : ∀ C' a b, C.Later C' → C'.Consistent μ → C'.Framed env env' →
      mid C' a b → mid' C' a b) :
    Corresponds μ C env env' m m' mid' := by
  intro hc hframe hleft hright
  have hout := hm hc hframe hleft hright
  generalize m.run env C.left = out at hout ⊢
  generalize m'.run env' C.right = out' at hout ⊢
  cases hout with
  | error hcause => exact .error hcause
  | ok hlater hc' hmid =>
      exact .ok hlater hc' (h _ _ _ hlater hc' (hframe.mono hlater) hmid)

/-- A name stands for the same on both sides. -/
theorem resolve {ref ref' : Ast.NameRef} (hname : ref.name = ref'.name)
    {f : SchemaItem → CompileM κ β} {f' : SchemaItem → CompileM κ β'}
    (hf : ∀ item, Corresponds μ C env env' (f item) (f' item) post) :
    Corresponds μ C env env' (CompileM.resolve ref >>= f)
      (CompileM.resolve ref' >>= f') post := by
  refine intro fun _ hframe => ?_
  have hresolve : env'.resolve? ref'.name = env.resolve? ref.name := by
    unfold Env.resolve?
    rw [hframe.schema, hframe.aliases, hframe.defaultModule, hname]
  have hshown : env'.shownName ref'.name = env.shownName ref.name := by
    unfold Env.shownName
    rw [hframe.aliases, hname]
  cases hitem : env.resolve? ref.name with
  | some item =>
      refine read (a := item) (b := item) ?_ ?_ (hf item)
      · rw [run_resolve, run_orFail, hitem]
      · rw [run_resolve, run_orFail, hresolve, hitem]
  | none =>
      intro _ _ _ _
      rw [run_bind, run_bind, run_resolve, run_resolve, run_orFail, run_orFail,
        hresolve, hitem]
      refine .error ?_
      show CompileError.unresolved _ Span.unknown = .unresolved _ Span.unknown
      rw [hshown]

/-- What each side ran is on record. -/
theorem runs (hm : Corresponds μ C env env' m m' mid) :
    Corresponds μ C env env' m m' fun C' a b => mid C' a b
      ∧ m.run env C.left = (.ok a, C'.left)
      ∧ m'.run env' C.right = (.ok b, C'.right) := by
  intro hc hframe hleft hright
  have hout := hm hc hframe hleft hright
  generalize m.run env C.left = out at hout ⊢
  generalize m'.run env' C.right = out' at hout ⊢
  cases hout with
  | error hcause => exact .error hcause
  | ok hlater hc' hmid => exact .ok hlater hc' ⟨hmid, rfl, rfl⟩

-- ============================================================== frames

/-- A step under other frames that are the same but for numbers. -/
theorem underFrame {change change' : Frame → Frame}
    (hframe : C.Framed env env' →
      C.Framed { env with frame := change env.frame }
        { env' with frame := change' env'.frame })
    (hm : Corresponds μ C { env with frame := change env.frame }
      { env' with frame := change' env'.frame } m m' mid) :
    Corresponds μ C env env' (CompileM.underFrame change m)
      (CompileM.underFrame change' m') mid :=
  fun hc h => hm hc (hframe h)

/-- A step in a part of the statement. -/
theorem inClause {clause : Clause}
    (hm : Corresponds μ C
      { env with frame := { env.frame with clause := some clause } }
      { env' with frame := { env'.frame with clause := some clause } } m m' mid) :
    Corresponds μ C env env' (CompileM.inClause clause m)
      (CompileM.inClause clause m') mid :=
  underFrame (fun h => { h with clause := rfl }) hm

/-- A step where partial paths start from other sets. -/
theorem underSubject {x y : SetId} (hxy : C.sets x y)
    (hm : Corresponds μ C
      { env with frame := { env.frame with subject := some x } }
      { env' with frame := { env'.frame with subject := some y } } m m' mid) :
    Corresponds μ C env env' (CompileM.underSubject x m)
      (CompileM.underSubject y m') mid :=
  underFrame (fun h => { h with subject := .some hxy }) hm

omit [DecidableEq κ] [PathKey κ] in
/-- A new node below the active one on both sides. -/
theorem framed_opened (h : C.Framed env env') :
    (C.opened env.frame.scope env'.frame.scope).Framed
      (env.within C.left.scopes.size) (env'.within C.right.scopes.size) where
  schema := h.schema
  clause := h.clause
  defaultModule := h.defaultModule
  aliases := h.aliases
  scope := Or.inr ⟨rfl, rfl⟩
  subject := h.subject

/-- A step in a node of its own, where both sides do as `mid` says. -/
theorem inScope
    (hm : Corresponds μ (C.opened env.frame.scope env'.frame.scope)
      (env.within C.left.scopes.size) (env'.within C.right.scopes.size) m m' mid)
    (hpost : ∀ C' a b, C.Later C' → C'.Consistent μ →
      C'.nodes C.left.scopes.size C.right.scopes.size →
      C'.left.scopes.parent? C.left.scopes.size = some env.frame.scope →
      C'.right.scopes.parent? C.right.scopes.size = some env'.frame.scope →
      mid C' a b → mid' C' a b) :
    Corresponds μ C env env' (CompileM.inScope m) (CompileM.inScope m') mid' := by
  intro hc hframe hleft hright
  have hlater := hc.later_opened hframe.scope
  have hout := hm (hc.opened hframe.scope) (framed_opened hframe) hleft hright
  rw [run_inScope, run_inScope]
  change Correspondence.Outcomes C μ mid'
    (m.run (env.within C.left.scopes.size) (C.left.opened env.frame.scope))
    (m'.run (env'.within C.right.scopes.size) (C.right.opened env'.frame.scope))
  change Correspondence.Outcomes _ μ mid
    (m.run (env.within C.left.scopes.size) (C.left.opened env.frame.scope))
    (m'.run (env'.within C.right.scopes.size) (C.right.opened env'.frame.scope))
    at hout
  generalize m.run _ _ = out at hout ⊢
  generalize m'.run _ _ = out' at hout ⊢
  cases hout with
  | error hcause => exact .error hcause
  | ok hlater' hc' hmid =>
      refine .ok (hlater.trans hlater') hc' (hpost _ _ _ (hlater.trans hlater') hc'
        (hlater'.nodes _ _ (Or.inr ⟨rfl, rfl⟩)) ?_ ?_ hmid)
      · exact hlater'.left.parent? (ScopeTree.parent?_attach_self _ _)
      · exact hlater'.right.parent? (ScopeTree.parent?_attach_self _ _)

-- ================================================================ sets

/-- Computed sets that are alike correspond. -/
theorem newComputed {op op' : Operation} {t : TypeId} {c c' : Cardinality}
    {span span' : Span} (htally : μ.Tally c c')
    (hconst : op.constant? = op'.constant?) (hspan : μ.Spans span span')
    (hsingle : μ = .loose → op.constant? ≠ none → c.isMulti = false)
    (hop : μ = .same → C.OperationRenamed op op') :
    Corresponds μ C env env' (CompileM.newComputed op t c span)
      (CompileM.newComputed op' t c' span') fun C' x y => C'.sets x y := by
  intro hc hframe _ _
  obtain ⟨hlater, hc'⟩ := hc.push
    (n := ⟨none, t, c, env.frame.scope, span, .computed op⟩)
    (m := ⟨none, t, c', env'.frame.scope, span', .computed op'⟩)
    (Origin.source_lt_computed op _) (Origin.source_lt_computed op' _) rfl rfl rfl rfl
    ⟨rfl, hframe.scope, hspan, htally, .computed rfl rfl hconst hop, hsingle⟩
  rw [run_newComputed, run_newComputed]
  exact .ok hlater hc' (Or.inr ⟨rfl, rfl⟩)

/-- Computed sets that are alike agree, whatever literal they are. -/
theorem newComputed_agree {op op' : Operation} {t : TypeId} {c c' : Cardinality}
    {span span' : Span} (htally : μ.Tally c c') (hconst : op.constant? = none)
    (hconst' : op'.constant? = none) (hspan : μ.Spans span span')
    (hop : μ = .same → C.OperationRenamed op op') :
    Corresponds μ C env env' (CompileM.newComputed op t c span)
      (CompileM.newComputed op' t c' span') fun C' x y =>
        C'.Agree μ env.frame.scope env'.frame.scope x y ∧ C'.SameConstant x y :=
  (newComputed htally (hconst.trans hconst'.symm) hspan
    (fun _ h => absurd hconst h) hop).imp fun _ _ _ _ hc hframe hxy =>
      ⟨hc.agree hxy hframe.scope, hc.sameConstant hxy⟩

end Corresponds

end CompileM

end PathQuery
