/-
What an operand does after another and without it.

`Tracks` is said of a step that starts from a store and of the same step
from a lead of it, in environments that are the same but for numbers:
either both end well, in stores of which the right one is still ahead of
the left one and with what they return related as `post` has it, or both
fail.

It is said of runs that end in stores where keys tell the paths apart,
and where the left side has not met in a node below what the lead binds
in the active node (`Lead.Spares`). A step only adds to its store, so the
same is true of the stores on the way.

There is one rule for each way in which steps are put together. Steps
that do not look at what is bound need no rule of their own: what is
known of them where sets and nodes correspond is known of them here
(`Tracks.lift`).
-/
import PathQuery.Proofs.Lead.Ahead

namespace PathQuery

open Ir

variable {κ α α' β β' : Type} [DecidableEq κ] [PathKey κ] [NameDigest]

-- ======================================================== environments

/-- Where keys tell the paths apart, and the left side did not meet below
what the lead binds. -/
structure Lead.Spares (S : Lead κ) (a a' : Arena κ) : Prop where
  faithful : a.Faithful
  faithful' : a'.Faithful
  apart : ¬ S.store.arena.Crosses S.base S.node a

theorem Lead.Spares.of_extends {S : Lead κ} {a a' b b' : Arena κ} (h : S.Spares b b')
    (hext : a.Extends b) (hext' : a'.Extends b') : S.Spares a a' :=
  ⟨h.faithful.of_extends hext, h.faithful'.of_extends hext',
    fun hcross => h.apart (hcross.mono hext)⟩

namespace Correspondence

variable {C C' : Correspondence κ} {S : Lead κ} {env env' : Env} {x y : SetId}

omit [DecidableEq κ] [PathKey κ] [NameDigest] in
/-- Two sets have one span if they stand for a literal. -/
def Aligned (C : Correspondence κ) (x y : SetId) : Prop :=
  ∃ n m, C.left.arena.get? x = some n ∧ C.right.arena.get? y = some m
    ∧ (n.origin.constant? ≠ none → n.span = m.span)

omit [DecidableEq κ] [PathKey κ] [NameDigest] in
theorem Aligned.mono (h : C.Later C') (hxy : C.Aligned x y) : C'.Aligned x y := by
  obtain ⟨n, m, hn, hm, hspan⟩ := hxy
  exact ⟨n, m, h.left.arena x n hn, h.right.arena y m hm, hspan⟩

/-- Two environments are the same but for numbers. The right one is that
of the operand, or of a node that was opened since. -/
structure Tied (C : Correspondence κ) (S : Lead κ) (env env' : Env) : Prop where
  framed : C.Framed env env'
  schema : env'.schema = S.env.schema
  place : env'.frame.scope = S.node ∨ S.store.scopes.size ≤ env'.frame.scope
  subject : env'.frame.scope = S.node → env'.frame.subject = S.env.frame.subject
  aligned : ∀ x y, env.frame.subject = some x → env'.frame.subject = some y →
    C.Aligned x y

theorem Tied.mono (h : C.Later C') (ht : C.Tied S env env') : C'.Tied S env env' :=
  { ht with
    framed := ht.framed.mono h
    aligned := fun x y hx hy => (ht.aligned x y hx hy).mono h }

omit [DecidableEq κ] [PathKey κ] [NameDigest] in
theorem Framed.bare (h : C.Framed env env') : C.bare.Framed env env' :=
  ⟨h.schema, h.clause, h.defaultModule, h.aliases, h.scope, h.subject⟩

/-- The outcomes of a step on both sides: both values, in stores of which
the right one is ahead, or both failures. -/
inductive Tracked (C : Correspondence κ) (S : Lead κ)
    (post : Correspondence κ → α → α' → Prop) :
    Except CompileError α × Store κ → Except CompileError α' × Store κ → Prop where
  | ok {C' : Correspondence κ} {a : α} {b : α'} (hlater : C.Later C')
      (hahead : C'.Ahead S) (h : post C' a b) :
      Tracked C S post (.ok a, C'.left) (.ok b, C'.right)
  | error {e e' : CompileError} {st st' : Store κ} :
      Tracked C S post (.error e, st) (.error e', st')

end Correspondence

namespace CompileM

/-- A step, and the same step from a lead. -/
def Tracks (S : Lead κ) (C : Correspondence κ) (env env' : Env) (m : CompileM κ α)
    (m' : CompileM κ α') (post : Correspondence κ → α → α' → Prop) : Prop :=
  C.Ahead S → C.Tied S env env' →
    S.Spares (m.run env C.left).2.arena (m'.run env' C.right).2.arena →
    C.Tracked S post (m.run env C.left) (m'.run env' C.right)

namespace Tracks

variable {S : Lead κ} {C : Correspondence κ} {env env' : Env} {m : CompileM κ α}
  {m' : CompileM κ α'} {f : α → CompileM κ β} {f' : α' → CompileM κ β'}
  {mid mid' : Correspondence κ → α → α' → Prop}
  {post : Correspondence κ → β → β' → Prop}

theorem intro (h : C.Ahead S → C.Tied S env env' → Tracks S C env env' m m' mid) :
    Tracks S C env env' m m' mid :=
  fun hahead htied => h hahead htied hahead htied

-- ============================================================ sequence

/-- Steps that leave both stores alone. -/
theorem of_run {a : α} {b : α'} (hl : m.run env C.left = (.ok a, C.left))
    (hr : m'.run env' C.right = (.ok b, C.right)) (h : mid C a b) :
    Tracks S C env env' m m' mid := by
  intro hahead _ _
  rw [hl, hr]
  exact .ok hahead.later_refl hahead h

theorem pure {a : α} {b : α'} (h : mid C a b) :
    Tracks S C env env' (Pure.pure a) (Pure.pure b) mid :=
  of_run (run_pure a _ _) (run_pure b _ _) h

theorem fail {e e' : CompileError} :
    Tracks S C env env' (CompileM.fail e) (CompileM.fail e') mid :=
  fun _ _ _ => .error

/-- Both sides go on from what the first step left them with. -/
theorem bind [∀ a, Growing (f a)] [∀ b, Growing (f' b)]
    (hm : Tracks S C env env' m m' mid)
    (hf : ∀ C' a b, C.Later C' → mid C' a b → Tracks S C' env env' (f a) (f' b) post) :
    Tracks S C env env' (m >>= f) (m' >>= f') post := by
  intro hahead htied hspares
  have hout := hm hahead htied
    (hspares.of_extends (Growing.extends_of_bind _ _) (Growing.extends_of_bind _ _))
  rw [run_bind, run_bind] at hspares ⊢
  generalize m.run env C.left = out at hout hspares ⊢
  generalize m'.run env' C.right = out' at hout hspares ⊢
  cases hout with
  | error => exact .error
  | @ok C' a b hlater hahead' hmid =>
      have hrest := hf C' a b hlater hmid hahead' (htied.mono hlater) hspares
      dsimp only at hrest ⊢
      generalize (f a).run env C'.left = out at hrest ⊢
      generalize (f' b).run env' C'.right = out' at hrest ⊢
      cases hrest with
      | error => exact .error
      | ok hlater' hahead'' hpost => exact .ok (hlater.trans hlater') hahead'' hpost

/-- The same, where the growth of what follows has to be told. -/
theorem bind_growing (hgrows : ∀ a, Growing (f a)) (hgrows' : ∀ b, Growing (f' b))
    (hm : Tracks S C env env' m m' mid)
    (hf : ∀ C' a b, C.Later C' → mid C' a b → Tracks S C' env env' (f a) (f' b) post) :
    Tracks S C env env' (m >>= f) (m' >>= f') post :=
  bind hm hf

/-- Steps that only read give what they read. -/
theorem read {a : α} {b : α'} (hl : m.run env C.left = (.ok a, C.left))
    (hr : m'.run env' C.right = (.ok b, C.right))
    (hf : Tracks S C env env' (f a) (f' b) post) :
    Tracks S C env env' (m >>= f) (m' >>= f') post := by
  intro hahead htied hspares
  rw [run_bind_ok hl, run_bind_ok hr] at hspares ⊢
  exact hf hahead htied hspares

/-- A condition that both sides require. -/
theorem require {b : Bool} {e e' : CompileError} {f : Unit → CompileM κ β}
    {f' : Unit → CompileM κ β'} (hf : b = true → Tracks S C env env' (f ()) (f' ()) post) :
    Tracks S C env env' (CompileM.require b e >>= f) (CompileM.require b e' >>= f')
      post := by
  cases b with
  | true => exact read (run_require true e _ _) (run_require true e' _ _) (hf rfl)
  | false => exact fun _ _ _ => .error

/-- What must be there on both sides. -/
theorem orFail {o : Option α} {e e' : CompileError} {f' : α → CompileM κ β'}
    (hf : ∀ a, o = some a → Tracks S C env env' (f a) (f' a) post) :
    Tracks S C env env' (CompileM.orFail o e >>= f) (CompileM.orFail o e' >>= f')
      post := by
  cases o with
  | some a => exact read (run_orFail (some a) e _ _) (run_orFail (some a) e' _ _) (hf a rfl)
  | none => exact fun _ _ _ => .error

/-- A weaker relation of what is returned. -/
theorem imp (hm : Tracks S C env env' m m' mid)
    (h : ∀ C' a b, C.Later C' → C'.Ahead S → mid C' a b → mid' C' a b) :
    Tracks S C env env' m m' mid' := by
  intro hahead htied hspares
  have hout := hm hahead htied hspares
  generalize m.run env C.left = out at hout ⊢
  generalize m'.run env' C.right = out' at hout ⊢
  cases hout with
  | error => exact .error
  | ok hlater hahead' hmid => exact .ok hlater hahead' (h _ _ _ hlater hahead' hmid)

/-- What each side ran is on record. -/
theorem runs (hm : Tracks S C env env' m m' mid) :
    Tracks S C env env' m m' fun C' a b => mid C' a b
      ∧ m.run env C.left = (.ok a, C'.left) ∧ m'.run env' C.right = (.ok b, C'.right) := by
  intro hahead htied hspares
  have hout := hm hahead htied hspares
  generalize m.run env C.left = out at hout ⊢
  generalize m'.run env' C.right = out' at hout ⊢
  cases hout with
  | error => exact .error
  | ok hlater hahead' hmid => exact .ok hlater hahead' ⟨hmid, rfl, rfl⟩

/-- A name stands for the same on both sides. -/
theorem resolve {ref : Ast.NameRef} {f : SchemaItem → CompileM κ β}
    {f' : SchemaItem → CompileM κ β'}
    (hf : ∀ item, Tracks S C env env' (f item) (f' item) post) :
    Tracks S C env env' (CompileM.resolve ref >>= f) (CompileM.resolve ref >>= f')
      post := by
  refine intro fun _ htied => ?_
  have hresolve : env'.resolve? ref.name = env.resolve? ref.name := by
    unfold Env.resolve?
    rw [htied.framed.schema, htied.framed.aliases, htied.framed.defaultModule]
  cases hitem : env.resolve? ref.name with
  | some item =>
      refine read (a := item) (b := item) ?_ ?_ (hf item)
      · rw [run_resolve, run_orFail, hitem]
      · rw [run_resolve, run_orFail, hresolve, hitem]
  | none =>
      intro _ _ _
      rw [run_bind, run_bind, run_resolve, run_resolve, run_orFail, run_orFail,
        hresolve, hitem]
      exact .error

-- ============================================================== frames

/-- A step under other frames of the same nodes and subjects. -/
theorem underFrame {change : Frame → Frame} (hscope : ∀ f, (change f).scope = f.scope)
    (hsubject : ∀ f, (change f).subject = f.subject)
    (hframe : C.Framed env env' → C.Framed { env with frame := change env.frame }
      { env' with frame := change env'.frame })
    (hm : Tracks S C { env with frame := change env.frame }
      { env' with frame := change env'.frame } m m' mid) :
    Tracks S C env env' (CompileM.underFrame change m) (CompileM.underFrame change m')
      mid := by
  intro hahead htied
  refine hm hahead ⟨hframe htied.framed, htied.schema, ?_, ?_, ?_⟩
  · show (change env'.frame).scope = S.node ∨ _ ≤ (change env'.frame).scope
    rw [hscope]
    exact htied.place
  · show (change env'.frame).scope = S.node → (change env'.frame).subject = _
    rw [hscope, hsubject]
    exact htied.subject
  · show ∀ x y, (change env.frame).subject = some x →
      (change env'.frame).subject = some y → _
    rw [hsubject, hsubject]
    exact htied.aligned

/-- A step in a part of the statement. -/
theorem inClause {clause : Clause}
    (hm : Tracks S C { env with frame := { env.frame with clause := some clause } }
      { env' with frame := { env'.frame with clause := some clause } } m m' mid) :
    Tracks S C env env' (CompileM.inClause clause m) (CompileM.inClause clause m') mid :=
  underFrame (fun _ => rfl) (fun _ => rfl) (fun h => { h with clause := rfl }) hm

/-- A step where partial paths start from other sets, below the node of
the lead. -/
theorem underSubject {x y : SetId} (hbelow : S.store.scopes.size ≤ env'.frame.scope)
    (hxy : C.sets x y) (haligned : C.Aligned x y)
    (hm : Tracks S C { env with frame := { env.frame with subject := some x } }
      { env' with frame := { env'.frame with subject := some y } } m m' mid) :
    Tracks S C env env' (CompileM.underSubject x m) (CompileM.underSubject y m') mid := by
  intro hahead htied
  refine hm hahead ⟨{ htied.framed with subject := .some hxy }, htied.schema,
    htied.place, fun hhere => absurd hhere (Lead.ne_node hbelow), ?_⟩
  intro a b ha hb
  cases ha
  cases hb
  exact haligned

/-- A step in a node of its own. -/
theorem inScope
    (hm : C.Ahead S → S.store.scopes.size ≤ C.right.scopes.size →
      Tracks S (C.opened env.frame.scope env'.frame.scope)
        (env.within C.left.scopes.size) (env'.within C.right.scopes.size) m m' mid)
    (hpost : ∀ C' a b, C.Later C' → C'.Ahead S → mid C' a b → mid' C' a b) :
    Tracks S C env env' (CompileM.inScope m) (CompileM.inScope m') mid' := by
  intro hahead htied hspares
  have hsize : S.store.scopes.size ≤ C.right.scopes.size := hahead.later.size_le
  obtain ⟨hlater, hopened⟩ := hahead.opened htied.framed.scope
  have htied' : (C.opened env.frame.scope env'.frame.scope).Tied S
      (env.within C.left.scopes.size) (env'.within C.right.scopes.size) := by
    exact ⟨Corresponds.framed_opened htied.framed, htied.schema, Or.inr hsize,
      fun hhere => absurd hhere (Lead.ne_node hsize),
      fun x y hx hy => (htied.aligned x y hx hy).mono hlater⟩
  have hout := hm hahead hsize hopened htied' hspares
  rw [run_inScope, run_inScope]
  change C.Tracked S mid'
    (m.run (env.within C.left.scopes.size) (C.left.opened env.frame.scope))
    (m'.run (env'.within C.right.scopes.size) (C.right.opened env'.frame.scope))
  change Correspondence.Tracked _ S mid
    (m.run (env.within C.left.scopes.size) (C.left.opened env.frame.scope))
    (m'.run (env'.within C.right.scopes.size) (C.right.opened env'.frame.scope))
    at hout
  generalize m.run _ _ = out at hout ⊢
  generalize m'.run _ _ = out' at hout ⊢
  cases hout with
  | error => exact .error
  | ok hlater' hahead' hmid =>
      have hlater'' := hlater.trans hlater'
      exact .ok hlater'' hahead' (hpost _ _ _ hlater'' hahead' hmid)

-- ================================================================ sets

/-- Computed sets of one type and cardinality correspond. -/
theorem newComputed {op op' : Operation} {t : TypeId} {c : Cardinality}
    {span span' : Span} (hconst : op.constant? = op'.constant?) :
    Tracks S C env env' (CompileM.newComputed op t c span)
      (CompileM.newComputed op' t c span') fun C' x y =>
        C'.sets x y ∧ ((op.constant? ≠ none → span = span') → C'.Aligned x y) := by
  intro hahead htied _
  have hn := Arena.get?_push_self C.left.arena
    ⟨none, t, c, env.frame.scope, span, .computed op⟩
    (Origin.source_lt_computed op _)
  have hm := Arena.get?_push_self C.right.arena
    ⟨none, t, c, env'.frame.scope, span', .computed op'⟩
    (Origin.source_lt_computed op' _)
  obtain ⟨hlater, hahead'⟩ := hahead.push
    (n := ⟨none, t, c, env.frame.scope, span, .computed op⟩)
    (m := ⟨none, t, c, env'.frame.scope, span', .computed op'⟩)
    (Origin.source_lt_computed op _) (Origin.source_lt_computed op' _) rfl rfl rfl rfl
    (.of_plain rfl htied.framed.scope rfl (.computed rfl rfl hconst fun hμ => by cases hμ))
  rw [run_newComputed, run_newComputed]
  exact .ok hlater hahead' ⟨Or.inr ⟨rfl, rfl⟩, fun hspan => ⟨_, _, hn, hm, hspan⟩⟩

-- ========================================================= blind steps

/-- What corresponds with nothing bound tracks a lead, if neither step
looks at what is bound. No set that was made corresponds to one of the
other side, so what is returned is related by what the stores hold. -/
theorem lift [Blind m] [Blind m']
    (hm : Corresponds .plain C.bare env env' m m' mid)
    (h : ∀ C₁ C' a b, C.Later C' → C'.left.bare = C₁.left → C'.right.bare = C₁.right →
      mid C₁ a b → mid' C' a b) :
    Tracks S C env env' m m' mid' := by
  intro hahead htied hspares
  have hleft := Blind.run_bare (m := m) env C.left
  have hright := Blind.run_bare (m := m') env' C.right
  have hscopes := Blind.scopes_eq (m := m) env C.left
  have hscopes' := Blind.scopes_eq (m := m') env' C.right
  have hout := hm hahead.bare htied.framed.bare
    (by
      show (m.run env C.left.bare).2.arena.Faithful
      rw [hleft]
      exact hspares.faithful)
    (by
      show (m'.run env' C.right.bare).2.arena.Faithful
      rw [hright]
      exact hspares.faithful')
  change C.bare.Outcomes .plain mid (m.run env C.left.bare) (m'.run env' C.right.bare)
    at hout
  rw [hleft, hright] at hout
  generalize m.run env C.left = out at hout hscopes ⊢
  generalize m'.run env' C.right = out' at hout hscopes' ⊢
  obtain ⟨out, st⟩ := out
  obtain ⟨out', st'⟩ := out'
  generalize hst : Store.bare st = bare at hout
  generalize hst' : Store.bare st' = bare' at hout
  cases hout with
  | error => exact .error
  | @ok C₁ a b hlater hc hmid =>
      have hleft : C.left.arena.Extends st.bare.arena := hst ▸ hlater.left.arena
      have hright : C.right.arena.Extends st'.bare.arena := hst' ▸ hlater.right.arena
      obtain ⟨hlater', hahead'⟩ : C.Later (C.grown st st') ∧ (C.grown st st').Ahead S :=
        hahead.grown hleft hright hscopes hscopes' (hst ▸ hc.indexed) (hst' ▸ hc.indexed')
      exact .ok hlater' hahead' (h C₁ _ a b hlater' hst hst' hmid)

end Tracks

end CompileM

end PathQuery
