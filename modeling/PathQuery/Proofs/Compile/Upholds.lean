/-
What a step of compilation keeps.

`Upholds` is said of a step, an environment and a store: started there,
if the store is sound, the step leaves a sound store, which has grown
only as far as the active node allows; what the step returns is as
`post` has it; and it fails for a reason in the query, never because the
compiler broke a rule of its own, unless a function of the schema
returns the type of an argument it does not have. A step that fails
keeps the invariant too, so nothing is lost when the part around it goes
on.

There is one rule for each way in which steps are put together. A fact
about a store is handed from step to step through `Store.Extends`, which
the rule for `bind` supplies.
-/
import PathQuery.Compile.Query
import PathQuery.Proofs.Store.Invariant

namespace PathQuery

open Ir

variable {κ α β : Type}

/-- No function returns the type of an argument that it does not
have. -/
def Schema.ReturnsArguments (s : Schema) : Prop :=
  ∀ f sig n, s.function? f = some sig → sig.returns = .sameAs n →
    n < sig.params.length

/-- The environment with another active node. -/
def Env.within (env : Env) (scope : ScopeId) : Env :=
  { env with frame := { env.frame with scope } }

/-- The store with a new node below the given one. -/
def Store.opened (st : Store κ) (scope : ScopeId) : Store κ :=
  { st with scopes := st.scopes.attach scope }

-- =============================================================== names

namespace Env

variable {env : Env} {name : QualifiedName}

/-- A name stands for what the schema has under some qualified name. -/
theorem lookup_of_resolve? {item : SchemaItem}
    (h : env.resolve? name = some item) :
    ∃ qualified, env.schema.lookup qualified = some item := by
  unfold resolve? at h
  split at h
  · exact ⟨_, h⟩
  · obtain ⟨module, -, hitem⟩ := List.exists_of_findSome?_eq_some h
    exact ⟨_, hitem⟩

theorem type?_of_resolve? {id : TypeId} {entry : TypeEntry}
    (h : env.resolve? name = some (.type id entry)) :
    env.schema.type? id = some entry := by
  obtain ⟨qualified, hq⟩ := lookup_of_resolve? h
  exact Schema.lookup_type hq

theorem function?_of_resolve? {f : QualifiedName} {sig : Signature}
    (h : env.resolve? name = some (.function f sig)) :
    env.schema.function? f = some sig := by
  obtain ⟨qualified, hq⟩ := lookup_of_resolve? h
  exact Schema.lookup_function hq

end Env

namespace CompileM

-- =============================================================== reads

section Reads

variable {env : Env} {st : Store κ} {id : Nat} {node : SetNode κ}
  {c : Cardinality}

theorem run_bind_ok {m : CompileM κ α} {f : α → CompileM κ β} {a : α}
    {st' : Store κ} (hm : m.run env st = (.ok a, st')) :
    (m >>= f).run env st = (f a).run env st' := by
  rw [run_bind, hm]

theorem run_schema :
    (schema : CompileM κ Schema).run env st = (.ok env.schema, st) := rfl

theorem run_frame :
    (frame : CompileM κ Frame).run env st = (.ok env.frame, st) := rfl

theorem run_resolve {ref : Ast.NameRef} :
    (resolve ref : CompileM κ SchemaItem).run env st
    = (orFail (env.resolve? ref.name)
      (.unresolved (env.shownName ref.name) ref.span)).run env st :=
  rfl

theorem run_store : (store : CompileM κ (Store κ)).run env st = (.ok st, st) :=
  rfl

theorem run_getSet (hn : st.arena.get? id = some node) :
    (getSet id).run env st = (.ok node, st) := by
  unfold getSet
  rw [run_bind_ok run_store, run_orFail, hn]

theorem run_typeOf (hn : st.arena.get? id = some node) :
    (typeOf id).run env st = (.ok node.type, st) := by
  unfold typeOf
  rw [run_bind_ok (run_getSet hn), run_pure]

theorem run_judge (hc : st.judge? env.frame.scope id = some c) :
    (judge id).run env st = (.ok c, st) := by
  unfold judge
  rw [run_bind_ok run_store, run_bind_ok run_frame, run_orFail, hc]

/-- Adding a set takes the next number. -/
theorem run_newSet {origin : Origin} {t : TypeId} {span : Span} {key : Option κ}
    (h : ∀ source, origin.source? = some source → source < st.arena.size) :
    (newSet origin t c span key).run env st
      = (.ok st.arena.size,
          { st with arena :=
            st.arena.push ⟨key, t, c, env.frame.scope, span, origin⟩ h }) := by
  unfold newSet
  rw [run_bind_ok
    (show (get : CompileM κ (Store κ)).run env st = (.ok st, st) from rfl),
    run_bind_ok run_frame]
  dsimp only
  split
  · rfl
  · next source hs =>
      rw [dif_pos (h source hs)]
      rfl

/-- So does adding a computed set, which has no source. -/
theorem run_newComputed (op : Operation) (t : TypeId) (span : Span) :
    (newComputed op t c span).run env st
      = (.ok st.arena.size,
          ⟨st.arena.push ⟨none, t, c, env.frame.scope, span, .computed op⟩
            (Origin.source_lt_computed op _), st.scopes⟩) :=
  run_newSet _

end Reads

end CompileM

-- ============================================================ outcomes

variable [DecidableEq κ] [PathKey κ] [NameDigest]

/-- What a step may make of a store, whether it fails or not. -/
structure Outcome (R : Regime) (env : Env) (st : Store κ)
    (out : Except CompileError α × Store κ) (post : Store κ → α → Prop) :
    Prop where
  grows : st.Grows env.frame.scope out.2
  ready : env.Ready R out.2
  value : ∀ a, out.1 = .ok a → post out.2 a
  fault : ∀ e, out.1 = .error e → e.kind = .internal →
    ¬ env.schema.ReturnsArguments

theorem Outcome.extends {R : Regime} {env : Env} {st : Store κ}
    {out : Except CompileError α × Store κ} {post : Store κ → α → Prop}
    (h : Outcome R env st out post) (hr : env.Ready R st) : st.Extends out.2 :=
  h.grows.toExtends hr.sound.rooted h.ready.sound.rooted

namespace Env.Ready

variable {R : Regime} {env : Env} {st : Store κ}

theorem extends_opened (hr : env.Ready R st) :
    st.Extends (st.opened env.frame.scope) :=
  hr.sound.extends_attach hr.active

/-- What is seen from the active node is seen from a new node below it. -/
theorem holds_opened (hr : env.Ready R st) {id : SetId} {t : TypeId}
    (hid : st.Holds R env.frame.scope id t) :
    (st.opened env.frame.scope).Holds R st.scopes.size id t :=
  (hid.mono hr.extends_opened).below (hr.sound.rooted.attach hr.active)
    (hr.sound.rooted.mem_ancestors_attach hr.active)

/-- A new node below the active one is as ready. -/
theorem opened (hr : env.Ready R st) :
    (env.within st.scopes.size).Ready R (st.opened env.frame.scope) := by
  have hopen := hr.sound.attach hr.active
  refine ⟨hr.suits, hopen, ?_, hr.unshadowed.attach hr.sound.rooted hr.active,
    ?_⟩
  · show st.scopes.size < (st.scopes.attach env.frame.scope).size
    rw [ScopeTree.size_attach]
    exact Nat.lt_succ_self _
  · intro id hid
    obtain ⟨t, ht⟩ := hr.subject id hid
    exact ⟨t, hr.holds_opened ht⟩

end Env.Ready

namespace CompileM

/-- A step keeps the invariant, and returns what `post` says. -/
def Upholds (R : Regime) (env : Env) (st : Store κ) (m : CompileM κ α)
    (post : Store κ → α → Prop) : Prop :=
  env.Ready R st → Outcome R env st (m.run env st) post

namespace Upholds

variable {R : Regime} {env : Env} {st : Store κ} {m : CompileM κ α}
  {f : α → CompileM κ β} {mid mid' : Store κ → α → Prop}
  {post : Store κ → β → Prop}

/-- The store that a step starts from may be taken to be sound. -/
theorem intro (h : env.Ready R st → Upholds R env st m mid) :
    Upholds R env st m mid :=
  fun hr => h hr hr

-- ============================================================ sequence

/-- A step that leaves the store alone. -/
theorem of_run {out : Except CompileError α} (h : m.run env st = (out, st))
    (hok : ∀ a, out = .ok a → mid st a)
    (herr : ∀ e, out = .error e → e.kind = .internal →
      ¬ env.schema.ReturnsArguments) :
    Upholds R env st m mid := by
  intro hr
  rw [h]
  exact ⟨.refl _ _, hr, hok, herr⟩

theorem pure {a : α} (h : mid st a) : Upholds R env st (Pure.pure a) mid := by
  refine of_run (run_pure a env st) (fun b hb => ?_) (fun e he => ?_)
  · cases hb
    exact h
  · cases he

/-- A step that fails for a reason in the query. -/
theorem fail {e : CompileError} (he : e.kind ≠ .internal) :
    Upholds R env st (CompileM.fail e) mid := by
  refine of_run (run_fail e env st) (fun b hb => ?_) (fun e' he' hk => ?_)
  · cases hb
  · cases he'
    exact absurd hk he

/-- The second of two steps starts from what the first one left. -/
theorem bind (hm : Upholds R env st m mid)
    (hf : ∀ a st', st.Extends st' → mid st' a → Upholds R env st' (f a) post) :
    Upholds R env st (m >>= f) post := by
  intro hr
  have hout := hm hr
  have hext := hout.extends hr
  rw [run_bind]
  revert hout hext
  generalize m.run env st = out
  intro hout hext
  obtain ⟨_ | a, st'⟩ := out
  · refine ⟨hout.grows, hout.ready, fun b hb => ?_, fun e he => ?_⟩
    · cases hb
    · cases he
      exact hout.fault _ rfl
  · have hout' := hf a st' hext (hout.value a rfl) hout.ready
    exact ⟨hout.grows.trans hout'.grows, hout'.ready, hout'.value, hout'.fault⟩

/-- A step that only reads gives what it reads. -/
theorem read {a : α} (hm : m.run env st = (.ok a, st))
    (hf : Upholds R env st (f a) post) :
    Upholds R env st (m >>= f) post := by
  intro hr
  rw [run_bind_ok hm]
  exact hf hr

/-- Nothing comes after a step that fails. -/
theorem stop {e : CompileError} (hm : m.run env st = (.error e, st))
    (he : e.kind ≠ .internal) : Upholds R env st (m >>= f) post := by
  refine of_run (show _ = (Except.error e, st) from ?_) (fun b hb => ?_)
    (fun e' he' hk => ?_)
  · rw [run_bind, hm]
  · cases hb
  · cases he'
    exact absurd hk he

/-- A condition that is required holds from there on. -/
theorem require {b : Bool} {e : CompileError} {f : Unit → CompileM κ β}
    (he : e.kind ≠ .internal) (hf : b = true → Upholds R env st (f ()) post) :
    Upholds R env st (CompileM.require b e >>= f) post := by
  cases b with
  | true => exact read (run_require true e env st) (hf rfl)
  | false => exact stop (run_require false e env st) he

/-- What must be there is there from there on. -/
theorem orFail {o : Option α} {e : CompileError} (he : e.kind ≠ .internal)
    (hf : ∀ a, o = some a → Upholds R env st (f a) post) :
    Upholds R env st (CompileM.orFail o e >>= f) post := by
  cases o with
  | some a => exact read (run_orFail (some a) e env st) (hf a rfl)
  | none => exact stop (run_orFail none e env st) he

theorem orFail_last {o : Option α} {e : CompileError} (he : e.kind ≠ .internal)
    (hf : ∀ a, o = some a → mid st a) :
    Upholds R env st (CompileM.orFail o e) mid := by
  cases o with
  | some a => exact pure (hf a rfl)
  | none => exact fail he

/-- A weaker condition on what is returned. -/
theorem imp (hm : Upholds R env st m mid)
    (h : ∀ st' a, st.Extends st' → env.Ready R st' → mid st' a → mid' st' a) :
    Upholds R env st m mid' := by
  intro hr
  have hout := hm hr
  exact ⟨hout.grows, hout.ready,
    fun a ha => h _ a (hout.extends hr) hout.ready (hout.value a ha),
    hout.fault⟩

/-- What a name that is resolved stands for. -/
theorem resolve {ref : Ast.NameRef} {f : SchemaItem → CompileM κ β}
    (hf : ∀ item, env.resolve? ref.name = some item →
      Upholds R env st (f item) post) :
    Upholds R env st (CompileM.resolve ref >>= f) post := by
  intro hr
  rw [run_bind, run_resolve, ← run_bind]
  exact orFail (by simp [CompileError.kind]) hf hr

-- ============================================================== frames

/-- A step under another frame in the same node. -/
theorem underFrame {change : Frame → Frame}
    (hscope : (change env.frame).scope = env.frame.scope)
    (hsubject : ∀ id, (change env.frame).subject = some id →
      ∃ t, st.Holds R env.frame.scope id t)
    (hm : Upholds R { env with frame := change env.frame } st m mid) :
    Upholds R env st (CompileM.underFrame change m) mid := by
  intro hr
  have hout := hm ⟨hr.suits, hr.sound, hscope ▸ hr.active,
    hscope ▸ hr.unshadowed, hscope ▸ hsubject⟩
  have hgrows : st.Grows env.frame.scope _ := hscope ▸ hout.grows
  have hext := hgrows.toExtends hr.sound.rooted hout.ready.sound.rooted
  rw [run_underFrame]
  exact ⟨hgrows,
    hr.grown hext hout.ready.sound (hscope ▸ hout.ready.unshadowed), hout.value,
    hout.fault⟩

/-- A step in a part of the statement. -/
theorem inClause {clause : Clause}
    (hm : Upholds R
      { env with frame := { env.frame with clause := some clause } } st m mid) :
    Upholds R env st (CompileM.inClause clause m) mid :=
  intro fun hr => underFrame rfl hr.subject hm

/-- A step where partial paths start from another set. -/
theorem underSubject {id : Nat} {t : TypeId}
    (hid : st.Holds R env.frame.scope id t)
    (hm : Upholds R { env with frame := { env.frame with subject := some id } }
      st m mid) :
    Upholds R env st (CompileM.underSubject id m) mid := by
  refine underFrame rfl (fun x hx => ?_) hm
  cases hx
  exact ⟨t, hid⟩

/-- A step in a node of its own, where it does as `mid` says. -/
theorem inScope (mid : Store κ → α → Prop)
    (hm : st.Extends (st.opened env.frame.scope) →
      Upholds R (env.within st.scopes.size) (st.opened env.frame.scope) m mid)
    (hpost : ∀ st' a, st.Extends st' →
      st'.scopes.parent? st.scopes.size = some env.frame.scope → mid st' a →
        mid' st' a) :
    Upholds R env st (CompileM.inScope m) mid' := by
  intro hr
  have hready := hr.opened
  have hext := hr.extends_opened
  have hout := hm hext hready
  have hgrows := Store.Grows.of_scope hout.grows
  have hext' := hgrows.toExtends hr.sound.rooted hout.ready.sound.rooted
  have hparent :=
    (hout.extends hready).parent? (ScopeTree.parent?_attach_self st.scopes _)
  rw [run_inScope]
  refine ⟨hgrows, hr.grown hext' hout.ready.sound ?_, fun a ha => ?_,
    hout.fault⟩
  · exact hout.ready.unshadowed.of_ancestor hout.ready.sound.rooted
      (hout.ready.sound.rooted.mem_ancestors_of_parent? hparent
        (ScopeTree.mem_ancestors_self _ _))
  · exact hpost _ a hext' hparent (hout.value a ha)

-- ================================================================ sets

/-- A computed set that fits. -/
theorem newComputed {op : Operation} {t : TypeId} {c : Cardinality}
    {span : Span} (hf : st.Fits R env.schema env.frame.scope op t c) :
    Upholds R env st (CompileM.newComputed op t c span) fun st' id =>
      st'.arena.get? id
        = some ⟨none, t, c, env.frame.scope, span, .computed op⟩ := by
  intro hr
  have hset : st.SetSound R env.schema
      ⟨none, t, c, env.frame.scope, span, .computed op⟩ :=
    .computed rfl rfl hf
  have hsound :=
    hr.sound.push hset.source_lt hr.active hf.known hset fun hkey => absurd rfl hkey
  have hext := hr.sound.extends_push hset.source_lt
  rw [run_newComputed]
  refine ⟨⟨hext.arena, .refl _ _⟩, hr.grown hext hsound hr.unshadowed,
    fun id hid => ?_, fun e he => ?_⟩
  · cases hid
    exact Arena.get?_push_self _ _ hset.source_lt
  · cases he

end Upholds

end CompileM

end PathQuery
