/-
What is consumed as a whole is sealed.

EXISTS, arguments that a function takes as a whole, statements and their
clauses compile their operands in scope nodes of their own, and bind
nothing elsewhere (`CompileM.Encloses`). So from the active node, and in
every node that was there, a path is bound to what it was bound to, also
where the operand fails half-way.

The nodes that were opened for the operand are never active again. A
session activates a node when it opens it, and goes back only to nodes
that it came from; so it stays out of nodes that it has left for good
(`Session.Avoids.next`). And a path is bound when its set is made
(`CompileM.Composed.bound_new`), so a set that was made in there is
bound in there or nowhere, and no path that is compiled later finds it
(`Session.consumer_seals`).
-/
import PathQuery.Proofs.Correspondence.Beside
import PathQuery.Proofs.Session.Frames
import PathQuery.Proofs.Session.Reachable
import PathQuery.Proofs.Statement.Parts

namespace PathQuery

open Ast (Expr Select)
open Ir (Value Statement)

variable {κ α β : Type}

section

variable [DecidableEq κ] [PathKey κ] [NameDigest]

-- ============================================================ enclosing

namespace CompileM

variable {asked : Select → Prop} {mid : α → Prop} {m : CompileM κ α}

/-- Two steps bind nothing in the nodes that are there if neither does. -/
theorem Encloses.bind {f : α → CompileM κ β} (hm : Encloses m)
    (hc : Composed asked mid m) (hf : ∀ a, Encloses (f a)) :
    Encloses (m >>= f) := by
  intro env st n hn key
  have hfirst := hm env st n hn key
  have hsize := (hc.spreads env st).grows.scopes.size_le
  rcases run_bind_cases m f env st with ⟨e, st', hrunm, hrun⟩
    | ⟨a, st', hrunm, hrun⟩
  · rw [hrunm] at hfirst
    rw [hrun]
    exact hfirst
  · rw [hrunm] at hfirst hsize
    rw [hrun]
    exact (hf a env st' n (Nat.lt_of_lt_of_le hn hsize) key).trans hfirst

omit [PathKey κ] [NameDigest] in
/-- A step that leaves the store alone binds nothing. -/
theorem Encloses.of_reads (h : ∀ (env : Env) (st : Store κ),
    ((m.run env st).2 : Store κ) = st) : Encloses m := by
  intro env st n _ key
  rw [h]

namespace Encloses

theorem existence (e : Expr) (span : Span) :
    Encloses (κ := κ) (CompileM.existence (expr e) span) := by
  unfold CompileM.existence
  exact bind_pure (inScope (.bind (composed_expr e) fun _ hv => .attach hv))

/-- An argument that is taken as a whole. -/
theorem argument (e : Expr) {param : Parameter} (hmode : param.mode = .wholeSet)
    (position : Nat) (function : QualifiedName) (c : Cardinality) :
    Encloses (κ := κ)
      (CompileM.argument (expr e) param position function c) := by
  unfold CompileM.argument
  rw [hmode]
  exact bind_pure (inScope (.bind (composed_expr e) fun _ hv =>
    .bind (.attach hv) fun _ _ => .checkArgument))

theorem arguments (function : QualifiedName) (args : List Expr) :
    ∀ (position : Nat) (params : List Parameter) (c : Cardinality),
      (∀ p ∈ params, p.mode = .wholeSet) →
        Encloses (κ := κ)
          (CompileM.arguments function position params c args) := by
  induction args with
  | nil =>
      intro position params c _
      cases params <;> exact of_reads fun _ _ => rfl
  | cons arg args ih =>
      intro position params c hwhole
      cases params with
      | nil => exact of_reads fun _ _ => rfl
      | cons param params =>
          obtain ⟨hparam, hparams⟩ := List.forall_mem_cons.1 hwhole
          exact bind (argument arg hparam position function c)
            (.argument (composed_expr arg))
            fun r => bind_pure (ih (position + 1) params r.2 hparams)

theorem filterClause (f : Option Expr) :
    Encloses (κ := κ) (CompileM.filterClause f) := by
  cases f with
  | none => exact of_reads fun _ _ => rfl
  | some e => exact bind_pure (filterBy (composed_expr e))

theorem boundClause (n : Option Expr) :
    Encloses (κ := κ) (CompileM.boundClause n) := by
  cases n with
  | none => exact of_reads fun _ _ => rfl
  | some e => exact bind_pure (bound (composed_expr e))

theorem groupKeys (keys : List Expr) :
    Encloses (κ := κ) (CompileM.groupKeys keys) := by
  induction keys with
  | nil => exact of_reads fun _ _ => rfl
  | cons e keys ih =>
      exact bind (key (composed_expr e)) (.key (composed_expr e))
        fun _ => bind_pure ih

theorem sortKeys (keys : List Ast.SortKey) :
    Encloses (κ := κ) (CompileM.sortKeys keys) := by
  induction keys with
  | nil => exact of_reads fun _ _ => rfl
  | cons k keys ih =>
      obtain ⟨e, direction, empties, span⟩ := k
      exact bind (key (composed_expr e)) (.key (composed_expr e))
        fun _ => bind_pure ih

theorem select (q : Select) : Encloses (κ := κ) (CompileM.select q) := by
  have hrest : ∀ result, Composes (κ := κ) (fun _ => True) (selectFrom q result) :=
    fun _ => .selectFrom fun _ _ => trivial
  rw [select_eq]
  exact inScope (.inClause (.withModules
    (.bind (.selectResult q) fun _ _ => hrest _)))

omit [PathKey κ] [NameDigest] in
/-- A call with its arguments adds nothing. -/
theorem call (function : QualifiedName) (signature : Signature)
    (args : List SetId) (c : Cardinality) (span : Span) :
    Encloses (κ := κ) (CompileM.call function signature args c span) := by
  unfold CompileM.call
  refine bind_pure (of_reads fun env st => ?_)
  unfold returnType
  cases signature.returns with
  | concrete t => rfl
  | sameAs position =>
      dsimp only
      rw [run_bind, run_orFail]
      cases args[position]? with
      | none => rfl
      | some id =>
          obtain ⟨out, hrun⟩ := run_typeOf_cases id env st
          exact congrArg Prod.snd hrun

omit [PathKey κ] [NameDigest] in
theorem subquery (stmt : Statement) :
    Encloses (κ := κ) (CompileM.subquery stmt) := by
  intro env st n _ key
  rcases run_subquery_cases stmt env st with ⟨e, hrun⟩ | ⟨_, _, _, hrun⟩
  · rw [hrun]
  · rw [hrun]

end Encloses

-- ============================================================= bindings

omit [PathKey κ] [NameDigest] in
/-- The one set that is bound by adding it is new. -/
theorem bound_new_of_adds {st st' : Store κ} {active : ScopeId}
    (h : st.Adds active st') {n : Nat} {key : κ} {id : Nat}
    (hb : st'.scopes.binding? n key = some id) :
    st.scopes.binding? n key = some id ∨ st.arena.size ≤ id := by
  cases h with
  | nothing => exact Or.inl hb
  | set => exact Or.inl hb
  | path hnew hplain hfree =>
      by_cases hactive : active < st.scopes.size
      · rw [ScopeTree.binding?_bind hactive] at hb
        split at hb
        · cases hb
          exact Or.inr (Nat.le_refl _)
        · exact Or.inl hb
      · rw [ScopeTree.bind_of_size_le (Nat.le_of_not_lt hactive)] at hb
        exact Or.inl hb

/-- A set is bound when it is made: what a step binds are sets that it
made. -/
theorem Composed.bound_new (hm : Composed asked mid m) (env : Env)
    (st : Store κ) {n : Nat} {key : κ} {id : Nat}
    (hb : (m.run env st).2.scopes.binding? n key = some id) :
    st.scopes.binding? n key = some id ∨ st.arena.size ≤ id := by
  induction hm generalizing env st with
  | own hadds _ => exact bound_new_of_adds (hadds env st) hb
  | @bind _ _ _ _ m f hm hf ihm ihf =>
      have hfirst := ihm env st
      have hgrown := (hm.spreads env st).grows.arena
      rcases run_bind_cases m f env st with ⟨e, st', hrunm, hrun⟩
        | ⟨a, st', hrunm, hrun⟩
      · rw [hrunm] at hfirst
        rw [hrun] at hb
        exact hfirst hb
      · have ha := hm.value env st a (by rw [hrunm])
        rw [hrunm] at hfirst hgrown
        rw [hrun] at hb
        rcases ihf a ha env st' hb with hmid | hnew
        · exact hfirst hmid
        · exact Or.inr (Nat.le_trans hgrown.size_le hnew)
  | underFrame _ _ ih => exact ih _ st hb
  | inScope _ ih =>
      rw [run_inScope] at hb
      rcases ih _ _ hb with hopened | hnew
      · exact Or.inl ((ScopeTree.binding?_attach _ _ _ _).symm.trans hopened)
      · exact Or.inr hnew
  | @subquery q _ _ _ ih =>
      have hfirst := ih env st
      rcases run_bind_cases (CompileM.select q) CompileM.subquery env st with
        ⟨e, st', hrunm, hrun⟩ | ⟨stmt, st', hrunm, hrun⟩
      · rw [hrunm] at hfirst
        rw [hrun] at hb
        exact hfirst hb
      · rw [hrunm] at hfirst
        rw [hrun] at hb
        -- the statement becomes a set that is bound nowhere
        rcases run_subquery_cases stmt env st' with ⟨e, hsub⟩ | ⟨_, _, _, hsub⟩
        · rw [hsub] at hb
          exact hfirst hb
        · rw [hsub] at hb
          exact hfirst hb

-- ================================================================ paths

variable {env : Env} {st st' : Store κ} {id : SetId}

omit [DecidableEq κ] [PathKey κ] [NameDigest] in
/-- A set that is made takes the next number. -/
theorem new_of_newSet {origin : Ir.Origin} {t : TypeId} {c : Cardinality}
    {span : Span} {key : Option κ}
    (h : (newSet origin t c span key).run env st = (.ok id, st')) :
    id = st.arena.size := by
  rcases run_newSet_cases origin t c span key env st with
    ⟨_, -, -, hrun⟩ | ⟨_, hrun⟩
  · rw [hrun] at h
    cases h
  · rw [hrun] at h
    cases h
    rfl

omit [PathKey κ] [NameDigest] in
/-- What is shared was found or is new. -/
theorem found_or_new_of_shared {key : κ} {confirm : Ir.Arena κ → SetId → Bool}
    {make : CompileM κ SetId}
    (hmake : ∀ st', make.run env st = (.ok id, st') → id = st.arena.size)
    (h : (shared key confirm make).run env st = (.ok id, st')) :
    (∃ a, st.scopes.lookup env.frame.scope key = some (a, id))
      ∨ id = st.arena.size := by
  rcases ok_of_shared h with ⟨a, hl, -, -⟩ | ⟨mid, hmade, -⟩
  · exact Or.inl ⟨a, hl⟩
  · exact Or.inr (hmake mid hmade)

omit [NameDigest] in
theorem found_or_new_of_rootSet {t : TypeId} {span : Span}
    (h : (rootSet t span).run env st = (.ok id, st')) :
    (∃ key a, st.scopes.lookup env.frame.scope key = some (a, id))
      ∨ id = st.arena.size := by
  unfold rootSet at h
  exact (found_or_new_of_shared (fun _ => new_of_newSet) h).imp_left
    fun hfound => ⟨_, hfound⟩

omit [NameDigest] in
theorem found_or_new_of_extendPath {source : SetId} {name : String}
    {span : Span} (h : (extendPath source name span).run env st = (.ok id, st')) :
    (∃ key a, st.scopes.lookup env.frame.scope key = some (a, id))
      ∨ id = st.arena.size := by
  unfold extendPath at h
  obtain ⟨node, _, hget, hrest⟩ := ok_of_bind h
  obtain ⟨-, rfl⟩ := ok_of_getSet hget
  rw [run_bind_ok run_schema, run_bind_ok run_frame] at hrest
  obtain ⟨_, _, hobject, hpath⟩ := ok_of_bind hrest
  obtain ⟨-, rfl⟩ := ok_of_require hobject
  obtain ⟨p, _, hpointer, hshared⟩ := ok_of_bind hpath
  obtain ⟨-, rfl⟩ := ok_of_orFail hpointer
  refine (found_or_new_of_shared (fun _ hmake => ?_) hshared).imp_left
    fun hfound => ⟨_, hfound⟩
  obtain ⟨c, _, hjudge, hnew⟩ := ok_of_bind hmake
  obtain ⟨-, rfl⟩ := ok_of_judge hjudge
  exact new_of_newSet hnew

end CompileM

-- ============================================================== sessions

namespace Session

/-- A set that was not made between one store and another. -/
def Apart (st st' : Store κ) (id : Nat) : Prop :=
  id < st.arena.size ∨ st'.arena.size ≤ id

/-- A session that has left the nodes that were opened between one store
and another, each with what was bound there: no frame is of such a node
or of one below, and what was made in between is bound nowhere else. -/
structure Avoids (st st' : Store κ) (s : Session κ) : Prop where
  grown : st'.Extends s.store
  active : ∀ f ∈ s.frame :: s.outer, f.scope < s.store.scopes.size
  frames : ∀ f ∈ s.frame :: s.outer, ∀ a ∈ s.store.scopes.ancestors f.scope,
    a < st.scopes.size ∨ st'.scopes.size ≤ a
  bound : ∀ (n : Nat) (key : κ) (id : Nat),
    s.store.scopes.binding? n key = some id → ¬ Apart st st' id →
      st.scopes.size ≤ n ∧ n < st'.scopes.size

variable {lexical : Prop} {s s' : Session κ} {st st' : Store κ}

omit [DecidableEq κ] [PathKey κ] [NameDigest] in
/-- Each frame around is of a node that is there. -/
theorem lt_size_of_encloses {R : Regime} {inner : Frame} {outer : List Frame}
    (hr : st.scopes.Rooted) (h : st.Encloses R inner outer)
    (hinner : inner.scope < st.scopes.size) :
    ∀ f ∈ inner :: outer, f.scope < st.scopes.size := by
  induction outer generalizing inner with
  | nil =>
      intro f hf
      obtain rfl := List.mem_singleton.1 hf
      exact hinner
  | cons frame outer ih =>
      intro f hf
      obtain ⟨habove, -, hrest⟩ := h
      rcases List.mem_cons.1 hf with rfl | hf
      · exact hinner
      · exact ih hrest
          (Nat.lt_of_le_of_lt (hr.le_of_mem_ancestors habove) hinner) f hf

namespace Avoids

section

omit [PathKey κ] [NameDigest]

/-- What is found from the active node was not made in between. -/
theorem apart_of_lookup (h : s.Avoids st st') {key : κ} {a id : Nat}
    (hl : s.store.scopes.lookup s.frame.scope key = some (a, id)) :
    Apart st st' id := by
  obtain ⟨ha, hb⟩ := ScopeTree.binding?_of_lookup hl
  by_contra hid
  obtain ⟨hfrom, hto⟩ := h.bound a key id hb hid
  rcases h.frames s.frame List.mem_cons_self a ha with hbefore | hafter
  · exact Nat.not_lt_of_le hfrom hbefore
  · exact Nat.not_le_of_lt hto hafter

/-- What is new was not made in between. -/
theorem apart_of_new (h : s.Avoids st st') {id : Nat}
    (hid : s.store.arena.size ≤ id) : Apart st st' id :=
  Or.inr (Nat.le_trans h.grown.arena.size_le hid)

/-- The store grows, and binds what is new. -/
theorem grow (h : s.Avoids st st') {next : Store κ}
    (hext : s.store.Extends next)
    (hbound : ∀ (n : Nat) (key : κ) (id : Nat),
      next.scopes.binding? n key = some id →
        s.store.scopes.binding? n key = some id ∨ s.store.arena.size ≤ id) :
    ({ s with store := next } : Session κ).Avoids st st' := by
  refine ⟨h.grown.trans hext, fun f hf => ?_, fun f hf a ha => ?_,
    fun n key id hb hid => ?_⟩
  · exact Nat.lt_of_lt_of_le (h.active f hf) hext.size_le
  · rw [hext.ancestors_eq (h.active f hf)] at ha
    exact h.frames f hf a ha
  · rcases hbound n key id hb with hold | hnew
    · exact h.bound n key id hold hid
    · exact absurd (h.apart_of_new hnew) hid

/-- Frames of the nodes that frames are of already. -/
theorem reframe (h : s.Avoids st st') (hstore : s'.store = s.store)
    (hframes : ∀ f' ∈ s'.frame :: s'.outer, ∃ f ∈ s.frame :: s.outer,
      f'.scope = f.scope) : s'.Avoids st st' := by
  refine ⟨hstore ▸ h.grown, fun f' hf' => ?_, fun f' hf' a ha => ?_,
    hstore ▸ h.bound⟩
  · obtain ⟨f, hf, hscope⟩ := hframes f' hf'
    rw [hstore, hscope]
    exact h.active f hf
  · obtain ⟨f, hf, hscope⟩ := hframes f' hf'
    rw [hstore, hscope] at ha
    exact h.frames f hf a ha

theorem alter (h : s.Avoids st st') {change : Frame → Frame}
    (hscope : (change s.frame).scope = s.frame.scope) :
    (s.alter change).Avoids st st' := by
  refine h.reframe rfl fun f' hf' => ?_
  rcases List.mem_cons.1 hf' with rfl | hf'
  · exact ⟨s.frame, List.mem_cons_self, hscope⟩
  · exact ⟨f', List.mem_cons_of_mem _ hf', rfl⟩

theorem enter (h : s.Avoids st st') : s.enter.Avoids st st' := by
  refine h.reframe rfl fun f' hf' => ⟨f', ?_, rfl⟩
  rcases List.mem_cons.1 hf' with rfl | hf'
  · exact List.mem_cons_self
  · exact hf'

theorem leave (h : s.Avoids st st') : s.leave.Avoids st st' := by
  obtain ⟨schema, frame, outer, store⟩ := s
  cases outer with
  | nil => exact h
  | cons next outer =>
      exact h.reframe rfl fun f' hf' => ⟨f', List.mem_cons_of_mem _ hf', rfl⟩

theorem enterScope (h : s.Avoids st st') : s.enterScope.Avoids st st' := by
  have hlt := h.active s.frame List.mem_cons_self
  have hext : s.store.Extends (s.store.opened s.frame.scope) :=
    (Store.Spreads.of_opened (.refl _ _)).toExtends h.grown.rooted' hlt
  have hgrown := h.grow hext fun n key id hb =>
    Or.inl ((ScopeTree.binding?_attach _ _ n key).symm.trans hb)
  refine ⟨hgrown.grown, fun f hf => ?_, fun f hf => ?_, hgrown.bound⟩
  · rcases List.mem_cons.1 hf with rfl | hf
    · show s.store.scopes.size < (s.store.scopes.attach s.frame.scope).size
      rw [ScopeTree.size_attach]
      omega
    · exact hgrown.active f hf
  · rcases List.mem_cons.1 hf with rfl | hf
    · -- the new node is younger than any that was left
      intro a ha
      rcases hext.rooted'.mem_ancestors_iff.1 ha with rfl | ⟨p, hp, ha⟩
      · exact Or.inr h.grown.size_le
      · obtain rfl := Option.some.inj
          (hp.symm.trans (ScopeTree.parent?_attach_self _ _))
        exact hgrown.frames s.frame List.mem_cons_self a ha
    · exact hgrown.frames f hf

end

/-- Compiling under the active frame. -/
theorem step (h : s.Avoids st st') {asked : Select → Prop} {m : CompileM κ α}
    {post : α → Prop} (hm : CompileM.Composed asked post m) :
    (s.step m).2.Avoids st st' :=
  h.grow
    ((hm.spreads s.env s.store).toExtends h.grown.rooted'
      (h.active s.frame List.mem_cons_self))
    fun _ _ _ => hm.bound_new s.env s.store

/-- However a session goes on, it does not come back. -/
theorem next (h : s.Avoids st st') (hn : Next lexical s s') :
    s'.Avoids st st' := by
  have hstep : ∀ {β : Type} {m : CompileM κ β},
      CompileM.Composes (fun _ => True) m → (s.step m).2.Avoids st st' :=
    fun hm => h.step hm
  have hexpr := CompileM.composed_expr (κ := κ)
  have htrue : ∀ {l : List Select}, ∀ q ∈ l, True := fun _ _ => trivial
  cases hn with
  | enter => exact h.enter
  | enterScope => exact h.enterScope
  | leave => exact h.leave
  | setClause => exact h.alter rfl
  | setSubject => exact h.alter rfl
  | clearSubject => exact h.alter rfl
  | setDefaultModule => exact h.alter rfl
  | addAlias => exact h.alter rfl
  | expr e => exact h.step (hexpr e)
  | path p => exact hstep .path
  | select q => exact hstep (.select q htrue)
  | filterClause e => exact hstep (.filterClause e htrue)
  | boundClause e => exact hstep (.boundClause e htrue)
  | groupKeys keys => exact hstep (.groupKeys keys htrue)
  | sortKeys keys => exact hstep (.sortKeys keys htrue)
  | shapeElements _ taken elements =>
      exact hstep (.shapeElements elements htrue _ taken)
  | attachExpr e hint => exact hstep (.bind (hexpr e) fun _ hv => .attach hv)
  | attachSet => exact hstep (.attach trivial)
  | coerce => exact hstep .coerce
  | castSet => exact hstep .castSet
  | referenceAt => exact hstep .referenceAt
  | rootSet => exact hstep .rootSet
  | extendPath => exact hstep .extendPath

theorem steps (h : s.Avoids st st') (hsteps : Steps lexical s s') :
    s'.Avoids st st' := by
  induction hsteps with
  | refl => exact h
  | tail _ hn ih => exact ih.next hn

-- ================================================================ paths

/-- The second of two steps is compiled by a session that has left the
nodes as well. -/
theorem of_bind (h : s.Avoids st st') {asked : Select → Prop} {mid : α → Prop}
    {m : CompileM κ α} {f : α → CompileM κ β} {b : β}
    (hm : CompileM.Composed asked mid m)
    (hb : (s.step (m >>= f)).1 = .ok b) :
    ∃ (a : α) (s' : Session κ), s'.Avoids st st' ∧ (s.step m).1 = .ok a
      ∧ (s'.step (f a)).1 = .ok b := by
  rcases step_bind_cases s m f with ⟨e, s', -, hfail⟩ | ⟨a, s', ha, hrest⟩
  · rw [hfail] at hb
    cases hb
  · rw [hrest] at hb
    have hs' := h.step hm
    rw [ha] at hs'
    exact ⟨a, s', hs', by rw [ha], hb⟩

/-- What some pointers lead to from a set was not made in between, unless
it is the set itself. -/
theorem apart_of_extendAll (h : s.Avoids st st') {steps : List Ast.PathStep}
    {source x : SetId} (hsource : steps = [] → Apart st st' source)
    (hx : (s.step (steps.foldlM
      (fun set step => CompileM.extendPath set step.name step.span) source)).1
        = .ok x) :
    Apart st st' x := by
  induction steps generalizing s source with
  | nil =>
      cases hx
      exact hsource rfl
  | cons step steps ih =>
      rw [List.foldlM_cons] at hx
      have hcomposed : CompileM.Composes (fun _ => True)
          (CompileM.extendPath (κ := κ) source step.name step.span) :=
        .extendPath
      obtain ⟨y, s', hs', hfirst, hrest⟩ := h.of_bind hcomposed hx
      refine ih hs' (fun _ => ?_) hrest
      rcases CompileM.found_or_new_of_extendPath (Prod.ext hfirst rfl)
        with ⟨_, _, hl⟩ | hnew
      · exact h.apart_of_lookup hl
      · exact h.apart_of_new (Nat.le_of_eq hnew.symm)

/-- What a path leads to was not made in between, unless it is the
subject itself. -/
theorem apart_of_path (h : s.Avoids st st') {p : Ast.Path} {x : SetId}
    (hp : p.root ≠ none ∨ p.steps ≠ [])
    (hx : (s.step (CompileM.path p)).1 = .ok x) : Apart st st' x := by
  unfold CompileM.path at hx
  have hcomposed : CompileM.Composes (fun _ => True)
      (CompileM.pathStart (κ := κ) p) := .pathStart
  obtain ⟨source, s', hs', hstart, hsteps⟩ := h.of_bind hcomposed hx
  refine hs'.apart_of_extendAll (fun hnone => ?_) hsteps
  have hrun : (CompileM.pathStart p).run s.env s.store
      = (.ok source, (s.step (CompileM.pathStart p)).2.store) :=
    Prod.ext hstart rfl
  obtain ⟨root, steps, span⟩ := p
  cases root with
  | none => exact absurd hnone (hp.resolve_left (not_not.2 rfl))
  | some root =>
      unfold CompileM.pathStart at hrun
      obtain ⟨item, _, hresolve, hroot⟩ := CompileM.ok_of_bind hrun
      rw [CompileM.run_resolve] at hresolve
      obtain ⟨-, rfl⟩ := CompileM.ok_of_orFail hresolve
      cases item with
      | function name sig => cases hroot
      | type t entry =>
          obtain ⟨_, _, hobject, hset⟩ := CompileM.ok_of_bind hroot
          obtain ⟨-, rfl⟩ := CompileM.ok_of_require hobject
          rcases CompileM.found_or_new_of_rootSet hset with ⟨_, _, hl⟩ | hnew
          · exact h.apart_of_lookup hl
          · exact h.apart_of_new (Nat.le_of_eq hnew.symm)

end Avoids

-- ============================================================ consumers

/-- What consumes sets as a whole, by what it is compiled to. A call is
one if the function takes all of its arguments so (`TakesWhole`). -/
inductive Consumer : Type → Type where
  | existence (operand : Expr) (span : Span) : Consumer Value
  | call (function : Ast.NameRef) (args : List Expr) (span : Span) :
      Consumer Value
  | subquery (q : Select) : Consumer Value
  | statement (q : Select) : Consumer Statement
  | filterClause (f : Option Expr) : Consumer (Option SetId)
  | groupByClause (keys : List Expr) : Consumer (List SetId)
  | orderByClause (keys : List Ast.SortKey) : Consumer (List Ir.SortKey)
  | boundClause (n : Option Expr) : Consumer (Option SetId)

namespace Consumer

/-- The step that a consumer stands for. -/
def compile : Consumer α → CompileM κ α
  | existence operand span => CompileM.expr (.unary .exists operand span)
  | call function args span => CompileM.expr (.call function args span)
  | subquery q => CompileM.expr (.select q)
  | statement q => CompileM.select q
  | filterClause f => CompileM.filterClause f
  | groupByClause keys => CompileM.groupByClause keys
  | orderByClause keys => CompileM.orderByClause keys
  | boundClause n => CompileM.boundClause n

/-- If a call names a function, then that takes sets as a whole. -/
def TakesWhole (env : Env) : Consumer α → Prop
  | call function _ _ => ∀ name signature,
      env.resolve? function.name = some (.function name signature) →
        ∀ p ∈ signature.params, p.mode = .wholeSet
  | _ => True

theorem composed (c : Consumer α) : ∃ (post : α → Prop),
    CompileM.Composed (κ := κ) (fun _ => True) post c.compile := by
  cases c with
  | existence operand span => exact ⟨_, .expr _ fun _ _ => trivial⟩
  | call function args span => exact ⟨_, .expr _ fun _ _ => trivial⟩
  | subquery q => exact ⟨_, .expr _ fun _ _ => trivial⟩
  | statement q => exact ⟨_, .select q fun _ _ => trivial⟩
  | filterClause f => exact ⟨_, .filterClause f fun _ _ => trivial⟩
  | groupByClause keys =>
      exact ⟨_, .inClause (.groupKeys keys fun _ _ => trivial)⟩
  | orderByClause keys =>
      exact ⟨_, .inClause (.sortKeys keys fun _ _ => trivial)⟩
  | boundClause n => exact ⟨_, .boundClause n fun _ _ => trivial⟩

omit [DecidableEq κ] [PathKey κ] [NameDigest] in
/-- To find the function of a call leaves the store alone. -/
theorem run_callee_cases (function : Ast.NameRef) (given : Nat) (span : Span)
    (env : Env) (st : Store κ) :
    (∃ e, (CompileM.callee function given span).run env st = (.error e, st))
      ∨ ∃ name signature,
        env.resolve? function.name = some (.function name signature)
          ∧ (CompileM.callee function given span).run env st
            = (.ok (name, signature), st) := by
  unfold CompileM.callee
  rw [CompileM.run_bind, CompileM.run_resolve, CompileM.run_orFail]
  cases hitem : env.resolve? function.name with
  | none => exact Or.inl ⟨_, rfl⟩
  | some item =>
      cases item with
      | type t entry => exact Or.inl ⟨_, rfl⟩
      | function name signature =>
          dsimp only
          rw [CompileM.run_bind, CompileM.run_require]
          by_cases hgiven : given == signature.params.length
          · rw [if_pos hgiven]
            exact Or.inr ⟨name, signature, rfl, rfl⟩
          · rw [if_neg hgiven]
            exact Or.inl ⟨_, rfl⟩

/-- A call of a function that takes sets as a whole binds nothing in the
nodes that are there, whether it is a good call or not. -/
theorem encloses_call {env : Env} {function : Ast.NameRef} {args : List Expr}
    {span : Span} (h : TakesWhole env (.call function args span))
    (st : Store κ) (n : Nat) (hn : n < st.scopes.size) (key : κ) :
    ((CompileM.expr (.call function args span)).run env st).2.scopes.binding?
      n key = st.scopes.binding? n key := by
  unfold CompileM.expr
  rw [CompileM.run_bind]
  rcases run_callee_cases function args.length span env st with
    ⟨e, hrun⟩ | ⟨name, signature, hname, hrun⟩
  · rw [hrun]
  · rw [hrun]
    have hargs : CompileM.Composes (κ := κ) (fun _ => True)
        (CompileM.arguments name 0 signature.params signature.cardinality
          args) := .arguments args fun _ _ => trivial
    exact CompileM.Encloses.bind
      (.arguments name args 0 signature.params signature.cardinality
        (h name signature hname)) hargs (fun _ => .call _ _ _ _ _)
      env st n hn key

/-- What consumes sets as a whole binds nothing in the nodes that are
there. -/
theorem encloses {env : Env} (c : Consumer α) (hc : c.TakesWhole env)
    (st : Store κ) (n : Nat) (hn : n < st.scopes.size) (key : κ) :
    (c.compile.run env st).2.scopes.binding? n key
      = st.scopes.binding? n key := by
  cases c with
  | existence operand span =>
      exact CompileM.Encloses.existence operand span env st n hn key
  | call function args span => exact encloses_call hc st n hn key
  | subquery q =>
      have hselect : CompileM.Composes (κ := κ) (fun _ => True)
          (CompileM.select q) := .select q fun _ _ => trivial
      exact (CompileM.Encloses.select q).bind hselect
        CompileM.Encloses.subquery env st n hn key
  | statement q => exact CompileM.Encloses.select q env st n hn key
  | filterClause f => exact CompileM.Encloses.filterClause f env st n hn key
  | groupByClause keys =>
      exact (CompileM.Encloses.groupKeys keys).inClause env st n hn key
  | orderByClause keys =>
      exact (CompileM.Encloses.sortKeys keys).inClause env st n hn key
  | boundClause e => exact CompileM.Encloses.boundClause e env st n hn key

end Consumer

/-- What was made between two sessions is sealed: paths are looked up as
before, in the active node and in each node that was there, and no path
that is compiled later, other than the mere subject, is a set that was
made in between. -/
structure Seals (lexical : Prop) (s s' : Session κ) : Prop where
  lookups : ∀ key : κ, (s'.step (CompileM.lookupPath key)).1
    = (s.step (CompileM.lookupPath key)).1
  bindings : ∀ n : Nat, n < s.store.scopes.size → ∀ key : κ,
    s'.store.scopes.binding? n key = s.store.scopes.binding? n key
  unshared : ∀ later, Steps lexical s' later → ∀ (p : Ast.Path) (x : SetId),
    p.root ≠ none ∨ p.steps ≠ [] → (later.step (CompileM.path p)).1 = .ok x →
      Apart s.store s'.store x

/-- What consumes sets as a whole is sealed in every session, whether it
compiles or not. -/
theorem consumer_seals (h : s.Reachable lexical) (c : Consumer α)
    (hc : c.TakesWhole s.env) : s.Seals lexical (s.step c.compile).2 := by
  obtain ⟨post, hcomposed⟩ := c.composed (κ := κ)
  have hready := h.ready
  have hrooted := hready.active.sound.rooted
  have hspreads := hcomposed.spreads s.env s.store
  have hext : s.store.Extends (s.step c.compile).2.store :=
    hspreads.toExtends hrooted hready.active.active
  have hbindings : ∀ n : Nat, n < s.store.scopes.size → ∀ key : κ,
      (s.step c.compile).2.store.scopes.binding? n key
        = s.store.scopes.binding? n key :=
    fun n hn key => c.encloses hc s.store n hn key
  have hactive : ∀ f ∈ s.frame :: s.outer, f.scope < s.store.scopes.size :=
    lt_size_of_encloses hrooted hready.around hready.active.active
  have havoids : (s.step c.compile).2.Avoids s.store (s.step c.compile).2.store := by
    refine ⟨.refl hext.rooted', fun f hf => ?_, fun f hf a ha => ?_,
      fun n key id hb hid => ⟨?_, ScopeTree.lt_size_of_binding? hb⟩⟩
    · exact Nat.lt_of_lt_of_le (hactive f hf) hext.size_le
    · rw [hext.ancestors_eq (hactive f hf)] at ha
      exact Or.inl (Nat.lt_of_le_of_lt (hrooted.le_of_mem_ancestors ha)
        (hactive f hf))
    · -- what a node that was there binds was there
      by_contra hn
      rw [hbindings n (Nat.lt_of_not_le hn)] at hb
      obtain ⟨node, hnode, -⟩ := hready.active.sound.binding n key id hb
      exact hid (Or.inl (Ir.Arena.lt_size_of_get? hnode))
  refine ⟨fun key => ?_, hbindings, fun later hsteps p x hp hx => ?_⟩
  · have hlookup : (s.step c.compile).2.store.scopes.lookup s.frame.scope key
        = s.store.scopes.lookup s.frame.scope key := by
      refine ScopeTree.lookup_congr (hext.ancestors_eq hready.active.active)
        fun a ha => hbindings a ?_ key
      exact Nat.lt_of_le_of_lt (hrooted.le_of_mem_ancestors ha)
        hready.active.active
    exact congrArg (fun hit => Except.ok (hit.map Prod.snd)) hlookup
  · exact (havoids.steps hsteps).apart_of_path hp hx

end Session

end

-- ============================================================= example

open scoped Xxh64

/-- How many friends there are in all. -/
def friendCount : Session.Consumer Value :=
  .call ⟨.within "std" "count", default⟩ [.path friends] default

theorem consumer_seals_friends :
    friendCount.TakesWhole beforeFriends.env
      ∧ beforeFriends.Seals False (beforeFriends.step friendCount.compile).2
      ∧ (beforeFriends.step friendCount.compile).2.store.arena.size = 2
      ∧ ((beforeFriends.step friendCount.compile).2.step
          (CompileM.path friends)).1 = .ok 3 := by
  have hwhole : friendCount.TakesWhole beforeFriends.env := by
    intro name signature hname p hp
    have hall : (beforeFriends.env.resolve? (.within "std" "count")).all
        (fun
          | .function _ sig => sig.params.all fun p => p.mode = .wholeSet
          | .type _ _ => true) = true := by decide +kernel
    have hparams := Option.all_eq_true _ _ |>.1 hall _ hname
    exact of_decide_eq_true (List.all_eq_true.1 hparams p hp)
  refine ⟨hwhole, ?_, by decide +kernel, by decide +kernel⟩
  exact Session.consumer_seals (reachable_beforeFriends False) friendCount hwhole

end PathQuery
