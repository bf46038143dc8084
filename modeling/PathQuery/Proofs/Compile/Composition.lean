/-
What compilation is put together from.

There are few things that compiling does of its own: it reads, it adds a
set, and it adds a path set under a key that is free (`Store.Adds`). The
rest is composition: one step after another, a part under another frame
of the same node, a part in a node of its own, and a statement that
becomes a set. `Composed` has one constructor for each; that all of the
compiler is composed is one lemma for each of its functions, again by
recursion on the syntax.

Whatever holds of the constructors holds of all compilation, from any
store, whether it ends well or not. The first such fact is how far a
store spreads (`Composed.spreads`). Only a statement makes a set that is
a subquery, and only one of those `asked` for; this is why a value keeps
the promise that its operation is no statement.
-/
import PathQuery.Ast.Nested
import PathQuery.Compile.Statement
import PathQuery.Proofs.Compile.Sharing

namespace PathQuery

open Ast (Expr Select ShapeElement)
open Ir (Value Statement ShapeNode Arena SetNode Operation Origin)

variable {κ α β : Type}

-- =============================================================== plain

/-- An operation other than that of a statement. -/
def Ir.Operation.IsPlain : Operation → Prop
  | subquery _ => False
  | _ => True

def Ir.Origin.IsPlain : Origin → Prop
  | computed op => op.IsPlain
  | _ => True

def Ir.Value.IsPlain : Value → Prop
  | set _ => True
  | pending p => p.operation.IsPlain

variable [DecidableEq κ]

-- ============================================================== growth

namespace Store

variable {active : Nat} {st st' st'' : Store κ}

/-- What a store grows by at once. -/
inductive Adds (active : ScopeId) (st : Store κ) : Store κ → Prop where
  | nothing : Adds active st st
  | set {node : SetNode κ} (h) (hplain : node.origin.IsPlain) :
      Adds active st { st with arena := st.arena.push node h }
  /-- A path set, and its binding in the active node. -/
  | path {node : SetNode κ} {key : κ} (h) (hplain : node.origin.IsPlain)
      (hfree : st.scopes.lookup active key = none) :
      Adds active st
        ⟨st.arena.push node h, st.scopes.bind active key st.arena.size⟩

/-- How far a store grows from the active node. If that is a node of a
rooted tree, then the tree stays rooted. -/
structure Spreads (active : ScopeId) (st st' : Store κ) : Prop where
  grows : st.Grows active st'
  rooted : st.scopes.Rooted → active < st.scopes.size → st'.scopes.Rooted

namespace Spreads

theorem refl (active : ScopeId) (st : Store κ) : st.Spreads active st :=
  ⟨.refl active st, fun h _ => h⟩

theorem trans (h : st.Spreads active st') (h' : st'.Spreads active st'') :
    st.Spreads active st'' :=
  ⟨h.grows.trans h'.grows, fun hr ha => h'.rooted (h.rooted hr ha)
    (Nat.lt_of_lt_of_le ha h.grows.scopes.size_le)⟩

theorem of_adds (h : st.Adds active st') : st.Spreads active st' := by
  cases h with
  | nothing => exact .refl active st
  | set h => exact ⟨⟨Arena.extends_push _ _ h, .refl _ _⟩, fun hr _ => hr⟩
  | path h _ hfree =>
      have hunbound := ScopeTree.lookup_eq_none_iff.1 hfree active
        (ScopeTree.mem_ancestors_self _ _)
      exact ⟨⟨Arena.extends_push _ _ h, ScopeTree.growsFrom_bind hunbound⟩,
        fun hr _ => hr.bind _ _ _⟩

/-- What spreads from a new node spreads from its parent. -/
theorem of_opened
    (h : Spreads st.scopes.size (st.opened active) st') :
    st.Spreads active st' := by
  refine ⟨.of_scope h.grows, fun hr ha => h.rooted (hr.attach ha) ?_⟩
  show st.scopes.size < (st.scopes.attach active).size
  rw [ScopeTree.size_attach]
  exact Nat.lt_succ_self _

theorem toExtends (h : st.Spreads active st') (hr : st.scopes.Rooted)
    (ha : active < st.scopes.size) : st.Extends st' :=
  h.grows.toExtends hr (h.rooted hr ha)

end Spreads

end Store

variable [PathKey κ] [NameDigest]

namespace CompileM

-- ========================================================= composition

/-- A step that is put together as compilation is, with statements among
those that are `asked` for. What it returns is as `post` has it. -/
inductive Composed (asked : Select → Prop) :
    {α : Type} → (post : α → Prop) → CompileM κ α → Prop where
  /-- A step that adds at most one set by itself. -/
  | own {α : Type} {post : α → Prop} {m : CompileM κ α}
      (hadds : ∀ (env : Env) (st : Store κ),
        st.Adds env.frame.scope (m.run env st).2)
      (hpost : ∀ (env : Env) (st : Store κ) a,
        (m.run env st).1 = .ok a → post a) :
      Composed asked post m
  | bind {α β : Type} {mid : α → Prop} {post : β → Prop} {m : CompileM κ α}
      {f : α → CompileM κ β} (hm : Composed asked mid m)
      (hf : ∀ a, mid a → Composed asked post (f a)) :
      Composed asked post (m >>= f)
  /-- A step under another frame of the same node. -/
  | underFrame {α : Type} {post : α → Prop} {m : CompileM κ α}
      {change : Frame → Frame} (hscope : ∀ f, (change f).scope = f.scope)
      (hm : Composed asked post m) : Composed asked post (underFrame change m)
  /-- A step in a node of its own. -/
  | inScope {α : Type} {post : α → Prop} {m : CompileM κ α}
      (hm : Composed asked post m) : Composed asked post (inScope m)
  /-- A statement that becomes a set. -/
  | subquery {q : Select} {mid : Statement → Prop} (hq : asked q)
      (hm : Composed asked mid (select q)) :
      Composed asked Value.IsPlain (select q >>= subquery)

/-- A step that is put together so, whatever it returns. -/
abbrev Composes (asked : Select → Prop) (m : CompileM κ α) : Prop :=
  Composed asked (fun _ => True) m

section Runs

variable {env : Env} {st : Store κ}

omit [DecidableEq κ] [PathKey κ] [NameDigest] in
/-- Either the first of two steps fails, and with it the two, or the
second one goes on from it. -/
theorem run_bind_cases (m : CompileM κ α) (f : α → CompileM κ β) (env : Env)
    (st : Store κ) :
    (∃ e st', m.run env st = (.error e, st')
        ∧ (m >>= f).run env st = (.error e, st'))
      ∨ ∃ a st', m.run env st = (.ok a, st')
        ∧ (m >>= f).run env st = (f a).run env st' := by
  rw [run_bind]
  rcases m.run env st with ⟨_ | a, st'⟩
  · exact Or.inl ⟨_, _, rfl, rfl⟩
  · exact Or.inr ⟨_, _, rfl, rfl⟩

/-- A set is refused, or takes the next number. -/
def MakesSet (origin : Origin) (env : Env) (st : Store κ)
    (make : CompileM κ SetId) : Prop :=
  (∃ e, make.run env st = (.error e, st))
    ∨ ∃ (node : SetNode κ) (h : _), node.origin = origin
      ∧ make.run env st
        = (.ok st.arena.size, { st with arena := st.arena.push node h })

omit [DecidableEq κ] [PathKey κ] [NameDigest] in
/-- A set is refused if it goes on from none; else it takes the next
number. -/
theorem run_newSet_cases (origin : Origin) (t : TypeId) (c : Cardinality)
    (span : Span) (key : Option κ) (env : Env) (st : Store κ) :
    (∃ source, origin.source? = some source ∧ st.arena.size ≤ source
        ∧ (newSet origin t c span key).run env st
          = (.error (.internal (.danglingSet source)), st))
      ∨ ∃ h, (newSet origin t c span key).run env st
        = (.ok st.arena.size,
            ⟨st.arena.push ⟨key, t, c, env.frame.scope, span, origin⟩ h,
              st.scopes⟩) := by
  by_cases h : ∀ source, origin.source? = some source → source < st.arena.size
  · exact Or.inr ⟨h, run_newSet h⟩
  · simp only [not_forall] at h
    obtain ⟨source, hs, hlt⟩ := h
    refine Or.inl ⟨source, hs, Nat.le_of_not_lt hlt, ?_⟩
    unfold newSet
    rw [run_bind_ok
      (show (get : CompileM κ (Store κ)).run env st = (.ok st, st) from rfl),
      run_bind_ok run_frame]
    dsimp only
    split
    · next hnone =>
        rw [hs] at hnone
        cases hnone
    · next source' hsome =>
        rw [hs] at hsome
        cases hsome
        rw [dif_neg hlt]
        exact run_fail _ _ _

omit [DecidableEq κ] [PathKey κ] [NameDigest] in
theorem makesSet_newSet (origin : Origin) (t : TypeId) (c : Cardinality)
    (span : Span) (key : Option κ) (env : Env) (st : Store κ) :
    MakesSet origin env st (newSet origin t c span key) := by
  rcases run_newSet_cases origin t c span key env st with
    ⟨source, -, -, hrun⟩ | ⟨h, hrun⟩
  · exact Or.inl ⟨_, hrun⟩
  · exact Or.inr ⟨_, h, rfl, hrun⟩

omit [DecidableEq κ] [PathKey κ] [NameDigest] in
theorem run_typeOf_cases (id : SetId) (env : Env) (st : Store κ) :
    ∃ out, (typeOf id).run env st = (out, st) := by
  cases hn : st.arena.get? id with
  | some node => exact ⟨_, run_typeOf hn⟩
  | none =>
      unfold typeOf getSet
      rw [run_bind, run_bind_ok run_store, hn]
      exact ⟨_, rfl⟩

omit [DecidableEq κ] [PathKey κ] [NameDigest] in
/-- A statement that becomes a set adds that set. -/
theorem run_subquery_cases (stmt : Statement) (env : Env) (st : Store κ) :
    (∃ e, (subquery stmt).run env st = (.error e, st))
      ∨ ∃ (node : SetNode κ) (h : _), node.origin = .computed (.subquery stmt)
        ∧ (subquery stmt).run env st = (.ok (.set st.arena.size),
            { st with arena := st.arena.push node h }) := by
  unfold subquery newComputed
  obtain ⟨_ | t, ht⟩ := run_typeOf_cases stmt.result env st
  · rw [run_bind, ht]
    exact Or.inl ⟨_, rfl⟩
  · rw [run_bind_ok ht, run_bind]
    rcases makesSet_newSet (.computed (.subquery stmt)) t stmt.cardinality
      stmt.span none env st with ⟨e, hrun⟩ | ⟨node, h, ho, hrun⟩
    · rw [hrun]
      exact Or.inl ⟨e, rfl⟩
    · rw [hrun]
      exact Or.inr ⟨node, h, ho, rfl⟩

omit [PathKey κ] [NameDigest] in
theorem spreads_subquery (stmt : Statement) (env : Env) (st : Store κ) :
    st.Spreads env.frame.scope ((subquery stmt).run env st).2 := by
  rcases run_subquery_cases stmt env st with ⟨e, hrun⟩ | ⟨_, h, _, hrun⟩
  · rw [hrun]
    exact .refl _ _
  · rw [hrun]
    exact ⟨⟨Arena.extends_push _ _ h, .refl _ _⟩, fun hr _ => hr⟩

omit [PathKey κ] [NameDigest] in
/-- A set that is made by itself, unless its key is bound. -/
theorem adds_shared (origin : Origin) (hplain : origin.IsPlain) {key : κ}
    {confirm : Arena κ → SetId → Bool} {make : CompileM κ SetId}
    (hmake : MakesSet origin env st make) :
    st.Adds env.frame.scope ((shared key confirm make).run env st).2 := by
  have hadds : st.Adds env.frame.scope (make.run env st).2 := by
    rcases hmake with ⟨e, hrun⟩ | ⟨node, h, rfl, hrun⟩
    · rw [hrun]
      exact .nothing
    · rw [hrun]
      exact .set h hplain
  cases hl : st.scopes.lookup env.frame.scope key with
  | some hit =>
      obtain ⟨a, found⟩ := hit
      cases hc : confirm st.arena found with
      | true =>
          rw [run_shared_of_found hl hc]
          exact .nothing
      | false =>
          rw [run_shared_of_taken hl hc]
          exact hadds
  | none =>
      rcases hmake with ⟨e, hrun⟩ | ⟨node, h, rfl, hrun⟩
      · have hfail : (shared key confirm make).run env st = (.error e, st) := by
          unfold shared
          rw [run_bind_ok run_lookupPath, hl]
          show (make >>= fun id => bindPath key id >>= fun _ => pure id).run
            env st = _
          rw [run_bind, hrun]
        rw [hfail]
        exact .nothing
      · rw [run_shared_of_free hl hrun]
        exact .path h hplain hl

end Runs

namespace Composed

variable {asked : Select → Prop} {mid : α → Prop} {post : β → Prop}
  {m : CompileM κ α} {f : α → CompileM κ β}

/-- What a composed step returns is as it should be. -/
theorem value (h : Composed asked mid m) (env : Env) (st : Store κ) :
    ∀ a, (m.run env st).1 = .ok a → mid a := by
  induction h generalizing env st with
  | own hadds hpost => exact hpost env st
  | @bind _ _ _ _ m f _ _ ihm ihf =>
      intro b hb
      rcases run_bind_cases m f env st with ⟨e, st', hm, hrun⟩
        | ⟨a, st', hm, hrun⟩
      · rw [hrun] at hb
        cases hb
      · rw [hrun] at hb
        exact ihf a (ihm env st a (by rw [hm])) env st' b hb
  | underFrame _ _ ih => exact ih _ _
  | inScope _ ih => exact ih _ _
  | @subquery q _ _ _ _ =>
      intro v hv
      rcases run_bind_cases (select q) CompileM.subquery env st with
        ⟨e, st', _, hrun⟩ | ⟨stmt, st', _, hrun⟩
      · rw [hrun] at hv
        cases hv
      · rcases run_subquery_cases stmt env st' with ⟨e, hsub⟩ | ⟨_, _, _, hsub⟩
        · rw [hrun, hsub] at hv
          cases hv
        · rw [hrun, hsub] at hv
          cases hv
          trivial

/-- From the active node, a composed step only grows a store. -/
theorem spreads (h : Composed asked mid m) (env : Env) (st : Store κ) :
    st.Spreads env.frame.scope (m.run env st).2 := by
  induction h generalizing env st with
  | own hadds _ => exact .of_adds (hadds env st)
  | @bind _ _ _ _ m f hm _ ihm ihf =>
      have hspread := ihm env st
      rcases run_bind_cases m f env st with ⟨e, st', hrunm, hrun⟩
        | ⟨a, st', hrunm, hrun⟩
      · rw [hrunm] at hspread
        rw [hrun]
        exact hspread
      · have hmid := hm.value env st a (by rw [hrunm])
        rw [hrunm] at hspread
        rw [hrun]
        exact hspread.trans (ihf a hmid env st')
  | @underFrame _ _ _ change hscope _ ih =>
      have hspread := ih { env with frame := change env.frame } st
      rw [show (change env.frame).scope = env.frame.scope from hscope _]
        at hspread
      exact hspread
  | inScope _ ih =>
      exact .of_opened
        (ih (env.within st.scopes.size) (st.opened env.frame.scope))
  | @subquery q _ _ _ ih =>
      have hspread := ih env st
      rcases run_bind_cases (select q) CompileM.subquery env st with
        ⟨e, st', hrunm, hrun⟩ | ⟨stmt, st', hrunm, hrun⟩
      · rw [hrunm] at hspread
        rw [hrun]
        exact hspread
      · rw [hrunm] at hspread
        rw [hrun]
        exact hspread.trans (spreads_subquery stmt env st')

end Composed

end CompileM

end PathQuery
