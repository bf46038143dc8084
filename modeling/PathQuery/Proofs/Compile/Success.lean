/-
What a step has done that did not fail.

The compiler checks what it demands and fails where it is not met, so a
step that gave a value has passed its checks: a set that was coerced has
the type or a subtype, an operand that was attached for its own sake is
typed, and a set that must be one value was judged to be at most one,
from the node that was active. The lemmas here take a run that succeeded
apart and hand out what was checked. They need nothing of the store that
the run started from; to carry a fact to a later store, it is enough
that the active node is seated in the earlier one (`Store.Seats`).
-/
import PathQuery.Proofs.Compile.Attachment
import PathQuery.Proofs.Compile.Composed

namespace PathQuery

open Ir (Value Arena SetNode Operation Origin)

variable {κ α β : Type}

namespace CompileM

variable {env : Env} {st st' : Store κ} {id id' : SetId} {t target : TypeId}

-- =============================================================== reads

/-- Both of two steps have succeeded. -/
theorem ok_of_bind {m : CompileM κ α} {f : α → CompileM κ β} {b : β}
    (h : (m >>= f).run env st = (.ok b, st')) :
    ∃ a mid, m.run env st = (.ok a, mid)
      ∧ (f a).run env mid = (.ok b, st') := by
  rcases run_bind_cases m f env st with ⟨e, mid, -, hrun⟩ | ⟨a, mid, hm, hrun⟩
  · rw [hrun] at h
    cases h
  · exact ⟨a, mid, hm, hrun.symm.trans h⟩

theorem ok_of_pure {a b : α}
    (h : (pure a : CompileM κ α).run env st = (.ok b, st')) :
    b = a ∧ st' = st := by
  cases h
  exact ⟨rfl, rfl⟩

theorem ok_of_orFail {value : Option α} {e : CompileError} {a : α}
    (h : (orFail value e : CompileM κ α).run env st = (.ok a, st')) :
    value = some a ∧ st' = st := by
  cases value with
  | none => cases h
  | some b =>
      cases h
      exact ⟨rfl, rfl⟩

theorem ok_of_require {b : Bool} {e : CompileError} {u : Unit}
    (h : (require b e : CompileM κ Unit).run env st = (.ok u, st')) :
    b = true ∧ st' = st := by
  cases b with
  | true => exact ⟨rfl, (ok_of_pure h).2⟩
  | false => cases h

theorem ok_of_getSet {node : SetNode κ}
    (h : (getSet id).run env st = (.ok node, st')) :
    st.arena.get? id = some node ∧ st' = st := by
  unfold getSet at h
  rw [run_bind_ok run_store] at h
  exact ok_of_orFail h

theorem ok_of_typeOf (h : (typeOf id).run env st = (.ok t, st')) :
    st.arena.type? id = some t ∧ st' = st := by
  unfold typeOf at h
  obtain ⟨node, mid, hget, hpure⟩ := ok_of_bind h
  obtain ⟨hn, rfl⟩ := ok_of_getSet hget
  obtain ⟨rfl, rfl⟩ := ok_of_pure hpure
  exact ⟨Arena.type?_eq_some_iff.2 ⟨node, hn, rfl⟩, rfl⟩

theorem ok_of_judge {c : Cardinality}
    (h : (judge id).run env st = (.ok c, st')) :
    st.judge? env.frame.scope id = some c ∧ st' = st := by
  unfold judge at h
  rw [run_bind_ok run_store, run_bind_ok run_frame] at h
  exact ok_of_orFail h

/-- A set that must be one value has at most one element. -/
theorem ok_of_requireSingleton
    (h : (requireSingleton id).run env st = (.ok (), st')) :
    st' = st ∧ ∃ c, st.judge? env.frame.scope id = some c
      ∧ c.isSingleton = true := by
  unfold requireSingleton at h
  obtain ⟨c, mid, hjudge, hcheck⟩ := ok_of_bind h
  obtain ⟨hc, rfl⟩ := ok_of_judge hjudge
  split at hcheck
  · next hone =>
      obtain ⟨-, rfl⟩ := ok_of_pure hcheck
      exact ⟨rfl, c, hc, hone⟩
  · rw [run_bind_ok run_frame] at hcheck
    obtain ⟨node, mid, -, hfail⟩ := ok_of_bind hcheck
    cases hfail

/-- What is shared was found under its key, or was made. -/
theorem ok_of_shared [DecidableEq κ] {key : κ} {confirm : Arena κ → SetId → Bool}
    {make : CompileM κ SetId}
    (h : (shared key confirm make).run env st = (.ok id, st')) :
    (∃ a, st.scopes.lookup env.frame.scope key = some (a, id)
        ∧ confirm st.arena id = true ∧ st' = st)
      ∨ ∃ mid, make.run env st = (.ok id, mid) ∧ mid.arena = st'.arena := by
  cases hl : st.scopes.lookup env.frame.scope key with
  | some hit =>
      obtain ⟨a, found⟩ := hit
      cases hc : confirm st.arena found with
      | true =>
          rw [run_shared_of_found hl hc] at h
          cases h
          exact Or.inl ⟨a, rfl, hc, rfl⟩
      | false =>
          rw [run_shared_of_taken hl hc] at h
          exact Or.inr ⟨st', h, rfl⟩
  | none =>
      unfold shared at h
      rw [run_bind_ok run_lookupPath, hl] at h
      obtain ⟨made, mid, hmade, hrest⟩ := ok_of_bind h
      rw [run_bind_ok run_bindPath] at hrest
      cases hrest
      exact Or.inr ⟨mid, hmade, rfl⟩

-- ================================================================ types

/-- A computed set has the type that it was given. -/
theorem get?_of_newComputed {op : Operation} {c : Cardinality} {span : Span}
    (h : (newComputed op t c span).run env st = (.ok id, st')) :
    st'.arena.get? id = some ⟨none, t, c, env.frame.scope, span, .computed op⟩
      := by
  rw [run_newComputed] at h
  cases h
  exact Arena.get?_push_self _ _ (Origin.source_lt_computed op _)

theorem type?_of_castSet {conversion : Conversion}
    (h : (castSet id target conversion).run env st = (.ok id', st')) :
    st'.arena.type? id' = some target := by
  unfold castSet at h
  obtain ⟨node, _, -, hrest⟩ := ok_of_bind h
  obtain ⟨c, _, -, hnew⟩ := ok_of_bind hrest
  exact Arena.type?_eq_some_iff.2 ⟨_, get?_of_newComputed hnew, rfl⟩

/-- A set that was coerced has the type that was called for, or a
subtype. -/
theorem isSubtype_of_coerce
    (h : (coerce id target).run env st = (.ok id', st')) :
    ∃ t, st'.arena.type? id' = some t
      ∧ env.schema.isSubtype t target = true := by
  have hself := Schema.isSubtype_self env.schema target
  unfold coerce at h
  obtain ⟨node, mid, hget, hrest⟩ := ok_of_bind h
  obtain ⟨hn, rfl⟩ := ok_of_getSet hget
  rw [run_bind_ok run_schema] at hrest
  split at hrest
  · obtain ⟨c, _, -, hnew⟩ := ok_of_bind hrest
    exact ⟨target,
      Arena.type?_eq_some_iff.2 ⟨_, get?_of_newComputed hnew, rfl⟩, hself⟩
  · have hkept : ∀ conversion, conversion ≠ .implicit →
        env.schema.conversion? node.type target = some conversion →
        (pure id : CompileM κ SetId).run env mid = (.ok id', st') →
        ∃ t, st'.arena.type? id' = some t
          ∧ env.schema.isSubtype t target = true := by
      intro conversion hne hconv hpure
      obtain ⟨rfl, rfl⟩ := ok_of_pure hpure
      have htype := Arena.type?_eq_some_iff.2 ⟨node, hn, rfl⟩
      rcases Schema.conversion?_cases hconv with ⟨-, hsub⟩ | ⟨rfl, -⟩
      · exact ⟨node.type, htype, hsub⟩
      · exact absurd rfl hne
    split at hrest
    · next hconv => exact hkept _ (by simp) hconv hrest
    · next hconv => exact hkept _ (by simp) hconv hrest
    · exact ⟨target, type?_of_castSet hrest, hself⟩
    · rw [run_bind_ok run_frame] at hrest
      cases hrest

/-- A value that was attached for a use that calls for no type has
one. -/
theorem ne_empty_of_attach {v : Value}
    (h : (attach v none).run env st = (.ok id, st')) :
    ∃ t, st'.arena.type? id = some t ∧ t ≠ .empty := by
  unfold attach at h
  obtain ⟨x, mid, -, hrest⟩ := ok_of_bind h
  obtain ⟨node, _, hget, hcheck⟩ := ok_of_bind hrest
  obtain ⟨hn, rfl⟩ := ok_of_getSet hget
  split at hcheck
  · obtain ⟨_, _, hfail, -⟩ := ok_of_bind hcheck
    cases hfail
  · next hne =>
      obtain ⟨rfl, rfl⟩ := ok_of_pure hcheck
      refine ⟨node.type, Arena.type?_eq_some_iff.2 ⟨node, hn, rfl⟩, ?_⟩
      intro heq
      exact hne (TypeId.isEmpty_iff.2 heq)

/-- A value that was attached for a use that calls for a type has it, or
a subtype. -/
theorem isSubtype_of_attach {v : Value}
    (h : (attach v (some target)).run env st = (.ok id, st')) :
    ∃ t, st'.arena.type? id = some t
      ∧ env.schema.isSubtype t target = true := by
  unfold attach at h
  obtain ⟨x, mid, -, hcoerce⟩ := ok_of_bind h
  exact isSubtype_of_coerce hcoerce

/-- The operand of a clause was attached at the type of the clause. -/
theorem exists_attach_of_clauseOperand {operand : CompileM κ Value}
    {span : Span} {hint : Option TypeId}
    (h : (clauseOperand operand span hint).run env st = (.ok id, st')) :
    ∃ v mid, (attach v hint).run env mid = (.ok id, st') := by
  unfold clauseOperand at h
  obtain ⟨v, mid, -, hrest⟩ := ok_of_bind h
  cases v with
  | set x =>
      obtain ⟨y, mid', -, hattach⟩ := ok_of_bind hrest
      exact ⟨_, _, hattach⟩
  | pending p => exact ⟨_, _, hrest⟩

end CompileM

-- ============================================================= seating

namespace Store

variable {st : Store κ} {scope : ScopeId}

/-- The scope nodes are rooted, and this is one of them. -/
structure Seats (st : Store κ) (scope : ScopeId) : Prop where
  rooted : st.scopes.Rooted
  active : scope < st.scopes.size

theorem Seats.opened (h : st.Seats scope) :
    (st.opened scope).Seats st.scopes.size where
  rooted := h.rooted.attach h.active
  active := by
    show st.scopes.size < (st.scopes.attach scope).size
    rw [ScopeTree.size_attach]
    exact Nat.lt_succ_self _

end Store

namespace CompileM.Composed

variable [DecidableEq κ] [PathKey κ] [NameDigest]

variable {asked : Ast.Select → Prop} {post : α → Prop} {m : CompileM κ α}
  {env : Env} {st st' : Store κ}

/-- A composed step leaves the active node seated, in a store that
extends the one before. -/
theorem seats (hm : Composed asked post m) {out : Except CompileError α}
    (hrun : m.run env st = (out, st')) (h : st.Seats env.frame.scope) :
    st'.Seats env.frame.scope ∧ st.Extends st' := by
  have hspread := hm.spreads env st
  rw [hrun] at hspread
  exact ⟨⟨hspread.rooted h.rooted h.active,
    Nat.lt_of_lt_of_le h.active hspread.grows.scopes.size_le⟩,
    hspread.toExtends h.rooted h.active⟩

/-- Both of two steps have succeeded, and the second one goes on from
where the first one leaves the active node seated. -/
theorem ok_bind (hm : Composed asked post m) {f : α → CompileM κ β} {b : β}
    (h : (m >>= f).run env st = (.ok b, st'))
    (hseat : st.Seats env.frame.scope) :
    ∃ a mid, m.run env st = (.ok a, mid) ∧ (f a).run env mid = (.ok b, st')
      ∧ mid.Seats env.frame.scope ∧ st.Extends mid := by
  obtain ⟨a, mid, hrun, hrest⟩ := ok_of_bind h
  exact ⟨a, mid, hrun, hrest, hm.seats hrun hseat⟩

end CompileM.Composed

end PathQuery
