/-
The clauses of a statement, and statements as values.

A clause opens a node below that of the statement, so what is shown of
it is shown from there (`Below`), with the type it wants, and with at
most one element where it takes one (`OneBelow`). The cardinality of a
statement is read off its result, filter and limit alone, so that it is
the one that the rules give can be said as one equation
(`run_statementCardinality`).
-/
import PathQuery.Proofs.Compile.Operators

namespace PathQuery

open Ir

variable {κ : Type}

namespace CompileM

-- =============================================================== runs

section Runs

variable {env : Env} {st : Store κ} {id : Nat} {node : SetNode κ}
  {c : Cardinality}

/-- A set that must be one value is judged from the active node. -/
theorem run_requireSingleton (hc : st.judge? env.frame.scope id = some c)
    (hn : st.arena.get? id = some node) :
    (requireSingleton id).run env st
      = (if c.isSingleton then .ok () else
          .error (.notSingleton env.frame.clause node.span), st) := by
  unfold requireSingleton
  rw [run_bind_ok (run_judge hc)]
  split
  · rfl
  · rw [run_bind_ok run_frame, run_bind_ok (run_getSet hn), run_fail]

theorem run_limited (hn : st.arena.get? id = some node) :
    (limited c id).run env st
      = (.ok (if st.isUnitLimit id then c.capped.optional else c), st) := by
  unfold limited Store.isUnitLimit
  rw [run_bind_ok (run_getSet hn), hn, Option.map_some]
  rcases ho : node.origin with _ | ⟨source, name, per⟩ | op
  · rfl
  · rfl
  · rcases op with v | _ | _ | _ | _ | _ | _ | _ | _
    · cases v with
      | int n =>
          dsimp only
          split
          · next h => rw [if_pos (by simpa using h), run_pure]
          · next h => rw [if_neg (by simpa using h), run_pure]
      | _ => rfl
    all_goals rfl

/-- The cardinality of a statement is the one that the rules give. -/
theorem run_statementCardinality (env : Env) (stmt : Statement)
    (hscope : stmt.scope = env.frame.scope)
    (hresult : st.judge? env.frame.scope stmt.result = some c)
    (hlimit :
      ∀ id, stmt.limit = some id → ∃ node, st.arena.get? id = some node) :
    ∃ d, st.statementCount? stmt = some d
      ∧ (statementCardinality stmt.result stmt.filter stmt.limit).run env st
        = (.ok d, st) := by
  unfold Store.statementCount? statementCardinality
  rw [hscope, hresult, run_bind_ok (run_judge hresult)]
  cases hl : stmt.limit with
  | none => exact ⟨_, rfl, rfl⟩
  | some id =>
      obtain ⟨node, hn⟩ := hlimit id hl
      exact ⟨_, rfl, run_limited hn⟩

end Runs

end CompileM

variable [DecidableEq κ] [PathKey κ] [NameDigest]

namespace CompileM.Upholds

variable {R : Regime} {env : Env} {st : Store κ} {t : TypeId} {span : Span}
  {operand : CompileM κ Value}

-- ============================================================== clauses

/-- At most one element, from there on. -/
theorem requireSingleton {β : Type} {id : Nat} {f : Unit → CompileM κ β}
    {post : Store κ → β → Prop} (hid : st.Holds R env.frame.scope id t)
    (hf : ∀ c, st.judge? env.frame.scope id = some c → c.isSingleton = true →
      Upholds R env st (f ()) post) :
    Upholds R env st (CompileM.requireSingleton id >>= f) post := by
  obtain ⟨c, hc⟩ := hid.exists_judge? env.frame.scope
  obtain ⟨node, hn⟩ := hid.exists_get?
  have hrun := run_requireSingleton hc hn
  cases hone : c.isSingleton with
  | true =>
      rw [hone] at hrun
      exact read hrun (hf c hc hone)
  | false =>
      rw [hone] at hrun
      exact stop hrun (by simp [CompileError.kind])

/-- The operand of a clause is attached like any value. -/
theorem clauseOperand {hint : Option TypeId}
    (ho : Yields R operand)
    (hknown : ∀ h, hint = some h → R.known h) :
    Upholds R env st (CompileM.clauseOperand operand span hint) fun st' id =>
      ∃ t, st'.Holds R env.frame.scope id t
        ∧ (∀ h, hint = some h → env.schema.isSubtype t h = true)
        ∧ (hint = none → t ≠ .empty) := by
  unfold CompileM.clauseOperand
  refine bind (ho _ _) ?_
  intro v st₁ _ h
  obtain ⟨t, hv⟩ := h
  have hattach : ∀ {st : Store κ} {v : Value} {t : TypeId},
      st.Offers R env.schema env.frame.scope v t →
      Upholds R env st (CompileM.attach v hint) fun st' id =>
        ∃ t, st'.Holds R env.frame.scope id t
          ∧ (∀ h, hint = some h → env.schema.isSubtype t h = true)
          ∧ (hint = none → t ≠ .empty) := by
    intro st v t hv
    refine (attach hv hknown).imp ?_
    intro st' id _ _ h
    obtain ⟨t', hid, hsub, hsame⟩ := h
    exact ⟨t', hid, hsub, fun hnone => (hsame hnone).1 ▸ (hsame hnone).2⟩
  cases v with
  | set id =>
      refine bind (referenceAt hv) ?_
      intro x st₂ _ hx
      exact hattach hx
  | pending p => exact hattach (v := .pending { p with span }) hv

/-- A condition is a boolean in a node below. -/
theorem filterBy (ho : Yields R operand) :
    Upholds R env st (CompileM.filterBy operand span) fun st' id =>
      st'.Below R env.frame.scope id
        fun t => env.schema.isSubtype t TypeId.bool = true := by
  refine intro fun hready => ?_
  unfold CompileM.filterBy
  refine inScope (fun st' id => ∃ t, st'.Holds R st.scopes.size id t
    ∧ env.schema.isSubtype t TypeId.bool = true) (fun _ => inClause ?_)
    fun st' id _ hparent => ?_
  · refine (clauseOperand ho fun h heq => ?_).imp ?_
    · cases heq
      exact hready.suits.literal (.bool true)
    · intro st' id _ _ h
      obtain ⟨t, hid, hsub, -⟩ := h
      exact ⟨t, hid, hsub _ rfl⟩
  · intro h
    obtain ⟨t, hid, hsub⟩ := h
    exact ⟨_, t, hparent, hid, hsub⟩

/-- A clause that takes one value of a type has it in a node below. -/
theorem oneValue {hint : Option TypeId} {wanted : TypeId → Prop}
    (ho : Yields R operand)
    (hknown : ∀ h, hint = some h → R.known h)
    (hwanted : ∀ t, (∀ h, hint = some h → env.schema.isSubtype t h = true) →
      (hint = none → t ≠ .empty) → wanted t) :
    Upholds R env st
      (CompileM.inScope do
        let id ← CompileM.clauseOperand operand span hint
        CompileM.requireSingleton id
        return id)
      fun st' id => st'.OneBelow R env.frame.scope id wanted := by
  refine inScope (fun st' id => ∃ t c,
    st'.Holds R st.scopes.size id t ∧ wanted t
      ∧ st'.judge? st.scopes.size id = some c ∧ c.isSingleton = true)
    (fun _ => ?_) fun st' id _ hparent => ?_
  · refine bind (clauseOperand ho hknown) ?_
    intro id st₁ _ h
    obtain ⟨t, hid, hsub, hne⟩ := h
    refine requireSingleton hid fun c hc hone => ?_
    exact pure ⟨t, c, hid, hwanted t hsub hne, hc, hone⟩
  · intro h
    obtain ⟨t, c, hid, ht, hc, hone⟩ := h
    exact ⟨_, t, c, hparent, hid, ht, hc, hone⟩

/-- A number of elements is one integer. -/
theorem bound (ho : Yields R operand) :
    Upholds R env st (CompileM.bound operand span) fun st' id =>
      st'.OneBelow R env.frame.scope id fun t =>
        env.schema.isSubtype t TypeId.int = true := by
  refine intro fun hready => ?_
  unfold CompileM.bound
  refine oneValue ho (fun h heq => ?_) fun t hsub _ => hsub _ rfl
  cases heq
  exact hready.suits.literal (.int 0)

/-- A key is one value of some type. -/
theorem key (ho : Yields R operand) :
    Upholds R env st (CompileM.key operand span) fun st' id =>
      st'.OneBelow R env.frame.scope id fun t => t ≠ .empty := by
  unfold CompileM.key
  exact oneValue ho (fun h heq => by cases heq) fun t _ hne => hne rfl

-- ========================================================== the whole

/-- A statement as a value. -/
theorem subquery {stmt : Statement}
    (ha : st.Arranged R env.schema env.frame.scope stmt) :
    Upholds R env st (CompileM.subquery stmt) (Offered R env) := by
  refine intro fun hready => ?_
  obtain ⟨t, ht⟩ := ha.result
  unfold CompileM.subquery
  refine read (run_typeOf_of_holds ht) (bind (newComputed_holds ?_) ?_)
  · refine ⟨ht.known hready.sound, Or.inl ?_, ha, fun _ => .subquery ht.type?⟩
    simp only [Store.counted?]
    rw [ha.count]
    simp
  · intro id st₁ _ hid
    exact pure ⟨t, hid⟩

end CompileM.Upholds

end PathQuery
