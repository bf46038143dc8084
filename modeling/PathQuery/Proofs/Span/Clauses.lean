/-
Where a clause points to.

The operand of a clause compiles to a fresh operation, to an empty set, to
a set that other places share, or to that of a subquery, and on the way to
the set of the clause it may be referred to, given a type, cast and
checked. Whatever becomes of it, the set of the clause is where the
operand was written, a shared set stays where it was met
(`Session.Marks`), and a clause that fails though its operand compiles
points to the operand (`Session.Faults`).

Keys are compiled one after the other, each in a node of its own, so of a
list of keys this is said key by key.
-/
import PathQuery.Proofs.Correspondence.Syntax
import PathQuery.Proofs.Operator.Hint

namespace PathQuery

open Ast (Expr)
open Ir (Arena Value SetNode)

variable {κ α β : Type}

section

-- ============================================================== meaning

/-- A set stands for another where `span` was written, in a node: it is the
other set, if that was written there, and otherwise refers to it from
there. -/
inductive Store.StandsFor (st : Store κ) (scope : ScopeId) (span : Span) (x : SetId) :
    SetId → Prop where
  | self {node : SetNode κ} (hn : st.arena.get? x = some node)
      (hspan : node.span = span) : StandsFor st scope span x x
  | reference {node : SetNode κ} {y : SetId} {c : Cardinality}
      (hn : st.arena.get? x = some node) (hspan : node.span ≠ span)
      (hy : st.arena.get? y
        = some ⟨none, node.type, c, scope, span, .computed (.reference x)⟩) :
      StandsFor st scope span x y

/-- A set at the type that a clause calls for, if it calls for one. -/
def Store.Fitted (st : Store κ) (s : Schema) (hint : Option TypeId) (y id : SetId) : Prop :=
  match hint with
  | some type => st.Unites s type (.set y) id
  | none => id = y

theorem Store.StandsFor.mono {st st' : Store κ} {scope : ScopeId} {span : Span}
    {x y : SetId} (h : st.arena.Extends st'.arena) (hy : st.StandsFor scope span x y) :
    st'.StandsFor scope span x y := by
  cases hy with
  | self hn hspan => exact .self (h _ _ hn) hspan
  | reference hn hspan hy => exact .reference (h _ _ hn) hspan (h _ _ hy)

theorem Store.Fitted.mono {st st' : Store κ} {s : Schema} {hint : Option TypeId}
    {y id : SetId} (h : st.arena.Extends st'.arena) (hy : st.Fitted s hint y id) :
    st'.Fitted s hint y id := by
  cases hint with
  | some type => exact Store.Unites.mono h hy
  | none => exact hy

namespace Session

/-- The session in which a clause compiles its operand. -/
def operand (s : Session κ) (clause : Option Clause) : Session κ :=
  s.enterScope.alter fun f => { f with clause }

variable [NameDigest] [DecidableEq κ] [PathKey κ]

/-- The set of a clause is where its operand was written. If the operand
is a set that was there, it is where it was, and what stands for it in the
node of the clause is the set of the clause, up to its type. -/
structure Marks (s : Session κ) (e : Expr) (hint : Option TypeId) (st : Store κ)
    (id : SetId) : Prop where
  span : ∃ node, st.arena.get? id = some node ∧ node.span = e.span
  shared : ∃ v mid, s.step (CompileM.expr e) = (.ok v, mid) ∧ ∀ x, v = .set x →
    ∃ node y, mid.store.arena.get? x = some node ∧ st.arena.get? x = some node
      ∧ st.StandsFor s.frame.scope e.span x y ∧ st.Fitted s.schema hint y id

/-- A clause fails as its operand does, or for what it asks of the operand,
and then it points to the operand. -/
inductive Faults (s : Session κ) (e : Expr) (error : CompileError) : Prop where
  | operand {mid : Session κ} (h : s.step (CompileM.expr e) = (.error error, mid))
  | clause {v : Value} {mid : Session κ} (h : s.step (CompileM.expr e) = (.ok v, mid))
      (hkind : error.kind = .typeMismatch ∨ error.kind = .cardinalityViolation)
      (hspan : error.span = e.span)

/-- Each key of a list has its set, in a node that was opened after the
keys before it. -/
def MarksAll (s : Session κ) (clause : Clause) (keys : List Expr) (st : Store κ)
    (ids : List SetId) : Prop :=
  ids.length = keys.length ∧ ∀ before e after, keys = before ++ e :: after →
    ∃ ids₀ s₁ id, s.step (CompileM.inClause clause (CompileM.groupKeys before))
        = (.ok ids₀, s₁)
      ∧ ids[before.length]? = some id
      ∧ (s₁.operand (some clause)).Marks e none st id

/-- A list of keys fails at the first key that does. -/
def FaultsAt (s : Session κ) (clause : Clause) (keys : List Expr) (error : CompileError) :
    Prop :=
  ∃ before e after ids₀ s₁, keys = before ++ e :: after
    ∧ s.step (CompileM.inClause clause (CompileM.groupKeys before)) = (.ok ids₀, s₁)
    ∧ (s₁.operand (some clause)).Faults e error

end Session

-- ============================================================= operands

namespace CompileM

variable {env : Env} {st st' : Store κ} {id x : SetId} {span : Span}
  {hint : Option TypeId} {error : CompileError}

/-- A set is referred to from elsewhere. -/
theorem exists_run_referenceAt {node : SetNode κ} (env : Env) (span : Span)
    (hn : st.arena.get? x = some node) :
    ∃ y st', (referenceAt x span).run env st = (.ok y, st')
      ∧ st'.StandsFor env.frame.scope span x y ∧ st.arena.Extends st'.arena
      ∧ ∃ m, st'.arena.get? y = some m ∧ m.span = span := by
  obtain ⟨c, hc⟩ := st.exists_judge? env.frame.scope hn
  unfold referenceAt
  rw [run_bind_ok (run_getSet hn)]
  split
  · next hspan => exact ⟨x, st, rfl, .self hn hspan, .refl _, node, hn, hspan⟩
  · next hspan =>
      obtain ⟨y, st', hy⟩ :=
        exists_run_newComputed env st (.reference x) node.type c span
      have hgrows := Growing.grows (m := newComputed (.reference x) node.type c span) env st
      rw [hy] at hgrows
      have hm := get?_of_newComputed hy
      rw [run_bind_ok (run_judge hc)]
      exact ⟨y, st', hy, .reference (hgrows x node hn) hspan hm, hgrows, _, hm, rfl⟩

/-- A set is attached as it is, in a cast, or as an empty set that has a
type. -/
theorem fitted_of_attach {t : TypeId} (hx : st.arena.type? x = some t)
    (h : (attach (.set x) hint).run env st = (.ok id, st')) :
    st'.Fitted env.schema hint x id := by
  unfold attach settle at h
  rw [run_bind_ok (run_pure x env st)] at h
  cases hint with
  | none =>
      obtain ⟨node, hn, -⟩ := Arena.type?_eq_some_iff.1 hx
      rw [run_bind_ok (run_getSet hn)] at h
      split at h
      · cases h
      · exact (ok_of_pure h).1
  | some c =>
      have hgrows := Growing.grows (m := coerce x c) env st
      rw [h] at hgrows
      by_cases hempty : t = .empty
      · subst hempty
        obtain ⟨node, hn, htype, horigin⟩ := get?_of_coerce_empty h hx
        exact .empty (hgrows.type? hx) hn htype horigin
      · rcases cases_of_coerce h hx hempty with ⟨rfl, rfl, hsub⟩
          | ⟨hconv, node, hn, htype, horigin⟩
        · exact .unchanged rfl hx hsub
        · exact .cast rfl (hgrows.type? hx) hconv hn htype horigin

theorem error_of_map {m : CompileM κ α} {f : α → β}
    (h : (m >>= fun a => pure (f a)).run env st = (.error error, st')) :
    m.run env st = (.error error, st') := by
  rcases run_bind_cases m (fun a => pure (f a)) env st with ⟨error', mid, hm, hrun⟩
    | ⟨a, mid, hm, hrun⟩
  · rw [hrun] at h
    cases h
    exact hm
  · rw [hrun] at h
    cases h

variable [NameDigest] [DecidableEq κ] [PathKey κ] {R : Regime} {e : Expr}

/-- What an operand compiles to has a type, or awaits one. -/
theorem exists_valueType? {v : Value} (hr : env.Ready R st)
    (h : (expr e).run env st = (.ok v, st')) : ∃ t, st'.valueType? v = some t := by
  obtain ⟨t, ho⟩ := (Upholds.expr e env st).returned hr h
  exact ⟨t, valueType?_of_offers ho⟩

/-- What stands for an operand is attached. -/
theorem shared_of_clauseOperand (hr : env.Ready R st)
    (h : (clauseOperand (expr e) span hint).run env st = (.ok id, st')) :
    ∃ v mid, (expr e).run env st = (.ok v, mid) ∧ ∀ x, v = .set x →
      ∃ node y, mid.arena.get? x = some node ∧ st'.arena.get? x = some node
        ∧ st'.StandsFor env.frame.scope span x y ∧ st'.Fitted env.schema hint y id := by
  unfold clauseOperand at h
  obtain ⟨v, mid, hv, h⟩ := ok_of_bind h
  refine ⟨v, mid, hv, ?_⟩
  rintro x rfl
  obtain ⟨t, ht⟩ := exists_valueType? hr hv
  obtain ⟨node, hn, -⟩ := Arena.type?_eq_some_iff.1 ht
  obtain ⟨y, st₁, hrefer, hstands, hext, m, hm, -⟩ := exists_run_referenceAt env span hn
  dsimp only at h
  rw [run_bind_ok hrefer] at h
  have hgrows := Growing.grows (m := attach (.set y) hint) env st₁
  rw [h] at hgrows
  exact ⟨node, y, hn, hgrows x node (hext x node hn), hstands.mono hgrows,
    fitted_of_attach (Arena.type?_eq_some_iff.2 ⟨m, hm, rfl⟩) h⟩

/-- The operand of a clause fails to compile, or what stands for it fails
to be attached. -/
theorem error_of_clauseOperand (hr : env.Ready R st)
    (h : (clauseOperand (expr e) span hint).run env st = (.error error, st')) :
    (∃ mid, (expr e).run env st = (.error error, mid))
      ∨ ∃ v mid, (expr e).run env st = (.ok v, mid) ∧ error.kind = .typeMismatch
        ∧ error.span = span := by
  unfold clauseOperand at h
  rcases run_bind_cases (expr e) _ env st with ⟨error', mid, hfail, hrun⟩
    | ⟨v, mid, hv, hrun⟩
  · rw [hrun] at h
    cases h
    exact Or.inl ⟨_, hfail⟩
  · rw [hrun] at h
    refine Or.inr ⟨v, mid, hv, ?_⟩
    obtain ⟨t, ht⟩ := exists_valueType? hr hv
    cases v with
    | set x =>
        obtain ⟨node, hn, -⟩ := Arena.type?_eq_some_iff.1 ht
        obtain ⟨y, st₁, hrefer, -, -, m, hm, rfl⟩ := exists_run_referenceAt env span hn
        dsimp only at h
        rw [run_bind_ok hrefer] at h
        have hy : st₁.valueType? (.set y) = some m.type :=
          Arena.type?_eq_some_iff.2 ⟨m, hm, rfl⟩
        obtain ⟨hkind, m', hm', hspan⟩ := error_of_attach hy h
        rw [hm] at hm'
        cases hm'
        exact ⟨hkind, hspan.symm⟩
    | pending p =>
        obtain ⟨hkind, hspan⟩ := error_of_attach (v := .pending { p with span }) ht h
        exact ⟨hkind, hspan.symm⟩

-- ============================================================ one value

omit [NameDigest] [DecidableEq κ] [PathKey κ] in
/-- A clause that takes one value takes the set of its operand. -/
theorem ok_of_oneValue {operand : CompileM κ Value}
    (h : (do
      let id ← clauseOperand operand span hint
      requireSingleton id
      return id : CompileM κ SetId).run env st = (.ok id, st')) :
    (clauseOperand operand span hint).run env st = (.ok id, st') := by
  obtain ⟨x, mid, hx, h⟩ := ok_of_bind h
  obtain ⟨_, mid', hone, h⟩ := ok_of_bind h
  obtain ⟨rfl, rfl⟩ := ok_of_pure h
  obtain ⟨rfl, -⟩ := ok_of_requireSingleton hone
  exact hx

theorem error_of_oneValue (hr : env.Ready R st)
    (h : (do
      let id ← clauseOperand (expr e) span hint
      requireSingleton id
      return id : CompileM κ SetId).run env st = (.error error, st')) :
    (∃ mid, (expr e).run env st = (.error error, mid))
      ∨ ∃ v mid, (expr e).run env st = (.ok v, mid)
        ∧ (error.kind = .typeMismatch ∨ error.kind = .cardinalityViolation)
        ∧ error.span = span := by
  rcases run_bind_cases (clauseOperand (expr e) span hint) _ env st with
    ⟨error', mid, hfail, hrun⟩ | ⟨x, mid, hx, hrun⟩
  · rw [hrun] at h
    cases h
    rcases error_of_clauseOperand hr hfail with hoperand | ⟨v, mid, hv, hkind, hspan⟩
    · exact Or.inl hoperand
    · exact Or.inr ⟨v, mid, hv, Or.inl hkind, hspan⟩
  · -- the set of the operand is there, and has more than one element
    obtain ⟨v, mid', hv, -⟩ := shared_of_clauseOperand hr hx
    obtain ⟨node, hn, hspan⟩ := span_of_clauseOperand hx
    obtain ⟨c, hc⟩ := mid.exists_judge? env.frame.scope hn
    rw [hrun, run_bind, run_requireSingleton hc hn] at h
    cases hone : c.isSingleton with
    | true =>
        rw [hone] at h
        cases h
    | false =>
        rw [hone] at h
        cases h
        exact Or.inr ⟨v, mid', hv, Or.inr rfl, hspan⟩

-- ================================================================ keys

theorem length_of_groupKeys {keys : List Expr} {ids : List SetId}
    (h : (groupKeys keys).run env st = (.ok ids, st')) : ids.length = keys.length := by
  induction keys generalizing st ids with
  | nil =>
      obtain ⟨rfl, -⟩ := ok_of_pure h
      rfl
  | cons e keys ih =>
      unfold groupKeys at h
      obtain ⟨id, _, -, h⟩ := ok_of_bind h
      obtain ⟨rest, _, hrest, h⟩ := ok_of_bind h
      obtain ⟨rfl, rfl⟩ := ok_of_pure h
      rw [List.length_cons, List.length_cons, ih hrest]

/-- Each key of a list compiles after those before it. -/
theorem ok_of_groupKeys {before after : List Expr} {ids : List SetId}
    (h : (groupKeys (before ++ e :: after)).run env st = (.ok ids, st')) :
    ∃ ids₀ st₁ id st₂, (groupKeys before).run env st = (.ok ids₀, st₁)
      ∧ (key (expr e) e.span).run env st₁ = (.ok id, st₂)
      ∧ ids[before.length]? = some id ∧ st₂.arena.Extends st'.arena := by
  induction before generalizing st ids with
  | nil =>
      rw [List.nil_append] at h
      unfold groupKeys at h
      obtain ⟨id, st₂, hid, h⟩ := ok_of_bind h
      obtain ⟨rest, _, hrest, h⟩ := ok_of_bind h
      obtain ⟨rfl, rfl⟩ := ok_of_pure h
      have hgrows := Growing.grows (m := groupKeys after) env st₂
      rw [hrest] at hgrows
      exact ⟨[], st, id, st₂, rfl, hid, rfl, hgrows⟩
  | cons e' before ih =>
      rw [List.cons_append] at h
      unfold groupKeys at h
      obtain ⟨x, mid, hx, h⟩ := ok_of_bind h
      obtain ⟨rest, _, hrest, h⟩ := ok_of_bind h
      obtain ⟨rfl, rfl⟩ := ok_of_pure h
      obtain ⟨ids₀, st₁, id, st₂, hbefore, hid, hget, hext⟩ := ih hrest
      refine ⟨x :: ids₀, st₁, id, st₂, ?_, hid, hget, hext⟩
      unfold groupKeys
      rw [run_bind_ok hx, run_bind_ok hbefore, run_pure]

/-- A list of keys fails at one of them, after those before it. -/
theorem error_of_groupKeys {keys : List Expr}
    (h : (groupKeys keys).run env st = (.error error, st')) :
    ∃ before e after ids st₁ st₂, keys = before ++ e :: after
      ∧ (groupKeys before).run env st = (.ok ids, st₁)
      ∧ (key (expr e) e.span).run env st₁ = (.error error, st₂) := by
  induction keys generalizing st with
  | nil => cases h
  | cons e keys ih =>
      unfold groupKeys at h
      rcases run_bind_cases (key (expr e) e.span) _ env st with ⟨error', mid, hfail, hrun⟩
        | ⟨x, mid, hx, hrun⟩
      · rw [hrun] at h
        cases h
        exact ⟨[], e, keys, [], st, _, rfl, rfl, hfail⟩
      · rw [hrun] at h
        rcases run_bind_cases (groupKeys keys) _ env mid with ⟨error', mid', hfail, hrun'⟩
          | ⟨rest, mid', hrest, hrun'⟩
        · rw [hrun'] at h
          cases h
          obtain ⟨before, e', after, ids, st₁, st₂, rfl, hbefore, hkey⟩ := ih hfail
          refine ⟨e :: before, e', after, x :: ids, st₁, st₂, rfl, ?_, hkey⟩
          unfold groupKeys
          rw [run_bind_ok hx, run_bind_ok hbefore, run_pure]
        · rw [hrun'] at h
          cases h

/-- Sets as keys to sort by, each with what is written with its key. -/
def sortKeysOf (keys : List Ast.SortKey) (ids : List SetId) : List Ir.SortKey :=
  List.zipWith (fun k id => ⟨id, k.direction, k.empties, k.span⟩) keys ids

omit [NameDigest] [DecidableEq κ] [PathKey κ] in
theorem map_key_sortKeysOf {keys : List Ast.SortKey} {ids : List SetId}
    (h : ids.length = keys.length) : (sortKeysOf keys ids).map Ir.SortKey.key = ids := by
  unfold sortKeysOf
  rw [List.map_zipWith, ← List.map_uncurry_zip_eq_zipWith]
  show (keys.zip ids).map Prod.snd = ids
  rw [List.map_snd_zip (Nat.le_of_eq h)]

/-- Keys to sort by compile as keys to group by do. -/
theorem sortKeys_eq (keys : List Ast.SortKey) :
    (sortKeys keys : CompileM κ (List Ir.SortKey))
      = groupKeys (keys.map Ast.SortKey.key) >>= fun ids => pure (sortKeysOf keys ids) := by
  induction keys with
  | nil => rfl
  | cons k keys ih =>
      obtain ⟨e, direction, empties, span⟩ := k
      unfold sortKeys
      rw [List.map_cons]
      unfold groupKeys
      dsimp only
      rw [ih]
      simp only [bind_assoc, pure_bind, sortKeysOf, List.zipWith_cons_cons]

end CompileM

/-- Only the schema, the node and the subject of an environment bear on
what fits it. -/
theorem Env.Ready.congr [NameDigest] [DecidableEq κ] [PathKey κ] {R : Regime}
    {env env' : Env} {st : Store κ} (h : env.Ready R st)
    (hschema : env'.schema = env.schema) (hscope : env'.frame.scope = env.frame.scope)
    (hsubject : env'.frame.subject = env.frame.subject) : env'.Ready R st :=
  ⟨hschema ▸ h.suits, hschema ▸ h.sound, hscope ▸ h.active, hscope ▸ h.unshadowed,
    hsubject ▸ hscope ▸ h.subject⟩

-- ============================================================== sessions

namespace Session

open CompileM

variable [NameDigest] [DecidableEq κ] [PathKey κ] {R : Regime} {s s' : Session κ}
  {e : Expr} {id : SetId} {error : CompileError}

/-- A clause has a node of its own for its operand. -/
theorem ready_operand (h : s.env.Ready R s.store) (clause : Option Clause) :
    (s.operand clause).env.Ready R (s.operand clause).store :=
  h.opened.congr rfl rfl rfl

theorem marks_of_clauseOperand {hint : Option TypeId} {st : Store κ}
    (h : s.env.Ready R s.store)
    (hrun : (clauseOperand (expr e) e.span hint).run s.env s.store = (.ok id, st)) :
    s.Marks e hint st id where
  span := span_of_clauseOperand hrun
  shared := by
    obtain ⟨v, mid, hv, hshared⟩ := shared_of_clauseOperand h hrun
    exact ⟨v, _, step_of_run hv, hshared⟩

omit [DecidableEq κ] [PathKey κ] [NameDigest] in
/-- What is marked stays marked. -/
theorem Marks.mono [NameDigest] [DecidableEq κ] [PathKey κ] {hint : Option TypeId}
    {st st' : Store κ} (hext : st.arena.Extends st'.arena) (h : s.Marks e hint st id) :
    s.Marks e hint st' id where
  span := by
    obtain ⟨node, hn, hspan⟩ := h.span
    exact ⟨node, hext _ _ hn, hspan⟩
  shared := by
    obtain ⟨v, mid, hv, hshared⟩ := h.shared
    refine ⟨v, mid, hv, fun x hx => ?_⟩
    obtain ⟨node, y, hmid, hn, hstands, hfitted⟩ := hshared x hx
    exact ⟨node, y, hmid, hext _ _ hn, hstands.mono hext, hfitted.mono hext⟩

theorem faults_of_error
    (h : (∃ mid, (expr e).run s.env s.store = (.error error, mid))
      ∨ ∃ v mid, (expr e).run s.env s.store = (.ok v, mid)
        ∧ (error.kind = .typeMismatch ∨ error.kind = .cardinalityViolation)
        ∧ error.span = e.span) : s.Faults e error := by
  rcases h with ⟨mid, hfail⟩ | ⟨v, mid, hv, hkind, hspan⟩
  · exact .operand (step_of_run hfail)
  · exact .clause (step_of_run hv) hkind hspan

/-- A list of keys is marked key by key. -/
theorem marksAll_of_groupKeys {clause : Clause} {keys : List Expr} {ids : List SetId}
    (h : s.env.Ready R s.store)
    (hstep : s.step (inClause clause (groupKeys keys)) = (.ok ids, s')) :
    s.MarksAll clause keys s'.store ids := by
  have hrun : (groupKeys keys).run (s.setClause clause).env s.store
      = (.ok ids, s'.store) := (run_of_step hstep).1
  have hset : (s.setClause clause).env.Ready R s.store := h.congr rfl rfl rfl
  refine ⟨length_of_groupKeys hrun, ?_⟩
  rintro before e after rfl
  obtain ⟨ids₀, st₁, id, st₂, hbefore, hkey, hget, hext⟩ := ok_of_groupKeys hrun
  obtain ⟨hready, -⟩ := (Upholds.groupKeys before _ _).kept hset hbefore
  have hready₁ : ({ s with store := st₁ } : Session κ).env.Ready R st₁ :=
    hready.congr rfl rfl rfl
  refine ⟨ids₀, { s with store := st₁ }, id, step_of_run hbefore, hget, ?_⟩
  exact (marks_of_clauseOperand (ready_operand hready₁ (some clause))
    (ok_of_oneValue hkey)).mono hext

/-- It is faulted at one of the keys. -/
theorem faultsAt_of_groupKeys {clause : Clause} {keys : List Expr}
    (h : s.env.Ready R s.store)
    (hstep : s.step (inClause clause (groupKeys keys)) = (.error error, s')) :
    s.FaultsAt clause keys error := by
  have hrun : (groupKeys keys).run (s.setClause clause).env s.store
      = (.error error, s'.store) := (run_of_step hstep).1
  have hset : (s.setClause clause).env.Ready R s.store := h.congr rfl rfl rfl
  obtain ⟨before, e, after, ids₀, st₁, st₂, hkeys, hbefore, hkey⟩ :=
    error_of_groupKeys hrun
  obtain ⟨hready, -⟩ := (Upholds.groupKeys before _ _).kept hset hbefore
  have hready₁ : ({ s with store := st₁ } : Session κ).env.Ready R st₁ :=
    hready.congr rfl rfl rfl
  refine ⟨before, e, after, ids₀, { s with store := st₁ }, hkeys,
    step_of_run hbefore, ?_⟩
  exact faults_of_error (error_of_oneValue
    (ready_operand hready₁ (some clause)) hkey)

/-- The set of a clause is where the operand was written, and shared sets
stay where they are; a clause that fails though its operand compiles
points to the operand. -/
theorem Reachable.clauses_locate {lexical : Prop} (hs : s.Reachable lexical) :
    (∀ e, (∀ r s', s.step (filterClause (some e)) = (.ok r, s') →
          ∃ id, r = some id
            ∧ (s.operand (some .filter)).Marks e (some TypeId.bool) s'.store id)
        ∧ ∀ error s', s.step (filterClause (some e)) = (.error error, s') →
          (s.operand (some .filter)).Faults e error)
      ∧ (∀ e, (∀ r s', s.step (boundClause (some e)) = (.ok r, s') →
          ∃ id, r = some id
            ∧ (s.operand s.frame.clause).Marks e (some TypeId.int) s'.store id)
        ∧ ∀ error s', s.step (boundClause (some e)) = (.error error, s') →
          (s.operand s.frame.clause).Faults e error)
      ∧ (∀ keys, (∀ ids s', s.step (groupByClause keys) = (.ok ids, s') →
          s.MarksAll .groupBy keys s'.store ids)
        ∧ ∀ error s', s.step (groupByClause keys) = (.error error, s') →
          s.FaultsAt .groupBy keys error)
      ∧ ∀ keys : List Ast.SortKey,
        (∀ ids s', s.step (orderByClause keys) = (.ok ids, s') →
          s.MarksAll .orderBy (keys.map Ast.SortKey.key) s'.store
            (ids.map Ir.SortKey.key))
        ∧ ∀ error s', s.step (orderByClause keys) = (.error error, s') →
          s.FaultsAt .orderBy (keys.map Ast.SortKey.key) error := by
  have hready := hs.ready.active
  refine ⟨fun e => ⟨fun r s' h => ?_, fun error s' h => ?_⟩,
    fun e => ⟨fun r s' h => ?_, fun error s' h => ?_⟩,
    fun keys => ⟨fun ids s' h => marksAll_of_groupKeys hready h,
      fun error s' h => faultsAt_of_groupKeys hready h⟩,
    fun keys => ⟨fun ids s' h => ?_, fun error s' h => ?_⟩⟩
  · obtain ⟨hrun, -⟩ := run_of_step h
    obtain ⟨id, st, hid, hpure⟩ := ok_of_bind hrun
    obtain ⟨rfl, rfl⟩ := ok_of_pure hpure
    exact ⟨id, rfl, marks_of_clauseOperand (ready_operand hready (some .filter)) hid⟩
  · obtain ⟨hrun, -⟩ := run_of_step h
    have hfail := error_of_map hrun
    exact faults_of_error ((error_of_clauseOperand
      (ready_operand hready (some .filter)) hfail).imp_right
        fun ⟨v, mid, hv, hkind, hspan⟩ => ⟨v, mid, hv, Or.inl hkind, hspan⟩)
  · obtain ⟨hrun, -⟩ := run_of_step h
    obtain ⟨id, st, hid, hpure⟩ := ok_of_bind hrun
    obtain ⟨rfl, rfl⟩ := ok_of_pure hpure
    exact ⟨id, rfl, marks_of_clauseOperand (ready_operand hready s.frame.clause)
      (ok_of_oneValue hid)⟩
  · obtain ⟨hrun, -⟩ := run_of_step h
    have hfail := error_of_map hrun
    exact faults_of_error (error_of_oneValue (ready_operand hready s.frame.clause) hfail)
  · have hrun : (groupKeys (keys.map Ast.SortKey.key) >>= fun xs =>
        pure (sortKeysOf keys xs)).run (s.setClause .orderBy).env s.store
          = (.ok ids, s'.store) := by
      rw [← sortKeys_eq]
      exact (run_of_step h).1
    obtain ⟨xs, st, hxs, hpure⟩ := ok_of_bind hrun
    obtain ⟨rfl, hst⟩ := ok_of_pure hpure
    have hlen := length_of_groupKeys hxs
    rw [List.length_map] at hlen
    rw [hst, map_key_sortKeysOf hlen]
    exact marksAll_of_groupKeys hready (step_of_run (s := s)
      (m := inClause .orderBy (groupKeys (keys.map Ast.SortKey.key))) hxs)
  · have hrun : (groupKeys (keys.map Ast.SortKey.key) >>= fun xs =>
        pure (sortKeysOf keys xs)).run (s.setClause .orderBy).env s.store
          = (.error error, s'.store) := by
      rw [← sortKeys_eq]
      exact (run_of_step h).1
    exact faultsAt_of_groupKeys hready (step_of_run (error_of_map hrun))

end Session

end

-- ============================================================== example

open scoped Xxh64

/-- Below the node where friends were met, they are a key, and no
condition. -/
theorem clauses_locate_friends :
    (∃ ids s, afterFriends.step (CompileM.groupByClause [.path friends]) = (.ok ids, s)
        ∧ afterFriends.MarksAll .groupBy [.path friends] s.store ids)
      ∧ ∃ error s, afterFriends.step (CompileM.filterClause (some (.path friends)))
          = (.error error, s)
        ∧ (afterFriends.operand (some .filter)).Faults (.path friends) error := by
  have hreachable : Session.Reachable True afterFriends := by
    obtain ⟨schema, o, hs⟩ := reachable_beforeFriends True
    exact ⟨schema, o, (hs.tail (.path friends)).trans (steps_afterFriends True)⟩
  obtain ⟨hfilter, -, hgroupBy, -⟩ := hreachable.clauses_locate
  refine ⟨?_, ?_⟩
  · obtain ⟨ids, s, hstep⟩ := Session.exists_step_of_isOk (s := afterFriends)
      (m := CompileM.groupByClause [.path friends]) (by decide +kernel)
    exact ⟨ids, s, hstep, (hgroupBy [.path friends]).1 ids s hstep⟩
  · cases hfails : afterFriends.step (CompileM.filterClause (some (.path friends))) with
    | mk out s =>
        cases out with
        | error e => exact ⟨e, s, rfl, (hfilter (.path friends)).2 e s hfails⟩
        | ok r =>
            have hnot : (afterFriends.step (CompileM.filterClause
                (some (.path friends)))).1.isOk = false := by
              decide +kernel
            rw [hfails] at hnot
            cases hnot

end PathQuery
