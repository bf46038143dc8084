/-
Which statements are required.

A required statement is said to have at least one element. What stands
behind that is stated here in full (`Store.Requires`): its result is
required as seen from the statement's node, there is no filter, and
there is no constant limit of at most one. That is all: an offset, and a
limit that is no constant, leave the cardinality of a statement as it
is, although either may take its last element away
(`required_skipped`).

The rule is the same wherever a statement is compiled, at the top, with
the implicit limit, inside another one, or from any session
(`Session.Reachable.required_iff`).
-/
import PathQuery.Proofs.Session.Reachable
import PathQuery.Proofs.Statement.Constraints

namespace PathQuery

open Ir
open Ast (Select)

variable {κ : Type}

-- ================================================================ bounds

namespace Cardinality

@[simp] theorem isRequired_optional (c : Cardinality) :
    c.optional.isRequired = false := by
  simp [optional]

end Cardinality

namespace Store

variable {st : Store κ} {stmt : Statement} {id : SetId}

/-- What makes a statement required. -/
structure Requires (st : Store κ) (stmt : Statement) : Prop where
  result : ∃ c, st.judge? stmt.scope stmt.result = some c
    ∧ c.isRequired = true
  filter : stmt.filter = none
  limit : ∀ id node n, stmt.limit = some id → st.arena.get? id = some node →
    node.origin = .computed (.constant (.int n)) → 1 < n

/-- A unit limit is a constant of at most one. -/
theorem isUnitLimit_iff :
    st.isUnitLimit id = true ↔ ∃ node n, st.arena.get? id = some node
      ∧ node.origin = .computed (.constant (.int n)) ∧ n ≤ 1 := by
  unfold isUnitLimit
  constructor
  · intro h
    split at h
    · next n ho =>
        obtain ⟨node, hn, horigin⟩ := Option.map_eq_some_iff.1 ho
        exact ⟨node, n, hn, horigin, by simpa using h⟩
    · cases h
  · intro h
    obtain ⟨node, n, hn, ho, hle⟩ := h
    rw [hn, Option.map_some, ho]
    simpa using hle

/-- A statement has no unit limit if its limit is no constant or a larger
one. -/
theorem not_any_isUnitLimit_iff :
    stmt.limit.any st.isUnitLimit = false ↔ ∀ id node n,
      stmt.limit = some id → st.arena.get? id = some node →
        node.origin = .computed (.constant (.int n)) → 1 < n := by
  constructor
  · intro h id node n hlimit hn ho
    rw [hlimit, Option.any_some] at h
    by_contra hle
    have hunit := isUnitLimit_iff.2 ⟨node, n, hn, ho, Int.not_lt.1 hle⟩
    rw [h] at hunit
    cases hunit
  · intro h
    cases hlimit : stmt.limit with
    | none => rfl
    | some id =>
        rw [Option.any_some, Bool.eq_false_iff]
        intro hunit
        obtain ⟨node, n, hn, ho, hle⟩ := isUnitLimit_iff.1 hunit
        exact Int.not_lt.2 hle (h id node n hlimit hn ho)

/-- A statement that is counted by the rules is required exactly if its
result is, and neither a filter nor a unit limit may drop it. -/
theorem isRequired_iff (h : st.statementCount? stmt = some stmt.cardinality) :
    stmt.cardinality.isRequired = true ↔ st.Requires stmt := by
  unfold statementCount? at h
  obtain ⟨c, hc, heq⟩ := Option.map_eq_some_iff.1 h
  have hbounds : stmt.cardinality.isRequired = true ↔ c.isRequired = true
      ∧ stmt.filter = none ∧ stmt.limit.any st.isUnitLimit = false := by
    rw [← heq]
    cases stmt.filter <;> cases stmt.limit.any st.isUnitLimit <;> simp
  rw [hbounds, not_any_isUnitLimit_iff]
  constructor
  · intro hreq
    obtain ⟨hresult, hfilter, hlimit⟩ := hreq
    exact ⟨⟨c, hc, hresult⟩, hfilter, hlimit⟩
  · intro hreq
    obtain ⟨d, hd, hresult⟩ := hreq.result
    rw [hc] at hd
    cases hd
    exact ⟨hresult, hreq.filter, hreq.limit⟩

/-- So is every subquery of a sound store, which has the cardinality of
its statement. -/
theorem Sound.requires_of_subquery [DecidableEq κ] [PathKey κ] [NameDigest]
    {R : Regime} {s : Schema} (h : st.Sound R s) {node : SetNode κ}
    (hn : st.arena.get? id = some node)
    (ho : node.origin = .computed (.subquery stmt)) :
    node.cardinality = stmt.cardinality
      ∧ (stmt.cardinality.isRequired = true ↔ st.Requires stmt) := by
  rcases ((h.sets id node hn).of_computed ho).counted with hcounted | ⟨hempty, -⟩
  · obtain ⟨hcount, heq⟩ := Option.filter_eq_some_iff.1 hcounted
    have hsame := of_decide_eq_true heq
    exact ⟨hsame, isRequired_iff (hsame ▸ hcount)⟩
  · cases hempty

end Store

-- ============================================================ statements

section

variable [DecidableEq κ] [PathKey κ] [NameDigest]

/-- In any session, a statement that is compiled, by itself or as a whole
under options, is required exactly if it has what that takes. So is
every statement that became a set, which has its cardinality. -/
theorem Session.Reachable.required_iff {lexical : Prop} {t : Session κ}
    (h : t.Reachable lexical) {o : CompileOptions} {q : Select}
    {stmt : Statement} {st : Store κ}
    (hrun : (CompileM.select q).run t.env t.store = (.ok stmt, st)
      ∨ (CompileM.statement o q).run t.env t.store = (.ok stmt, st)) :
    (stmt.cardinality.isRequired = true ↔ st.Requires stmt)
      ∧ ∀ id node nested, st.arena.get? id = some node →
          node.origin = .computed (.subquery nested) →
          node.cardinality = nested.cardinality
            ∧ (nested.cardinality.isRequired = true ↔ st.Requires nested) := by
  have hready := h.ready.active
  have hcounted : st.statementCount? stmt = some stmt.cardinality
      ∧ st.Sound (.tracking lexical) t.schema := by
    rcases hrun with hrun | hrun
    · have hout := CompileM.Upholds.select q _ _ hready
      rw [hrun] at hout
      exact ⟨(hout.value _ rfl).count, hout.ready.sound⟩
    · have hout := CompileM.Upholds.statement (o := o) (q := q) hready
      rw [hrun] at hout
      exact ⟨hout.value _ rfl, hout.ready.sound⟩
  obtain ⟨hcount, hsound⟩ := hcounted
  exact ⟨Store.isRequired_iff hcount,
    fun id node nested hn ho => hsound.requires_of_subquery hn ho⟩

end

-- ============================================================= example

open scoped Xxh64

theorem required_iff_people : ∃ stmt st,
    (CompileM.statement {} oneWithFriends).run beforeFriends.env
        beforeFriends.store = (.ok stmt, st)
      ∧ (stmt.cardinality.isRequired = true ↔ st.Requires stmt)
      ∧ ∀ id node nested, st.arena.get? id = some node →
          node.origin = .computed (.subquery nested) →
          node.cardinality = nested.cardinality
            ∧ (nested.cardinality.isRequired = true ↔ st.Requires nested) := by
  obtain ⟨c, hc⟩ := exists_ok_of_isOk
    (x := compile (Registry.builtin.schemaOf people) {} oneWithFriends)
    (by decide +kernel)
  obtain ⟨scopes, hrun⟩ := exists_run_of_compileWith hc
  have hstart : (CompileM.statement {} oneWithFriends).run beforeFriends.env
      beforeFriends.store = (.ok c.statement, ⟨c.arena, scopes⟩) := by
    unfold beforeFriends Session.start Session.env
    dsimp only
    exact hrun
  exact ⟨_, _, hstart, (reachable_beforeFriends True).required_iff (Or.inr hstart)⟩

/-- The number one, of which the first element is skipped. -/
def oneSkipped : Select := Ast.Build.run do
  let one ← Ast.Build.constant (.int 1)
  let q ← Ast.Build.select one
  let first ← Ast.Build.constant (.int 1)
  return { q with offset := first }

/-- The number one, of which as many elements are kept as one less one. -/
def noneOfOne : Select := Ast.Build.run do
  let one ← Ast.Build.constant (.int 1)
  let q ← Ast.Build.select one
  let count ← Ast.Build.constant (.int 1)
  let less ← Ast.Build.constant (.int 1)
  let difference ← Ast.Build.binary count .sub less
  return { q with limit := difference }

/-- A statement may be required, and said to have exactly one element,
although it skips that element or keeps none. -/
theorem required_skipped :
    (∃ c, compile (Registry.builtin.schemaOf []) {} oneSkipped = .ok c
        ∧ c.cardinality = .one ∧ c.statement.offset = some 1)
      ∧ ∃ c, compile (Registry.builtin.schemaOf []) {} noneOfOne = .ok c
        ∧ c.cardinality = .one ∧ c.statement.limit = some 3
        ∧ (c.set? 3).any (fun node => node.origin matches .computed (.binary ..))
          = true := by
  have hskipped : (compile (Registry.builtin.schemaOf []) {} oneSkipped).map
      (fun c => (c.cardinality, c.statement.offset)) = .ok (.one, some 1) := by
    decide +kernel
  have hnone : (compile (Registry.builtin.schemaOf []) {} noneOfOne).map
      (fun c => (c.cardinality, c.statement.limit,
        (c.set? 3).any fun node => node.origin matches .computed (.binary ..)))
      = .ok (.one, some 3, true) := by
    decide +kernel
  obtain ⟨c, hc, hseen⟩ := exists_ok_of_map hskipped
  obtain ⟨hone, hoffset⟩ := Prod.ext_iff.1 hseen
  obtain ⟨d, hd, hseen⟩ := exists_ok_of_map hnone
  obtain ⟨hone', hseen⟩ := Prod.ext_iff.1 hseen
  obtain ⟨hlimit, hbinary⟩ := Prod.ext_iff.1 hseen
  exact ⟨⟨c, hc, hone, hoffset⟩, d, hd, hone', hlimit, hbinary⟩

end PathQuery
