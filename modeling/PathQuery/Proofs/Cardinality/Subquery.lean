/-
A statement as a set.

A statement that stands in an expression is compiled in a node of its
own, and becomes a set of the node around it. The cardinality of that
set is that of the statement, which is judged from the statement's node.
With neither filter nor limit one expects it to be what the result is
judged to have from the node of the set, as if the result stood there by
itself.

It is, unless the result goes back to a set of that very node. Such a
set lives above the statement, so it counts as one there; from its own
node it counts for as many elements as it has. The set that the
statement became is recorded without that factor
(`Sound.judge?_of_subquery`). So a set literal that names all objects
twice, once by themselves and once in a statement, is said not to be
empty (`wrapped_objects_required`).
-/
import PathQuery.Proofs.Cardinality.FurtherIn
import PathQuery.Proofs.Cardinality.Required

namespace PathQuery

open Ir
open Ast (Select)

section

variable {κ : Type} [DecidableEq κ] [PathKey κ] [NameDigest]

namespace Store

variable {R : Regime} {s : Schema} {st : Store κ} {id stop : Nat}
  {strides : List Stride} {node last : SetNode κ} {stmt : Statement}

/-- A statement that became a set was compiled in the node of the set. -/
theorem Sound.arranged_of_subquery (hst : st.Sound R s)
    (hn : st.arena.get? id = some node)
    (ho : node.origin = .computed (.subquery stmt)) :
    st.Arranged R s node.scope stmt :=
  ((hst.sets id node hn).of_computed ho).placed

/-- A statement without filter and limit has what its result has, seen
from the statement's node. -/
theorem Sound.judge?_result (hst : st.Sound R s)
    (hn : st.arena.get? id = some node)
    (ho : node.origin = .computed (.subquery stmt))
    (hfilter : stmt.filter = none) (hlimit : stmt.limit = none) :
    st.judge? stmt.scope stmt.result = some node.cardinality := by
  have hcount := (hst.arranged_of_subquery hn ho).count
  rw [← (hst.requires_of_subquery hn ho).1] at hcount
  unfold statementCount? at hcount
  rw [hfilter, hlimit] at hcount
  simpa using hcount

/-- From a node right above, a set where judging ends counts as it did,
unless it lives in that node. Then it counted as one, and now counts as
it was recorded. -/
theorem Sound.judge?_parent (hst : st.Sound R s) {v p : Nat}
    (hp : st.scopes.parent? v = some p)
    (hlast : st.arena.get? stop = some last) (hends : st.EndsAt v last) :
    (last.scope ≠ p → st.judge? p stop = st.judge? v stop)
      ∧ (last.scope = p → st.judge? v stop = some .one
        ∧ st.judge? p stop = some last.cardinality) := by
  have habove : st.scopes.isStrictAncestor last.scope v = true ↔
      last.scope = p ∨ st.scopes.isStrictAncestor last.scope p = true :=
    hst.rooted.isStrictAncestor_parent_iff hp
  constructor
  · intro hne
    cases hv : st.scopes.isStrictAncestor last.scope v with
    | true =>
        have hp' := (habove.1 hv).resolve_left hne
        rw [judge?_above hlast hv, judge?_above hlast hp']
    | false =>
        have hp' : st.scopes.isStrictAncestor last.scope p = false := by
          rw [Bool.eq_false_iff] at hv ⊢
          exact fun hx => hv (habove.2 (Or.inr hx))
        have hstart := hends.resolve_left (by simp [hv])
        rw [judge?_made hlast hv hstart, judge?_made hlast hp' hstart]
  · intro heq
    refine ⟨judge?_above hlast (habove.2 (Or.inl heq)), ?_⟩
    rw [← heq]
    exact hst.judge?_recorded hlast

/-- What a statement without filter and limit selects has, seen from the
node of the set that it became, what this set is recorded with, times
what a set of the node itself has if judging the result ends there. -/
theorem Sound.judge?_of_subquery (hst : st.Sound R s)
    (hn : st.arena.get? id = some node)
    (ho : node.origin = .computed (.subquery stmt))
    (hfilter : stmt.filter = none) (hlimit : stmt.limit = none)
    (hway : st.Stretch stmt.scope stmt.result strides stop)
    (hlast : st.arena.get? stop = some last) :
    st.judge? node.scope stmt.result =
      some (if last.scope = node.scope then
        node.cardinality.mul last.cardinality else node.cardinality) := by
  have hp := (hst.arranged_of_subquery hn ho).parent
  have hresult := hst.judge?_result hn ho hfilter hlimit
  obtain ⟨last', hlast', hends⟩ := hway.endsAt
  obtain rfl : last' = last := Option.some.inj (hlast'.symm.trans hlast)
  obtain ⟨hother, hown⟩ := hst.judge?_parent hp hlast hends
  have houter : st.judge? node.scope stmt.result
      = (st.judge? node.scope stop).map (·.along strides) :=
    hway.judge?_outer hst.rooted
      (hst.rooted.mem_ancestors_of_parent? hp (st.scopes.mem_ancestors_self _))
  rw [hway.judge?_eq] at hresult
  by_cases hscope : last'.scope = node.scope
  · obtain ⟨hone, hrecorded⟩ := hown hscope
    rw [hone, Option.map_some, Option.some.injEq] at hresult
    rw [houter, hrecorded, Option.map_some, if_pos hscope,
      Cardinality.along_eq_mul, hresult]
  · rw [houter, hother hscope, hresult, if_neg hscope]

end Store

-- ========================================================= compilation

/-- Each set that a statement without filter and limit became, anywhere in
what is compiled, is recorded with what the result is judged to have from
the node of the set, unless judging the result ends at a set that lives
there too. Then the result has that many times more. In any case the
result is at most a single element only if the set is, and required only
if the set is. -/
theorem compile_wrapped {s : Schema} {o : CompileOptions} {q : Select}
    {c : Compiled κ} (h : compileWith κ s o q = .ok c) :
    ∃ scopes : ScopeTree κ,
      (CompileM.statement o q).run ⟨s, o.frame⟩ (Store.new (κ := κ))
        = (.ok c.statement, ⟨c.arena, scopes⟩)
      ∧ ∀ id node stmt, c.set? id = some node →
          node.origin = .computed (.subquery stmt) → stmt.filter = none →
          stmt.limit = none →
          (∃ strides stop,
            Store.Stretch ⟨c.arena, scopes⟩ stmt.scope stmt.result strides stop)
          ∧ ∀ strides stop last,
            Store.Stretch ⟨c.arena, scopes⟩ stmt.scope stmt.result strides stop →
            c.set? stop = some last →
            ∃ own, Store.judge? ⟨c.arena, scopes⟩ node.scope stmt.result
                = some own
              ∧ (last.scope ≠ node.scope → own = node.cardinality)
              ∧ (last.scope = node.scope →
                own = node.cardinality.mul last.cardinality)
              ∧ node.cardinality ≤ own := by
  obtain ⟨scopes, hrun, hsound, -⟩ :=
    exists_sound_of_compileWith (Regime.tracking_suits False s) h
  refine ⟨scopes, hrun, fun id node stmt hn ho hfilter hlimit => ?_⟩
  have hparent := (hsound.arranged_of_subquery hn ho).parent
  have hresult := hsound.judge?_result hn ho hfilter hlimit
  obtain ⟨result, hr⟩ := Store.exists_get?_of_judge? hresult
  refine ⟨Store.exists_stretch _ _ hr, fun strides stop last hway hlast => ?_⟩
  have hown := hsound.judge?_of_subquery hn ho hfilter hlimit hway hlast
  refine ⟨_, hown, fun hne => if_neg hne, fun heq => if_pos heq, ?_⟩
  obtain ⟨d, e, hd, he, hle⟩ := Store.judge?_le hsound.rooted hr
    (hsound.rooted.mem_ancestors_of_parent? hparent
      (scopes.mem_ancestors_self _))
  rw [hown] at hd
  rw [hresult] at he
  cases hd
  cases he
  exact hle

end

-- ============================================================ examples

open scoped Xxh64

/-- All objects, in a statement of their own. -/
def objectsWrapped : Select := Ast.Build.run do
  let objects ← Ast.Build.path "std::Object" []
  Ast.Build.select (.select (← Ast.Build.select (.path objects)))

/-- All objects, and all objects again in a statement of their own. -/
def objectsTwice : Select := Ast.Build.run do
  let objects ← Ast.Build.path "std::Object" []
  let again ← Ast.Build.select (.path (← Ast.Build.path "std::Object" []))
  Ast.Build.select (← Ast.Build.set [.path objects, .select again])

/-- Where a set lives that a statement without filter and limit became,
what it is recorded with, and what the statement selects. -/
def Compiled.wrapped? (c : Compiled PathId) (id : SetId) :
    Option (ScopeId × Cardinality × SetId) :=
  (c.set? id).bind fun node =>
    match node.origin with
    | .computed (.subquery stmt) =>
      if stmt.filter = none ∧ stmt.limit = none then
        some (node.scope, node.cardinality, stmt.result)
      else none
    | .root | .step .. | .computed _ => none

theorem Compiled.exists_of_wrapped? {c : Compiled PathId} {id result : SetId}
    {v : ScopeId} {own : Cardinality} (h : c.wrapped? id = some (v, own, result)) :
    ∃ node stmt, c.set? id = some node
      ∧ node.origin = .computed (.subquery stmt) ∧ stmt.filter = none
      ∧ stmt.limit = none ∧ node.scope = v ∧ node.cardinality = own
      ∧ stmt.result = result := by
  obtain ⟨node, hn, h⟩ := Option.bind_eq_some_iff.1 h
  split at h
  · next stmt ho =>
      split at h
      · next hplain =>
          obtain ⟨hfilter, hlimit⟩ := hplain
          cases h
          exact ⟨node, stmt, hn, ho, hfilter, hlimit, rfl, rfl, rfl⟩
      · cases h
  all_goals cases h

/-- A statement that selects all objects is recorded with many, as they
are many by themselves. -/
theorem compile_wrapped_objects :
    ∃ (c : Compiled PathId) (scopes : ScopeTree PathId) (node : SetNode PathId)
      (stmt : Statement),
      compile (Registry.builtin.schemaOf []) {} objectsWrapped = .ok c
        ∧ (CompileM.statement {} objectsWrapped).run
            ⟨Registry.builtin.schemaOf [], ({} : CompileOptions).frame⟩ .new
          = (.ok c.statement, ⟨c.arena, scopes⟩)
        ∧ c.set? 1 = some node ∧ node.origin = .computed (.subquery stmt)
        ∧ node.cardinality = .many
        ∧ Store.judge? ⟨c.arena, scopes⟩ node.scope stmt.result = some .many := by
  have hseen : (compile (Registry.builtin.schemaOf []) {} objectsWrapped).map
      (fun c => (c.wrapped? 1, (c.set? 0).map fun node =>
        (node.scope, node.origin.source?)))
      = .ok (some (1, .many, 0), some (2, none)) := by
    decide +kernel
  obtain ⟨c, hc, hseen⟩ := exists_ok_of_map hseen
  obtain ⟨hwrapped, hobjects⟩ := Prod.ext_iff.1 hseen
  obtain ⟨node, stmt, hn, ho, hfilter, hlimit, hscope, hmany, hresult⟩ :=
    Compiled.exists_of_wrapped? hwrapped
  obtain ⟨objects, hobjects, hends⟩ := Option.map_eq_some_iff.1 hobjects
  obtain ⟨hbelow, hroot⟩ := Prod.ext_iff.1 hends
  obtain ⟨scopes, hrun, hall⟩ := compile_wrapped hc
  have hway : Store.Stretch ⟨c.arena, scopes⟩ stmt.scope stmt.result [] 0 := by
    rw [hresult]
    exact .ends hobjects (Or.inr hroot)
  obtain ⟨own, hjudge, hsame, -⟩ :=
    (hall 1 node stmt hn ho hfilter hlimit).2 [] 0 objects hway hobjects
  have hapart : objects.scope ≠ node.scope := by
    rw [hscope]
    dsimp only at hbelow
    rw [hbelow]
    decide
  refine ⟨c, scopes, node, stmt, hc, hrun, hn, ho, hmany, ?_⟩
  rw [hjudge, hsame hapart, hmany]

/-- A statement that selects all objects is recorded with exactly one
where all objects were named before. They are many there by themselves,
and the literal that holds both is said not to be empty. -/
theorem wrapped_objects_required :
    ∃ (c : Compiled PathId) (scopes : ScopeTree PathId) (node : SetNode PathId)
      (stmt : Statement),
      compile (Registry.builtin.schemaOf []) {} objectsTwice = .ok c
        ∧ (CompileM.statement {} objectsTwice).run
            ⟨Registry.builtin.schemaOf [], ({} : CompileOptions).frame⟩ .new
          = (.ok c.statement, ⟨c.arena, scopes⟩)
        ∧ c.set? 1 = some node ∧ node.origin = .computed (.subquery stmt)
        ∧ stmt.filter = none ∧ stmt.limit = none
        ∧ node.cardinality = .one
        ∧ Store.judge? ⟨c.arena, scopes⟩ node.scope stmt.result = some .many
        ∧ c.cardinality = .atLeastOne := by
  have hseen : (compile (Registry.builtin.schemaOf []) {} objectsTwice).map
      (fun c => (c.wrapped? 1, c.cardinality))
      = .ok (some (1, .one, 0), .atLeastOne) := by
    decide +kernel
  have hjudge : ((CompileM.statement {} objectsTwice).run
      ⟨Registry.builtin.schemaOf [], ({} : CompileOptions).frame⟩
      (Store.new (κ := PathId))).2.judge? 1 0 = some .many := by
    decide +kernel
  obtain ⟨c, hc, hseen⟩ := exists_ok_of_map hseen
  obtain ⟨hwrapped, hrequired⟩ := Prod.ext_iff.1 hseen
  obtain ⟨node, stmt, hn, ho, hfilter, hlimit, hscope, hone, hresult⟩ :=
    Compiled.exists_of_wrapped? hwrapped
  obtain ⟨scopes, hrun⟩ := exists_run_of_compileWith hc
  rw [hrun] at hjudge
  rw [← hscope, ← hresult] at hjudge
  exact ⟨c, scopes, node, stmt, hc, hrun, hn, ho, hfilter, hlimit, hone,
    hjudge, hrequired⟩

end PathQuery
