/-
A set that is judged where it lives has the cardinality it was made with.

The cardinality of a path set was worked out once, from its source
towards it, as seen from the node that was active then. Judging the set
walks the other way, in a scope tree that has grown since, and with sets
that were not there. From the node of the set itself both come to the
same: a set does not live above its own node, so the walk takes the step
of the set; what it finds at the source is what was found when the set
was made, since neither the ancestors of a node nor what lives in them
ever change (`Store.Sound.judge?_recorded`).
-/
import PathQuery.Proofs.Statement.Closed

namespace PathQuery

open Ir

variable {κ : Type}

section

variable [DecidableEq κ] [PathKey κ] [NameDigest]

namespace Store

variable {R : Regime} {s : Schema} {st : Store κ} {id : Nat} {node : SetNode κ}

/-- From its own node a set has the cardinality that it is recorded
with. -/
theorem Sound.judge?_recorded (hst : st.Sound R s)
    (hn : st.arena.get? id = some node) :
    st.judge? node.scope id = some node.cardinality := by
  cases hst.sets id node hn with
  | root ho =>
      exact judge?_made hn (ScopeTree.isStrictAncestor_self _ _)
        (by rw [ho]; rfl)
  | computed ho =>
      exact judge?_made hn (ScopeTree.isStrictAncestor_self _ _)
        (by rw [ho]; rfl)
  | step ho _ _ _ _ _ _ _ hcard =>
      rw [judge?_step hn (ScopeTree.isStrictAncestor_self _ _) ho]
      exact hcard

/-- So has it for the walk that multiplies from the set to the start of
its path, with a turn for each set that there can be on the way. -/
theorem Sound.judgeWithin?_recorded (hst : st.Sound R s)
    (hn : st.arena.get? id = some node) {turns : Nat} (hturns : id < turns) :
    st.judgeWithin? node.scope turns .one id = some node.cardinality := by
  rw [judgeWithin?_eq st node.scope .one hn hturns, hst.judge?_recorded hn,
    Option.map_some, Cardinality.one_mul]

end Store

namespace Session

/-- The active frame, moved to another node. -/
def viewFrom (s : Session κ) (scope : ScopeId) : Session κ :=
  s.alter fun f => { f with scope }

/-- A set of a session is judged, from its own node and however the
session went on, to have the cardinality that it is recorded with; so
does the walk along its path find, in as many turns as there are numbers
up to that of the set. -/
theorem recorded_cardinality {lexical : Prop} {s s' : Session κ}
    (h : s.Reachable lexical) (hs : Steps lexical s s') {id : Nat}
    {node : SetNode κ} (hn : s.store.arena.get? id = some node) :
    s'.store.arena.get? id = some node
      ∧ (s'.viewFrom node.scope).step (CompileM.judge id)
        = (.ok node.cardinality, s'.viewFrom node.scope)
      ∧ ∀ turns, id < turns →
        s'.store.judgeWithin? node.scope turns .one id
          = some node.cardinality := by
  obtain ⟨hready, hext⟩ := h.ready.steps hs
  have hn' : s'.store.arena.get? id = some node := hext.arena id node hn
  have hsound := hready.active.sound
  refine ⟨hn', ?_, fun turns => hsound.judgeWithin?_recorded hn'⟩
  have hjudge : (s'.viewFrom node.scope).store.judge?
      (s'.viewFrom node.scope).env.frame.scope id = some node.cardinality :=
    hsound.judge?_recorded hn'
  unfold step
  rw [CompileM.run_judge hjudge]

end Session

end

-- ============================================================= example

open scoped Xxh64

/-- The name of each friend of each person. -/
def friendNames : Ast.Path :=
  Ast.Build.run (Ast.Build.path "default::Person" ["friends", "name"])

/-- Friends were met in the node above, so each has one name here. -/
def namesBelow : Session PathId :=
  (afterFriends.step (CompileM.path friendNames)).2

theorem reachable_namesBelow (lexical : Prop) :
    Session.Reachable lexical namesBelow := by
  obtain ⟨schema, o, hs⟩ := reachable_beforeFriends lexical
  refine ⟨schema, o, ?_⟩
  unfold namesBelow
  exact ((hs.tail (.path friends)).trans (steps_afterFriends lexical)).tail
    (.path friendNames)

/-- In the node above, the same names are as many as the friends. -/
def namesAbove : Session PathId :=
  (namesBelow.leave.step (CompileM.path friendNames)).2

theorem recorded_cardinality_friends :
    ∃ node, namesBelow.store.arena.get? 2 = some node
      ∧ node.scope = 1 ∧ node.cardinality = .one
      ∧ (namesAbove.viewFrom 1).step (CompileM.judge 2)
        = (.ok .one, namesAbove.viewFrom 1)
      ∧ (namesAbove.step (CompileM.judge 2)).1 = .ok .many := by
  have hreachable : Session.Reachable False namesBelow := by
    obtain ⟨schema, o, hs⟩ := reachable_beforeFriends False
    refine ⟨schema, o, ?_⟩
    unfold namesBelow
    exact ((hs.tail (.path friends)).trans (steps_afterFriends False)).tail
      (.path friendNames)
  have hsteps : Session.Steps False namesBelow namesAbove := by
    unfold namesAbove
    exact (Relation.ReflTransGen.single .leave).tail (.path friendNames)
  have hnode : (namesBelow.store.arena.get? 2).map
      (fun node => (node.scope, node.cardinality)) = some (1, .one) := by
    decide +kernel
  obtain ⟨node, hn, heq⟩ := Option.map_eq_some_iff.1 hnode
  obtain ⟨hscope, hcard⟩ := Prod.mk.inj heq
  obtain ⟨-, hjudged, -⟩ := Session.recorded_cardinality hreachable hsteps hn
  rw [hscope, hcard] at hjudged
  exact ⟨node, hn, hscope, hcard, hjudged, by decide +kernel⟩

end PathQuery
