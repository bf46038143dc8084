/-
Judging a set from further in.

To judge a set is to go back along its path, step by step, until a set
is met that lives above the viewpoint, or the set that the path starts
from. `Store.Stretch` says how far that is: the steps that are taken and
the set where they end. The cardinality is that of the last set, times
the pointers of the steps (`Stretch.judge?_eq`).

From a node further in, more sets live above the viewpoint and none less.
The way back from there is a part of the way back from further out, so
judging from further out is to go the shorter way first and then on from
where it ends (`Stretch.judge?_outer`). What remains can only widen the
bounds: from further in, a set is never counted more
(`Session.judged_further_in`).
-/
import PathQuery.Proofs.Cardinality.Order
import PathQuery.Proofs.Cardinality.Recorded

namespace PathQuery

open Ir

variable {κ : Type}

-- ========================================================= going back

/-- A step of a path that was taken back: the set it leads to, and how
many elements its pointer leads to from each element of the set before. -/
structure Stride where
  set : SetId
  perSource : Cardinality
  deriving DecidableEq

/-- A cardinality, times the pointers of some steps. -/
def Cardinality.along (c : Cardinality) (strides : List Stride) : Cardinality :=
  strides.foldr (fun stride c => c.mul stride.perSource) c

@[simp] theorem Cardinality.along_nil (c : Cardinality) : c.along [] = c := rfl

@[simp] theorem Cardinality.along_cons (c : Cardinality) (stride : Stride)
    (strides : List Stride) :
    c.along (stride :: strides) = (c.along strides).mul stride.perSource := rfl

/-- Steps do not change which of two sets is counted less. -/
theorem Cardinality.along_le_along {c d : Cardinality} (h : c ≤ d)
    (strides : List Stride) : c.along strides ≤ d.along strides := by
  induction strides with
  | nil => exact h
  | cons stride strides ih => exact mul_le_mul ih (le_refl _)

/-- What a set counts beyond one comes last. -/
theorem Cardinality.along_eq_mul (c : Cardinality) (strides : List Stride) :
    c.along strides = (one.along strides).mul c := by
  induction strides with
  | nil => simp
  | cons stride strides ih =>
      rw [along_cons, along_cons, ih, mul_assoc, mul_assoc, mul_comm c]

namespace Store

variable {st : Store κ} {v a id stop : Nat} {strides : List Stride}
  {node : SetNode κ}

/-- Judging ends at a set that lives above the viewpoint, and at one that
no path leads to. -/
def EndsAt (st : Store κ) (v : ScopeId) (node : SetNode κ) : Prop :=
  st.scopes.isStrictAncestor node.scope v = true ∨ node.origin.source? = none

/-- The way back that judging a set takes, as steps, the last one first,
and the set where it ends. -/
inductive Stretch (st : Store κ) (v : ScopeId) :
    SetId → List Stride → SetId → Prop where
  | ends {id : SetId} {node : SetNode κ} (hn : st.arena.get? id = some node)
      (h : st.EndsAt v node) : Stretch st v id [] id
  | step {id source stop : SetId} {node : SetNode κ} {name : String}
      {per : Cardinality} {strides : List Stride}
      (hn : st.arena.get? id = some node)
      (hbelow : st.scopes.isStrictAncestor node.scope v = false)
      (ho : node.origin = .step source name per)
      (hrest : Stretch st v source strides stop) :
      Stretch st v id (⟨id, per⟩ :: strides) stop

/-- Going back ends: each set that is met is older than the last. -/
theorem exists_stretch (st : Store κ) (v : ScopeId)
    (hn : st.arena.get? id = some node) :
    ∃ strides stop, st.Stretch v id strides stop := by
  induction id using Nat.strongRecOn generalizing node with
  | ind id ih =>
      cases habove : st.scopes.isStrictAncestor node.scope v with
      | true => exact ⟨[], id, .ends hn (Or.inl habove)⟩
      | false =>
          cases ho : node.origin with
          | root => exact ⟨[], id, .ends hn (Or.inr (by rw [ho]; rfl))⟩
          | computed op => exact ⟨[], id, .ends hn (Or.inr (by rw [ho]; rfl))⟩
          | step source name per =>
              have hs : node.origin.source? = some source := by rw [ho]; rfl
              obtain ⟨src, hsrc⟩ := Arena.exists_get?_source hn hs
              obtain ⟨strides, stop, hrest⟩ :=
                ih source (Arena.lt_of_source hn hs) hsrc
              exact ⟨_, stop, .step hn habove ho hrest⟩

namespace Stretch

/-- The set where it ends is there, and is one to end at. -/
theorem endsAt (h : st.Stretch v id strides stop) :
    ∃ node, st.arena.get? stop = some node ∧ st.EndsAt v node := by
  induction h with
  | ends hn h => exact ⟨_, hn, h⟩
  | step _ _ _ _ ih => exact ih

/-- From a node that sees no more above it, a set counts as the set where
the way back ends, times the pointers on the way. -/
theorem judge?_of_imp (h : st.Stretch v id strides stop)
    (habove : ∀ x : Nat, st.scopes.isStrictAncestor x a = true →
      st.scopes.isStrictAncestor x v = true) :
    st.judge? a id = (st.judge? a stop).map (·.along strides) := by
  induction h with
  | ends hn h => simp
  | @step id source stop node name per strides hn hbelow ho _ ih =>
      have hbelow' : st.scopes.isStrictAncestor node.scope a = false := by
        rw [Bool.eq_false_iff] at hbelow ⊢
        exact fun hx => hbelow (habove _ hx)
      rw [judge?_step hn hbelow' ho, ih, Option.map_map]
      rfl

/-- From its own viewpoint. -/
theorem judge?_eq (h : st.Stretch v id strides stop) :
    st.judge? v id = (st.judge? v stop).map (·.along strides) :=
  h.judge?_of_imp fun _ habove => habove

/-- From a viewpoint further out, the way goes on from where it ended. -/
theorem judge?_outer (h : st.Stretch v id strides stop)
    (hr : st.scopes.Rooted) (ha : a ∈ st.scopes.ancestors v) :
    st.judge? a id = (st.judge? a stop).map (·.along strides) :=
  h.judge?_of_imp fun _ => hr.isStrictAncestor_mono ha

end Stretch

/-- A set where judging ends is counted no more than from further out. -/
theorem EndsAt.judge?_le (h : st.EndsAt v node) (hr : st.scopes.Rooted)
    (hn : st.arena.get? id = some node) (ha : a ∈ st.scopes.ancestors v) :
    ∃ c d, st.judge? a id = some c ∧ st.judge? v id = some d ∧ d ≤ c := by
  obtain ⟨c, hc⟩ := st.exists_judge? a hn
  cases habove : st.scopes.isStrictAncestor node.scope v with
  | true =>
      exact ⟨c, .one, hc, judge?_above hn habove, Cardinality.one_le c⟩
  | false =>
      -- nothing that is not above `v` is above `a`
      have hstart := h.resolve_left (by simp [habove])
      have habove' : st.scopes.isStrictAncestor node.scope a = false := by
        rw [Bool.eq_false_iff] at habove ⊢
        exact fun hx => habove (hr.isStrictAncestor_mono ha hx)
      exact ⟨_, _, judge?_made hn habove' hstart, judge?_made hn habove hstart,
        le_refl _⟩

/-- A set is counted no more than from further out. -/
theorem judge?_le (hr : st.scopes.Rooted) (hn : st.arena.get? id = some node)
    (ha : a ∈ st.scopes.ancestors v) :
    ∃ c d, st.judge? a id = some c ∧ st.judge? v id = some d ∧ d ≤ c := by
  obtain ⟨strides, stop, hway⟩ := st.exists_stretch v hn
  obtain ⟨last, hlast, hends⟩ := hway.endsAt
  obtain ⟨c, d, hc, hd, hle⟩ := hends.judge?_le hr hlast ha
  refine ⟨c.along strides, d.along strides, ?_, ?_,
    Cardinality.along_le_along hle strides⟩
  · rw [hway.judge?_outer hr ha, hc, Option.map_some]
  · rw [hway.judge?_eq, hd, Option.map_some]

end Store

-- ============================================================ sessions

namespace CompileM

variable {env : Env} {st : Store κ} {id : SetId} {c : Cardinality}

/-- A set passes for a single element exactly if it is judged to be at
most one. -/
theorem run_requireSingleton_iff
    (hc : st.judge? env.frame.scope id = some c) :
    ((requireSingleton id).run env st).1 = .ok () ↔ c.isSingleton = true := by
  obtain ⟨node, hn⟩ := Store.exists_get?_of_judge? hc
  unfold requireSingleton
  rw [run_bind_ok (run_judge hc)]
  cases c.isSingleton with
  | true => simp
  | false =>
      simp only [Bool.false_eq_true, if_false, iff_false]
      rw [run_bind_ok run_frame, run_bind_ok (run_getSet hn)]
      exact nofun

end CompileM

namespace Session

variable [DecidableEq κ] [PathKey κ] [NameDigest]

/-- A set that is judged from a node, and then from the same node or one
below it, however the session went on in between, keeps its bounds: if it
was required it is, and if it was at most one it is. So it passes for a
single element wherever it did further out. -/
theorem judged_further_in {lexical : Prop} {s s' : Session κ}
    (h : s.Reachable lexical) (hs : Steps lexical s s') {id : SetId}
    {node : SetNode κ} (hn : s.store.arena.get? id = some node) {a d : ScopeId}
    (ha : a < s.store.scopes.size) (had : a ∈ s'.store.scopes.ancestors d) :
    ∃ c e, (s.viewFrom a).step (CompileM.judge id) = (.ok c, s.viewFrom a)
      ∧ (s'.viewFrom d).step (CompileM.judge id) = (.ok e, s'.viewFrom d)
      ∧ (c.isRequired = true → e.isRequired = true)
      ∧ (c.isSingleton = true → e.isSingleton = true)
      ∧ (((s.viewFrom a).step (CompileM.requireSingleton id)).1 = .ok () →
        ((s'.viewFrom d).step (CompileM.requireSingleton id)).1 = .ok ()) := by
  obtain ⟨hready, hext⟩ := h.ready.steps hs
  have hn' : s'.store.arena.get? id = some node := hext.arena id node hn
  obtain ⟨c', e, hc', he, hle⟩ :=
    Store.judge?_le hready.active.sound.rooted hn' had
  -- what was judged from the outer node is judged from there still
  obtain ⟨c, hc⟩ := s.store.exists_judge? a hn
  obtain rfl : c = c' := Option.some.inj ((hext.judge?_eq ha hc).symm.trans hc')
  have houter : (s.viewFrom a).store.judge? (s.viewFrom a).env.frame.scope id
      = some c := hc
  have hinner : (s'.viewFrom d).store.judge? (s'.viewFrom d).env.frame.scope id
      = some e := he
  refine ⟨c, e, ?_, ?_, hle.1, Cardinality.isSingleton_of_le hle, fun hpass => ?_⟩
  · unfold step
    rw [CompileM.run_judge houter]
  · unfold step
    rw [CompileM.run_judge hinner]
  · have hsingle := (CompileM.run_requireSingleton_iff houter).1 hpass
    exact (CompileM.run_requireSingleton_iff hinner).2
      (Cardinality.isSingleton_of_le hle hsingle)

end Session

-- ============================================================= example

open scoped Xxh64

/-- In the node where the friends were met their names are many. Below it
there is one name for each, so there is still further below. -/
theorem judged_further_in_friends :
    ((namesBelow.viewFrom 0).step (CompileM.judge 2)).1 = .ok .many
      ∧ ((namesBelow.viewFrom 1).step (CompileM.requireSingleton 2)).1 = .ok ()
      ∧ ((namesBelow.enterScope.viewFrom 2).step
          (CompileM.requireSingleton 2)).1 = .ok () := by
  have hpasses :
      ((namesBelow.viewFrom 1).step (CompileM.requireSingleton 2)).1
        = .ok () := by
    decide +kernel
  obtain ⟨node, hn⟩ : ∃ node, namesBelow.store.arena.get? 2 = some node :=
    Option.isSome_iff_exists.1 (by decide +kernel)
  obtain ⟨_, _, -, -, -, -, hstill⟩ :=
    Session.judged_further_in (reachable_namesBelow False)
      (Relation.ReflTransGen.single .enterScope) hn (a := 1) (d := 2)
      (by decide +kernel) (by decide +kernel)
  exact ⟨by decide +kernel, hpasses, hstill hpasses⟩

end PathQuery
