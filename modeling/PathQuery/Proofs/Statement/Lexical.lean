/-
Sets are used where they are seen.

Sets lie in one arena, whatever part of the query they come from, and
nothing in a set keeps another from naming it. That each set is used
only where its scope node is in force is a property of what is compiled,
and it is what gives a cardinality its meaning: a set is judged from a
node that sees it.

What an operation takes element by element lives in its own node or
above (`Operation.taken`); what it takes whole may also live right
below, in the node that was opened for it (`Operation.whole`). A
statement has its own node right below the one it was compiled in; its
result is seen from there, and every other part of it has at most one
node of its own in between (`Store.Laid`). All of this is part of the
invariant already, for sessions as well as for statements; here it is
read off in these terms, and the implicit limit, which is made outside
the statement, is added.
-/
import PathQuery.Proofs.Session.Reachable
import PathQuery.Proofs.Statement.Constraints

namespace PathQuery

open Ir
open Ast (Select)

variable {κ : Type}

-- ============================================================ operands

/-- The arguments that the parameters take whole. -/
def wholeArgs (params : List Parameter) (args : List SetId) : List SetId :=
  ((params.zip args).filter fun e => e.1.mode == .wholeSet).map Prod.snd

/-- The operands that an operation takes element by element. -/
def Ir.Operation.taken (s : Schema) : Operation → List SetId
  | constant _ | emptySet | unary .exists _ | subquery _ => []
  | binary left _ right => [left, right]
  | unary .not operand | unary .neg operand => [operand]
  | call function args _ =>
    (s.function? function).elim [] fun sig => elementArgs sig.params args
  | cast operand _ _ => [operand]
  | union members => members
  | reference set => [set]

/-- The operands that an operation takes whole. -/
def Ir.Operation.whole (s : Schema) : Operation → List SetId
  | unary .exists operand => [operand]
  | call function args _ =>
    (s.function? function).elim [] fun sig => wholeArgs sig.params args
  | constant _ | emptySet | binary .. | unary .not _ | unary .neg _ | cast ..
  | union _ | subquery _ | reference _ => []

/-- The sets that a set takes element by element. A path takes the set
that it goes on from. -/
def Ir.Origin.taken (s : Schema) : Origin → List SetId
  | root => []
  | step source _ _ => [source]
  | computed operation => operation.taken s

/-- The sets that a set takes whole. -/
def Ir.Origin.whole (s : Schema) : Origin → List SetId
  | root | step .. => []
  | computed operation => operation.whole s

theorem wholeArgs_cons (param : Parameter) (params : List Parameter)
    (arg : SetId) (args : List SetId) :
    wholeArgs (param :: params) (arg :: args)
      = if param.mode = .wholeSet then arg :: wholeArgs params args
        else wholeArgs params args := by
  unfold wholeArgs
  rw [List.zip_cons_cons, List.filter_cons]
  cases param.mode <;> rfl

namespace Store

variable {R : Regime} {s : Schema} {st st' : Store κ} {scope : ScopeId}
  {id : SetId}

-- ============================================================== living

/-- A set lives in a node, or in one above it. -/
def LivesAbove (st : Store κ) (scope : ScopeId) (id : SetId) : Prop :=
  ∃ node, st.arena.get? id = some node
    ∧ node.scope ∈ st.scopes.ancestors scope

/-- A set lives in a node, in one above it, or in one right below it. -/
def LivesNear (st : Store κ) (scope : ScopeId) (id : SetId) : Prop :=
  ∃ node, st.arena.get? id = some node
    ∧ (node.scope ∈ st.scopes.ancestors scope
      ∨ st.scopes.parent? node.scope = some scope)

theorem Holds.livesAbove (hl : R.lexical) {t : TypeId}
    (h : st.Holds R scope id t) : st.LivesAbove scope id := by
  obtain ⟨node, hn, -, hseen⟩ := h
  exact ⟨node, hn, hseen hl⟩

/-- What is seen from a node right below lives there or is seen from the
node itself. -/
theorem Holds.livesNear (hl : R.lexical) (hr : st.scopes.Rooted)
    {child : ScopeId} (hp : st.scopes.parent? child = some scope) {t : TypeId}
    (h : st.Holds R child id t) : st.LivesNear scope id := by
  obtain ⟨node, hn, -, hseen⟩ := h
  refine ⟨node, hn, ?_⟩
  rcases hr.mem_ancestors_iff.1 (hseen hl) with heq | ⟨p, hparent, hin⟩
  · exact Or.inr (heq ▸ hp)
  · rw [hp] at hparent
    cases hparent
    exact Or.inl hin

theorem Below.livesNear (hl : R.lexical) (hr : st.scopes.Rooted)
    {wanted : TypeId → Prop} (h : st.Below R scope id wanted) :
    st.LivesNear scope id := by
  obtain ⟨child, t, hp, hid, -⟩ := h
  exact hid.livesNear hl hr hp

/-- Each element of a shape has its set near the node of the shape. -/
theorem Shaped.livesNear (hl : R.lexical) (hr : st.scopes.Rooted)
    {nodes : List ShapeNode} (h : Shaped R st scope nodes) :
    ∀ element ∈ nodes, st.LivesNear scope element.set := by
  induction h with
  | nil =>
      intro element hmem
      cases hmem
  | cons hp hset _ _ _ ihrest =>
      intro element hmem
      rcases List.mem_cons.1 hmem with rfl | hmem
      · exact hset.livesNear hl hr hp
      · exact ihrest element hmem

-- ========================================================== statements

/-- A statement that was compiled in the node `around` has its own node
right below. Its result lives in that node or above; every other part of
it lives there, above or right below. -/
structure Laid (st : Store κ) (around : ScopeId) (stmt : Statement) : Prop where
  parent : st.scopes.parent? stmt.scope = some around
  result : st.LivesAbove stmt.scope stmt.result
  shape : ∀ element ∈ stmt.shape, st.LivesNear stmt.scope element.set
  filter : ∀ id, stmt.filter = some id → st.LivesNear stmt.scope id
  groupBy : ∀ id ∈ stmt.groupBy, st.LivesNear stmt.scope id
  orderBy : ∀ k ∈ stmt.orderBy, st.LivesNear stmt.scope k.key
  offset : ∀ id, stmt.offset = some id → st.LivesNear stmt.scope id
  limit : ∀ id, stmt.limit = some id → st.LivesNear stmt.scope id

theorem Arranged.laid [NameDigest] (hl : R.lexical) (hr : st.scopes.Rooted)
    {stmt : Statement} (h : st.Arranged R s scope stmt) :
    st.Laid scope stmt where
  parent := h.parent
  result := by
    obtain ⟨t, ht⟩ := h.result
    exact ht.livesAbove hl
  shape := h.shape.livesNear hl hr
  filter := fun id hid => (h.filter id hid).livesNear hl hr
  groupBy := fun id hid => (h.groupBy id hid).toBelow.livesNear hl hr
  orderBy := fun k hk => (h.orderBy k hk).toBelow.livesNear hl hr
  offset := fun id hid => (h.offset id hid).toBelow.livesNear hl hr
  limit := fun id hid => (h.limit id hid).toBelow.livesNear hl hr

/-- A limit may be given from the node around the statement. -/
theorem Laid.withLimit {stmt : Statement} {limit : SetId} {c : Cardinality}
    (h : st.Laid scope stmt) (hlimit : st.LivesNear stmt.scope limit) :
    st.Laid scope { stmt with limit := some limit, cardinality := c } where
  parent := h.parent
  result := h.result
  shape := h.shape
  filter := h.filter
  groupBy := h.groupBy
  orderBy := h.orderBy
  offset := h.offset
  limit := fun id hid => by
    cases hid
    exact hlimit

-- ============================================================== origins

/-- The sets that a set in the node `scope` comes from live where it may
use them. Besides those it takes element by element or whole, only a
subquery names sets, those of its statement. -/
structure Lexical (s : Schema) (st : Store κ) (scope : ScopeId)
    (origin : Origin) : Prop where
  taken : ∀ x ∈ origin.taken s, st.LivesAbove scope x
  whole : ∀ x ∈ origin.whole s, st.LivesNear scope x
  named : ∀ x ∈ origin.mentions, x ∈ origin.taken s ∨ x ∈ origin.whole s
    ∨ ∃ stmt, origin = .computed (.subquery stmt)
  subquery : ∀ stmt, origin = .computed (.subquery stmt) → st.Laid scope stmt

/-- What takes everything that it names element by element. -/
theorem Lexical.of_taken {origin : Origin}
    (htaken : origin.taken s = origin.mentions) (hwhole : origin.whole s = [])
    (hplain : ∀ stmt, origin ≠ .computed (.subquery stmt))
    (hseen : ∀ x ∈ origin.mentions, st.LivesAbove scope x) :
    st.Lexical s scope origin where
  taken := htaken ▸ hseen
  whole := by
    rw [hwhole]
    exact nofun
  named := fun x hx => Or.inl (htaken ▸ hx)
  subquery := fun stmt h => absurd h (hplain stmt)

/-- Each argument is taken element by element or whole, as its parameter
says, and lives accordingly. -/
theorem Lexical.of_passed (hl : R.lexical) (hr : st.scopes.Rooted)
    {params : List Parameter} {args : List SetId}
    (h : List.Forall₂ (Passed R st scope) params args) :
    (∀ x ∈ elementArgs params args, st.LivesAbove scope x)
      ∧ (∀ x ∈ wholeArgs params args, st.LivesNear scope x)
      ∧ ∀ x ∈ args, x ∈ elementArgs params args ∨ x ∈ wholeArgs params args := by
  induction h with
  | nil => exact ⟨nofun, nofun, nofun⟩
  | @cons param arg params args hpassed _ ih =>
      obtain ⟨htaken, hwhole, hnamed⟩ := ih
      unfold Passed at hpassed
      rw [elementArgs_cons, wholeArgs_cons]
      split at hpassed
      · next hmode =>
          obtain ⟨t, ht⟩ := hpassed
          rw [hmode, if_pos rfl, if_neg nofun]
          refine ⟨List.forall_mem_cons.2 ⟨ht.livesAbove hl, htaken⟩, hwhole,
            List.forall_mem_cons.2 ⟨Or.inl List.mem_cons_self, fun x hx => ?_⟩⟩
          exact (hnamed x hx).imp_left (List.mem_cons_of_mem _)
      · next hmode =>
          rw [hmode, if_neg nofun, if_pos rfl]
          refine ⟨htaken, List.forall_mem_cons.2 ⟨hpassed.livesNear hl hr, hwhole⟩,
            List.forall_mem_cons.2 ⟨Or.inr List.mem_cons_self, fun x hx => ?_⟩⟩
          exact (hnamed x hx).imp_right (List.mem_cons_of_mem _)

variable [NameDigest]

theorem Placed.lexical (hl : R.lexical) (hr : st.scopes.Rooted)
    {op : Operation} (h : st.Placed R s scope op) :
    st.Lexical s scope (.computed op) := by
  have hseen : ∀ x, (∃ t, st.Holds R scope x t) → st.LivesAbove scope x := by
    intro x hx
    obtain ⟨t, ht⟩ := hx
    exact ht.livesAbove hl
  cases op with
  | constant value => exact .of_taken rfl rfl nofun nofun
  | emptySet => exact .of_taken rfl rfl nofun nofun
  | binary left op right =>
      refine .of_taken rfl rfl nofun fun x hx => ?_
      rcases List.mem_pair.1 hx with rfl | rfl
      · exact hseen _ h.1
      · exact hseen _ h.2
  | unary op operand =>
      cases op with
      | not =>
          refine .of_taken rfl rfl nofun fun x hx => ?_
          exact hseen x (List.mem_singleton.1 hx ▸ h)
      | neg =>
          refine .of_taken rfl rfl nofun fun x hx => ?_
          exact hseen x (List.mem_singleton.1 hx ▸ h)
      | «exists» =>
          refine ⟨nofun, fun x hx => ?_, fun x hx => Or.inr (Or.inl hx), nofun⟩
          rw [List.mem_singleton.1 hx]
          exact Below.livesNear hl hr h
  | call function args aggregate =>
      obtain ⟨sig, hsig, -, hargs⟩ := h
      obtain ⟨htaken, hwhole, hnamed⟩ := Lexical.of_passed hl hr hargs
      have helement : (Origin.computed (.call function args aggregate)).taken s
          = elementArgs sig.params args := by
        simp only [Origin.taken, Operation.taken, hsig, Option.elim_some]
      have hset : (Origin.computed (.call function args aggregate)).whole s
          = wholeArgs sig.params args := by
        simp only [Origin.whole, Operation.whole, hsig, Option.elim_some]
      refine ⟨helement ▸ htaken, hset ▸ hwhole, fun x hx => ?_, nofun⟩
      rw [helement, hset]
      exact (hnamed x hx).imp_right Or.inl
  | cast operand target conversion =>
      refine .of_taken rfl rfl nofun fun x hx => ?_
      exact hseen x (List.mem_singleton.1 hx ▸ h)
  | union members =>
      exact .of_taken rfl rfl nofun fun x hx => hseen x (h x hx)
  | subquery stmt =>
      refine ⟨nofun, nofun, fun x _ => Or.inr (Or.inr ⟨stmt, rfl⟩), ?_⟩
      intro stmt' heq
      cases heq
      exact Arranged.laid hl hr h
  | reference set =>
      refine .of_taken rfl rfl nofun fun x hx => ?_
      exact hseen x (List.mem_singleton.1 hx ▸ h)

/-- A sound set uses sets where they are seen, in a regime that demands
it. -/
theorem SetSound.lexical [PathKey κ] (hl : R.lexical) (hr : st.scopes.Rooted)
    {node : SetNode κ} (h : st.SetSound R s node) :
    st.Lexical s node.scope node.origin := by
  cases h with
  | root ho =>
      rw [ho]
      exact .of_taken rfl rfl nofun nofun
  | @step source name per src p ho hsrc hseen =>
      rw [ho]
      refine .of_taken rfl rfl nofun fun x hx => ?_
      rw [List.mem_singleton.1 hx]
      exact ⟨src, hsrc, hseen hl⟩
  | computed ho _ hfits =>
      rw [ho]
      exact hfits.placed.lexical hl hr

end Store

-- ========================================================= compilation

section

variable [DecidableEq κ] [PathKey κ] [NameDigest]

namespace CompileM.Upholds

variable {R : Regime} {env : Env} {st : Store κ}

/-- A whole statement is laid out below the node it is compiled in. -/
theorem laid_statement (hl : R.lexical) {o : CompileOptions} {q : Select} :
    Upholds R env st (CompileM.statement o q) fun st' stmt =>
      st'.Laid env.frame.scope stmt := by
  refine statement_of (fun _ _ hsound ha => ha.laid hl hsound.rooted) ?_
  intro st' stmt id node hsound ha _ hn hscope
  refine (ha.laid hl hsound.rooted).withLimit ⟨_, hn, Or.inl ?_⟩
  rw [hscope]
  exact hsound.rooted.mem_ancestors_of_parent? ha.parent
    (ScopeTree.mem_ancestors_self _ _)

end CompileM.Upholds

/-- Everything that is compiled is used where it is seen: the sets that a
set comes from, and the parts of every statement, which was compiled in
the node right above its own. -/
theorem compile_lexical {s : Schema} {o : CompileOptions} {q : Select}
    {c : Compiled κ} (h : compileWith κ s o q = .ok c) :
    ∃ scopes : ScopeTree κ,
      (CompileM.statement o q).run ⟨s, o.frame⟩ (Store.new (κ := κ))
        = (.ok c.statement, ⟨c.arena, scopes⟩)
      ∧ (∀ id node, c.set? id = some node →
          Store.Lexical s ⟨c.arena, scopes⟩ node.scope node.origin)
      ∧ Store.Laid ⟨c.arena, scopes⟩ ScopeTree.root c.statement
      ∧ ∀ id node stmt, c.set? id = some node →
          node.origin = .computed (.subquery stmt) →
          Store.Laid ⟨c.arena, scopes⟩ node.scope stmt
            ∧ ∃ q' ∈ q.nested, (CompileM.select q').Ran s node.scope stmt.scope
                stmt ⟨c.arena, scopes⟩ := by
  obtain ⟨scopes, hrun⟩ := exists_run_of_compileWith h
  have hready : (Env.mk s o.frame).Ready (.tracking True) (Store.new (κ := κ)) :=
    Env.ready_new _ (Regime.tracking_suits True s) rfl rfl
  have hout := CompileM.Upholds.laid_statement trivial (o := o) (q := q) hready
  have hanswers :=
    (CompileM.Composed.statement o q).onlyAnswers ⟨s, o.frame⟩
      (Store.new (κ := κ)) ⟨ScopeTree.rooted_new, Nat.zero_lt_one⟩
  rw [hrun] at hout hanswers
  have hsound := hout.ready.sound
  have hlexical : ∀ id node, c.set? id = some node →
      Store.Lexical s ⟨c.arena, scopes⟩ node.scope node.origin :=
    fun id node hn => (hsound.sets id node hn).lexical trivial hsound.rooted
  refine ⟨scopes, hrun, hlexical, hout.value _ rfl, ?_⟩
  intro id node stmt hn ho
  have hlaid := (hlexical id node hn).subquery stmt ho
  rcases hanswers id node stmt hn ho with hold | ⟨q', hq', hans⟩
  · cases hold
  · obtain ⟨around, hp, hran⟩ := hans.ran
    have hsame := hp.symm.trans hlaid.parent
    cases hsame
    exact ⟨hlaid, q', hq', hran⟩

end

open scoped Xxh64

theorem compile_lexical_people : ∃ c,
    compile (Registry.builtin.schemaOf people) { implicitLimit := some 20 }
        peopleByName = .ok c
      ∧ ∃ scopes : ScopeTree PathId,
        (CompileM.statement { implicitLimit := some 20 } peopleByName).run
            ⟨Registry.builtin.schemaOf people,
              CompileOptions.frame { implicitLimit := some 20 }⟩ .new
          = (.ok c.statement, ⟨c.arena, scopes⟩)
        ∧ (∀ id node, c.set? id = some node →
            Store.Lexical (Registry.builtin.schemaOf people) ⟨c.arena, scopes⟩
              node.scope node.origin)
        ∧ Store.Laid ⟨c.arena, scopes⟩ ScopeTree.root c.statement
        ∧ ∀ id node stmt, c.set? id = some node →
            node.origin = .computed (.subquery stmt) →
            Store.Laid ⟨c.arena, scopes⟩ node.scope stmt
              ∧ ∃ q ∈ peopleByName.nested, (CompileM.select q).Ran
                  (Registry.builtin.schemaOf people) node.scope stmt.scope stmt
                  ⟨c.arena, scopes⟩ := by
  obtain ⟨c, hc⟩ := exists_ok_of_isOk
    (x := compile (Registry.builtin.schemaOf people)
      { implicitLimit := some 20 } peopleByName) (by decide +kernel)
  exact ⟨c, hc, compile_lexical hc⟩

end PathQuery
