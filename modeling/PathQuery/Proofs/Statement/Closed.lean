/-
What is compiled refers to earlier sets only.

Every set names sets that were there before it (`Store.Sound.earlier`),
and the statement names sets that are there at the end, so a compiled
statement is closed (`Compiled.Closed`). In such an arena every walk
along a path comes to its start: from set number `n` it takes at most
`n` turns. Judging a set is such a walk; written as a loop that keeps
the product of the pointers met so far, with a number of turns to stop
it, it gives what `judge?` gives as soon as it has one turn for each
number up to that of the set (`judgeWithin?_eq`).

No lookup in there can miss, so compiling never fails for a reason of
its own (`compile_closed`). This does need that functions return types
of arguments that they have: one that does not is the one way to fail
that is not the query's fault.
-/
import Mathlib.Data.List.Chain
import PathQuery.Proofs.Session.Reachable
import PathQuery.Proofs.Statement.Soundness

namespace PathQuery

open Ir

variable {κ : Type}

-- =============================================================== walks

namespace Ir.Arena

variable {a : Arena κ}

/-- One turn of a walk along a path. -/
def GoesOn (a : Arena κ) (id source : SetId) : Prop :=
  ∃ node, a.get? id = some node ∧ node.origin.source? = some source

theorem GoesOn.lt {id source : Nat} (h : a.GoesOn id source) : source < id := by
  obtain ⟨node, hn, hs⟩ := h
  exact lt_of_source hn hs

/-- A walk takes no more turns than there are numbers below the first. -/
theorem length_le_of_isChain {id : Nat} {walk : List SetId}
    (h : List.IsChain a.GoesOn (id :: walk)) : walk.length ≤ id := by
  induction walk generalizing id with
  | nil => exact Nat.zero_le _
  | cons source walk ih =>
      obtain ⟨hturn, hrest⟩ := List.isChain_cons_cons.1 h
      exact Nat.lt_of_le_of_lt (ih hrest) hturn.lt

end Ir.Arena

namespace Store

/-- The cardinality of a set as a walk finds it that has met pointers
with this product so far, in so many turns. -/
def judgeWithin? (st : Store κ) (viewpoint : ScopeId) :
    (turns : Nat) → (product : Cardinality) → (id : SetId) → Option Cardinality
  | 0, _, _ => none
  | turns + 1, product, id =>
    match st.arena.get? id with
    | none => none
    | some node =>
      if st.scopes.isStrictAncestor node.scope viewpoint then some product
      else match node.origin with
        | .step source _ per =>
          st.judgeWithin? viewpoint turns (product.mul per) source
        | .root | .computed _ => some (product.mul node.cardinality)

/-- The walk finds what the set is judged to have, times what it had met
before. -/
theorem judgeWithin?_eq (st : Store κ) (v : ScopeId) {turns id : Nat}
    {node : SetNode κ} (product : Cardinality)
    (hn : st.arena.get? id = some node) (hid : id < turns) :
    st.judgeWithin? v turns product id
      = (st.judge? v id).map product.mul := by
  induction turns generalizing id product node with
  | zero => exact absurd hid (Nat.not_lt_zero _)
  | succ turns ih =>
      rw [judgeWithin?, judge?_eq hn, hn]
      dsimp only
      split
      · rw [Option.map_some, Cardinality.mul_comm, Cardinality.one_mul]
      · cases ho : node.origin with
        | root => rfl
        | computed op => rfl
        | step source name per =>
            have hs : node.origin.source? = some source := by rw [ho]; rfl
            obtain ⟨src, hsrc⟩ := Arena.exists_get?_source hn hs
            have hlt : source < id := Arena.lt_of_source hn hs
            have hturn : source < turns :=
              Nat.lt_of_lt_of_le hlt (Nat.le_of_lt_succ hid)
            dsimp only
            rw [ih (product.mul per) hsrc hturn, Option.map_map]
            refine congrArg (Option.map · _) (funext fun c => ?_)
            -- the walk meets the pointer of the set before those of its source
            rw [Function.comp_apply, Cardinality.mul_assoc,
              Cardinality.mul_comm per c]

end Store

-- ======================================================== compilation

/-- A compiled statement in which everything that is named is there, and
what a set names was there before it. -/
structure Compiled.Closed (c : Compiled κ) : Prop where
  /-- The sets are numbered from zero on. -/
  numbered : ∀ id, (∃ node, c.set? id = some node) ↔ id < c.arena.size
  earlier : ∀ id node, c.set? id = some node →
    ∀ x ∈ node.origin.mentions, x < id
  named : ∀ x ∈ c.statement.mentions, x < c.arena.size
  /-- Every walk from a set along its path ends. -/
  ends : ∀ id walk, List.IsChain c.arena.GoesOn (id :: walk) →
    walk.length ≤ id
  /-- Judging ends too, and finds a cardinality, from wherever. -/
  judged : ∀ (scopes : ScopeTree κ) (v : ScopeId) (id : SetId),
    id < c.arena.size → ∃ card,
      Store.judge? ⟨c.arena, scopes⟩ v id = some card
        ∧ Store.judgeWithin? ⟨c.arena, scopes⟩ v (id + 1) .one id = some card

section

variable [DecidableEq κ] [PathKey κ] [NameDigest]

namespace CompileM.Upholds

variable {R : Regime} {env : Env} {st : Store κ}

/-- A whole statement names sets that are there. -/
theorem statement_named {o : CompileOptions} {q : Ast.Select} :
    Upholds R env st (CompileM.statement o q) fun st' s =>
      ∀ x ∈ s.mentions, x < st'.arena.size := by
  refine statement_of (fun _ _ _ ha => ha.mentions_lt) ?_
  intro st' stmt id node _ ha _ hn _ x hx
  rcases Statement.mem_mentions_limit hx with hx | rfl
  · exact ha.mentions_lt x hx
  · exact Arena.lt_size_of_get? hn

end CompileM.Upholds

/-- A store that is sound closes the statements whose sets it has. -/
theorem Store.Sound.closed {R : Regime} {s : Schema} {c : Compiled κ}
    {scopes : ScopeTree κ} (h : Store.Sound R s ⟨c.arena, scopes⟩)
    (hs : ∀ x ∈ c.statement.mentions, x < c.arena.size) : c.Closed where
  numbered := fun id =>
    ⟨fun hn => hn.elim fun _ hn => Arena.lt_size_of_get? hn,
      Arena.exists_get?_of_lt⟩
  earlier := h.earlier
  named := hs
  ends := fun id walk => Arena.length_le_of_isChain
  judged := by
    intro scopes v id hid
    obtain ⟨node, hn⟩ := Arena.exists_get?_of_lt hid
    obtain ⟨card, hcard⟩ := Store.exists_judge? ⟨c.arena, scopes⟩ v hn
    refine ⟨card, hcard, ?_⟩
    rw [Store.judgeWithin?_eq _ v .one hn (Nat.lt_succ_self id), hcard,
      Option.map_some, Cardinality.one_mul]

/-- Compiling fails for reasons in the query only, and what it gives is
closed, if functions return the types of arguments that they have. -/
theorem compile_closed {s : Schema} (hs : s.ReturnsArguments)
    (o : CompileOptions) (q : Ast.Select) :
    (∀ e, compileWith κ s o q = .error e → e.kind ≠ .internal)
      ∧ ∀ c, compileWith κ s o q = .ok c → c.Closed := by
  have hout := CompileM.Upholds.statement_named (o := o) (q := q)
    (Env.ready_new (κ := κ) ⟨s, o.frame⟩
      (Regime.tracking_suits False s) rfl rfl)
  unfold compileWith
  revert hout
  generalize (CompileM.statement o q).run ⟨s, o.frame⟩ (Store.new (κ := κ))
    = out
  intro hout
  obtain ⟨e | stmt, st⟩ := out
  · refine ⟨fun e' he hkind => ?_, fun c hc => ?_⟩
    · cases he
      exact hout.fault e rfl hkind hs
    · cases hc
  · refine ⟨fun e he => ?_, fun c hc => ?_⟩
    · cases he
    · cases hc
      have hsound : Store.Sound _ s ⟨st.arena, st.scopes⟩ := hout.ready.sound
      exact hsound.closed (hout.value stmt rfl)

end

-- ============================================================= example

/-- Whether each function that returns the type of an argument has that
argument. -/
def Schema.returnsArguments (s : Schema) : Bool :=
  s.functions.values.all fun sig =>
    match sig.returns with
    | .concrete _ => true
    | .sameAs n => decide (n < sig.params.length)

theorem Schema.returnsArguments_of_check {s : Schema}
    (h : s.returnsArguments = true) : s.ReturnsArguments := by
  intro f sig n hf hs
  have hsig := List.all_eq_true.1 h sig (Table.mem_values_of_get? hf)
  rw [hs] at hsig
  exact of_decide_eq_true hsig

open scoped Xxh64

theorem compile_closed_people :
    (Registry.builtin.schemaOf people).ReturnsArguments
      ∧ ∃ c, compile (Registry.builtin.schemaOf people) {} oneWithFriends
          = .ok c ∧ c.Closed := by
  have hs : (Registry.builtin.schemaOf people).ReturnsArguments :=
    Schema.returnsArguments_of_check (by decide +kernel)
  obtain ⟨c, hc⟩ := exists_ok_of_isOk
    (x := compile (Registry.builtin.schemaOf people) {} oneWithFriends)
    (by decide +kernel)
  exact ⟨hs, c, hc, (compile_closed hs {} oneWithFriends).2 c hc⟩

end PathQuery
