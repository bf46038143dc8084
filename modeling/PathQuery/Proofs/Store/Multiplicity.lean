/-
The multiplicity rules.

`Store.counted?` says what cardinality an operation has, from the
cardinalities of the sets that it refers to, judged from the node that
the operation stands in. Operands taken element by element multiply,
whole sets do not count, members of a union add up, and a statement has
what `Store.statementCount?` makes of its result, filter and limit. The
rules read off the operation alone; what the compiler computes on the
way is shown to agree with them.

Whatever was judged stays judged (`Store.Extends.judge?_eq`), so a
cardinality once right stays right: that is `counted?_mono`.
-/
import PathQuery.Compile.Clause
import PathQuery.Compile.Operation
import PathQuery.Proofs.Store.Growth

namespace PathQuery

open Ir

variable {κ : Type}

-- =============================================================== rules

/-- The arguments that the parameters take element by element. -/
def elementArgs (params : List Parameter) (args : List SetId) : List SetId :=
  ((params.zip args).filter fun e => e.1.mode == .element).map Prod.snd

/-- One parameter at a time. -/
theorem elementArgs_append (param : Parameter) (params : List Parameter)
    (arg : SetId) (args : List SetId) :
    elementArgs (param :: params) (arg :: args)
      = elementArgs [param] [arg] ++ elementArgs params args := by
  unfold elementArgs
  rw [List.zip_cons_cons, ← List.map_append, ← List.filter_append]
  rfl

theorem elementArgs_cons (param : Parameter) (params : List Parameter)
    (arg : SetId) (args : List SetId) :
    elementArgs (param :: params) (arg :: args)
      = if param.mode = .element then arg :: elementArgs params args
        else elementArgs params args := by
  unfold elementArgs
  rw [List.zip_cons_cons, List.filter_cons]
  cases param.mode <;> rfl

namespace Store

/-- A cardinality, multiplied by that of each of some sets. -/
def product? (st : Store κ) (scope : ScopeId) :
    Cardinality → List SetId → Option Cardinality
  | c, [] => some c
  | c, id :: ids =>
      (st.judge? scope id).bind fun d => st.product? scope (c.mul d) ids

theorem product?_append (st : Store κ) (scope : ScopeId) (c : Cardinality)
    (ids more : List SetId) :
    st.product? scope c (ids ++ more)
      = (st.product? scope c ids).bind fun d => st.product? scope d more := by
  induction ids generalizing c with
  | nil => rfl
  | cons id ids ih =>
      rw [List.cons_append, product?, product?]
      cases st.judge? scope id with
      | none => rfl
      | some d => exact ih (c.mul d)

/-- The cardinalities of some sets. -/
def judgeAll? (st : Store κ) (scope : ScopeId) :
    List SetId → Option (List Cardinality)
  | [] => some []
  | id :: ids =>
      (st.judge? scope id).bind fun c => (st.judgeAll? scope ids).map (c :: ·)

/-- Whether a set is an integer constant of at most one. -/
def isUnitLimit (st : Store κ) (id : SetId) : Bool :=
  match (st.arena.get? id).map SetNode.origin with
  | some (.computed (.constant (.int n))) => n ≤ 1
  | _ => false

/-- The cardinality of a statement: that of its result, seen from the
statement's node, less what the filter and the limit may take away. -/
def statementCount? (st : Store κ) (stmt : Statement) : Option Cardinality :=
  (st.judge? stmt.scope stmt.result).map fun c =>
    let c := if stmt.filter.isSome then c.optional else c
    if stmt.limit.any st.isUnitLimit then c.capped.optional else c

/-- The cardinality of an operation in the node `scope`; nothing where a
set or a function is missing, or a union has less than two members. -/
def counted? (s : Schema) (st : Store κ) (scope : ScopeId) :
    Operation → Option Cardinality
  | .constant _ => some .one
  | .emptySet => some .atMostOne
  | .binary l _ r =>
      (st.judge? scope l).bind fun c => (st.judge? scope r).map c.mul
  | .unary .exists _ => some .one
  | .unary .not x | .unary .neg x => st.judge? scope x
  | .call f args _ => (s.function? f).bind fun sig =>
      st.product? scope sig.cardinality (elementArgs sig.params args)
  | .cast x _ _ => st.judge? scope x
  | .union members =>
      if 2 ≤ members.length then
        (st.judgeAll? scope members).map fun cs =>
          Cardinality.ofBounds (cs.any Cardinality.isRequired) true
      else none
  | .subquery stmt =>
      (st.statementCount? stmt).filter fun c => decide (c = stmt.cardinality)
  | .reference x => st.judge? scope x

end Store

-- ============================================================== unions

/-- A union of two or more sets may hold many elements, and holds some if
any of them does. -/
theorem CompileM.unionCardinality_eq (c d : Cardinality)
    (cs : List Cardinality) :
    unionCardinality (c :: d :: cs)
      = Cardinality.ofBounds ((c :: d :: cs).any Cardinality.isRequired)
        true := by
  have hfold : ∀ (cs : List Cardinality) (r : Bool),
      cs.foldl Cardinality.union (Cardinality.ofBounds r true)
        = Cardinality.ofBounds (r || cs.any Cardinality.isRequired) true := by
    intro cs
    induction cs with
    | nil => simp
    | cons e cs ih =>
        intro r
        rw [List.foldl_cons, Cardinality.union, Cardinality.isRequired_ofBounds,
          ih, List.any_cons, Bool.or_assoc]
  show (d :: cs).foldl Cardinality.union c = _
  rw [List.foldl_cons, Cardinality.union, hfold, List.any_cons, List.any_cons,
    Bool.or_assoc]

-- ============================================================== growth

namespace Store.Extends

variable {st st' : Store κ} {scope : Nat} {c : Cardinality}

theorem product?_eq (h : st.Extends st') (hs : scope < st.scopes.size)
    {ids : List SetId} {d : Cardinality}
    (hd : st.product? scope c ids = some d) :
    st'.product? scope c ids = some d := by
  induction ids generalizing c with
  | nil => exact hd
  | cons id ids ih =>
      unfold product? at hd ⊢
      obtain ⟨e, he, hd⟩ := Option.bind_eq_some_iff.1 hd
      rw [h.judge?_eq hs he]
      exact ih hd

theorem judgeAll?_eq (h : st.Extends st') (hs : scope < st.scopes.size)
    {ids : List SetId} {cs : List Cardinality}
    (hcs : st.judgeAll? scope ids = some cs) :
    st'.judgeAll? scope ids = some cs := by
  induction ids generalizing cs with
  | nil => exact hcs
  | cons id ids ih =>
      unfold judgeAll? at hcs ⊢
      obtain ⟨c, hc, hcs⟩ := Option.bind_eq_some_iff.1 hcs
      obtain ⟨ds, hds, rfl⟩ := Option.map_eq_some_iff.1 hcs
      rw [h.judge?_eq hs hc, Option.bind_some, ih hds, Option.map_some]

/-- A limit is what it was. -/
theorem isUnitLimit_eq (h : st.Extends st') {id : Nat} {node : SetNode κ}
    (hn : st.arena.get? id = some node) :
    st'.isUnitLimit id = st.isUnitLimit id := by
  unfold isUnitLimit
  rw [hn, h.arena id node hn]

/-- A statement counts as it did, given that its limit is there. -/
theorem statementCount?_eq (h : st.Extends st') {stmt : Statement}
    (hs : stmt.scope < st.scopes.size)
    (hlimit : ∀ id, stmt.limit = some id → ∃ node, st.arena.get? id = some node)
    (hc : st.statementCount? stmt = some c) :
    st'.statementCount? stmt = some c := by
  unfold statementCount? at hc ⊢
  obtain ⟨d, hd, heq⟩ := Option.map_eq_some_iff.1 hc
  rw [h.judge?_eq hs hd, Option.map_some, ← heq]
  cases hl : stmt.limit with
  | none => rfl
  | some id =>
      obtain ⟨node, hn⟩ := hlimit id hl
      simp only [Option.any_some, h.isUnitLimit_eq hn]

/-- An operation counts as it did. -/
theorem counted?_eq (h : st.Extends st') {s : Schema} {op : Operation}
    (hs : scope < st.scopes.size)
    (hstmt : ∀ stmt, op = .subquery stmt → stmt.scope < st.scopes.size ∧
      ∀ id, stmt.limit = some id → ∃ node, st.arena.get? id = some node)
    (hc : st.counted? s scope op = some c) :
    st'.counted? s scope op = some c := by
  cases op with
  | constant value => exact hc
  | emptySet => exact hc
  | binary l op r =>
      simp only [counted?] at hc ⊢
      obtain ⟨d, hd, hc⟩ := Option.bind_eq_some_iff.1 hc
      obtain ⟨e, he, rfl⟩ := Option.map_eq_some_iff.1 hc
      rw [h.judge?_eq hs hd, Option.bind_some, h.judge?_eq hs he,
        Option.map_some]
  | unary op x =>
      cases op with
      | not => exact h.judge?_eq hs hc
      | neg => exact h.judge?_eq hs hc
      | «exists» => exact hc
  | call f args aggregate =>
      simp only [counted?] at hc ⊢
      obtain ⟨sig, hsig, hc⟩ := Option.bind_eq_some_iff.1 hc
      rw [hsig, Option.bind_some, h.product?_eq hs hc]
  | cast x target conversion => exact h.judge?_eq hs hc
  | union members =>
      simp only [counted?] at hc ⊢
      split at hc
      · next htwo =>
          obtain ⟨cs, hcs, rfl⟩ := Option.map_eq_some_iff.1 hc
          rw [if_pos htwo, h.judgeAll?_eq hs hcs, Option.map_some]
      · cases hc
  | subquery stmt =>
      simp only [counted?] at hc ⊢
      obtain ⟨hscope, hlimit⟩ := hstmt stmt rfl
      obtain ⟨hc, heq⟩ := Option.filter_eq_some_iff.1 hc
      exact Option.filter_eq_some_iff.2
        ⟨h.statementCount?_eq hscope hlimit hc, heq⟩
  | reference x => exact h.judge?_eq hs hc

end Store.Extends

end PathQuery
