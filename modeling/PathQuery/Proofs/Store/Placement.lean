/-
Where sets may be used.

A set lives in one scope node and is seen from there and from every node
below. `Holds` says that it is there, of a type, and seen from a node.
`Placed` says of an operation where its operands are: those it takes
element by element are seen from its own node, those it takes whole are
seen from a node right below it, which was opened for them. `Arranged`
says the same of a statement, whose own node is right below the one it
stands in, and whose clauses each have a node right below that; it also
has what each clause demands of its operand. Wherever its operands are,
an operation has only operands that are there (the lemmas named
`mentions_lt`).

Not everything is demanded in every development: a `Regime` says which
types sets may have, whether operands must be seen where they are used,
and whether operations must obey the typing rules. What is stated here
survives the growth of a store (the lemmas named `mono`).
-/
import Mathlib.Data.List.Forall2
import PathQuery.Ir.Mention
import PathQuery.Proofs.Store.Multiplicity

namespace PathQuery

open Ir

variable {κ : Type}

/-- What is demanded of the sets of a store. -/
structure Regime where
  /-- The types that sets may have. -/
  known : TypeId → Prop
  /-- Sets are used only where they are seen. -/
  lexical : Prop
  /-- Operations obey the typing rules. -/
  typed : Prop

namespace Store

variable {R : Regime} {st st' : Store κ} {scope child id : Nat} {t : TypeId}

-- ============================================================= holding

/-- A set is there, has a type, and is seen from a node. -/
def Holds (R : Regime) (st : Store κ) (scope id : Nat) (t : TypeId) : Prop :=
  ∃ node, st.arena.get? id = some node ∧ node.type = t
    ∧ (R.lexical → node.scope ∈ st.scopes.ancestors scope)

theorem Holds.mono (h : st.Extends st') (hid : st.Holds R scope id t) :
    st'.Holds R scope id t := by
  obtain ⟨node, hn, ht, hseen⟩ := hid
  exact ⟨node, h.arena id node hn, ht, fun hl => h.mem_ancestors (hseen hl)⟩

/-- What is seen from a node is seen from below. -/
theorem Holds.below (hr : st.scopes.Rooted)
    (hp : scope ∈ st.scopes.ancestors child) (hid : st.Holds R scope id t) :
    st.Holds R child id t := by
  obtain ⟨node, hn, ht, hseen⟩ := hid
  exact ⟨node, hn, ht, fun hl => hr.ancestors_trans (hseen hl) hp⟩

theorem Holds.exists_get? (hid : st.Holds R scope id t) :
    ∃ node, st.arena.get? id = some node := by
  obtain ⟨node, hn, -⟩ := hid
  exact ⟨node, hn⟩

theorem Holds.lt_size (hid : st.Holds R scope id t) : id < st.arena.size := by
  obtain ⟨node, hn, -⟩ := hid
  exact Arena.lt_size_of_get? hn

theorem Holds.type? (hid : st.Holds R scope id t) :
    st.arena.type? id = some t := by
  obtain ⟨node, hn, ht, -⟩ := hid
  exact Arena.type?_eq_some_iff.2 ⟨node, hn, ht⟩

theorem Holds.exists_judge? (hid : st.Holds R scope id t) (v : Nat) :
    ∃ c, st.judge? v id = some c := by
  obtain ⟨node, hn⟩ := hid.exists_get?
  exact st.exists_judge? v hn

-- =============================================================== below

/-- A set is seen from a node right below, and its type is as wanted. -/
def Below (R : Regime) (st : Store κ) (scope id : Nat)
    (wanted : TypeId → Prop) : Prop :=
  ∃ (child : Nat) (t : TypeId),
    st.scopes.parent? child = some scope ∧ st.Holds R child id t ∧ wanted t

theorem Below.mono (h : st.Extends st') {wanted : TypeId → Prop}
    (hid : st.Below R scope id wanted) : st'.Below R scope id wanted := by
  obtain ⟨child, t, hp, hh, ht⟩ := hid
  exact ⟨child, t, h.parent? hp, hh.mono h, ht⟩

/-- Besides, it has at most one element seen from there. -/
def OneBelow (R : Regime) (st : Store κ) (scope id : Nat)
    (wanted : TypeId → Prop) : Prop :=
  ∃ (child : Nat) (t : TypeId) (c : Cardinality),
    st.scopes.parent? child = some scope ∧ st.Holds R child id t ∧ wanted t
      ∧ st.judge? child id = some c ∧ c.isSingleton = true

theorem OneBelow.mono (h : st.Extends st') {wanted : TypeId → Prop}
    (hid : st.OneBelow R scope id wanted) : st'.OneBelow R scope id wanted := by
  obtain ⟨child, t, c, hp, hh, ht, hc, hone⟩ := hid
  exact ⟨child, t, c, h.parent? hp, hh.mono h, ht,
    h.judge?_eq (ScopeTree.lt_size_of_parent? hp) hc, hone⟩

theorem OneBelow.toBelow {wanted : TypeId → Prop}
    (hid : st.OneBelow R scope id wanted) :
    st.Below R scope id wanted := by
  obtain ⟨child, t, -, hp, hh, ht, -, -⟩ := hid
  exact ⟨child, t, hp, hh, ht⟩

theorem Below.exists_get? {wanted : TypeId → Prop}
    (hid : st.Below R scope id wanted) :
    ∃ node, st.arena.get? id = some node := by
  obtain ⟨_, _, -, hh, -⟩ := hid
  exact hh.exists_get?

theorem Below.lt_size {wanted : TypeId → Prop}
    (hid : st.Below R scope id wanted) : id < st.arena.size := by
  obtain ⟨_, _, -, hh, -⟩ := hid
  exact hh.lt_size

-- ============================================================== shapes

/-- Each element of a shape has a node of its own, right below that of
the shape, and a shape of its own in there. -/
inductive Shaped (R : Regime) (st : Store κ) : Nat → List ShapeNode → Prop where
  | nil {scope : Nat} : Shaped R st scope []
  | cons {scope child set : Nat} {t : TypeId} {name : String} {computed : Bool}
      {elements rest : List ShapeNode}
      (hp : st.scopes.parent? child = some scope)
      (hset : st.Holds R child set t) (helements : Shaped R st child elements)
      (hrest : Shaped R st scope rest) :
      Shaped R st scope (.mk name set computed elements :: rest)

theorem Shaped.mono (h : st.Extends st') {nodes : List ShapeNode}
    (hs : Shaped R st scope nodes) : Shaped R st' scope nodes := by
  induction hs with
  | nil => exact .nil
  | cons hp hset _ _ ihe ihr => exact .cons (h.parent? hp) (hset.mono h) ihe ihr

theorem Shaped.append {nodes more : List ShapeNode}
    (hs : Shaped R st scope nodes) (hm : Shaped R st scope more) :
    Shaped R st scope (nodes ++ more) := by
  induction hs with
  | nil => exact hm
  | cons hp hset he _ _ ih => exact .cons hp hset he (ih hm)

theorem Shaped.mentions_lt {nodes : List ShapeNode}
    (hs : Shaped R st scope nodes) :
    ∀ x ∈ ShapeNode.mentionsOf nodes, x < st.arena.size := by
  induction hs with
  | nil => exact fun _ hx => by cases hx
  | cons hp hset _ _ ihe ihr =>
      intro x hx
      rcases List.mem_append.1 hx with hx | hx
      · rcases List.mem_cons.1 hx with rfl | hx
        · exact hset.lt_size
        · exact ihe x hx
      · exact ihr x hx

-- ========================================================== statements

variable [NameDigest]

/-- A statement that stands in a node has its own right below, and its
parts are where they should be and what they should be. -/
structure Arranged (R : Regime) (s : Schema) (st : Store κ) (scope : Nat)
    (stmt : Statement) : Prop where
  parent : st.scopes.parent? stmt.scope = some scope
  result : ∃ t, st.Holds R stmt.scope stmt.result t
  count : st.statementCount? stmt = some stmt.cardinality
  shape : Shaped R st stmt.scope stmt.shape
  filter : ∀ id, stmt.filter = some id →
    st.Below R stmt.scope id fun t => s.isSubtype t TypeId.bool = true
  groupBy : ∀ id ∈ stmt.groupBy, st.OneBelow R stmt.scope id fun t => t ≠ .empty
  orderBy : ∀ k ∈ stmt.orderBy, st.OneBelow R stmt.scope k.key
    fun t => t ≠ .empty
  offset : ∀ id, stmt.offset = some id →
    st.OneBelow R stmt.scope id fun t => s.isSubtype t TypeId.int = true
  limit : ∀ id, stmt.limit = some id →
    st.OneBelow R stmt.scope id fun t => s.isSubtype t TypeId.int = true

variable {s : Schema} {stmt : Statement} {op : Operation}

theorem Arranged.exists_limit (ha : st.Arranged R s scope stmt) (id : Nat)
    (hl : stmt.limit = some id) : ∃ node, st.arena.get? id = some node :=
  (ha.limit id hl).toBelow.exists_get?

/-- A statement names sets that are there. -/
theorem Arranged.mentions_lt (ha : st.Arranged R s scope stmt) :
    ∀ x ∈ stmt.mentions, x < st.arena.size := by
  intro x hx
  rcases Statement.mem_mentions.1 hx with rfl | hx | hx | hx | ⟨k, hk, rfl⟩
    | hx | hx
  · obtain ⟨_, ht⟩ := ha.result
    exact ht.lt_size
  · exact ha.shape.mentions_lt x hx
  · exact (ha.filter x hx).lt_size
  · exact (ha.groupBy x hx).toBelow.lt_size
  · exact (ha.orderBy k hk).toBelow.lt_size
  · exact (ha.offset x hx).toBelow.lt_size
  · exact (ha.limit x hx).toBelow.lt_size

theorem Arranged.mono (h : st.Extends st') (ha : st.Arranged R s scope stmt) :
    st'.Arranged R s scope stmt where
  parent := h.parent? ha.parent
  result := by
    obtain ⟨t, ht⟩ := ha.result
    exact ⟨t, ht.mono h⟩
  count := h.statementCount?_eq (ScopeTree.lt_size_of_parent? ha.parent)
    ha.exists_limit ha.count
  shape := ha.shape.mono h
  filter := fun id hid => (ha.filter id hid).mono h
  groupBy := fun id hid => (ha.groupBy id hid).mono h
  orderBy := fun k hk => (ha.orderBy k hk).mono h
  offset := fun id hid => (ha.offset id hid).mono h
  limit := fun id hid => (ha.limit id hid).mono h

-- ========================================================== operations

/-- An argument is where its parameter takes it. -/
def Passed (R : Regime) (st : Store κ) (scope : Nat) (param : Parameter)
    (arg : Nat) : Prop :=
  match param.mode with
  | .element => ∃ t, st.Holds R scope arg t
  | .wholeSet => st.Below R scope arg fun _ => True

omit [NameDigest] in
theorem Passed.mono (h : st.Extends st') {param : Parameter} {arg : Nat}
    (hp : Passed R st scope param arg) : Passed R st' scope param arg := by
  unfold Passed at hp ⊢
  split at hp
  · obtain ⟨t, ht⟩ := hp
    exact ⟨t, ht.mono h⟩
  · exact hp.mono h

omit [NameDigest] in
theorem Passed.lt_size {param : Parameter} {arg : Nat}
    (hp : Passed R st scope param arg) : arg < st.arena.size := by
  unfold Passed at hp
  split at hp
  · obtain ⟨t, ht⟩ := hp
    exact ht.lt_size
  · exact hp.lt_size

/-- The operands of an operation are where it takes them. -/
def Placed (R : Regime) (s : Schema) (st : Store κ) (scope : Nat) :
    Operation → Prop
  | .constant _ => True
  | .emptySet => True
  | .binary l _ r => (∃ t, st.Holds R scope l t) ∧ ∃ t, st.Holds R scope r t
  | .unary .exists x => st.Below R scope x fun t => t ≠ .empty
  | .unary .not x | .unary .neg x => ∃ t, st.Holds R scope x t
  | .call f args aggregate => ∃ sig, s.function? f = some sig
      ∧ aggregate = sig.isAggregate
      ∧ List.Forall₂ (Passed R st scope) sig.params args
  | .cast x _ _ => ∃ t, st.Holds R scope x t
  | .union members => ∀ x ∈ members, ∃ t, st.Holds R scope x t
  | .subquery stmt => st.Arranged R s scope stmt
  | .reference x => ∃ t, st.Holds R scope x t

theorem Placed.mono (h : st.Extends st') (hp : st.Placed R s scope op) :
    st'.Placed R s scope op := by
  have hseen : ∀ x, (∃ t, st.Holds R scope x t) →
      ∃ t, st'.Holds R scope x t := by
    intro x h
    obtain ⟨t, ht⟩ := h
    exact ⟨t, ht.mono h⟩
  cases op with
  | constant value => trivial
  | emptySet => trivial
  | binary l op r => exact ⟨hseen l hp.1, hseen r hp.2⟩
  | unary op x =>
      cases op with
      | not => exact hseen x hp
      | neg => exact hseen x hp
      | «exists» => exact Below.mono h hp
  | call f args aggregate =>
      obtain ⟨sig, hsig, hagg, hargs⟩ := hp
      exact ⟨sig, hsig, hagg, hargs.imp fun _ _ hp => hp.mono h⟩
  | cast x target conversion => exact hseen x hp
  | union members => exact fun x hx => hseen x (hp x hx)
  | subquery stmt => exact Arranged.mono h hp
  | reference x => exact hseen x hp

/-- The operands of an operation are there. -/
theorem Placed.mentions_lt (hp : st.Placed R s scope op) :
    ∀ x ∈ op.mentions, x < st.arena.size := by
  have hlt : ∀ x, (∃ t, st.Holds R scope x t) → x < st.arena.size := by
    intro x h
    obtain ⟨t, ht⟩ := h
    exact ht.lt_size
  intro x hx
  cases op with
  | constant value => cases hx
  | emptySet => cases hx
  | binary l op r =>
      rcases List.mem_pair.1 hx with rfl | rfl
      · exact hlt _ hp.1
      · exact hlt _ hp.2
  | unary op y =>
      obtain rfl := List.mem_singleton.1 hx
      cases op with
      | not => exact hlt _ hp
      | neg => exact hlt _ hp
      | «exists» => exact Below.lt_size hp
  | call f args aggregate =>
      obtain ⟨sig, -, -, hargs⟩ := hp
      have htaken : List.Forall₂ (flip (Passed R st scope)) args sig.params :=
        hargs.flip
      exact ((List.forall₂_and_left args sig.params).1
        (htaken.imp fun _ _ hp => ⟨Passed.lt_size hp, hp⟩)).1 x hx
  | cast y target conversion =>
      obtain rfl := List.mem_singleton.1 hx
      exact hlt _ hp
  | union members => exact hlt x (hp x hx)
  | subquery stmt => exact Arranged.mentions_lt hp x hx
  | reference y =>
      obtain rfl := List.mem_singleton.1 hx
      exact hlt _ hp

/-- A statement has its node and its limit. -/
theorem Placed.of_subquery (hp : st.Placed R s scope op) (stmt : Statement)
    (hop : op = .subquery stmt) :
    stmt.scope < st.scopes.size
      ∧ ∀ id, stmt.limit = some id → ∃ node, st.arena.get? id = some node := by
  subst hop
  have ha : st.Arranged R s scope stmt := hp
  exact ⟨ScopeTree.lt_size_of_parent? ha.parent, ha.exists_limit⟩

end Store

end PathQuery
