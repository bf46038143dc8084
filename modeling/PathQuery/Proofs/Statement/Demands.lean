/-
What the clauses of a statement demand.

A condition is a boolean, a number of elements is an integer and one
value, a key has a type and is one value. `Meets` says so of a statement
and the query that it comes from, clause by clause and key by key in the
order written. What an operand became is told by the run that compiled
it (`CompileM.Ran`), and its cardinality is judged from the node that
this run opened; so these are facts about a store, and like all such
facts they outlive its growth (the lemmas named `mono`).
-/
import Mathlib.Data.List.Forall2
import PathQuery.Compile.Statement
import PathQuery.Proofs.Store.Growth

namespace PathQuery

open Ast (Expr Select)
open Ir (Statement SetNode)

variable {κ α : Type}

-- =============================================================== demands

/-- A step gave a value when it was compiled in the node `scope`, on the
way to a store. The first node that it may have opened is `node`. -/
def CompileM.Ran (m : CompileM κ α) (s : Schema) (scope node : ScopeId)
    (a : α) (st : Store κ) : Prop :=
  ∃ (env : Env) (before after : Store κ), env.schema = s
    ∧ env.frame.scope = scope ∧ before.scopes.size = node
    ∧ m.run env before = (.ok a, after) ∧ after.Extends st

theorem CompileM.Ran.mono {m : CompileM κ α} {s : Schema}
    {scope node : ScopeId} {a : α} {st st' : Store κ} (h : st.Extends st')
    (hm : m.Ran s scope node a st) : m.Ran s scope node a st' := by
  obtain ⟨env, before, after, hs, hscope, hnode, hrun, hext⟩ := hm
  exact ⟨env, before, after, hs, hscope, hnode, hrun, hext.trans h⟩

theorem optionRel_imp {β : Type} {R S : α → β → Prop} (h : ∀ a b, R a b → S a b)
    {x : Option α} {y : Option β} (hr : Option.Rel R x y) :
    Option.Rel S x y := by
  cases hr with
  | some hr => exact .some (h _ _ hr)
  | none => exact .none

theorem eq_of_optionRel {α : Type} {o o' : Option α}
    (h : Option.Rel (· = ·) o o') : o = o' := by
  cases h with
  | none => rfl
  | some hab => exact congrArg some hab

theorem isSome_of_optionRel {α β : Type} {R : α → β → Prop} {o : Option α}
    {o' : Option β} (h : Option.Rel R o o') : o.isSome = o'.isSome := by
  cases h <;> rfl

namespace Store

/-- Seen from a node, a set has at most one element. -/
def OneFrom (st : Store κ) (node : ScopeId) (id : SetId) : Prop :=
  ∃ c, st.judge? node id = some c ∧ c.isSingleton = true

/-- A set is what a clause made of its operand, which it compiled in the
node `node` right below; and it has a type as wanted. -/
structure Takes (s : Schema) (st : Store κ) (scope : ScopeId)
    (m : CompileM κ SetId) (wanted : TypeId → Prop) (node : ScopeId)
    (id : SetId) : Prop where
  ran : m.Ran s scope node id st
  parent : st.scopes.parent? node = some scope
  typed : ∃ t, st.arena.type? id = some t ∧ wanted t

variable [DecidableEq κ] [PathKey κ] [NameDigest]

/-- A condition is a boolean. -/
def Filtered (s : Schema) (st : Store κ) (scope : ScopeId) (e : Expr)
    (id : SetId) : Prop :=
  ∃ node, st.Takes s scope (CompileM.filterBy (CompileM.expr e) e.span)
    (fun t => s.isSubtype t TypeId.bool = true) node id

/-- A number of elements is an integer and one value. -/
def Numbered (s : Schema) (st : Store κ) (scope : ScopeId) (e : Expr)
    (id : SetId) : Prop :=
  ∃ node, st.Takes s scope (CompileM.bound (CompileM.expr e) e.span)
    (fun t => s.isSubtype t TypeId.int = true) node id ∧ st.OneFrom node id

/-- A key has a type and is one value. -/
def Keyed (s : Schema) (st : Store κ) (scope : ScopeId) (e : Expr)
    (id : SetId) : Prop :=
  ∃ node, st.Takes s scope (CompileM.key (CompileM.expr e) e.span)
    (fun t => t ≠ .empty) node id ∧ st.OneFrom node id

/-- A key to sort by comes with its direction, the place of empty keys
and its span as written. -/
def Sorted (s : Schema) (st : Store κ) (scope : ScopeId) (k : Ast.SortKey)
    (r : Ir.SortKey) : Prop :=
  st.Keyed s scope k.key r.key ∧ r.direction = k.direction
    ∧ r.empties = k.empties ∧ r.span = k.span

/-- A limit is the one that was written, or else the implicit one, an
integer constant and one value as seen from the root node. -/
inductive Limited (s : Schema) (st : Store κ) (scope : ScopeId) :
    Option Expr → (implicit : Option Int) → Option SetId → Prop where
  | written {e : Expr} {implicit : Option Int} {id : SetId}
      (h : st.Numbered s scope e id) : Limited s st scope (some e) implicit (some id)
  | implicit {n : Int} {id : SetId} {node : SetNode κ}
      (hn : st.arena.get? id = some node)
      (ho : node.origin = .computed (.constant (.int n)))
      (ht : s.isSubtype node.type TypeId.int = true)
      (hone : st.OneFrom ScopeTree.root id) :
      Limited s st scope none (some n) (some id)
  | absent : Limited s st scope none none none

/-- A statement is a query whose clauses have what they demand. -/
structure Meets (s : Schema) (st : Store κ) (implicit : Option Int)
    (q : Select) (stmt : Statement) : Prop where
  span : stmt.span = q.span
  filter : Option.Rel (st.Filtered s stmt.scope) q.filter stmt.filter
  groupBy : List.Forall₂ (st.Keyed s stmt.scope) q.groupBy stmt.groupBy
  orderBy : List.Forall₂ (st.Sorted s stmt.scope) q.orderBy stmt.orderBy
  offset : Option.Rel (st.Numbered s stmt.scope) q.offset stmt.offset
  limit : st.Limited s stmt.scope q.limit implicit stmt.limit

/-- A statement is what compiling a query gave in the node of the
statement, and meets the query. -/
structure Answers (s : Schema) (st : Store κ) (q : Select)
    (stmt : Statement) : Prop where
  ran : ∃ around, st.scopes.parent? stmt.scope = some around
    ∧ (CompileM.select q).Ran s around stmt.scope stmt st
  meets : st.Meets s none q stmt

-- ============================================================== growth

section Growth

variable {s : Schema} {st st' : Store κ} {scope node : ScopeId} {id : SetId}

omit [DecidableEq κ] [PathKey κ] [NameDigest] in
theorem OneFrom.mono (h : st.Extends st') (hnode : node < st.scopes.size)
    (hone : st.OneFrom node id) : st'.OneFrom node id := by
  obtain ⟨c, hc, hsingle⟩ := hone
  exact ⟨c, h.judge?_eq hnode hc, hsingle⟩

omit [DecidableEq κ] [PathKey κ] [NameDigest] in
theorem Takes.mono (h : st.Extends st') {m : CompileM κ SetId}
    {wanted : TypeId → Prop} (ht : st.Takes s scope m wanted node id) :
    st'.Takes s scope m wanted node id := by
  obtain ⟨hran, hp, t, htype, hwanted⟩ := ht
  exact ⟨CompileM.Ran.mono h hran, h.parent? hp, t, h.arena.type? htype,
    hwanted⟩

variable {e : Expr} {k : Ast.SortKey} {r : Ir.SortKey}

theorem Filtered.mono (h : st.Extends st') (hf : st.Filtered s scope e id) :
    st'.Filtered s scope e id := by
  obtain ⟨node, ht⟩ := hf
  exact ⟨node, ht.mono h⟩

theorem Numbered.mono (h : st.Extends st') (hn : st.Numbered s scope e id) :
    st'.Numbered s scope e id := by
  obtain ⟨node, ht, hone⟩ := hn
  exact ⟨node, ht.mono h,
    hone.mono h (ScopeTree.lt_size_of_parent? ht.parent)⟩

theorem Keyed.mono (h : st.Extends st') (hk : st.Keyed s scope e id) :
    st'.Keyed s scope e id := by
  obtain ⟨node, ht, hone⟩ := hk
  exact ⟨node, ht.mono h,
    hone.mono h (ScopeTree.lt_size_of_parent? ht.parent)⟩

theorem Sorted.mono (h : st.Extends st') (hk : st.Sorted s scope k r) :
    st'.Sorted s scope k r :=
  ⟨hk.1.mono h, hk.2⟩

theorem Limited.mono (h : st.Extends st') {limit : Option Expr}
    {implicit : Option Int} {set : Option SetId}
    (hl : st.Limited s scope limit implicit set) :
    st'.Limited s scope limit implicit set := by
  cases hl with
  | written hn => exact .written (hn.mono h)
  | implicit hn ho ht hone =>
      exact .implicit (h.arena _ _ hn) ho ht (hone.mono h h.rooted.size_pos)
  | absent => exact .absent

/-- A limit that is there was written, if there is no implicit one. -/
theorem Limited.of_isSome {limit : Option Expr} {set : Option SetId}
    (hl : st.Limited s scope limit none set) (hsome : set.isSome = true)
    (implicit : Option Int) : st.Limited s scope limit implicit set := by
  cases hl with
  | written hn => exact .written hn
  | absent => cases hsome

theorem Limited.eq_none {limit : Option Expr}
    (hl : st.Limited s scope limit none none) : limit = none := by
  cases hl
  rfl

theorem Meets.mono (h : st.Extends st') {implicit : Option Int} {q : Select}
    {stmt : Statement} (hm : st.Meets s implicit q stmt) :
    st'.Meets s implicit q stmt where
  span := hm.span
  filter := optionRel_imp (fun _ _ hf => hf.mono h) hm.filter
  groupBy := hm.groupBy.imp fun _ _ hk => hk.mono h
  orderBy := hm.orderBy.imp fun _ _ hk => hk.mono h
  offset := optionRel_imp (fun _ _ hn => hn.mono h) hm.offset
  limit := hm.limit.mono h

theorem Answers.mono (h : st.Extends st') {q : Select} {stmt : Statement}
    (ha : st.Answers s q stmt) : st'.Answers s q stmt := by
  obtain ⟨⟨around, hp, hran⟩, hm⟩ := ha
  exact ⟨⟨around, h.parent? hp, CompileM.Ran.mono h hran⟩, hm.mono h⟩

end Growth

end Store

end PathQuery
