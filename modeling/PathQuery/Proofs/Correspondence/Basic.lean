/-
Two stores, set by set and node by node.

Two compilations may do the same under other numbers: one has made sets
and scope nodes that the other has not. A `Correspondence` says which set
of the one store is which of the other, and which node is which. It is
`Consistent` if sets that correspond come about alike, in nodes that
correspond, and if whatever is bound in a node on either side corresponds
to what is bound in the other node. No set corresponds to two, and no
node does.

What compilation asks of a store is then the same on both sides. A path
is read back as the same path but for the number of the set that it
starts from (`Paths`), a path is found on one side where it is found on
the other (`lookup_rel`), and sets are counted alike from nodes that
correspond (`judge_tally`).

How much is the same is a matter of the degree of likeness. For one and
the same query, sets that correspond are the same but for the numbers,
down to the shapes of subqueries (`OperationRenamed`). For queries that
differ in spans, what they refer to may differ: a set may be referred to
by a set of its own on one side only. And where a limit may be the
subject, counts agree in their upper bound alone (`Tally`).
-/
import Mathlib.Logic.Relator
import PathQuery.Ast.Alike
import PathQuery.Proofs.Statement.Demands
import PathQuery.Proofs.Tandem.Mirrored

namespace PathQuery

open Ast (Likeness)
open Ir

variable {κ : Type}

-- ============================================================= tallies

/-- Counts agree, in the upper bound at least. -/
def Ast.Likeness.Tally (μ : Likeness) (c d : Cardinality) : Prop :=
  c.isMulti = d.isMulti ∧ (μ ≠ .loose → c = d)

namespace Ast.Likeness.Tally

variable {μ : Likeness} {a b c d : Cardinality}

theorem refl (μ : Likeness) (c : Cardinality) : μ.Tally c c := ⟨rfl, fun _ => rfl⟩

theorem isSingleton_eq (h : μ.Tally c d) : c.isSingleton = d.isSingleton := by
  unfold Cardinality.isSingleton
  rw [h.1]

theorem mul (hab : μ.Tally a b) (hcd : μ.Tally c d) :
    μ.Tally (a.mul c) (b.mul d) := by
  refine ⟨?_, fun hμ => by rw [hab.2 hμ, hcd.2 hμ]⟩
  unfold Cardinality.mul
  rw [Cardinality.isMulti_ofBounds, Cardinality.isMulti_ofBounds, hab.1, hcd.1]

theorem optional (h : μ.Tally c d) : μ.Tally c.optional d.optional := by
  refine ⟨?_, fun hμ => by rw [h.2 hμ]⟩
  unfold Cardinality.optional
  rw [Cardinality.isMulti_ofBounds, Cardinality.isMulti_ofBounds, h.1]

theorem capped (h : μ.Tally c d) : μ.Tally c.capped d.capped := by
  refine ⟨?_, fun hμ => by rw [h.2 hμ]⟩
  unfold Cardinality.capped
  rw [Cardinality.isMulti_ofBounds, Cardinality.isMulti_ofBounds]

theorem union (hab : μ.Tally a b) (hcd : μ.Tally c d) :
    μ.Tally (a.union c) (b.union d) := by
  refine ⟨?_, fun hμ => by rw [hab.2 hμ, hcd.2 hμ]⟩
  unfold Cardinality.union
  rw [Cardinality.isMulti_ofBounds, Cardinality.isMulti_ofBounds]

/-- A union of sets that are counted alike is. -/
theorem unionCardinality {cs ds : List Cardinality}
    (h : List.Forall₂ μ.Tally cs ds) :
    μ.Tally (CompileM.unionCardinality cs) (CompileM.unionCardinality ds) := by
  have hfold : ∀ {cs ds : List Cardinality}, List.Forall₂ μ.Tally cs ds →
      ∀ {c d : Cardinality}, μ.Tally c d →
        μ.Tally (cs.foldl Cardinality.union c) (ds.foldl Cardinality.union d) := by
    intro cs ds h
    induction h with
    | nil => exact id
    | cons hcd _ ih => exact fun h => ih (h.union hcd)
  cases h with
  | nil => exact refl μ _
  | cons hcd h => exact hfold h hcd

end Ast.Likeness.Tally

-- =============================================================== stores

/-- Each set has the key of its path, and what is bound in a node is a
set of that node, under its own key. -/
structure Store.Indexed [DecidableEq κ] [PathKey κ] (st : Store κ) : Prop where
  key_eq : ∀ (id : Nat) (node : SetNode κ), st.arena.get? id = some node →
    node.key.getD (PathKey.anchored id) = (st.arena.canonical id).key
  bound : ∀ (n : Nat) (key : κ) (id : Nat), st.scopes.binding? n key = some id →
    ∃ node, st.arena.get? id = some node ∧ node.scope = n ∧ node.key = some key

namespace Store.Indexed

variable [DecidableEq κ] [PathKey κ] {st : Store κ}

theorem of_sound [NameDigest] {R : Regime} {s : Schema} (h : st.Sound R s) :
    st.Indexed :=
  ⟨fun _ _ hn => h.key_eq hn, h.binding⟩

/-- A set is bound under the key of its path. -/
theorem key_of_bound (h : st.Indexed) {n id : Nat} {key : κ}
    (hb : st.scopes.binding? n key = some id) :
    key = (st.arena.canonical id).key := by
  obtain ⟨node, hn, -, hkey⟩ := h.bound n key id hb
  rw [← h.key_eq id node hn, hkey, Option.getD_some]

/-- One set is added, and maybe bound where it lives. -/
theorem grown (h : st.Indexed) {node : SetNode κ} (hs) {scopes : ScopeTree κ}
    (hkey : node.key.getD (PathKey.anchored st.arena.size)
      = ((st.arena.push node hs).canonical st.arena.size).key)
    (hbound : ∀ (n : Nat) (key : κ) (id : Nat),
      scopes.binding? n key = some id → st.scopes.binding? n key = some id
        ∨ (id = st.arena.size ∧ node.scope = n ∧ node.key = some key)) :
    Indexed ⟨st.arena.push node hs, scopes⟩ where
  key_eq := fun id n hn => by
    rcases Arena.get?_push_cases hs hn with ⟨rfl, rfl⟩ | hn
    · exact hkey
    · rw [(Arena.extends_push st.arena node hs).canonical_eq hn]
      exact h.key_eq id n hn
  bound := fun n key id hb => by
    rcases hbound n key id hb with hold | ⟨rfl, hscope, hk⟩
    · obtain ⟨m, hm, hrest⟩ := h.bound n key id hold
      exact ⟨m, Arena.extends_push st.arena node hs id m hm, hrest⟩
    · exact ⟨node, Arena.get?_push_self _ _ hs, hscope, hk⟩

/-- A computed set is added. -/
theorem push (h : st.Indexed) {node : SetNode κ} (hs) {op : Operation}
    (ho : node.origin = .computed op) (hkey : node.key = none) :
    Indexed { st with arena := st.arena.push node hs } := by
  refine h.grown hs ?_ fun n key id => Or.inl
  rw [hkey, Arena.canonical_eq (Arena.get?_push_self _ _ hs), ho]
  rfl

theorem opened (h : st.Indexed) (scope : Nat) : (st.opened scope).Indexed where
  key_eq := h.key_eq
  bound := fun n key id hb => by
    refine h.bound n key id ?_
    rwa [← ScopeTree.binding?_attach st.scopes scope]

end Store.Indexed

-- ====================================================== correspondences

/-- Two stores, and which sets and which nodes of them correspond. -/
structure Correspondence (κ : Type) where
  left : Store κ
  right : Store κ
  sets : SetId → SetId → Prop
  nodes : ScopeId → ScopeId → Prop

namespace Correspondence

variable (C : Correspondence κ)

-- ============================================================ renaming

/-- Two shapes are the same but for the numbers of their sets. -/
inductive ShapeRenamed : List ShapeNode → List ShapeNode → Prop where
  | nil : ShapeRenamed [] []
  | cons {name : String} {x y : SetId} {computed : Bool}
      {elements elements' rest rest' : List ShapeNode} (hset : C.sets x y)
      (helements : ShapeRenamed elements elements')
      (hrest : ShapeRenamed rest rest') :
      ShapeRenamed (.mk name x computed elements :: rest)
        (.mk name y computed elements' :: rest')

/-- Two keys are the same but for the number of the set. -/
structure KeyRenamed (k k' : SortKey) : Prop where
  key : C.sets k.key k'.key
  direction : k.direction = k'.direction
  empties : k.empties = k'.empties
  span : k.span = k'.span

/-- Two statements are the same but for the numbers of sets and nodes. -/
structure StatementRenamed (stmt stmt' : Statement) : Prop where
  result : C.sets stmt.result stmt'.result
  shape : C.ShapeRenamed stmt.shape stmt'.shape
  filter : Option.Rel C.sets stmt.filter stmt'.filter
  groupBy : List.Forall₂ C.sets stmt.groupBy stmt'.groupBy
  orderBy : List.Forall₂ C.KeyRenamed stmt.orderBy stmt'.orderBy
  offset : Option.Rel C.sets stmt.offset stmt'.offset
  limit : Option.Rel C.sets stmt.limit stmt'.limit
  cardinality : stmt.cardinality = stmt'.cardinality
  scope : C.nodes stmt.scope stmt'.scope
  span : stmt.span = stmt'.span

/-- Two operations are the same but for the numbers of sets and nodes. -/
inductive OperationRenamed : Operation → Operation → Prop where
  | constant (value : Literal) : OperationRenamed (.constant value) (.constant value)
  | emptySet : OperationRenamed .emptySet .emptySet
  | binary {x y x' y' : SetId} (op : BinaryOp) (hl : C.sets x y)
      (hr : C.sets x' y') : OperationRenamed (.binary x op x') (.binary y op y')
  | unary {x y : SetId} (op : UnaryOp) (h : C.sets x y) :
      OperationRenamed (.unary op x) (.unary op y)
  | call {args args' : List SetId} (function : QualifiedName) (aggregate : Bool)
      (h : List.Forall₂ C.sets args args') :
      OperationRenamed (.call function args aggregate)
        (.call function args' aggregate)
  | cast {x y : SetId} (target : TypeId) (conversion : Conversion)
      (h : C.sets x y) :
      OperationRenamed (.cast x target conversion) (.cast y target conversion)
  | union {members members' : List SetId}
      (h : List.Forall₂ C.sets members members') :
      OperationRenamed (.union members) (.union members')
  | subquery {stmt stmt' : Statement} (h : C.StatementRenamed stmt stmt') :
      OperationRenamed (.subquery stmt) (.subquery stmt')
  | reference {x y : SetId} (h : C.sets x y) :
      OperationRenamed (.reference x) (.reference y)

-- ========================================================== consistency

variable (μ : Likeness)

/-- The elements of two sets come about alike. -/
inductive Kin (n m : SetNode κ) : Prop where
  | root (ho : n.origin = .root) (ho' : m.origin = .root)
  | step {source source' : SetId} {name : String} {per : Cardinality}
      (ho : n.origin = .step source name per)
      (ho' : m.origin = .step source' name per) (hs : C.sets source source')
  | computed {op op' : Operation} (ho : n.origin = .computed op)
      (ho' : m.origin = .computed op') (hconst : op.constant? = op'.constant?)
      (hop : μ = .same → C.OperationRenamed op op')

/-- Two sets are alike, in nodes that correspond. In the loose degree, a
constant is known to be one element. -/
structure Matched (n m : SetNode κ) : Prop where
  type : n.type = m.type
  scope : C.nodes n.scope m.scope
  span : μ.Spans n.span m.span
  count : μ.Tally n.cardinality m.cardinality
  kin : C.Kin μ n m
  single : μ = .loose → n.origin.constant? ≠ none →
    n.cardinality.isMulti = false

variable [DecidableEq κ] [PathKey κ]

/-- What corresponds is alike, and so is all that is bound in nodes that
correspond. -/
structure Consistent : Prop where
  rooted : C.left.scopes.Rooted
  rooted' : C.right.scopes.Rooted
  indexed : C.left.Indexed
  indexed' : C.right.Indexed
  active : ∀ a b : Nat, C.nodes a b →
    a < C.left.scopes.size ∧ b < C.right.scopes.size
  nodes_unique : Relator.BiUnique C.nodes
  parents : ∀ a b : Nat, C.nodes a b →
    Option.Rel C.nodes (C.left.scopes.parent? a) (C.right.scopes.parent? b)
  sets_unique : Relator.BiUnique C.sets
  matched : ∀ x y, C.sets x y → ∃ n m, C.left.arena.get? x = some n
    ∧ C.right.arena.get? y = some m ∧ C.Matched μ n m
  bound : ∀ (a b : Nat) (key : κ) x, C.nodes a b →
    C.left.scopes.binding? a key = some x →
    ∃ y key', C.sets x y ∧ C.right.scopes.binding? b key' = some y
  bound' : ∀ (a b : Nat) (key' : κ) y, C.nodes a b →
    C.right.scopes.binding? b key' = some y →
    ∃ x key, C.sets x y ∧ C.left.scopes.binding? a key = some x

variable {C μ} {C' C'' : Correspondence κ}

-- =============================================================== paths

/-- Two paths are the same but for the set that they start from. -/
inductive Paths (C : Correspondence κ) : CanonicalPath → CanonicalPath → Prop where
  | root (t : TypeId) : Paths C (.root t) (.root t)
  | anchor {x y : SetId} (h : C.sets x y) : Paths C (.anchor x) (.anchor y)
  | step {p p' : CanonicalPath} (name : String) (h : Paths C p p') :
      Paths C (.step p name) (.step p' name)

omit [DecidableEq κ] [PathKey κ] in
theorem Paths.right_unique (h : Relator.BiUnique C.sets)
    {p q q' : CanonicalPath} (hq : C.Paths p q) (hq' : C.Paths p q') :
    q = q' := by
  induction hq generalizing q' with
  | root t =>
      cases hq'
      rfl
  | anchor hxy =>
      cases hq' with
      | anchor hxy' => rw [h.2 hxy hxy']
  | step name _ ih =>
      cases hq' with
      | step _ hq' => rw [ih hq']

omit [DecidableEq κ] [PathKey κ] in
theorem Paths.left_unique (h : Relator.BiUnique C.sets)
    {p p' q : CanonicalPath} (hp : C.Paths p q) (hp' : C.Paths p' q) :
    p = p' := by
  induction hp generalizing p' with
  | root t =>
      cases hp'
      rfl
  | anchor hxy =>
      cases hp' with
      | anchor hxy' => rw [h.1 hxy hxy']
  | step name _ ih =>
      cases hp' with
      | step _ hp' => rw [ih hp']

namespace Consistent

variable {v w x y a b : Nat}

/-- Sets that correspond stand for paths that do. -/
theorem paths (h : C.Consistent μ) (hxy : C.sets x y) :
    C.Paths (C.left.arena.canonical x) (C.right.arena.canonical y) := by
  induction x using Nat.strongRecOn generalizing y with
  | ind x ih =>
      obtain ⟨n, m, hn, hm, hnm⟩ := h.matched x y hxy
      rw [Arena.canonical_eq hn, Arena.canonical_eq hm]
      cases hnm.kin with
      | root ho ho' =>
          rw [ho, ho', hnm.type]
          exact .root _
      | computed ho ho' =>
          rw [ho, ho']
          exact .anchor hxy
      | step ho ho' hs =>
          rw [ho, ho']
          exact .step _ (ih _ (Arena.lt_of_source hn (by rw [ho]; rfl)) hs)

-- =============================================================== nodes

/-- The nodes above correspond one by one. -/
theorem ancestors (h : C.Consistent μ) (hab : C.nodes a b) :
    List.Forall₂ C.nodes (C.left.scopes.ancestors a)
      (C.right.scopes.ancestors b) := by
  induction a using Nat.strongRecOn generalizing b with
  | ind a ih =>
      have hparents := h.parents a b hab
      rw [h.rooted.ancestors_eq, h.rooted'.ancestors_eq]
      cases hp : C.left.scopes.parent? a with
      | none =>
          rw [hp] at hparents
          generalize C.right.scopes.parent? b = parent' at hparents ⊢
          cases hparents
          exact .cons hab .nil
      | some parent =>
          rw [hp] at hparents
          generalize C.right.scopes.parent? b = parent' at hparents ⊢
          cases hparents with
          | some hpp =>
              exact .cons hab (ih parent (h.rooted.parent_lt a parent hp) hpp)

theorem mem_ancestors_iff (h : C.Consistent μ) (hab : C.nodes a b)
    (hvw : C.nodes v w) :
    a ∈ C.left.scopes.ancestors v ↔ b ∈ C.right.scopes.ancestors w := by
  have hmem : ∀ {as bs : List ScopeId}, List.Forall₂ C.nodes as bs →
      (a ∈ as ↔ b ∈ bs) := by
    intro as bs hall
    induction hall with
    | nil => simp
    | @cons a' b' _ _ hab' _ ih =>
        have hhead : a = a' ↔ b = b' :=
          ⟨fun heq => h.nodes_unique.2 (heq ▸ hab) hab',
            fun heq => h.nodes_unique.1 (heq ▸ hab) hab'⟩
        rw [List.mem_cons, List.mem_cons, ih, hhead]
  exact hmem (h.ancestors hvw)

/-- One node is above another on one side where it is on the other. -/
theorem isStrictAncestor_eq (h : C.Consistent μ) (hab : C.nodes a b)
    (hvw : C.nodes v w) :
    C.left.scopes.isStrictAncestor a v = C.right.scopes.isStrictAncestor b w := by
  have hself : a = v ↔ b = w :=
    ⟨fun heq => h.nodes_unique.2 (heq ▸ hab) hvw,
      fun heq => h.nodes_unique.1 (heq ▸ hab) hvw⟩
  unfold ScopeTree.isStrictAncestor
  rw [Bool.eq_iff_iff]
  simp only [Bool.and_eq_true, bne_iff_ne, ne_eq, List.contains_iff_mem,
    h.mem_ancestors_iff hab hvw, hself]

/-- A path is bound alike in nodes that correspond, as long as what is
found by the key stands for the path. -/
theorem binding_rel (h : C.Consistent μ) (hab : C.nodes a b) {p p' : CanonicalPath}
    (hp : C.Paths p p')
    (hleft : ∀ x, C.left.scopes.binding? a (p.key : κ) = some x →
      C.left.arena.canonical x = p)
    (hright : ∀ y, C.right.scopes.binding? b (p'.key : κ) = some y →
      C.right.arena.canonical y = p') :
    Option.Rel C.sets (C.left.scopes.binding? a (p.key : κ))
      (C.right.scopes.binding? b (p'.key : κ)) := by
  cases hx : C.left.scopes.binding? a (p.key : κ) with
  | some x =>
      obtain ⟨y, key', hxy, hy⟩ := h.bound a b p.key x hab hx
      have hpath := h.paths hxy
      rw [hleft x hx] at hpath
      have hcan := hp.right_unique h.sets_unique hpath
      rw [h.indexed'.key_of_bound hy, ← hcan] at hy
      rw [hy]
      exact .some hxy
  | none =>
      cases hy : C.right.scopes.binding? b (p'.key : κ) with
      | none => exact .none
      | some y =>
          obtain ⟨x, key, hxy, hx'⟩ := h.bound' a b p'.key y hab hy
          have hpath := h.paths hxy
          rw [hright y hy] at hpath
          have hcan := hp.left_unique h.sets_unique hpath
          rw [h.indexed.key_of_bound hx', ← hcan, hx] at hx'
          cases hx'

/-- A path that has a set where nodes correspond has one on both sides,
and these correspond, as long as what is found by the key stands for the
path. -/
theorem lookup_rel (h : C.Consistent μ) (hvw : C.nodes v w) {p p' : CanonicalPath}
    (hp : C.Paths p p')
    (hleft : ∀ a x, C.left.scopes.binding? a (p.key : κ) = some x →
      C.left.arena.canonical x = p)
    (hright : ∀ b y, C.right.scopes.binding? b (p'.key : κ) = some y →
      C.right.arena.canonical y = p') :
    Option.Rel (fun found found' => C.nodes found.1 found'.1
        ∧ C.sets found.2 found'.2)
      (C.left.scopes.lookup v p.key) (C.right.scopes.lookup w p'.key) := by
  unfold ScopeTree.lookup
  -- node by node on the two ways to the root
  have hall := h.ancestors hvw
  generalize C.left.scopes.ancestors v = as at hall
  generalize C.right.scopes.ancestors w = bs at hall
  induction hall with
  | nil => exact .none
  | @cons a b _ _ hab _ ih =>
      rw [List.findSome?_cons, List.findSome?_cons]
      have hrel := h.binding_rel hab hp (hleft a) (hright b)
      generalize C.left.scopes.binding? a (p.key : κ) = found at hrel ⊢
      generalize C.right.scopes.binding? b (p'.key : κ) = found' at hrel ⊢
      cases hrel with
      | none => exact ih
      | some hxy => exact .some ⟨hab, hxy⟩

-- ============================================================= judging

/-- Sets that correspond are counted alike from nodes that do. -/
theorem judge_tally (h : C.Consistent μ) (hvw : C.nodes v w) (hxy : C.sets x y)
    {c d : Cardinality} (hc : C.left.judge? v x = some c)
    (hd : C.right.judge? w y = some d) : μ.Tally c d := by
  induction x using Nat.strongRecOn generalizing y c d with
  | ind x ih =>
      obtain ⟨n, m, hn, hm, hnm⟩ := h.matched x y hxy
      rw [Store.judge?_eq hn] at hc
      rw [Store.judge?_eq hm, ← h.isStrictAncestor_eq hnm.scope hvw] at hd
      split at hc
      · next habove =>
          rw [if_pos habove] at hd
          cases hc
          cases hd
          exact .refl μ _
      · next habove =>
          rw [if_neg habove] at hd
          cases hnm.kin with
          | root ho ho' =>
              rw [ho] at hc
              rw [ho'] at hd
              cases hc
              cases hd
              exact hnm.count
          | computed ho ho' =>
              rw [ho] at hc
              rw [ho'] at hd
              cases hc
              cases hd
              exact hnm.count
          | step ho ho' hs =>
              -- both walk on to their sources, which correspond
              rw [ho] at hc
              rw [ho'] at hd
              obtain ⟨c', hc', rfl⟩ := Option.map_eq_some_iff.1 hc
              obtain ⟨d', hd', rfl⟩ := Option.map_eq_some_iff.1 hd
              have hlt := Arena.lt_of_source hn (by rw [ho]; rfl)
              exact (ih _ hlt hs hc' hd').mul (.refl μ _)

end Consistent

end Correspondence

end PathQuery
