/-
Two compilations side by side.

The same query may be compiled with keys of two kinds. A `Tandem` is the
store of the one, the store of the other, and which sets of the second
are the *mates* of which sets of the first. Keys of the first kind may
collide, and then the first store has a set of its own where the second
shares one that is there; so a set has at most one mate, but a mate may
be that of several sets.

`Mirrored` is what relates the two stores. They have the same scope
nodes, and everything that is bound in the first has a mate. Mates have
one type, go on from mates by one pointer, and the mate lives where the
set does or above. So a path is read back alike from both
(`Mirrored.canonical_eq`), and the second store counts no more than the
first, from wherever one looks (`Mirrored.judge_le`). As long as the keys
of the first tell its paths apart, there is no difference at all but in
the keys (`Mirrored.exact`).

Not every set has a mate. Two sets that are no mates may still `Agree`
as seen from a node, in type and in count; that is enough for an operand,
and all that is said of the clauses of a statement.
-/
import PathQuery.Proofs.Cardinality.Order
import PathQuery.Proofs.Compile.Clauses
import PathQuery.Proofs.Path.Correlation

namespace PathQuery

open Ir

variable {κ κ' : Type}

-- =========================================================== constants

/-- The literal that an operation stands for. -/
def Ir.Operation.constant? : Operation → Option Literal
  | constant value => some value
  | _ => none

/-- The literal that the elements of a set come from. -/
def Ir.Origin.constant? : Origin → Option Literal
  | computed operation => operation.constant?
  | root | step _ _ _ => none

/-- The literal that a set stands for. -/
def Ir.Arena.constant? (a : Arena κ) (id : SetId) : Option Literal :=
  (a.get? id).bind fun node => node.origin.constant?

theorem Ir.Arena.constant?_eq {a : Arena κ} {id : Nat} {node : SetNode κ}
    (hn : a.get? id = some node) :
    a.constant? id = node.origin.constant? := by
  unfold constant?
  rw [hn, Option.bind_some]

/-- A set limits to one element if it stands for a number of at most
one. -/
theorem Store.isUnitLimit_iff_constant? {st : Store κ} {id : Nat} :
    st.isUnitLimit id = true
      ↔ ∃ n, st.arena.constant? id = some (.int n) ∧ n ≤ 1 := by
  unfold isUnitLimit Arena.constant?
  cases st.arena.get? id with
  | none => simp
  | some node =>
      rw [Option.map_some, Option.bind_some]
      rcases node.origin with _ | _ | op
      · simp [Origin.constant?]
      · simp [Origin.constant?]
      · cases op with
        | constant v => cases v <;> simp [Origin.constant?, Operation.constant?]
        | _ => simp [Origin.constant?, Operation.constant?]

/-- Whether a set limits to one element hangs on the literal that it
stands for. -/
theorem Store.isUnitLimit_congr {st : Store κ} {st' : Store κ'} {x y : Nat}
    (h : st.arena.constant? x = st'.arena.constant? y) :
    st.isUnitLimit x = st'.isUnitLimit y := by
  rw [Bool.eq_iff_iff, isUnitLimit_iff_constant?, isUnitLimit_iff_constant?, h]

/-- Where a set lives, it counts as it was made. -/
theorem Store.judge?_own (st : Store κ) {id : Nat} {node : SetNode κ}
    (hn : st.arena.get? id = some node) (ho : node.origin.source? = none) :
    st.judge? node.scope id = some node.cardinality :=
  judge?_made hn (ScopeTree.isStrictAncestor_self _ _) ho

/-- To refer to a set by a set of its own adds one that is counted as the
first is and stands for no literal. -/
theorem CompileM.exists_run_reference {env : Env} {st : Store κ} {x : SetId}
    {c : Cardinality} (t : TypeId) (span : Span)
    (hc : st.judge? env.frame.scope x = some c) :
    ∃ (node : SetNode κ) (h : _), node.origin = .computed (.reference x)
      ∧ node.key = none
      ∧ (judge x >>= fun c => newComputed (.reference x) t c span).run env st
        = (.ok st.arena.size, ⟨st.arena.push node h, st.scopes⟩)
      ∧ (st.arena.push node h).type? st.arena.size = some t
      ∧ Store.judge? ⟨st.arena.push node h, st.scopes⟩ env.frame.scope
        st.arena.size = some c
      ∧ (st.arena.push node h).constant? st.arena.size = none := by
  let node : SetNode κ :=
    ⟨none, t, c, env.frame.scope, span, .computed (.reference x)⟩
  have hsource := Origin.source_lt_computed (.reference x) st.arena.size
  have hnew := Arena.get?_push_self st.arena node hsource
  refine ⟨node, hsource, rfl, rfl, ?_, Arena.type?_eq_some_iff.2 ⟨_, hnew, rfl⟩,
    Store.judge?_own ⟨st.arena.push node hsource, st.scopes⟩ hnew rfl,
    Arena.constant?_eq hnew⟩
  rw [run_bind_ok (run_judge hc)]
  exact run_newSet hsource

-- ========================================================== refinement

/-- A set without its key; that it has one is kept. -/
def Ir.SetNode.unkeyed (node : SetNode κ) : SetNode Unit :=
  ⟨node.key.map fun _ => (), node.type, node.cardinality, node.scope, node.span,
    node.origin⟩

/-- Two arenas hold the same sets, keys apart. -/
def Ir.Arena.SameSets (a : Arena κ) (a' : Arena κ') : Prop :=
  ∀ id : SetId, (a.get? id).map SetNode.unkeyed = (a'.get? id).map SetNode.unkeyed

/-- Seen from a node, a set of the second store has the type of a set of
the first, and counts no more. -/
structure Store.Refines (st : Store κ) (st' : Store κ') (v : ScopeId)
    (x y : SetId) : Prop where
  type : ∃ t, st.arena.type? x = some t ∧ st'.arena.type? y = some t
  count : ∃ c d, st.judge? v x = some c ∧ st'.judge? v y = some d ∧ d ≤ c

theorem Store.Refines.mono {st st₁ : Store κ} {st' st₁' : Store κ'}
    {v x y : Nat} (h : st.Refines st' v x y) (hl : st.Extends st₁)
    (hr : st'.Extends st₁') (hv : v < st.scopes.size)
    (hv' : v < st'.scopes.size) : st₁.Refines st₁' v x y := by
  obtain ⟨⟨t, ht, ht'⟩, c, d, hc, hd, hle⟩ := h
  exact ⟨⟨t, hl.arena.type? ht, hr.arena.type? ht'⟩, c, d, hl.judge?_eq hv hc,
    hr.judge?_eq hv' hd, hle⟩

namespace Ir.Arena.SameSets

variable {a : Arena κ} {a' : Arena κ'} {id : Nat}

theorem exists_get? (h : a.SameSets a') {node : SetNode κ}
    (hn : a.get? id = some node) :
    ∃ node', a'.get? id = some node' ∧ node.unkeyed = node'.unkeyed := by
  have hsame := h id
  rw [hn, Option.map_some] at hsame
  obtain ⟨node', hn', heq⟩ := Option.map_eq_some_iff.1 hsame.symm
  exact ⟨node', hn', heq.symm⟩

theorem symm (h : a.SameSets a') : a'.SameSets a := fun id => (h id).symm

theorem size_eq (h : a.SameSets a') : a.size = a'.size := by
  have hle : ∀ {κ κ' : Type} {a : Arena κ} {a' : Arena κ'}, a.SameSets a' →
      a'.size ≤ a.size := by
    intro κ κ' a a' h
    have hnone := h a.size
    rw [(a.get?_eq_none_iff a.size).2 (Nat.le_refl _), Option.map_none] at hnone
    exact (a'.get?_eq_none_iff a.size).1 (Option.map_eq_none_iff.1 hnone.symm)
  exact Nat.le_antisymm (hle h.symm) (hle h)

/-- The same set is added to both. -/
theorem push (h : a.SameSets a') {node : SetNode κ} {node' : SetNode κ'} (hs)
    (hs') (heq : node.unkeyed = node'.unkeyed) :
    (a.push node hs).SameSets (a'.push node' hs') := by
  intro id
  rw [get?_push, get?_push, ← h.size_eq]
  split
  · rw [Option.map_some, Option.map_some, heq]
  · exact h id

/-- The same path is read back from both. -/
theorem canonical_eq (h : a.SameSets a') (id : Nat) :
    a.canonical id = a'.canonical id := by
  induction id using Nat.strongRecOn with
  | ind id ih =>
      cases hn : a.get? id with
      | none =>
          have hn' := h id
          rw [hn, Option.map_none] at hn'
          rw [canonical_of_none hn,
            canonical_of_none (Option.map_eq_none_iff.1 hn'.symm)]
      | some node =>
          obtain ⟨node', hn', heq⟩ := h.exists_get? hn
          obtain ⟨-, htype, -, -, -, horigin⟩ := SetNode.mk.injEq .. ▸ heq
          rw [Arena.canonical_eq hn, Arena.canonical_eq hn', ← htype, ← horigin]
          split
          · rfl
          · next source name per ho =>
              rw [ih source (lt_of_source hn (by rw [ho]; rfl))]
          · rfl

end Ir.Arena.SameSets

-- =============================================================== growth

namespace Store.Extends

variable {st : Store κ}

theorem push (hr : st.scopes.Rooted) {node : SetNode κ} (h) :
    st.Extends { st with arena := st.arena.push node h } :=
  ⟨Arena.extends_push _ _ h, hr, hr, Nat.le_refl _, fun _ _ => rfl⟩

theorem opened (hr : st.scopes.Rooted) {scope : Nat}
    (hs : scope < st.scopes.size) : st.Extends (st.opened scope) where
  arena := .refl _
  rooted := hr
  rooted' := hr.attach hs
  size_le := by
    show st.scopes.size ≤ (st.scopes.attach scope).size
    rw [ScopeTree.size_attach]
    omega
  parent_old := fun id hid => by
    show (st.scopes.attach scope).parent? id = st.scopes.parent? id
    rw [ScopeTree.parent?_attach, if_neg (by omega)]

end Store.Extends

-- ============================================================= tandems

/-- Two stores, and which sets of the second are the mates of which sets
of the first. -/
structure Tandem (κ κ' : Type) where
  left : Store κ
  right : Store κ'
  mates : SetId → SetId → Prop

namespace Tandem

variable {T T' T'' : Tandem κ κ'}

/-- The elements of two sets come about alike. -/
inductive Kin (mates : SetId → SetId → Prop) (n : SetNode κ) (m : SetNode κ') :
    Prop where
  | root (ho : n.origin = .root) (ho' : m.origin = .root)
  | step {source source' : SetId} {name : String} {per : Cardinality}
      (ho : n.origin = .step source name per)
      (ho' : m.origin = .step source' name per) (hs : mates source source')
  | computed {op op' : Operation} (ho : n.origin = .computed op)
      (ho' : m.origin = .computed op') (hconst : op.constant? = op'.constant?)
      (hspan : n.span = m.span)

theorem Kin.root_of {mates : SetId → SetId → Prop} {n : SetNode κ}
    {m : SetNode κ'} (h : Kin mates n m) (ho : n.origin = .root) :
    m.origin = .root := by
  cases h with
  | root _ ho' => exact ho'
  | step hs =>
      rw [ho] at hs
      cases hs
  | computed hc =>
      rw [ho] at hc
      cases hc

theorem Kin.step_of {mates : SetId → SetId → Prop} {n : SetNode κ}
    {m : SetNode κ'} (h : Kin mates n m) {source : SetId} {name : String}
    {per : Cardinality} (ho : n.origin = .step source name per) :
    ∃ source', m.origin = .step source' name per ∧ mates source source' := by
  cases h with
  | root hr =>
      rw [ho] at hr
      cases hr
  | step hs ho' hmates =>
      rw [ho] at hs
      cases hs
      exact ⟨_, ho', hmates⟩
  | computed hc =>
      rw [ho] at hc
      cases hc

/-- A set and a mate of it. -/
structure Mated (T : Tandem κ κ') (n : SetNode κ) (m : SetNode κ') : Prop where
  type : n.type = m.type
  scope : m.scope ∈ T.right.scopes.ancestors n.scope
  count : n.origin.source? = none → m.cardinality ≤ n.cardinality
  kin : Kin T.mates n m

/-- Both stores have grown, and mates are mates. -/
structure Later (T T' : Tandem κ κ') : Prop where
  left : T.left.Extends T'.left
  right : T.right.Extends T'.right
  mates : ∀ x y, T.mates x y → T'.mates x y

theorem Later.trans (h : T.Later T') (h' : T'.Later T'') : T.Later T'' :=
  ⟨h.left.trans h'.left, h.right.trans h'.right,
    fun x y hxy => h'.mates x y (h.mates x y hxy)⟩

variable [DecidableEq κ] [PathKey κ]

/-- The first store, seen in the second. -/
structure Mirrored (T : Tandem κ κ') : Prop where
  rooted : T.left.scopes.Rooted
  rooted' : T.right.scopes.Rooted
  size_eq : T.right.scopes.size = T.left.scopes.size
  parent?_eq : ∀ n : Nat, T.right.scopes.parent? n = T.left.scopes.parent? n
  mated : ∀ x y, T.mates x y → ∃ n m, T.left.arena.get? x = some n
    ∧ T.right.arena.get? y = some m ∧ T.Mated n m
  unique : ∀ x y z, T.mates x y → T.mates x z → y = z
  bound : ∀ (n : Nat) (key : κ) (x : SetId),
    T.left.scopes.binding? n key = some x → ∃ y, T.mates x y
  exact : T.left.arena.Faithful →
    T.left.arena.SameSets T.right.arena ∧ ∀ x y, T.mates x y → x = y

/-- Two empty stores. -/
theorem mirrored_new :
    Mirrored (⟨.new, .new, fun _ _ => False⟩ : Tandem κ κ') where
  rooted := ScopeTree.rooted_new
  rooted' := ScopeTree.rooted_new
  size_eq := rfl
  parent?_eq := fun n => by cases n <;> rfl
  mated := fun x y h => h.elim
  unique := fun x y z h => h.elim
  bound := fun n key x h => by
    rw [show (Store.new : Store κ).scopes = .new from rfl,
      ScopeTree.binding?_new] at h
    cases h
  exact := fun _ => ⟨fun _ => rfl, fun x y h => h.elim⟩

namespace Mirrored

variable {v x y z w : Nat} {n : SetNode κ} {m : SetNode κ'}

/-- The same nodes lie above. -/
theorem ancestors_eq (h : T.Mirrored) (id : Nat) :
    T.right.scopes.ancestors id = T.left.scopes.ancestors id := by
  have hwalk : ∀ count id : Nat,
      T.right.scopes.walk count id = T.left.scopes.walk count id := by
    intro count
    induction count with
    | zero => exact fun _ => rfl
    | succ count ih =>
        intro id
        unfold ScopeTree.walk
        rw [h.parent?_eq]
        cases T.left.scopes.parent? id with
        | none => rfl
        | some parent => exact congrArg (id :: ·) (ih parent)
  unfold ScopeTree.ancestors
  rw [h.size_eq, hwalk]

theorem isStrictAncestor_eq (h : T.Mirrored) (above id : Nat) :
    T.right.scopes.isStrictAncestor above id
      = T.left.scopes.isStrictAncestor above id := by
  unfold ScopeTree.isStrictAncestor
  rw [h.ancestors_eq]

/-- A mate lives where the set does or above, so it is above whatever the
set is above. -/
theorem isStrictAncestor_mate (h : T.Mirrored) (hnm : T.Mated n m)
    (hv : T.left.scopes.isStrictAncestor n.scope v = true) :
    T.right.scopes.isStrictAncestor m.scope v = true := by
  have hscope := hnm.scope
  rw [h.ancestors_eq] at hscope
  rw [h.isStrictAncestor_eq]
  unfold ScopeTree.isStrictAncestor at hv ⊢
  simp only [Bool.and_eq_true, bne_iff_ne, ne_eq, List.contains_iff_mem] at hv ⊢
  obtain ⟨hne, hmem⟩ := hv
  refine ⟨?_, h.rooted.ancestors_trans hscope hmem⟩
  intro heq
  have hle := h.rooted.le_of_mem_ancestors hscope
  have hle' := h.rooted.le_of_mem_ancestors hmem
  exact hne (Nat.le_antisymm hle' (heq ▸ hle))

/-- From wherever one looks, a mate counts no more. -/
theorem judge_le (h : T.Mirrored) (hxy : T.mates x y) {c d : Cardinality}
    (hc : T.left.judge? v x = some c) (hd : T.right.judge? v y = some d) :
    d ≤ c := by
  induction x using Nat.strongRecOn generalizing y c d with
  | ind x ih =>
      obtain ⟨n, m, hn, hm, hnm⟩ := h.mated x y hxy
      rw [Store.judge?_eq hm] at hd
      split at hd
      · cases hd
        exact Cardinality.one_le c
      · next hright =>
          rw [Store.judge?_eq hn, if_neg fun hleft =>
            hright (h.isStrictAncestor_mate hnm hleft)] at hc
          cases hnm.kin with
          | root ho ho' =>
              rw [ho] at hc
              rw [ho'] at hd
              cases hc
              cases hd
              exact hnm.count (by rw [ho]; rfl)
          | computed ho ho' =>
              rw [ho] at hc
              rw [ho'] at hd
              cases hc
              cases hd
              exact hnm.count (by rw [ho]; rfl)
          | step ho ho' hs =>
              -- both walk on to their sources, which are mates
              rw [ho] at hc
              rw [ho'] at hd
              obtain ⟨c', hc', rfl⟩ := Option.map_eq_some_iff.1 hc
              obtain ⟨d', hd', rfl⟩ := Option.map_eq_some_iff.1 hd
              have hlt := Arena.lt_of_source hn (by rw [ho]; rfl)
              exact Cardinality.mul_le_mul (ih _ hlt hs hc' hd') (le_refl _)

/-- The mate of a root is one. -/
theorem canonical_root (h : T.Mirrored) (hxy : T.mates x y) {t : TypeId}
    (hx : T.left.arena.canonical x = .root t) :
    T.right.arena.canonical y = .root t := by
  obtain ⟨n, m, hn, hm, hnm⟩ := h.mated x y hxy
  obtain ⟨ho, htype⟩ := Arena.origin_of_canonical_root hn hx
  rw [Arena.canonical_eq hm, hnm.kin.root_of ho, ← hnm.type, htype]

/-- Sets that stand for one path have mates that do. -/
theorem canonical_eq (h : T.Mirrored) (hxy : T.mates x y) (hzw : T.mates z w)
    (heq : T.left.arena.canonical x = T.left.arena.canonical z) :
    T.right.arena.canonical y = T.right.arena.canonical w := by
  induction x using Nat.strongRecOn generalizing y z w with
  | ind x ih =>
      cases hx : T.left.arena.canonical x with
      | root t =>
          rw [h.canonical_root hxy hx, h.canonical_root hzw (heq ▸ hx)]
      | anchor a =>
          -- no other set stands for what is no path
          obtain rfl := Arena.eq_of_canonical_anchor hx
          obtain rfl := Arena.eq_of_canonical_anchor (heq ▸ hx)
          rw [h.unique _ _ _ hxy hzw]
      | step p name =>
          obtain ⟨n, m, hn, hm, hnm⟩ := h.mated x y hxy
          obtain ⟨n', m', hn', hm', hnm'⟩ := h.mated z w hzw
          obtain ⟨s, per, ho, hs⟩ := Arena.origin_of_canonical_step hn hx
          obtain ⟨u, per', ho', hu⟩ :=
            Arena.origin_of_canonical_step hn' (heq ▸ hx)
          obtain ⟨s', hos, hss⟩ := hnm.kin.step_of ho
          obtain ⟨u', hou, huu⟩ := hnm'.kin.step_of ho'
          have hlt := Arena.lt_of_source hn (by rw [ho]; rfl)
          have hsources := ih s hlt hss huu (hs.trans hu.symm)
          rw [Arena.canonical_eq hm, Arena.canonical_eq hm', hos, hou]
          exact congrArg (CanonicalPath.step · name) hsources

/-- The mate of one pointer further from a set is one pointer further from
its mate. -/
theorem canonical_step (h : T.Mirrored) (hxy : T.mates x y)
    (hzw : T.mates z w) {name : String}
    (hx : T.left.arena.canonical x = .step (T.left.arena.canonical z) name) :
    T.right.arena.canonical y = .step (T.right.arena.canonical w) name := by
  obtain ⟨n, m, hn, hm, hnm⟩ := h.mated x y hxy
  obtain ⟨s, per, ho, hs⟩ := Arena.origin_of_canonical_step hn hx
  obtain ⟨s', hos, hss⟩ := hnm.kin.step_of ho
  rw [Arena.canonical_eq hm, hos]
  exact congrArg (CanonicalPath.step · name) (h.canonical_eq hss hzw hs)

end Mirrored

-- =============================================================== growth

theorem Later.refl (h : T.Mirrored) : T.Later T :=
  ⟨.refl h.rooted, .refl h.rooted', fun _ _ => id⟩

omit [DecidableEq κ] [PathKey κ] in
theorem Mated.mono (h : T.Later T') {n : SetNode κ} {m : SetNode κ'}
    (hnm : T.Mated n m) : T'.Mated n m where
  type := hnm.type
  scope := h.right.mem_ancestors hnm.scope
  count := hnm.count
  kin := by
    cases hnm.kin with
    | root ho ho' => exact .root ho ho'
    | step ho ho' hs => exact .step ho ho' (h.mates _ _ hs)
    | computed ho ho' hconst hspan => exact .computed ho ho' hconst hspan

/-- Both stores with a new node below the given one. -/
def opened (T : Tandem κ κ') (scope : ScopeId) : Tandem κ κ' :=
  ⟨T.left.opened scope, T.right.opened scope, T.mates⟩

/-- Other stores, in which `y` is a mate of `x` if `p` holds. -/
def adding (T : Tandem κ κ') (st : Store κ) (st' : Store κ') (x y : SetId)
    (p : Prop) : Tandem κ κ' :=
  ⟨st, st', fun a b => T.mates a b ∨ (p ∧ a = x ∧ b = y)⟩

namespace Mirrored

variable {scope x y : Nat} {st : Store κ} {st' : Store κ'} {p : Prop}

theorem later_opened (h : T.Mirrored) (hs : scope < T.left.scopes.size) :
    T.Later (T.opened scope) where
  left := .opened h.rooted hs
  right := .opened h.rooted' (h.size_eq ▸ hs)
  mates := fun _ _ => id

/-- The same node is added to both. -/
theorem opened (h : T.Mirrored) (hs : scope < T.left.scopes.size) :
    (T.opened scope).Mirrored where
  rooted := h.rooted.attach hs
  rooted' := h.rooted'.attach (h.size_eq ▸ hs)
  size_eq := by
    show (T.right.scopes.attach scope).size = (T.left.scopes.attach scope).size
    rw [ScopeTree.size_attach, ScopeTree.size_attach, h.size_eq]
  parent?_eq := fun id => by
    show (T.right.scopes.attach scope).parent? id
      = (T.left.scopes.attach scope).parent? id
    rw [ScopeTree.parent?_attach, ScopeTree.parent?_attach, h.size_eq,
      h.parent?_eq]
  mated := fun x y hxy => by
    obtain ⟨n, m, hn, hm, hnm⟩ := h.mated x y hxy
    exact ⟨n, m, hn, hm, hnm.mono (h.later_opened hs)⟩
  unique := h.unique
  bound := fun id key x hb => by
    change (T.left.scopes.attach scope).binding? id key = some x at hb
    rw [ScopeTree.binding?_attach] at hb
    exact h.bound id key x hb
  exact := h.exact

omit [DecidableEq κ] [PathKey κ] in
theorem later_adding (hl : T.left.Extends st) (hr : T.right.Extends st') :
    T.Later (T.adding st st' x y p) :=
  ⟨hl, hr, fun _ _ => Or.inl⟩

/-- Stores that have grown alike, with at most one new set among those
that have mates. -/
theorem adding (h : T.Mirrored) (hl : T.left.Extends st)
    (hr : T.right.Extends st') (hsize : st'.scopes.size = st.scopes.size)
    (hparent : ∀ id : Nat, st'.scopes.parent? id = st.scopes.parent? id)
    (hnew : p → x = T.left.arena.size ∧ ∃ n m, st.arena.get? x = some n
      ∧ st'.arena.get? y = some m ∧ (T.adding st st' x y p).Mated n m)
    (hbound : ∀ (id : Nat) (key : κ) z, st.scopes.binding? id key = some z →
      T.left.scopes.binding? id key = some z ∨ (p ∧ z = x))
    (hexact : st.arena.Faithful → T.left.arena.SameSets T.right.arena →
      st.arena.SameSets st'.arena ∧ (p → x = y)) :
    (T.adding st st' x y p).Mirrored where
  rooted := hl.rooted'
  rooted' := hr.rooted'
  size_eq := hsize
  parent?_eq := hparent
  mated := fun a b hab => by
    rcases hab with hab | ⟨hp, rfl, rfl⟩
    · obtain ⟨n, m, hn, hm, hnm⟩ := h.mated a b hab
      exact ⟨n, m, hl.arena a n hn, hr.arena b m hm,
        hnm.mono (later_adding hl hr)⟩
    · exact (hnew hp).2
  unique := fun a b c hab hac => by
    -- a set that had a mate before is not the new one
    have hold : ∀ d, T.mates a d → ¬ (p ∧ a = x) := by
      intro d had hax
      obtain ⟨n, -, hn, -⟩ := h.mated a d had
      have hlt := Arena.lt_size_of_get? hn
      have hfresh := (hnew hax.1).1
      rw [hax.2, hfresh] at hlt
      exact Nat.lt_irrefl _ hlt
    rcases hab with hab | ⟨hp, hax, hby⟩
    · rcases hac with hac | ⟨hp, hax, -⟩
      · exact h.unique a b c hab hac
      · exact absurd ⟨hp, hax⟩ (hold b hab)
    · rcases hac with hac | ⟨-, -, hcy⟩
      · exact absurd ⟨hp, hax⟩ (hold c hac)
      · rw [hby, hcy]
  bound := fun id key z hz => by
    rcases hbound id key z hz with hz | ⟨hp, rfl⟩
    · obtain ⟨w, hw⟩ := h.bound id key z hz
      exact ⟨w, Or.inl hw⟩
    · exact ⟨y, Or.inr ⟨hp, rfl, rfl⟩⟩
  exact := fun hf => by
    obtain ⟨hsame, hmates⟩ := h.exact (hf.of_extends hl.arena)
    obtain ⟨hsame', hxy⟩ := hexact hf hsame
    refine ⟨hsame', fun a b hab => ?_⟩
    rcases hab with hab | ⟨hp, rfl, rfl⟩
    · exact hmates a b hab
    · exact hxy hp

end Mirrored

-- ============================================================ agreement

/-- Seen from a node, two sets have one type and stand for one literal,
if any, and the second counts no more; they are one set as long as keys
tell paths apart. -/
structure Agree (T : Tandem κ κ') (v : ScopeId) (x y : SetId) : Prop where
  active : v < T.left.scopes.size
  active' : v < T.right.scopes.size
  refines : T.left.Refines T.right v x y
  constant : T.left.arena.constant? x = T.right.arena.constant? y
  exact : T.left.arena.Faithful → x = y

namespace Agree

variable {v x y : Nat}

omit [DecidableEq κ] in
theorem mono (h : T.Later T') (hxy : T.Agree v x y) : T'.Agree v x y where
  active := Nat.lt_of_lt_of_le hxy.active h.left.size_le
  active' := Nat.lt_of_lt_of_le hxy.active' h.right.size_le
  refines := hxy.refines.mono h.left h.right hxy.active hxy.active'
  constant := by
    obtain ⟨t, ht, ht'⟩ := hxy.refines.type
    obtain ⟨n, hn, -⟩ := Arena.type?_eq_some_iff.1 ht
    obtain ⟨m, hm, -⟩ := Arena.type?_eq_some_iff.1 ht'
    have hconst := hxy.constant
    rw [Arena.constant?_eq hn, Arena.constant?_eq hm] at hconst
    rw [Arena.constant?_eq (h.left.arena x n hn),
      Arena.constant?_eq (h.right.arena y m hm), hconst]
  exact := fun hf => hxy.exact (hf.of_extends h.left.arena)

omit [DecidableEq κ] in
/-- The two sets are there, at one type. -/
theorem exists_get? (h : T.Agree v x y) :
    ∃ n m, T.left.arena.get? x = some n ∧ T.right.arena.get? y = some m
      ∧ n.type = m.type := by
  obtain ⟨t, ht, ht'⟩ := h.refines.type
  obtain ⟨n, hn, hnt⟩ := Arena.type?_eq_some_iff.1 ht
  obtain ⟨m, hm, hmt⟩ := Arena.type?_eq_some_iff.1 ht'
  exact ⟨n, m, hn, hm, hnt.trans hmt.symm⟩

end Agree

namespace Mirrored

variable {v x y : Nat}

/-- As long as keys tell paths apart, both stores count the same. -/
theorem judge_eq (h : T.Mirrored) (hf : T.left.arena.Faithful) :
    T.left.judge? v x = T.right.judge? v x := by
  have hsame := (h.exact hf).1
  induction x using Nat.strongRecOn with
  | ind x ih =>
      cases hn : T.left.arena.get? x with
      | none =>
          have hm := hsame x
          rw [hn, Option.map_none] at hm
          have hnone : ∀ {κ : Type} (st : Store κ), st.arena.get? x = none →
              st.judge? v x = none := by
            intro κ st hn
            cases hc : st.judge? v x with
            | none => rfl
            | some c =>
                obtain ⟨n, hn'⟩ := Store.exists_get?_of_judge? hc
                rw [hn] at hn'
                cases hn'
          rw [hnone _ hn, hnone _ (Option.map_eq_none_iff.1 hm.symm)]
      | some n =>
          obtain ⟨m, hm, heq⟩ := hsame.exists_get? hn
          obtain ⟨-, -, hcard, hscope, -, horigin⟩ := SetNode.mk.injEq .. ▸ heq
          rw [Store.judge?_eq hn, Store.judge?_eq hm, h.isStrictAncestor_eq,
            ← hscope, ← hcard, ← horigin]
          split
          · rfl
          · split
            · next source name per ho =>
                rw [ih source (Arena.lt_of_source hn (by rw [ho]; rfl))]
            · rfl
            · rfl

/-- What is read from two sets that agree. -/
theorem exists_of_agree (h : T.Mirrored) (hxy : T.Agree v x y) :
    ∃ n m c d, T.left.arena.get? x = some n ∧ T.right.arena.get? y = some m
      ∧ n.type = m.type ∧ T.left.judge? v x = some c
      ∧ T.right.judge? v y = some d ∧ d ≤ c
      ∧ (T.left.arena.Faithful → x = y ∧ n.span = m.span ∧ c = d) := by
  obtain ⟨n, m, hn, hm, htype⟩ := hxy.exists_get?
  obtain ⟨c, d, hc, hd, hle⟩ := hxy.refines.count
  refine ⟨n, m, c, d, hn, hm, htype, hc, hd, hle, fun hf => ?_⟩
  obtain rfl := hxy.exact hf
  obtain ⟨m', hm', heq⟩ := (h.exact hf).1.exists_get? hn
  rw [hm] at hm'
  cases hm'
  rw [h.judge_eq hf, hd] at hc
  cases hc
  exact ⟨rfl, congrArg SetNode.span heq, rfl⟩

/-- The same computed set is added to both. The new sets are mates if
they have one span. -/
theorem push (h : T.Mirrored) {n : SetNode κ} {m : SetNode κ'} (hs) (hs')
    {op op' : Operation} (hn : n.origin = .computed op)
    (hm : m.origin = .computed op') (hactive : n.scope < T.left.scopes.size)
    (hscope : n.scope = m.scope) (htype : n.type = m.type)
    (hle : m.cardinality ≤ n.cardinality)
    (hconst : op.constant? = op'.constant?)
    (hexact : T.left.arena.Faithful → n.unkeyed = m.unkeyed) :
    ∃ mates, let T' : Tandem κ κ' :=
        ⟨⟨T.left.arena.push n hs, T.left.scopes⟩,
          ⟨T.right.arena.push m hs', T.right.scopes⟩, mates⟩
      T.Later T' ∧ T'.Mirrored
        ∧ T'.Agree n.scope T.left.arena.size T.right.arena.size
        ∧ (n.span = m.span →
          T'.mates T.left.arena.size T.right.arena.size) := by
  have hl := Store.Extends.push h.rooted hs
  have hr := Store.Extends.push h.rooted' hs'
  have hnew := Arena.get?_push_self T.left.arena n hs
  have hnew' := Arena.get?_push_self T.right.arena m hs'
  have hsame : (T.left.arena.push n hs).Faithful →
      (T.left.arena.push n hs).SameSets (T.right.arena.push m hs')
        ∧ T.left.arena.size = T.right.arena.size := by
    intro hf
    have hf := hf.of_extends hl.arena
    have hsame := (h.exact hf).1
    exact ⟨hsame.push hs hs' (hexact hf), hsame.size_eq⟩
  refine ⟨(T.adding T.left T.right T.left.arena.size T.right.arena.size
    (n.span = m.span)).mates, later_adding hl hr, ?_,
    ⟨hactive, h.size_eq ▸ hactive, ?_, ?_, fun hf => (hsame hf).2⟩,
    fun hspan => Or.inr ⟨hspan, rfl, rfl⟩⟩
  · refine h.adding hl hr h.size_eq h.parent?_eq (fun hspan => ?_)
      (fun _ _ _ => Or.inl) fun hf _ => ⟨(hsame hf).1, fun _ => (hsame hf).2⟩
    refine ⟨rfl, n, m, hnew, hnew', htype, ?_, fun _ => hle,
      .computed hn hm hconst hspan⟩
    rw [hscope]
    exact ScopeTree.mem_ancestors_self _ _
  · refine ⟨⟨n.type, Arena.type?_eq_some_iff.2 ⟨n, hnew, rfl⟩,
      Arena.type?_eq_some_iff.2 ⟨m, hnew', htype.symm⟩⟩, n.cardinality,
      m.cardinality, ?_, ?_, hle⟩
    · exact Store.judge?_own _ hnew (by rw [hn]; rfl)
    · rw [hscope]
      exact Store.judge?_own _ hnew' (by rw [hm]; rfl)
  · show (T.left.arena.push n hs).constant? _
      = (T.right.arena.push m hs').constant? _
    rw [Arena.constant?_eq hnew, Arena.constant?_eq hnew', hn, hm]
    exact hconst

/-- A set is added to the first store only, once keys have collided. -/
theorem push_left (h : T.Mirrored) {n : SetNode κ} (hs)
    (hf : ¬ T.left.arena.Faithful) :
    ∃ mates, let T' : Tandem κ κ' :=
        ⟨⟨T.left.arena.push n hs, T.left.scopes⟩, T.right, mates⟩
      T.Later T' ∧ T'.Mirrored := by
  have hl := Store.Extends.push h.rooted hs
  have hr := Store.Extends.refl h.rooted'
  refine ⟨(T.adding T.left T.right 0 0 False).mates, later_adding hl hr, ?_⟩
  exact h.adding hl hr h.size_eq h.parent?_eq False.elim (fun _ _ _ => Or.inl)
    fun hf' _ => absurd (hf'.of_extends hl.arena) hf

/-- A set is added to the second store only, once keys have collided. -/
theorem push_right (h : T.Mirrored) {m : SetNode κ'} (hs)
    (hf : ¬ T.left.arena.Faithful) :
    ∃ mates, let T' : Tandem κ κ' :=
        ⟨T.left, ⟨T.right.arena.push m hs, T.right.scopes⟩, mates⟩
      T.Later T' ∧ T'.Mirrored := by
  have hl := Store.Extends.refl h.rooted
  have hr := Store.Extends.push h.rooted' hs
  refine ⟨(T.adding T.left T.right 0 0 False).mates, later_adding hl hr, ?_⟩
  exact h.adding hl hr h.size_eq h.parent?_eq False.elim (fun _ _ _ => Or.inl)
    fun hf' _ => absurd hf' hf

/-- Mates agree from wherever one looks. -/
theorem agree (h : T.Mirrored) (hxy : T.mates x y)
    (hv : v < T.left.scopes.size) : T.Agree v x y where
  active := hv
  active' := h.size_eq ▸ hv
  refines := by
    obtain ⟨n, m, hn, hm, hnm⟩ := h.mated x y hxy
    obtain ⟨c, hc⟩ := T.left.exists_judge? v hn
    obtain ⟨d, hd⟩ := T.right.exists_judge? v hm
    refine ⟨⟨n.type, Arena.type?_eq_some_iff.2 ⟨n, hn, rfl⟩,
      Arena.type?_eq_some_iff.2 ⟨m, hm, hnm.type.symm⟩⟩, c, d, hc, hd, ?_⟩
    exact h.judge_le hxy hc hd
  constant := by
    obtain ⟨n, m, hn, hm, hnm⟩ := h.mated x y hxy
    rw [Arena.constant?_eq hn, Arena.constant?_eq hm]
    cases hnm.kin with
    | root ho ho' => rw [ho, ho']
    | step ho ho' => rw [ho, ho']; rfl
    | computed ho ho' hconst => rw [ho, ho']; exact hconst
  exact := fun hf => (h.exact hf).2 x y hxy

end Mirrored

end Tandem

end PathQuery
