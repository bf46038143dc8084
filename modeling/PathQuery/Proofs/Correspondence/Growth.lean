/-
Correspondences grow with their stores.

Compilation adds sets and scope nodes. If both sides add a set then the
new sets correspond, provided that they are alike (`adding`). If both
sides open a node then the new nodes correspond (`opened`). If a side
adds a set that is bound nowhere, or grows in nodes only that correspond
to none of the other side, then the correspondence stays as it is
(`grown`). In each case what corresponds still does (`Later`).

Two sets that do not correspond may still `Agree` as seen from a node
each, in type and in count. That is what operators and clauses ask of
their operands.
-/
import PathQuery.Proofs.Correspondence.Basic

namespace PathQuery

open Ast (Likeness)
open Ir

variable {κ : Type}

namespace Correspondence

variable {C C' C'' : Correspondence κ} {μ : Likeness}

-- =============================================================== later

/-- Both stores have grown, and what corresponds still does. -/
structure Later (C C' : Correspondence κ) : Prop where
  left : C.left.Extends C'.left
  right : C.right.Extends C'.right
  sets : ∀ x y, C.sets x y → C'.sets x y
  nodes : ∀ a b, C.nodes a b → C'.nodes a b

theorem Later.trans (h : C.Later C') (h' : C'.Later C'') : C.Later C'' :=
  ⟨h.left.trans h'.left, h.right.trans h'.right,
    fun x y hxy => h'.sets x y (h.sets x y hxy),
    fun a b hab => h'.nodes a b (h.nodes a b hab)⟩

theorem ShapeRenamed.mono (h : C.Later C') {nodes nodes' : List ShapeNode}
    (hs : C.ShapeRenamed nodes nodes') : C'.ShapeRenamed nodes nodes' := by
  induction hs with
  | nil => exact .nil
  | cons hset _ _ ihe ihr => exact .cons (h.sets _ _ hset) ihe ihr

theorem KeyRenamed.mono (h : C.Later C') {k k' : SortKey}
    (hk : C.KeyRenamed k k') : C'.KeyRenamed k k' :=
  { hk with key := h.sets _ _ hk.key }

theorem StatementRenamed.mono (h : C.Later C') {stmt stmt' : Statement}
    (hs : C.StatementRenamed stmt stmt') : C'.StatementRenamed stmt stmt' where
  result := h.sets _ _ hs.result
  shape := hs.shape.mono h
  filter := optionRel_imp h.sets hs.filter
  groupBy := hs.groupBy.imp h.sets
  orderBy := hs.orderBy.imp fun _ _ hk => hk.mono h
  offset := optionRel_imp h.sets hs.offset
  limit := optionRel_imp h.sets hs.limit
  cardinality := hs.cardinality
  scope := h.nodes _ _ hs.scope
  span := hs.span

theorem OperationRenamed.mono (h : C.Later C') {op op' : Operation}
    (ho : C.OperationRenamed op op') : C'.OperationRenamed op op' := by
  cases ho with
  | constant value => exact .constant value
  | emptySet => exact .emptySet
  | binary op hl hr => exact .binary op (h.sets _ _ hl) (h.sets _ _ hr)
  | unary op hx => exact .unary op (h.sets _ _ hx)
  | call function aggregate hargs =>
      exact .call function aggregate (hargs.imp h.sets)
  | cast target conversion hx => exact .cast target conversion (h.sets _ _ hx)
  | union hmembers => exact .union (hmembers.imp h.sets)
  | subquery hstmt => exact .subquery (hstmt.mono h)
  | reference hx => exact .reference (h.sets _ _ hx)

theorem Matched.mono (h : C.Later C') {n m : SetNode κ} (hnm : C.Matched μ n m) :
    C'.Matched μ n m where
  type := hnm.type
  scope := h.nodes _ _ hnm.scope
  span := hnm.span
  count := hnm.count
  kin := by
    cases hnm.kin with
    | root ho ho' => exact .root ho ho'
    | step ho ho' hs => exact .step ho ho' (h.sets _ _ hs)
    | computed ho ho' hconst hop =>
        exact .computed ho ho' hconst fun hμ => (hop hμ).mono h
  single := hnm.single

variable [DecidableEq κ] [PathKey κ]

theorem Later.refl (h : C.Consistent μ) : C.Later C :=
  ⟨.refl h.rooted, .refl h.rooted', fun _ _ => id, fun _ _ => id⟩

-- ============================================================== growth

/-- A one-to-one relation stays one with a pair more, of two that were
related to nothing. -/
theorem biUnique_adding {α β : Type} {r : α → β → Prop} {x : α} {y : β}
    (h : Relator.BiUnique r) (hx : ∀ b, ¬ r x b) (hy : ∀ a, ¬ r a y) :
    Relator.BiUnique fun a b => r a b ∨ (a = x ∧ b = y) := by
  refine ⟨fun a b c hac hbc => ?_, fun a b c hab hac => ?_⟩
  · rcases hac with hac | ⟨ha, rfl⟩
    · rcases hbc with hbc | ⟨-, rfl⟩
      · exact h.1 hac hbc
      · exact absurd hac (hy a)
    · rcases hbc with hbc | ⟨hb, -⟩
      · exact absurd hbc (hy b)
      · exact ha.trans hb.symm
  · rcases hab with hab | ⟨rfl, hb⟩
    · rcases hac with hac | ⟨rfl, -⟩
      · exact h.2 hab hac
      · exact absurd hab (hx b)
    · rcases hac with hac | ⟨-, hc⟩
      · exact absurd hac (hx c)
      · exact hb.trans hc.symm

/-- Other stores, in which `x` corresponds to `y` as well. -/
def adding (C : Correspondence κ) (st st' : Store κ) (x y : SetId) :
    Correspondence κ :=
  ⟨st, st', fun a b => C.sets a b ∨ (a = x ∧ b = y), C.nodes⟩

/-- Other stores, in which the same sets and nodes correspond. -/
def grown (C : Correspondence κ) (st st' : Store κ) : Correspondence κ :=
  ⟨st, st', C.sets, C.nodes⟩

/-- Both stores with a new node each. -/
def opened (C : Correspondence κ) (scope scope' : ScopeId) : Correspondence κ :=
  ⟨C.left.opened scope, C.right.opened scope', C.sets,
    fun a b => C.nodes a b
      ∨ (a = C.left.scopes.size ∧ b = C.right.scopes.size)⟩

section Growth

variable {st st' : Store κ} {x y : Nat}

omit [DecidableEq κ] [PathKey κ] in
theorem later_adding (hl : C.left.Extends st) (hr : C.right.Extends st') :
    C.Later (C.adding st st' x y) :=
  ⟨hl, hr, fun _ _ => Or.inl, fun _ _ => id⟩

omit [DecidableEq κ] [PathKey κ] in
theorem later_grown (hl : C.left.Extends st) (hr : C.right.Extends st') :
    C.Later (C.grown st st') :=
  ⟨hl, hr, fun _ _ => id, fun _ _ => id⟩

namespace Consistent

/-- No set corresponds to one that is yet to be made. -/
theorem not_sets_left (h : C.Consistent μ) (b : SetId) :
    ¬ C.sets C.left.arena.size b := by
  intro hb
  obtain ⟨n, _, hn, -⟩ := h.matched _ b hb
  exact absurd (Arena.lt_size_of_get? hn) (Nat.lt_irrefl _)

theorem not_sets_right (h : C.Consistent μ) (a : SetId) :
    ¬ C.sets a C.right.arena.size := by
  intro ha
  obtain ⟨_, m, -, hm, -⟩ := h.matched a _ ha
  exact absurd (Arena.lt_size_of_get? hm) (Nat.lt_irrefl _)

/-- Nodes that correspond are there in stores that have grown. -/
theorem active_of_extends (h : C.Consistent μ) (hl : C.left.Extends st)
    (hr : C.right.Extends st') {a b : Nat} (hab : C.nodes a b) :
    a < st.scopes.size ∧ b < st'.scopes.size := by
  obtain ⟨ha, hb⟩ := h.active a b hab
  exact ⟨Nat.lt_of_lt_of_le ha hl.size_le, Nat.lt_of_lt_of_le hb hr.size_le⟩

/-- Their parents correspond as they did. -/
theorem parents_of_extends (h : C.Consistent μ) (hl : C.left.Extends st)
    (hr : C.right.Extends st') {a b : Nat} (hab : C.nodes a b) :
    Option.Rel C.nodes (st.scopes.parent? a) (st'.scopes.parent? b) := by
  obtain ⟨ha, hb⟩ := h.active a b hab
  rw [hl.parent_old a ha, hr.parent_old b hb]
  exact h.parents a b hab

/-- Stores that have grown, with one more pair of sets. What is bound in a
node that corresponds to one of the other side is old, or the set of that
pair. -/
theorem adding (h : C.Consistent μ) (hl : C.left.Extends st)
    (hr : C.right.Extends st') (hi : st.Indexed) (hi' : st'.Indexed)
    (hx : ∀ b, ¬ C.sets x b) (hy : ∀ a, ¬ C.sets a y)
    (hnew : ∃ n m, st.arena.get? x = some n ∧ st'.arena.get? y = some m
      ∧ (C.adding st st' x y).Matched μ n m)
    (hkept : ∀ (n : Nat) (key : κ) z, C.left.scopes.binding? n key = some z →
      st.scopes.binding? n key = some z)
    (hkept' : ∀ (n : Nat) (key : κ) z, C.right.scopes.binding? n key = some z →
      st'.scopes.binding? n key = some z)
    (hbound : ∀ (a b : Nat) (key : κ) z, C.nodes a b →
      st.scopes.binding? a key = some z →
      C.left.scopes.binding? a key = some z
        ∨ (z = x ∧ ∃ key', st'.scopes.binding? b key' = some y))
    (hbound' : ∀ (a b : Nat) (key : κ) z, C.nodes a b →
      st'.scopes.binding? b key = some z →
      C.right.scopes.binding? b key = some z
        ∨ (z = y ∧ ∃ key', st.scopes.binding? a key' = some x)) :
    (C.adding st st' x y).Consistent μ where
  rooted := hl.rooted'
  rooted' := hr.rooted'
  indexed := hi
  indexed' := hi'
  active := fun _ _ => h.active_of_extends hl hr
  nodes_unique := h.nodes_unique
  parents := fun _ _ => h.parents_of_extends hl hr
  sets_unique := biUnique_adding h.sets_unique hx hy
  matched := fun a b hab => by
    rcases hab with hab | ⟨rfl, rfl⟩
    · obtain ⟨n, m, hn, hm, hnm⟩ := h.matched a b hab
      exact ⟨n, m, hl.arena a n hn, hr.arena b m hm,
        hnm.mono (later_adding hl hr)⟩
    · exact hnew
  bound := fun a b key z hab hz => by
    rcases hbound a b key z hab hz with hz | ⟨rfl, key', hy⟩
    · obtain ⟨w, key', hzw, hw⟩ := h.bound a b key z hab hz
      exact ⟨w, key', Or.inl hzw, hkept' b key' w hw⟩
    · exact ⟨y, key', Or.inr ⟨rfl, rfl⟩, hy⟩
  bound' := fun a b key z hab hz => by
    rcases hbound' a b key z hab hz with hz | ⟨rfl, key', hx⟩
    · obtain ⟨w, key', hwz, hw⟩ := h.bound' a b key z hab hz
      exact ⟨w, key', Or.inl hwz, hkept a key' w hw⟩
    · exact ⟨x, key', Or.inr ⟨rfl, rfl⟩, hx⟩

/-- Stores that have grown where no node corresponds to one of the other
side, as far as bindings go. -/
theorem grown (h : C.Consistent μ) (hl : C.left.Extends st)
    (hr : C.right.Extends st') (hi : st.Indexed) (hi' : st'.Indexed)
    (hbinding : ∀ (a b : Nat) (key : κ), C.nodes a b →
      st.scopes.binding? a key = C.left.scopes.binding? a key)
    (hbinding' : ∀ (a b : Nat) (key : κ), C.nodes a b →
      st'.scopes.binding? b key = C.right.scopes.binding? b key) :
    (C.grown st st').Consistent μ where
  rooted := hl.rooted'
  rooted' := hr.rooted'
  indexed := hi
  indexed' := hi'
  active := fun _ _ => h.active_of_extends hl hr
  nodes_unique := h.nodes_unique
  parents := fun _ _ => h.parents_of_extends hl hr
  sets_unique := h.sets_unique
  matched := fun x y hxy => by
    obtain ⟨n, m, hn, hm, hnm⟩ := h.matched x y hxy
    exact ⟨n, m, hl.arena x n hn, hr.arena y m hm, hnm.mono (later_grown hl hr)⟩
  bound := fun a b key x hab hx => by
    obtain ⟨y, key', hxy, hy⟩ := h.bound a b key x hab (hbinding a b key hab ▸ hx)
    exact ⟨y, key', hxy, (hbinding' a b key' hab).trans hy⟩
  bound' := fun a b key y hab hy => by
    obtain ⟨x, key', hxy, hx⟩ := h.bound' a b key y hab (hbinding' a b key hab ▸ hy)
    exact ⟨x, key', hxy, (hbinding a b key' hab).trans hx⟩

/-- A computed set is added on both sides. -/
theorem push (h : C.Consistent μ) {n m : SetNode κ} (hs hs') {op op' : Operation}
    (hn : n.origin = .computed op) (hm : m.origin = .computed op')
    (hkey : n.key = none) (hkey' : m.key = none) (hnm : C.Matched μ n m) :
    let C' := C.adding ⟨C.left.arena.push n hs, C.left.scopes⟩
      ⟨C.right.arena.push m hs', C.right.scopes⟩ C.left.arena.size
      C.right.arena.size
    C.Later C' ∧ C'.Consistent μ := by
  have hl := Store.Extends.push h.rooted hs
  have hr := Store.Extends.push h.rooted' hs'
  have hlater := later_adding (x := C.left.arena.size)
    (y := C.right.arena.size) hl hr
  refine ⟨hlater, h.adding hl hr (h.indexed.push hs hn hkey)
    (h.indexed'.push hs' hm hkey') h.not_sets_left h.not_sets_right ?_
    (fun _ _ _ => id) (fun _ _ _ => id) (fun _ _ _ _ _ => Or.inl)
    fun _ _ _ _ _ => Or.inl⟩
  exact ⟨n, m, Arena.get?_push_self _ _ hs, Arena.get?_push_self _ _ hs',
    hnm.mono hlater⟩

/-- A set is added to the left store only, bound nowhere. -/
theorem push_left (h : C.Consistent μ) {n : SetNode κ} (hs) {op : Operation}
    (hn : n.origin = .computed op) (hkey : n.key = none) :
    let C' := C.grown ⟨C.left.arena.push n hs, C.left.scopes⟩ C.right
    C.Later C' ∧ C'.Consistent μ := by
  have hl := Store.Extends.push h.rooted hs
  exact ⟨later_grown hl (.refl h.rooted'), h.grown hl (.refl h.rooted')
    (h.indexed.push hs hn hkey) h.indexed' (fun _ _ _ _ => rfl) fun _ _ _ _ => rfl⟩

/-- A set is added to the right store only, bound nowhere. -/
theorem push_right (h : C.Consistent μ) {m : SetNode κ} (hs) {op : Operation}
    (hm : m.origin = .computed op) (hkey : m.key = none) :
    let C' := C.grown C.left ⟨C.right.arena.push m hs, C.right.scopes⟩
    C.Later C' ∧ C'.Consistent μ := by
  have hr := Store.Extends.push h.rooted' hs
  exact ⟨later_grown (.refl h.rooted) hr, h.grown (.refl h.rooted) hr h.indexed
    (h.indexed'.push hs hm hkey) (fun _ _ _ _ => rfl) fun _ _ _ _ => rfl⟩

variable {scope scope' : Nat}

theorem later_opened (h : C.Consistent μ) (hs : C.nodes scope scope') :
    C.Later (C.opened scope scope') where
  left := .opened h.rooted (h.active _ _ hs).1
  right := .opened h.rooted' (h.active _ _ hs).2
  sets := fun _ _ => id
  nodes := fun _ _ => Or.inl

/-- A node is added on both sides, below nodes that correspond. -/
theorem opened (h : C.Consistent μ) (hs : C.nodes scope scope') :
    (C.opened scope scope').Consistent μ where
  rooted := h.rooted.attach (h.active _ _ hs).1
  rooted' := h.rooted'.attach (h.active _ _ hs).2
  indexed := h.indexed.opened scope
  indexed' := h.indexed'.opened scope'
  active := fun a b hab => by
    show a < (C.left.scopes.attach scope).size
      ∧ b < (C.right.scopes.attach scope').size
    rw [ScopeTree.size_attach, ScopeTree.size_attach]
    rcases hab with hab | ⟨rfl, rfl⟩
    · obtain ⟨ha, hb⟩ := h.active a b hab
      exact ⟨Nat.lt_succ_of_lt ha, Nat.lt_succ_of_lt hb⟩
    · exact ⟨Nat.lt_succ_self _, Nat.lt_succ_self _⟩
  nodes_unique := biUnique_adding h.nodes_unique
    (fun b hb => Nat.lt_irrefl _ (h.active _ b hb).1)
    (fun a ha => Nat.lt_irrefl _ (h.active a _ ha).2)
  parents := fun a b hab => by
    show Option.Rel _ ((C.left.scopes.attach scope).parent? a)
      ((C.right.scopes.attach scope').parent? b)
    rw [ScopeTree.parent?_attach, ScopeTree.parent?_attach]
    rcases hab with hab | ⟨rfl, rfl⟩
    · obtain ⟨ha, hb⟩ := h.active a b hab
      rw [if_neg (Nat.ne_of_lt ha), if_neg (Nat.ne_of_lt hb)]
      exact optionRel_imp (fun _ _ => Or.inl) (h.parents a b hab)
    · rw [if_pos rfl, if_pos rfl]
      exact .some (Or.inl hs)
  sets_unique := h.sets_unique
  matched := fun x y hxy => by
    obtain ⟨n, m, hn, hm, hnm⟩ := h.matched x y hxy
    exact ⟨n, m, hn, hm, hnm.mono (h.later_opened hs)⟩
  bound := fun a b key x hab hx => by
    change (C.left.scopes.attach scope).binding? a key = some x at hx
    rw [ScopeTree.binding?_attach] at hx
    have hlt := ScopeTree.lt_size_of_binding? hx
    rcases hab with hab | ⟨rfl, -⟩
    · obtain ⟨y, key', hxy, hy⟩ := h.bound a b key x hab hx
      refine ⟨y, key', hxy, ?_⟩
      show (C.right.scopes.attach scope').binding? b key' = some y
      rw [ScopeTree.binding?_attach, hy]
    · exact absurd hlt (Nat.lt_irrefl _)
  bound' := fun a b key y hab hy => by
    change (C.right.scopes.attach scope').binding? b key = some y at hy
    rw [ScopeTree.binding?_attach] at hy
    have hlt := ScopeTree.lt_size_of_binding? hy
    rcases hab with hab | ⟨-, rfl⟩
    · obtain ⟨x, key', hxy, hx⟩ := h.bound' a b key y hab hy
      refine ⟨x, key', hxy, ?_⟩
      show (C.left.scopes.attach scope).binding? a key' = some x
      rw [ScopeTree.binding?_attach, hx]
    · exact absurd hlt (Nat.lt_irrefl _)

end Consistent

end Growth

-- =========================================================== agreement

/-- Seen from a node each, two sets have one type and are counted alike.
For one and the same query they correspond. -/
structure Agree (C : Correspondence κ) (μ : Likeness) (v w : ScopeId)
    (x y : SetId) : Prop where
  active : v < C.left.scopes.size
  active' : w < C.right.scopes.size
  type : ∃ t, C.left.arena.type? x = some t ∧ C.right.arena.type? y = some t
  count : ∃ c d, C.left.judge? v x = some c ∧ C.right.judge? w y = some d
    ∧ μ.Tally c d
  sets : μ = .same → C.sets x y

/-- The two sets stand for one literal, if any. -/
def SameConstant (C : Correspondence κ) (x y : SetId) : Prop :=
  C.left.arena.constant? x = C.right.arena.constant? y

section Agreement

variable {v w x y : Nat}

omit [DecidableEq κ] [PathKey κ] in
theorem Agree.mono (h : C.Later C') (hxy : C.Agree μ v w x y) :
    C'.Agree μ v w x y where
  active := Nat.lt_of_lt_of_le hxy.active h.left.size_le
  active' := Nat.lt_of_lt_of_le hxy.active' h.right.size_le
  type := by
    obtain ⟨t, ht, ht'⟩ := hxy.type
    exact ⟨t, h.left.arena.type? ht, h.right.arena.type? ht'⟩
  count := by
    obtain ⟨c, d, hc, hd, htally⟩ := hxy.count
    exact ⟨c, d, h.left.judge?_eq hxy.active hc, h.right.judge?_eq hxy.active' hd,
      htally⟩
  sets := fun hμ => h.sets x y (hxy.sets hμ)

omit [DecidableEq κ] [PathKey κ] in
/-- The two sets are there, at one type. -/
theorem Agree.exists_get? (h : C.Agree μ v w x y) :
    ∃ n m, C.left.arena.get? x = some n ∧ C.right.arena.get? y = some m
      ∧ n.type = m.type := by
  obtain ⟨t, ht, ht'⟩ := h.type
  obtain ⟨n, hn, hnt⟩ := Arena.type?_eq_some_iff.1 ht
  obtain ⟨m, hm, hmt⟩ := Arena.type?_eq_some_iff.1 ht'
  exact ⟨n, m, hn, hm, hnt.trans hmt.symm⟩

/-- Sets that correspond agree from nodes that do. -/
theorem Consistent.agree (h : C.Consistent μ) (hxy : C.sets x y)
    (hvw : C.nodes v w) : C.Agree μ v w x y where
  active := (h.active v w hvw).1
  active' := (h.active v w hvw).2
  type := by
    obtain ⟨n, m, hn, hm, hnm⟩ := h.matched x y hxy
    exact ⟨n.type, Arena.type?_eq_some_iff.2 ⟨n, hn, rfl⟩,
      Arena.type?_eq_some_iff.2 ⟨m, hm, hnm.type.symm⟩⟩
  count := by
    obtain ⟨n, m, hn, hm, -⟩ := h.matched x y hxy
    obtain ⟨c, hc⟩ := C.left.exists_judge? v hn
    obtain ⟨d, hd⟩ := C.right.exists_judge? w hm
    exact ⟨c, d, hc, hd, h.judge_tally hvw hxy hc hd⟩
  sets := fun _ => hxy

/-- Sets that correspond stand for one literal, if any. -/
theorem Consistent.sameConstant (h : C.Consistent μ) (hxy : C.sets x y) :
    C.SameConstant x y := by
  obtain ⟨n, m, hn, hm, hnm⟩ := h.matched x y hxy
  unfold SameConstant
  rw [Arena.constant?_eq hn, Arena.constant?_eq hm]
  cases hnm.kin with
  | root ho ho' => rw [ho, ho']
  | step ho ho' => rw [ho, ho']; rfl
  | computed ho ho' hconst => rw [ho, ho']; exact hconst

/-- Sets that agree have one span, for one and the same query. -/
theorem Consistent.spans_of_agree (h : C.Consistent μ) (hxy : C.Agree μ v w x y)
    {n m : SetNode κ} (hn : C.left.arena.get? x = some n)
    (hm : C.right.arena.get? y = some m) : μ.Spans n.span m.span := by
  intro hμ
  obtain ⟨n', m', hn', hm', hnm⟩ := h.matched x y (hxy.sets hμ)
  rw [hn] at hn'
  rw [hm] at hm'
  cases hn'
  cases hm'
  exact hnm.span hμ

end Agreement

-- ============================================================== values

/-- Two operations are alike. -/
structure Answers (C : Correspondence κ) (μ : Likeness) (p q : Pending) : Prop
    where
  type : p.type = q.type
  span : μ.Spans p.span q.span
  count : μ.Tally p.cardinality q.cardinality
  constant : p.operation.constant? = q.operation.constant?
  single : μ = .loose → p.operation.constant? ≠ none →
    p.cardinality.isMulti = false
  renamed : μ = .same → C.OperationRenamed p.operation q.operation

/-- What an expression gives on the two sides. -/
inductive Values (C : Correspondence κ) (μ : Likeness) : Value → Value → Prop where
  | set {x y : SetId} (h : C.sets x y) : Values C μ (.set x) (.set y)
  | pending {p q : Pending} (h : C.Answers μ p q) :
      Values C μ (.pending p) (.pending q)

omit [DecidableEq κ] [PathKey κ] in
theorem Answers.mono (h : C.Later C') {p q : Pending} (hpq : C.Answers μ p q) :
    C'.Answers μ p q :=
  { hpq with renamed := fun hμ => (hpq.renamed hμ).mono h }

omit [DecidableEq κ] [PathKey κ] in
theorem Values.mono (h : C.Later C') {v w : Value} (hvw : C.Values μ v w) :
    C'.Values μ v w := by
  cases hvw with
  | set hxy => exact .set (h.sets _ _ hxy)
  | pending hpq => exact .pending (hpq.mono h)

-- ========================================================= environments

/-- Two frames are the same but for the numbers of the active node and of
the subject, and these correspond. -/
structure Framed (C : Correspondence κ) (env env' : Env) : Prop where
  schema : env'.schema = env.schema
  clause : env'.frame.clause = env.frame.clause
  defaultModule : env'.frame.defaultModule = env.frame.defaultModule
  aliases : env'.frame.aliases = env.frame.aliases
  scope : C.nodes env.frame.scope env'.frame.scope
  subject : Option.Rel C.sets env.frame.subject env'.frame.subject

omit [DecidableEq κ] [PathKey κ] in
theorem Framed.mono (h : C.Later C') {env env' : Env} (hf : C.Framed env env') :
    C'.Framed env env' :=
  { hf with
    scope := h.nodes _ _ hf.scope
    subject := optionRel_imp h.sets hf.subject }

end Correspondence

end PathQuery
