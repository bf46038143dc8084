/-
A store that is ahead of another.

The operands of an operator are compiled one after the other, so what the
first one met is there when the second one is compiled. A `Lead` is such
a start: the store that the first operand left. A correspondence is
`Ahead` by it if the right store started there and the left one did not.
Sets and nodes correspond as they do elsewhere, and what is bound on the
left is bound on the right. But a path of the lead, met in the active
node, may be bound on the right and not on the left.

Such a path is met by the left side too, or never. If the left side meets
it in the active node, then the new set and the set of the lead
correspond from then on (`Ahead.adding`). It must not meet it in a node
below: there the right side would find the set above, and count it as
one element. That is what it is for two operands to cross
(`Arena.Crosses`).

The stores correspond in what they hold, not in what is bound, so what
is asked of them is said of stores with nothing bound (`bare`).
-/
import PathQuery.Proofs.Lead.Blind
import PathQuery.Proofs.Path.Correlation

namespace PathQuery

open Ir

variable {κ : Type}

-- ============================================================== looking

namespace ScopeTree

variable [DecidableEq κ] {t t' : ScopeTree κ} {n : Nat}

/-- A path is looked for in a node, then from its parent on. -/
theorem Rooted.lookup_eq (h : t.Rooted) (n : Nat) (key : κ) :
    t.lookup n key = ((t.binding? n key).map (n, ·)).or
      ((t.parent? n).bind fun p => t.lookup p key) := by
  unfold lookup
  rw [h.ancestors_eq, List.findSome?_cons]
  cases t.binding? n key with
  | some x => rfl
  | none => cases t.parent? n <;> rfl

/-- Whether a path is bound twice depends on what the ancestors bind
alone. -/
theorem Unshadowed.congr (h : t.Unshadowed n) (hanc : t'.ancestors n = t.ancestors n)
    (hb : ∀ a ∈ t.ancestors n, ∀ key, t'.binding? a key = t.binding? a key) :
    t'.Unshadowed n := by
  intro a ha b hb' key x y hx hy
  rw [hanc] at ha hb'
  rw [hb a ha] at hx
  rw [hb b hb'] at hy
  exact h a ha b hb' key x y hx hy

end ScopeTree

/-- Looked for from a node, the path of the set leads to the set. -/
def Store.Reaches [DecidableEq κ] [PathKey κ] (st : Store κ) (v : ScopeId)
    (y : SetId) : Prop :=
  st.arena.canonical y = .anchor y
    ∨ ∃ a, st.scopes.lookup v (st.arena.canonical y).key = some (a, y)

/-- One set at most is reached by a path. -/
theorem Store.Reaches.eq [DecidableEq κ] [PathKey κ] {st : Store κ} {v x y : Nat}
    (hx : st.Reaches v x) (hy : st.Reaches v y)
    (heq : st.arena.canonical x = st.arena.canonical y) : x = y := by
  rcases hx with hx | ⟨a, hx⟩
  · exact (Arena.eq_of_canonical_anchor (heq.symm.trans hx)).symm
  · rcases hy with hy | ⟨b, hy⟩
    · exact Arena.eq_of_canonical_anchor (heq.trans hy)
    · rw [heq, hy] at hx
      cases hx
      rfl

-- ============================================================= crossing

/-- Two arenas that grew from one of `base` sets cross in a node: one
has a new set of it for a path for which the other has a new set of
another node. -/
def Ir.Arena.Crosses (base : Nat) (scope : ScopeId) (a a' : Arena κ) : Prop :=
  ∃ x y n m, base ≤ x ∧ base ≤ y ∧ a.get? x = some n ∧ a'.get? y = some m
    ∧ n.key ≠ none ∧ m.key ≠ none ∧ n.scope = scope ∧ m.scope ≠ scope
    ∧ a.canonical x = a'.canonical y

theorem Ir.Arena.Crosses.mono {base : Nat} {scope : ScopeId} {a a₁ a₂ : Arena κ}
    (h : a.Crosses base scope a₁) (hext : a₁.Extends a₂) :
    a.Crosses base scope a₂ := by
  obtain ⟨x, y, n, m, hx, hy, hn, hm, hrest⟩ := h
  rw [← hext.canonical_eq hm] at hrest
  exact ⟨x, y, n, m, hx, hy, hn, hext y m hm, hrest⟩

-- ============================================================ the lead

variable [DecidableEq κ] [PathKey κ] [NameDigest]

/-- The store that one operand left, with the environment of both and the
number of sets that were there before. -/
structure Lead (κ : Type) [DecidableEq κ] [PathKey κ] [NameDigest] where
  regime : Regime
  env : Env
  store : Store κ
  base : Nat
  lexical : regime.lexical
  ready : env.Ready regime store
  faithful : store.arena.Faithful

/-- The node that both operands are compiled in. -/
def Lead.node (S : Lead κ) : ScopeId := S.env.frame.scope

/-- A node that was opened since is another one. -/
theorem Lead.ne_node {S : Lead κ} {n : Nat} (h : S.store.scopes.size ≤ n) : n ≠ S.node :=
  Nat.ne_of_gt (Nat.lt_of_lt_of_le S.ready.active h)

/-- What the lead binds in the active node beyond what was there. -/
structure Lead.Binds (S : Lead κ) (n : ScopeId) (key : κ) (y : SetId) : Prop where
  node : n = S.node
  bound : S.store.scopes.binding? n key = some y
  new : S.base ≤ y

namespace Correspondence

variable {C C' : Correspondence κ} {S : Lead κ}

/-- The right side started from the lead. -/
structure Ahead (C : Correspondence κ) (S : Lead κ) : Prop where
  bare : C.bare.Consistent .plain
  rooted : C.left.scopes.Rooted
  indexed : C.left.Indexed
  indexed' : C.right.Indexed
  node : C.nodes S.node S.node
  later : S.store.Extends C.right
  kept : ∀ (n : Nat) (key : κ) y, S.store.scopes.binding? n key = some y →
    C.right.scopes.binding? n key = some y
  unshadowed : C.right.scopes.Unshadowed S.node
  base_le : S.base ≤ C.left.arena.size
  /-- A set of the lead that is no path corresponds to itself at most. -/
  anchors : ∀ x y, C.sets x y → y < S.store.arena.size →
    C.right.arena.canonical y = .anchor y → x = y
  bound : ∀ (a b : Nat) (key : κ) x, C.nodes a b →
    C.left.scopes.binding? a key = some x →
    ∃ y key', C.sets x y ∧ C.right.scopes.binding? b key' = some y
  /-- What the left side has not met yet is from the lead. -/
  bound' : ∀ (a b : Nat) (key' : κ) y, C.nodes a b →
    C.right.scopes.binding? b key' = some y →
    (∃ x key, C.sets x y ∧ C.left.scopes.binding? a key = some x)
      ∨ (S.Binds b key' y ∧ ∀ x, ¬ C.sets x y)

namespace Ahead

variable {v w x y z : Nat} {p p' : CanonicalPath} {st st' : Store κ}

theorem exists_get? (h : C.Ahead S) (hxy : C.sets x y) :
    ∃ n m, C.left.arena.get? x = some n ∧ C.right.arena.get? y = some m
      ∧ C.bare.Matched .plain n m :=
  h.bare.matched x y hxy

theorem active (h : C.Ahead S) (hvw : C.nodes v w) :
    v < C.left.scopes.size ∧ w < C.right.scopes.size := by
  have hactive := h.bare.active v w hvw
  change v < C.left.scopes.bare.size ∧ w < C.right.scopes.bare.size at hactive
  rwa [ScopeTree.size_bare, ScopeTree.size_bare] at hactive

theorem agree (h : C.Ahead S) (hvw : C.nodes v w) (hxy : C.sets x y) :
    C.bare.Agree .plain v w x y :=
  h.bare.agree hxy hvw

theorem later_refl (h : C.Ahead S) : C.Later C :=
  ⟨.refl h.rooted, .refl h.later.rooted', fun _ _ => id, fun _ _ => id⟩

-- ============================================================== looking

theorem parents (h : C.Ahead S) (hvw : C.nodes v w) :
    Option.Rel C.nodes (C.left.scopes.parent? v) (C.right.scopes.parent? w) := by
  have hparents := h.bare.parents v w hvw
  change Option.Rel C.nodes (C.left.scopes.bare.parent? v)
    (C.right.scopes.bare.parent? w) at hparents
  rwa [ScopeTree.parent?_bare, ScopeTree.parent?_bare] at hparents

/-- Sets that correspond stand for paths that do. -/
theorem paths (h : C.Ahead S) (hxy : C.sets x y) :
    C.bare.Paths (C.left.arena.canonical x) (C.right.arena.canonical y) :=
  h.bare.paths hxy

/-- The nodes above correspond one by one. -/
theorem exists_ancestor (h : C.Ahead S) (hvw : C.nodes v w) {a : Nat}
    (ha : a ∈ C.left.scopes.ancestors v) :
    ∃ b ∈ C.right.scopes.ancestors w, C.nodes a b := by
  have hall := h.bare.ancestors hvw
  change List.Forall₂ C.nodes (C.left.scopes.bare.ancestors v)
    (C.right.scopes.bare.ancestors w) at hall
  rw [ScopeTree.ancestors_bare, ScopeTree.ancestors_bare] at hall
  generalize C.left.scopes.ancestors v = as at hall ha
  generalize C.right.scopes.ancestors w = bs at hall
  induction hall with
  | nil => cases ha
  | cons hab _ ih =>
      rcases List.mem_cons.1 ha with rfl | ha
      · exact ⟨_, List.mem_cons_self, hab⟩
      · obtain ⟨b, hb, hab⟩ := ih ha
        exact ⟨b, List.mem_cons_of_mem _ hb, hab⟩

/-- A path that the left side binds is bound on the right, if what is
found by its key stands for it. -/
theorem exists_binding (h : C.Ahead S) (hvw : C.nodes v w) (hp : C.bare.Paths p p')
    (hleft : ∀ a x, C.left.scopes.binding? a (p.key : κ) = some x →
      C.left.arena.canonical x = p)
    (hx : C.left.scopes.binding? v (p.key : κ) = some x) :
    ∃ y, C.sets x y ∧ C.right.scopes.binding? w (p'.key : κ) = some y := by
  obtain ⟨y, key', hxy, hy⟩ := h.bound v w p.key x hvw hx
  have hpath := h.paths hxy
  rw [hleft v x hx] at hpath
  rw [h.indexed'.key_of_bound hy, ← hp.right_unique h.bare.sets_unique hpath] at hy
  exact ⟨y, hxy, hy⟩

/-- What the lead alone binds in its node is bound nowhere above. -/
theorem lookup_eq_none (h : C.Ahead S) (hp : C.bare.Paths p p')
    (hleft : ∀ a x, C.left.scopes.binding? a (p.key : κ) = some x →
      C.left.arena.canonical x = p)
    (hx : C.left.scopes.binding? S.node (p.key : κ) = none)
    (hy : C.right.scopes.binding? S.node (p'.key : κ) = some y) :
    C.left.scopes.lookup S.node (p.key : κ) = none := by
  rw [ScopeTree.lookup_eq_none_iff]
  intro a ha
  rw [Option.eq_none_iff_forall_ne_some]
  intro x hax
  obtain ⟨b, hb, hab⟩ := h.exists_ancestor h.node ha
  obtain ⟨z, -, hz⟩ := h.exists_binding hab hp hleft hax
  obtain rfl := h.unshadowed b hb S.node (ScopeTree.mem_ancestors_self _ _) _ _ _ hz hy
  obtain rfl := h.bare.nodes_unique.1 hab h.node
  rw [hx] at hax
  cases hax

/-- What both sides look for is found on both, or on neither, or in the
lead alone. -/
theorem lookup_rel (h : C.Ahead S) (hvw : C.nodes v w) (hp : C.bare.Paths p p')
    (hleft : ∀ a x, C.left.scopes.binding? a (p.key : κ) = some x →
      C.left.arena.canonical x = p)
    (hright : ∀ b y, C.right.scopes.binding? b (p'.key : κ) = some y →
      C.right.arena.canonical y = p') :
    Option.Rel (fun found found' => C.sets found.2 found'.2)
        (C.left.scopes.lookup v p.key) (C.right.scopes.lookup w p'.key)
      ∨ (C.left.scopes.lookup v p.key = none
        ∧ ∃ z, C.right.scopes.lookup w p'.key = some (S.node, z)
          ∧ S.Binds S.node p'.key z ∧ ∀ x, ¬ C.sets x z) := by
  induction v using Nat.strongRecOn generalizing w with
  | ind v ih =>
      rw [h.rooted.lookup_eq, h.later.rooted'.lookup_eq w]
      cases hx : C.left.scopes.binding? v (p.key : κ) with
      | some x =>
          obtain ⟨y, hxy, hy⟩ := h.exists_binding hvw hp hleft hx
          rw [hy]
          exact Or.inl (.some hxy)
      | none =>
          cases hy : C.right.scopes.binding? w (p'.key : κ) with
          | none =>
              -- neither node binds the path, so both sides look further up
              have hparents := h.parents hvw
              generalize hpv : C.left.scopes.parent? v = parent at hparents ⊢
              generalize C.right.scopes.parent? w = parent' at hparents ⊢
              cases hparents with
              | none => exact Or.inl .none
              | @some a b hab => exact ih a (h.rooted.parent_lt v a hpv) hab
          | some y =>
              rcases h.bound' v w p'.key y hvw hy with ⟨x, key, hxy, hx'⟩ | ⟨hbinds, hnone⟩
              · have hpath := h.paths hxy
                rw [hright w y hy] at hpath
                rw [h.indexed.key_of_bound hx',
                  ← hp.left_unique h.bare.sets_unique hpath, hx] at hx'
                cases hx'
              · obtain rfl := hbinds.node
                obtain rfl := h.bare.nodes_unique.1 hvw h.node
                refine Or.inr ⟨?_, y, rfl, hbinds, hnone⟩
                have hfree := h.lookup_eq_none hp hleft hx hy
                rw [h.rooted.lookup_eq, hx] at hfree
                exact hfree

/-- The path of a set of the lead is the same path on both sides. -/
theorem eq_of_paths (h : C.Ahead S) (hp : C.bare.Paths p p')
    (hy : y < S.store.arena.size) (hcan : C.right.arena.canonical y = p') :
    p = p' := by
  induction hp generalizing y with
  | root t => rfl
  | @anchor x z hxz =>
      obtain rfl := Arena.eq_of_canonical_anchor hcan
      rw [h.anchors x y hxz hy hcan]
  | @step q q' name _ ih =>
      obtain ⟨n, hn⟩ := Arena.exists_get?_of_lt
        (Nat.lt_of_lt_of_le hy h.later.arena.size_le)
      obtain ⟨source, per, ho, hsource⟩ := Arena.origin_of_canonical_step hn hcan
      have hlt := Arena.lt_of_source hn (by rw [ho]; rfl)
      rw [ih (Nat.lt_trans hlt hy) hsource]

/-- A set that is seen at the start is reached on the right. -/
theorem reaches (h : C.Ahead S) {t : TypeId} (hy : S.store.Holds S.regime S.node y t) :
    C.right.Reaches S.node y := by
  obtain ⟨n, hn⟩ := hy.exists_get?
  unfold Store.Reaches
  rw [h.later.arena.canonical_eq hn]
  by_cases hanchor : ∀ z, S.store.arena.canonical y ≠ .anchor z
  · obtain ⟨a, ha⟩ := S.ready.lookup_of_holds S.lexical S.faithful hy hanchor
    obtain ⟨hmem, hb⟩ := ScopeTree.binding?_of_lookup ha
    exact Or.inr ⟨a, h.unshadowed.lookup_eq (h.later.mem_ancestors hmem)
      (h.kept a _ y hb)⟩
  · simp only [ne_eq, not_forall, not_not] at hanchor
    obtain ⟨z, hz⟩ := hanchor
    obtain rfl := Arena.eq_of_canonical_anchor hz
    exact Or.inl hz

-- ============================================================== growth

/-- Both stores have grown, and two sets that corresponded to none
correspond. What is bound in a node that corresponds to one of the other
side is old, or one of the two. -/
theorem adding (h : C.Ahead S) (hl : C.left.Extends st) (hr : C.right.Extends st')
    (hi : st.Indexed) (hi' : st'.Indexed) (hx : ∀ b, ¬ C.sets x b)
    (hy : ∀ a, ¬ C.sets a y)
    (hnew : ∃ n m, st.arena.get? x = some n ∧ st'.arena.get? y = some m
      ∧ (C.adding st st' x y).bare.Matched .plain n m)
    (hanchor : y < S.store.arena.size → st'.arena.canonical y ≠ .anchor y)
    (hkept : ∀ (n : Nat) (key : κ) z, C.left.scopes.binding? n key = some z →
      st.scopes.binding? n key = some z)
    (hkept' : ∀ (n : Nat) (key : κ) z, C.right.scopes.binding? n key = some z →
      st'.scopes.binding? n key = some z)
    (hbound : ∀ (a b : Nat) (key : κ) z, C.nodes a b →
      st.scopes.binding? a key = some z →
      C.left.scopes.binding? a key = some z
        ∨ (z = x ∧ ∃ key', st'.scopes.binding? b key' = some y))
    (hbound' : ∀ (a b : Nat) (key : κ) z, C.nodes a b →
      st'.scopes.binding? b key = some z →
      (z ≠ y ∧ C.right.scopes.binding? b key = some z)
        ∨ (z = y ∧ ∃ key', st.scopes.binding? a key' = some x))
    (hunshadowed : st'.scopes.Unshadowed S.node) :
    (C.adding st st' x y).Ahead S where
  bare := h.bare.adding hl.bare hr.bare hi.bare hi'.bare hx hy hnew
    (fun n key z hz => absurd hz (ScopeTree.not_bound_bare _ n key z))
    (fun n key z hz => absurd hz (ScopeTree.not_bound_bare _ n key z))
    (fun a _ key z _ hz => absurd hz (ScopeTree.not_bound_bare _ a key z))
    fun _ b key z _ hz => absurd hz (ScopeTree.not_bound_bare _ b key z)
  rooted := hl.rooted'
  indexed := hi
  indexed' := hi'
  node := h.node
  later := h.later.trans hr
  kept := fun n key z hz => hkept' n key z (h.kept n key z hz)
  unshadowed := hunshadowed
  base_le := Nat.le_trans h.base_le hl.arena.size_le
  anchors := fun a b hab hb hcan => by
    rcases hab with hab | ⟨rfl, rfl⟩
    · obtain ⟨n, m, -, hm, -⟩ := h.exists_get? hab
      exact h.anchors a b hab hb ((hr.arena.canonical_eq hm).symm.trans hcan)
    · exact absurd hcan (hanchor hb)
  bound := fun a b key z hab hz => by
    rcases hbound a b key z hab hz with hz | ⟨rfl, key', hy⟩
    · obtain ⟨w, key', hzw, hw⟩ := h.bound a b key z hab hz
      exact ⟨w, key', Or.inl hzw, hkept' b key' w hw⟩
    · exact ⟨y, key', Or.inr ⟨rfl, rfl⟩, hy⟩
  bound' := fun a b key z hab hz => by
    rcases hbound' a b key z hab hz with ⟨hne, hz⟩ | ⟨rfl, key', hx⟩
    · refine (h.bound' a b key z hab hz).imp (fun hold => ?_) fun hlead => ?_
      · obtain ⟨w, key', hwz, hw⟩ := hold
        exact ⟨w, key', Or.inl hwz, hkept a key' w hw⟩
      · refine ⟨hlead.1, fun w hw => ?_⟩
        exact hw.elim (hlead.2 w) fun heq => hne heq.2
    · exact Or.inl ⟨x, key', Or.inr ⟨rfl, rfl⟩, hx⟩

/-- A computed set is added on both sides. -/
theorem push (h : C.Ahead S) {n m : SetNode κ} (hs hs') {op op' : Operation}
    (hn : n.origin = .computed op) (hm : m.origin = .computed op')
    (hkey : n.key = none) (hkey' : m.key = none) (hnm : C.bare.Matched .plain n m) :
    let C' := C.adding ⟨C.left.arena.push n hs, C.left.scopes⟩
      ⟨C.right.arena.push m hs', C.right.scopes⟩ C.left.arena.size
      C.right.arena.size
    C.Later C' ∧ C'.Ahead S := by
  have hl := Store.Extends.push h.rooted hs
  have hr := Store.Extends.push h.later.rooted' hs'
  refine ⟨later_adding hl hr, h.adding hl hr (h.indexed.push hs hn hkey)
    (h.indexed'.push hs' hm hkey') h.bare.not_sets_left h.bare.not_sets_right
    ⟨n, m, Arena.get?_push_self _ _ hs, Arena.get?_push_self _ _ hs',
      hnm.mono (later_adding hl.bare hr.bare)⟩
    (fun hlt => absurd h.later.arena.size_le (Nat.not_le_of_lt hlt))
    (fun _ _ _ => id) (fun _ _ _ => id) (fun _ _ _ _ _ => Or.inl)
    (fun a b key z _ hz => ?_) h.unshadowed⟩
  obtain ⟨m, hm, -⟩ := h.indexed'.bound b key z hz
  exact Or.inl ⟨Nat.ne_of_lt (Arena.lt_size_of_get? hm), hz⟩

/-- Sets were added that are bound nowhere and correspond to none. -/
theorem grown (h : C.Ahead S) (hl : C.left.arena.Extends st.arena)
    (hr : C.right.arena.Extends st'.arena) (hscopes : st.scopes = C.left.scopes)
    (hscopes' : st'.scopes = C.right.scopes) (hi : st.bare.Indexed)
    (hi' : st'.bare.Indexed) : C.Later (C.grown st st') ∧ (C.grown st st').Ahead S := by
  obtain ⟨arena, scopes⟩ := st
  obtain ⟨arena', scopes'⟩ := st'
  subst hscopes hscopes'
  have hleft : C.left.Extends ⟨arena, C.left.scopes⟩ :=
    ⟨hl, h.rooted, h.rooted, Nat.le_refl _, fun _ _ => rfl⟩
  have hright : C.right.Extends ⟨arena', C.right.scopes⟩ :=
    ⟨hr, h.later.rooted', h.later.rooted', Nat.le_refl _, fun _ _ => rfl⟩
  have hbound : ∀ {st : Store κ} {a : Arena κ}, st.Indexed →
      st.arena.Extends a → (Store.bare ⟨a, st.scopes⟩).Indexed →
        Store.Indexed ⟨a, st.scopes⟩ := by
    intro st a hst hext hbare
    refine ⟨hbare.key_eq, fun n key id hb => ?_⟩
    obtain ⟨node, hn, hrest⟩ := hst.bound n key id hb
    exact ⟨node, hext id node hn, hrest⟩
  refine ⟨later_grown hleft hright, ?_⟩
  exact
    { bare := h.bare.grown hleft.bare hright.bare hi hi' (fun _ _ _ _ => rfl)
        fun _ _ _ _ => rfl
      rooted := h.rooted
      indexed := hbound h.indexed hl hi
      indexed' := hbound h.indexed' hr hi'
      node := h.node
      later := h.later.trans hright
      kept := h.kept
      unshadowed := h.unshadowed
      base_le := Nat.le_trans h.base_le hl.size_le
      anchors := fun x y hxy hy hcan => by
        obtain ⟨n, m, -, hm, -⟩ := h.exists_get? hxy
        exact h.anchors x y hxy hy ((hr.canonical_eq hm).symm.trans hcan)
      bound := h.bound
      bound' := h.bound' }

/-- A node was added on both sides, below nodes that correspond. -/
theorem opened (h : C.Ahead S) (hvw : C.nodes v w) :
    C.Later (C.opened v w) ∧ (C.opened v w).Ahead S := by
  obtain ⟨hv, hw⟩ := h.active hvw
  have hleft : C.left.Extends (C.left.opened v) := .opened h.rooted hv
  have hright : C.right.Extends (C.right.opened w) := .opened h.later.rooted' hw
  have hold : ∀ {t : ScopeTree κ} {p n : Nat} {key : κ} {x : SetId},
      (t.attach p).binding? n key = some x → n ≠ t.size ∧ t.binding? n key = some x := by
    intro t p n key x hb
    rw [ScopeTree.binding?_attach] at hb
    exact ⟨Nat.ne_of_lt (ScopeTree.lt_size_of_binding? hb), hb⟩
  refine ⟨⟨hleft, hright, fun _ _ => id, fun _ _ => Or.inl⟩, ?_⟩
  exact
    { bare := bare_opened C v w ▸ h.bare.opened hvw
      rooted := h.rooted.attach hv
      indexed := h.indexed.opened v
      indexed' := h.indexed'.opened w
      node := Or.inl h.node
      later := h.later.trans hright
      kept := fun n key y hy => (ScopeTree.binding?_attach _ _ _ _).trans (h.kept n key y hy)
      unshadowed := h.unshadowed.congr (hright.ancestors_eq (h.active h.node).2)
        fun _ _ _ => ScopeTree.binding?_attach _ _ _ _
      base_le := h.base_le
      anchors := h.anchors
      bound := fun a b key x hab hx => by
        obtain ⟨hne, hx⟩ := hold hx
        obtain ⟨y, key', hxy, hy⟩ :=
          h.bound a b key x (hab.resolve_right fun heq => hne heq.1) hx
        exact ⟨y, key', hxy, (ScopeTree.binding?_attach _ _ _ _).trans hy⟩
      bound' := fun a b key y hab hy => by
        obtain ⟨hne, hy⟩ := hold hy
        refine (h.bound' a b key y (hab.resolve_right fun heq => hne heq.2) hy).imp_left
          fun hmet => ?_
        obtain ⟨x, key', hxy, hx⟩ := hmet
        exact ⟨x, key', hxy, (ScopeTree.binding?_attach _ _ _ _).trans hx⟩ }

end Ahead

end Correspondence

end PathQuery
