/-
A store only grows, and what was judged stays judged.

`Arena.Extends` keeps every set under its number. `Store.Extends` keeps
the sets and the parents of scope nodes, between rooted trees; it is
what facts about a store survive (`Extends.judge?_eq`: the cardinality
of a set from an old node stays what it was). `Store.Grows` says more,
how far the store may have grown while one node was active, and is what
a step of compilation is shown to do.
-/
import PathQuery.Compile.Viewpoint
import PathQuery.Proofs.Store.Ancestry

namespace PathQuery

variable {κ : Type}

-- ============================================================== arenas

namespace Ir.Arena

variable {a a' a'' : Arena κ} {node : SetNode κ}

theorem exists_get?_of_lt {id : Nat} (h : id < a.size) :
    ∃ node, a.get? id = some node := by
  cases hg : a.get? id with
  | none =>
      have hle := (a.get?_eq_none_iff id).1 hg
      omega
  | some node => exact ⟨node, rfl⟩

/-- The source of a path set is there. -/
theorem exists_get?_source {id source : Nat} (h : a.get? id = some node)
    (hs : node.origin.source? = some source) :
    ∃ src, a.get? source = some src := by
  have hlt : source < id := lt_of_source h hs
  have hid : id < a.size := lt_size_of_get? h
  exact exists_get?_of_lt (by omega)

/-- Every set keeps its number. -/
def Extends (a a' : Arena κ) : Prop :=
  ∀ id node, a.get? id = some node → a'.get? id = some node

theorem Extends.refl (a : Arena κ) : a.Extends a := fun _ _ h => h

theorem Extends.trans (h : a.Extends a') (h' : a'.Extends a'') :
    a.Extends a'' :=
  fun id node hn => h' id node (h id node hn)

theorem Extends.size_le (h : a.Extends a') : a.size ≤ a'.size := by
  refine Nat.le_of_not_lt fun hlt => ?_
  obtain ⟨node, hn⟩ := exists_get?_of_lt hlt
  exact absurd (lt_size_of_get? (h a'.size node hn)) (Nat.lt_irrefl _)

theorem extends_push (a : Arena κ) (node : SetNode κ) (h) :
    a.Extends (a.push node h) := by
  intro id n hn
  have hlt : id < a.size := lt_size_of_get? hn
  rw [get?_push, if_neg (Nat.ne_of_lt hlt), hn]

theorem get?_push_self (a : Arena κ) (node : SetNode κ) (h) :
    (a.push node h).get? a.size = some node := by
  rw [get?_push, if_pos rfl]

/-- The type of a set, if there is one. -/
def type? (a : Arena κ) (id : SetId) : Option TypeId := (a.get? id).map (·.type)

theorem type?_eq_some_iff {id : Nat} {t : TypeId} :
    a.type? id = some t ↔ ∃ node, a.get? id = some node ∧ node.type = t :=
  Option.map_eq_some_iff

theorem Extends.type? (h : a.Extends a') {id : Nat} {t : TypeId}
    (ht : a.type? id = some t) :
    a'.type? id = some t := by
  obtain ⟨node, hn, heq⟩ := type?_eq_some_iff.1 ht
  exact type?_eq_some_iff.2 ⟨node, h id node hn, heq⟩

end Ir.Arena

-- ============================================================== judging

namespace Store

variable {st st' st'' : Store κ} {v id : Nat} {node : Ir.SetNode κ}
  {c : Cardinality}

/-- A set that lives above the viewpoint counts as one. -/
theorem judge?_above (hn : st.arena.get? id = some node)
    (ha : st.scopes.isStrictAncestor node.scope v = true) :
    st.judge? v id = some .one := by
  unfold judge?
  split
  · next h =>
      rw [h] at hn
      cases hn
  · next n h =>
      rw [h] at hn
      cases hn
      rw [if_pos ha]

/-- Any other step counts its source, times the pointer. -/
theorem judge?_step (hn : st.arena.get? id = some node)
    (ha : st.scopes.isStrictAncestor node.scope v = false) {source : Nat}
    {name : String} {per : Cardinality}
    (ho : node.origin = .step source name per) :
    st.judge? v id = (st.judge? v source).map fun c => c.mul per := by
  rw [judge?]
  split
  · next h =>
      rw [h] at hn
      cases hn
  · next n h =>
      rw [h] at hn
      cases hn
      rw [if_neg (by simp [ha])]
      split
      · next heq =>
          rw [ho] at heq
          cases heq
          rfl
      all_goals
        next heq =>
          rw [ho] at heq
          cases heq

/-- Any other set counts as it was made. -/
theorem judge?_made (hn : st.arena.get? id = some node)
    (ha : st.scopes.isStrictAncestor node.scope v = false)
    (ho : node.origin.source? = none) :
    st.judge? v id = some node.cardinality := by
  rw [judge?]
  split
  · next h =>
      rw [h] at hn
      cases hn
  · next n h =>
      rw [h] at hn
      cases hn
      rw [if_neg (by simp [ha])]
      split
      · next heq =>
          rw [heq] at ho
          cases ho
      all_goals rfl

/-- The three cases of judging a set, as one equation. -/
theorem judge?_eq (hn : st.arena.get? id = some node) :
    st.judge? v id =
      if st.scopes.isStrictAncestor node.scope v then some .one
      else match node.origin with
        | .step source _ per => (st.judge? v source).map fun c => c.mul per
        | .root | .computed _ => some node.cardinality := by
  split
  · next ha => exact judge?_above hn ha
  · next ha =>
      have ha' : st.scopes.isStrictAncestor node.scope v
          = false := by simpa using ha
      split
      · next ho => exact judge?_step hn ha' ho
      · next ho => exact judge?_made hn ha' (by rw [ho]; rfl)
      · next ho => exact judge?_made hn ha' (by rw [ho]; rfl)

/-- Only a set that is there is judged. -/
theorem exists_get?_of_judge? (h : st.judge? v id = some c) :
    ∃ node, st.arena.get? id = some node := by
  cases hn : st.arena.get? id with
  | some node => exact ⟨node, rfl⟩
  | none =>
      unfold judge? at h
      split at h
      · cases h
      · next heq =>
          rw [hn] at heq
          cases heq

/-- Every set that is there can be judged, from any node: the walk
towards the start of its path meets older and older sets. -/
theorem exists_judge? (st : Store κ) (v : Nat)
    (hn : st.arena.get? id = some node) :
    ∃ c, st.judge? v id = some c := by
  induction id using Nat.strongRecOn generalizing node with
  | ind id ih =>
      rw [judge?_eq hn]
      split
      · exact ⟨_, rfl⟩
      · split
        · next source name per ho =>
            have hs : node.origin.source? = some source := by rw [ho]; rfl
            obtain ⟨src, hsrc⟩ := Ir.Arena.exists_get?_source hn hs
            obtain ⟨c, hc⟩ := ih source (Ir.Arena.lt_of_source hn hs) hsrc
            exact ⟨c.mul per, by rw [hc]; rfl⟩
        · exact ⟨_, rfl⟩
        · exact ⟨_, rfl⟩

-- ============================================================== growth

/-- The sets and the parents of scope nodes are kept. -/
structure Extends (st st' : Store κ) : Prop where
  arena : st.arena.Extends st'.arena
  rooted : st.scopes.Rooted
  rooted' : st'.scopes.Rooted
  size_le : st.scopes.size ≤ st'.scopes.size
  parent_old : ∀ id : Nat, id < st.scopes.size →
    st'.scopes.parent? id = st.scopes.parent? id

namespace Extends

theorem refl (h : st.scopes.Rooted) : st.Extends st where
  arena := .refl _
  rooted := h
  rooted' := h
  size_le := Nat.le_refl _
  parent_old := fun _ _ => rfl

theorem trans (h : st.Extends st') (h' : st'.Extends st'') :
    st.Extends st'' where
  arena := h.arena.trans h'.arena
  rooted := h.rooted
  rooted' := h'.rooted'
  size_le := Nat.le_trans h.size_le h'.size_le
  parent_old := fun id hid => by
    rw [h'.parent_old id (Nat.lt_of_lt_of_le hid h.size_le),
      h.parent_old id hid]

/-- A node keeps its parent. -/
theorem parent? (h : st.Extends st') {n p : Nat}
    (hp : st.scopes.parent? n = some p) :
    st'.scopes.parent? n = some p := by
  rw [h.parent_old n (ScopeTree.lt_size_of_parent? hp), hp]

/-- The ancestors of an old node stay what they were. -/
theorem ancestors_eq (h : st.Extends st') {n : Nat} (hn : n < st.scopes.size) :
    st'.scopes.ancestors n = st.scopes.ancestors n :=
  h.rooted.ancestors_congr h.rooted' h.parent_old hn

/-- An ancestor stays an ancestor. -/
theorem mem_ancestors (h : st.Extends st') {a n : Nat}
    (ha : a ∈ st.scopes.ancestors n) :
    a ∈ st'.scopes.ancestors n := by
  by_cases hn : n < st.scopes.size
  · rw [h.ancestors_eq hn]
    exact ha
  · rcases h.rooted.mem_ancestors_iff.1 ha with rfl | ⟨p, hp, -⟩
    · exact ScopeTree.mem_ancestors_self _ _
    · exact absurd (ScopeTree.lt_size_of_parent? hp) hn

/-- The cardinality of a set, from a node that is there, stays what it
was. -/
theorem judge?_eq (h : st.Extends st') (hv : v < st.scopes.size)
    (hc : st.judge? v id = some c) : st'.judge? v id = some c := by
  obtain ⟨node, hn⟩ := exists_get?_of_judge? hc
  induction id using Nat.strongRecOn generalizing node c with
  | ind id ih =>
      have habove : ∀ a, st'.scopes.isStrictAncestor a v
          = st.scopes.isStrictAncestor a v := by
        intro a
        unfold ScopeTree.isStrictAncestor
        rw [h.ancestors_eq hv]
      rw [Store.judge?_eq hn] at hc
      rw [Store.judge?_eq (h.arena id node hn), habove]
      split at hc
      · next ha => rw [if_pos ha, hc]
      · next ha =>
          rw [if_neg ha]
          split at hc
          · next source name per ho =>
              have hs : node.origin.source? = some source := by rw [ho]; rfl
              obtain ⟨d, hd, heq⟩ := Option.map_eq_some_iff.1 hc
              obtain ⟨src, hsrc⟩ := Ir.Arena.exists_get?_source hn hs
              rw [ih source (Ir.Arena.lt_of_source hn hs) hd src hsrc]
              exact congrArg some heq
          · exact hc
          · exact hc

end Extends

/-- How far a store may grow while `active` is the active node. -/
structure Grows [DecidableEq κ] (active : Nat) (st st' : Store κ) : Prop where
  arena : st.arena.Extends st'.arena
  scopes : st.scopes.GrowsFrom active st'.scopes

namespace Grows

variable [DecidableEq κ] {active : Nat}

theorem refl (active : Nat) (st : Store κ) : st.Grows active st :=
  ⟨.refl _, .refl _ _⟩

theorem trans (h : st.Grows active st') (h' : st'.Grows active st'') :
    st.Grows active st'' :=
  ⟨h.arena.trans h'.arena, h.scopes.trans h'.scopes⟩

theorem toExtends (h : st.Grows active st') (hr : st.scopes.Rooted)
    (hr' : st'.scopes.Rooted) :
    st.Extends st' :=
  ⟨h.arena, hr, hr', h.scopes.size_le, h.scopes.parent_old⟩

/-- Growth below a new node is growth from its parent that binds nothing
there. -/
theorem of_scope
    (h : Grows st.scopes.size { st with scopes := st.scopes.attach active }
      st') :
    st.Grows active st' where
  arena := h.arena
  scopes := by
    have hsize := h.scopes.size_le
    rw [ScopeTree.size_attach] at hsize
    have hold : ∀ id : Nat, id < st.scopes.size → ∀ key,
        st'.scopes.binding? id key = st.scopes.binding? id key := by
      intro id hid key
      rw [h.scopes.binding_old id (by rw [ScopeTree.size_attach]; omega)
        (by omega),
        ScopeTree.binding?_attach]
    refine ⟨by omega, fun id hid => ?_, fun id hle hlt => ?_,
      fun id hid _ => hold id hid,
      fun key set hb => by
        rw [hold active (ScopeTree.lt_size_of_binding? hb) key, hb]⟩
    · rw [h.scopes.parent_old id (by rw [ScopeTree.size_attach]; omega),
        ScopeTree.parent?_attach, if_neg (by omega)]
    · by_cases hid : id = st.scopes.size
      · subst hid
        refine ⟨active, ?_, Or.inl rfl⟩
        rw [h.scopes.parent_old _ (by rw [ScopeTree.size_attach]; omega),
          ScopeTree.parent?_attach_self]
      · obtain ⟨p, hp, hcase⟩ :=
          h.scopes.parent_new id (by rw [ScopeTree.size_attach]; omega) hlt
        rw [ScopeTree.size_attach] at hcase
        exact ⟨p, hp, Or.inr (by omega)⟩

end Grows

end Store

end PathQuery
