/-
Ancestors in a rooted scope tree.

A tree is rooted if every parent is an older node than its child. The
walk towards the root then gets older with every step, so the cut-off
of `ancestors` is never reached and the list obeys the equation one
expects (`ancestors_eq`): a node, then the ancestors of its parent.
Everything else follows from that equation by induction on the age.

A tree only ever grows. `GrowsFrom active` says how far it may while
`active` is the active node: old nodes keep their parents and their
bindings, only `active` gains some, and new nodes stand below `active`
or below each other. The ancestors of an old node stay what they were
(`Rooted.ancestors_congr`).
-/
import PathQuery.ScopeTree

namespace PathQuery.ScopeTree

variable {κ : Type} {t t' t'' : ScopeTree κ} {a b c n p : Nat}

-- ============================================================== rooted

/-- There is a root, and every parent is older than its child. -/
structure Rooted (t : ScopeTree κ) : Prop where
  size_pos : 0 < t.size
  parent_lt : ∀ id parent : Nat, t.parent? id = some parent → parent < id

theorem lt_size_of_parent? (h : t.parent? n = some p) : n < t.size := by
  unfold parent? at h
  obtain ⟨node, hnode, -⟩ := Option.bind_eq_some_iff.1 h
  exact (Array.getElem?_eq_some_iff.1 hnode).1

theorem rooted_new : (new : ScopeTree κ).Rooted where
  size_pos := by
    show 0 < 1
    omega
  parent_lt := by
    intro id parent h
    have hid : id < 1 := lt_size_of_parent? h
    obtain rfl : id = 0 := by omega
    cases h

/-- The cut-off of a walk does not matter once it exceeds the age of
the node. -/
theorem Rooted.walk_eq (h : t.Rooted) {i j : Nat} (hi : n < i) (hj : n < j) :
    t.walk i n = t.walk j n := by
  induction i generalizing n j with
  | zero => omega
  | succ i ih =>
      cases j with
      | zero => omega
      | succ j =>
          unfold walk
          cases hp : t.parent? n with
          | none => rfl
          | some p =>
              have hlt := h.parent_lt n p hp
              exact congrArg (n :: ·) (ih (by omega) (by omega))

/-- A node, then the ancestors of its parent. -/
theorem Rooted.ancestors_eq (h : t.Rooted) (n : Nat) :
    t.ancestors n = n :: match t.parent? n with
      | some p => t.ancestors p
      | none => [] := by
  unfold ancestors
  rw [walk]
  cases hp : t.parent? n with
  | none => rfl
  | some p =>
      have hlt := h.parent_lt n p hp
      have hn := lt_size_of_parent? hp
      exact congrArg (n :: ·) (h.walk_eq (by omega) (by omega))

@[simp] theorem mem_ancestors_self (t : ScopeTree κ) (n : Nat) :
    n ∈ t.ancestors n := by
  unfold ancestors walk
  exact List.mem_cons_self

/-- No node is strictly above itself. -/
theorem isStrictAncestor_self (t : ScopeTree κ) (n : Nat) :
    t.isStrictAncestor n n = false := by
  simp [isStrictAncestor]

theorem Rooted.mem_ancestors_iff (h : t.Rooted) :
    a ∈ t.ancestors n ↔ a = n ∨ ∃ p, t.parent? n = some p
      ∧ a ∈ t.ancestors p := by
  rw [h.ancestors_eq n, List.mem_cons]
  cases hp : t.parent? n with
  | none => simp
  | some p => simp

/-- An ancestor is no younger. -/
theorem Rooted.le_of_mem_ancestors (h : t.Rooted) (ha : a ∈ t.ancestors n) :
    a ≤ n := by
  induction n using Nat.strongRecOn with
  | ind n ih =>
      rcases h.mem_ancestors_iff.1 ha with rfl | ⟨p, hp, ha⟩
      · exact Nat.le_refl a
      · have hlt := h.parent_lt n p hp
        exact Nat.le_trans (ih p hlt ha) (by omega)

theorem Rooted.ancestors_trans (h : t.Rooted) (hab : a ∈ t.ancestors b)
    (hbc : b ∈ t.ancestors c) : a ∈ t.ancestors c := by
  induction c using Nat.strongRecOn with
  | ind c ih =>
      rcases h.mem_ancestors_iff.1 hbc with rfl | ⟨p, hp, hbp⟩
      · exact hab
      · exact h.mem_ancestors_iff.2
          (Or.inr ⟨p, hp, ih p (h.parent_lt c p hp) hbp⟩)

theorem Rooted.mem_ancestors_of_parent? (h : t.Rooted)
    (hp : t.parent? n = some p) (ha : a ∈ t.ancestors p) : a ∈ t.ancestors n :=
  h.mem_ancestors_iff.2 (Or.inr ⟨p, hp, ha⟩)

/-- What is strictly above a node is above it and older. -/
theorem Rooted.isStrictAncestor_iff (h : t.Rooted) :
    t.isStrictAncestor a n = true ↔ a ∈ t.ancestors n ∧ a < n := by
  unfold isStrictAncestor
  rw [Bool.and_eq_true, bne_iff_ne, List.contains_iff_mem]
  constructor
  · intro hne
    have hle := h.le_of_mem_ancestors hne.2
    exact ⟨hne.2, Nat.lt_of_le_of_ne hle hne.1⟩
  · intro hlt
    exact ⟨Nat.ne_of_lt hlt.2, hlt.1⟩

/-- What is strictly above a node is so seen from further in. -/
theorem Rooted.isStrictAncestor_mono (h : t.Rooted) {x : Nat}
    (ha : a ∈ t.ancestors n) (hx : t.isStrictAncestor x a = true) :
    t.isStrictAncestor x n = true := by
  rw [h.isStrictAncestor_iff] at hx ⊢
  have hle := h.le_of_mem_ancestors ha
  exact ⟨h.ancestors_trans hx.1 ha, by omega⟩

theorem Rooted.isStrictAncestor_of_parent? (h : t.Rooted)
    (hp : t.parent? n = some p) (a : Nat) :
    t.isStrictAncestor a n = (t.ancestors p).contains a := by
  unfold ScopeTree.isStrictAncestor
  rw [h.ancestors_eq n, hp, List.contains_cons]
  by_cases ha : a = n
  · subst ha
    have hlt := h.parent_lt a p hp
    have hnot : a ∉ t.ancestors p := fun hmem =>
      Nat.lt_irrefl _ (Nat.lt_of_lt_of_le hlt (h.le_of_mem_ancestors hmem))
    simpa using hnot
  · have hne : (a == n) = false := by simpa using ha
    rw [bne, hne]
    rfl

/-- Strictly above a node are its parent and what is strictly above the
parent. -/
theorem Rooted.isStrictAncestor_parent_iff (h : t.Rooted)
    (hp : t.parent? n = some p) :
    t.isStrictAncestor a n = true ↔
      a = p ∨ t.isStrictAncestor a p = true := by
  rw [h.isStrictAncestor_of_parent? hp, List.contains_iff_mem,
    h.isStrictAncestor_iff]
  constructor
  · intro hmem
    have hle := h.le_of_mem_ancestors hmem
    by_cases heq : a = p
    · exact Or.inl heq
    · exact Or.inr ⟨hmem, by omega⟩
  · rintro (rfl | ⟨hmem, -⟩)
    · exact t.mem_ancestors_self a
    · exact hmem

/-- The ancestors of a node depend on the parents alone: a tree that
keeps them keeps the ancestors of its nodes. -/
theorem Rooted.ancestors_congr (h : t.Rooted) (h' : t'.Rooted)
    (hp : ∀ id : Nat, id < t.size → t'.parent? id = t.parent? id)
    (hn : n < t.size) :
    t'.ancestors n = t.ancestors n := by
  induction n using Nat.strongRecOn with
  | ind n ih =>
      rw [h.ancestors_eq, h'.ancestors_eq, hp n hn]
      cases hpar : t.parent? n with
      | none => rfl
      | some p =>
          have hlt := h.parent_lt n p hpar
          exact congrArg (n :: ·) (ih p hlt (by omega))

-- ============================================================== growth

/-- How a tree may grow while `active` is its active node. -/
structure GrowsFrom (active : Nat) (t t' : ScopeTree κ) [DecidableEq κ] :
    Prop where
  size_le : t.size ≤ t'.size
  parent_old : ∀ id : Nat, id < t.size → t'.parent? id = t.parent? id
  parent_new : ∀ id : Nat, t.size ≤ id → id < t'.size →
    ∃ parent : Nat, t'.parent? id = some parent
      ∧ (parent = active ∨ t.size ≤ parent)
  binding_old : ∀ id : Nat, id < t.size → id ≠ active →
    ∀ key, t'.binding? id key = t.binding? id key
  binding_kept : ∀ key set, t.binding? active key = some set →
    t'.binding? active key = some set

namespace GrowsFrom

variable [DecidableEq κ] {active : Nat}

theorem refl (active : Nat) (t : ScopeTree κ) : GrowsFrom active t t where
  size_le := Nat.le_refl _
  parent_old := fun _ _ => rfl
  parent_new := fun id hle hlt => absurd hlt (by omega)
  binding_old := fun _ _ _ _ => rfl
  binding_kept := fun _ _ h => h

theorem trans (h : GrowsFrom active t t') (h' : GrowsFrom active t' t'') :
    GrowsFrom active t t'' where
  size_le := Nat.le_trans h.size_le h'.size_le
  parent_old := fun id hid => by
    rw [h'.parent_old id (Nat.lt_of_lt_of_le hid h.size_le),
      h.parent_old id hid]
  parent_new := fun id hle hlt => by
    by_cases hid : id < t'.size
    · obtain ⟨p, hp, hcase⟩ := h.parent_new id hle hid
      exact ⟨p, by rw [h'.parent_old id hid, hp], hcase⟩
    · obtain ⟨p, hp, hcase⟩ := h'.parent_new id (by omega) hlt
      have hsize := h.size_le
      exact ⟨p, hp, hcase.imp_right fun hle => by omega⟩
  binding_old := fun id hid hne key => by
    rw [h'.binding_old id (Nat.lt_of_lt_of_le hid h.size_le) hne,
      h.binding_old id hid hne]
  binding_kept :=
    fun key set hb => h'.binding_kept key set (h.binding_kept key set hb)

end GrowsFrom

-- ========================================================== operations

@[simp] theorem size_attach (t : ScopeTree κ) (p : Nat) :
    (t.attach p).size = t.size + 1 := by
  simp [attach, size]

theorem parent?_attach (t : ScopeTree κ) (p n : Nat) :
    (t.attach p).parent? n = if n = t.size then some p else t.parent? n := by
  unfold parent? attach size
  rw [Array.getElem?_push]
  split <;> rfl

theorem Rooted.attach (h : t.Rooted) (hp : p < t.size) :
    (t.attach p).Rooted where
  size_pos := by
    rw [size_attach]
    omega
  parent_lt := by
    intro id parent hid
    rw [parent?_attach] at hid
    split at hid
    · injection hid with hid
      omega
    · exact h.parent_lt id parent hid

/-- The new node stands right below its parent. -/
theorem parent?_attach_self (t : ScopeTree κ) (p : Nat) :
    (t.attach p).parent? t.size = some p := by
  rw [parent?_attach, if_pos rfl]

theorem Rooted.mem_ancestors_attach (h : t.Rooted) (hp : p < t.size) :
    p ∈ (t.attach p).ancestors t.size :=
  (h.attach hp).mem_ancestors_of_parent? (parent?_attach_self t p)
    (mem_ancestors_self _ p)

variable [DecidableEq κ] {key key' : κ} {set set' : Nat}

theorem lt_size_of_binding? (h : t.binding? n key = some set) : n < t.size := by
  unfold binding? at h
  obtain ⟨node, hnode, -⟩ := Option.bind_eq_some_iff.1 h
  exact (Array.getElem?_eq_some_iff.1 hnode).1

/-- A new tree binds nothing. -/
@[simp] theorem binding?_new (n : Nat) (key : κ) :
    (new : ScopeTree κ).binding? n key = none := by
  cases hb : (new : ScopeTree κ).binding? n key with
  | none => rfl
  | some set =>
      have hlt := lt_size_of_binding? hb
      have hsize : (new : ScopeTree κ).size = 1 := rfl
      obtain rfl : n = 0 := by omega
      cases hb

/-- A new node binds nothing. -/
theorem binding?_attach (t : ScopeTree κ) (p n : Nat) (key : κ) :
    (t.attach p).binding? n key = t.binding? n key := by
  unfold binding? attach
  rw [Array.getElem?_push]
  split
  · next hn =>
      rw [hn, Array.getElem?_eq_none (Nat.le_refl _)]
      rfl
  · rfl

theorem growsFrom_attach (t : ScopeTree κ) (p : Nat) :
    GrowsFrom p t (t.attach p) where
  size_le := by
    rw [size_attach]
    omega
  parent_old := fun id hid => by rw [parent?_attach, if_neg (by omega)]
  parent_new := fun id hle hlt => by
    rw [size_attach] at hlt
    obtain rfl : id = t.size := by omega
    exact ⟨p, parent?_attach_self t p, Or.inl rfl⟩
  binding_old := fun id _ _ key => binding?_attach t p id key
  binding_kept := fun key set h => by rw [binding?_attach, h]

@[simp] theorem size_bind (t : ScopeTree κ) (n : Nat) (key : κ) (set : Nat) :
    (t.bind n key set).size = t.size := by
  simp [bind, size]

@[simp] theorem parent?_bind (t : ScopeTree κ) (n : Nat) (key : κ) (set : Nat)
    (m : Nat) : (t.bind n key set).parent? m = t.parent? m := by
  unfold parent? bind
  rw [Array.getElem?_modify]
  split
  · cases t.nodes[m]? <;> rfl
  · rfl

theorem Rooted.bind (h : t.Rooted) (n : Nat) (key : κ) (set : Nat) :
    (t.bind n key set).Rooted where
  size_pos := by
    rw [size_bind]
    exact h.size_pos
  parent_lt := by
    intro id parent hid
    rw [parent?_bind] at hid
    exact h.parent_lt id parent hid

/-- Binding a path in a node changes that path in that node and nothing
else. -/
theorem binding?_bind (hn : n < t.size) (m : Nat) (key' : κ) :
    (t.bind n key set).binding? m key'
      = if m = n ∧ key' = key then some set else t.binding? m key' := by
  unfold binding? bind
  rw [Array.getElem?_modify]
  by_cases hm : n = m
  · subst hm
    rw [if_pos rfl, Array.getElem?_eq_getElem hn]
    simp only [Option.map_some, Option.bind_some, Table.get?_insert, true_and]
  · rw [if_neg hm, if_neg fun h => hm h.1.symm]

/-- Without the node, nothing happens. -/
theorem bind_of_size_le (hn : t.size ≤ n) : t.bind n key set = t := by
  unfold bind
  have hnone : t.nodes[n]? = none := Array.getElem?_eq_none hn
  refine congrArg ScopeTree.mk (Array.ext_getElem? fun m => ?_)
  rw [Array.getElem?_modify]
  split
  · next heq =>
      subst heq
      rw [hnone]
      rfl
  · rfl

theorem growsFrom_bind_of_lt (hn : n < t.size)
    (hfree : t.binding? n key = none) :
    GrowsFrom n t (t.bind n key set) where
  size_le := Nat.le_of_eq (size_bind t n key set).symm
  parent_old := fun id _ => parent?_bind t n key set id
  parent_new := fun id hle hlt => by
    rw [size_bind] at hlt
    omega
  binding_old := fun id _ hne key' => by
    rw [binding?_bind hn, if_neg fun h => hne h.1]
  binding_kept := fun key' set' h => by
    rw [binding?_bind hn]
    split
    · next heq =>
        rw [heq.2, hfree] at h
        cases h
    · exact h

/-- Binding a path that the active node does not bind. -/
theorem growsFrom_bind (hfree : t.binding? n key = none) :
    GrowsFrom n t (t.bind n key set) := by
  by_cases hn : n < t.size
  · exact growsFrom_bind_of_lt hn hfree
  · rw [bind_of_size_le (Nat.le_of_not_lt hn)]
    exact .refl n t

-- ============================================================== lookup

/-- What is found is bound in an ancestor. -/
theorem binding?_of_lookup (h : t.lookup n key = some (a, set)) :
    a ∈ t.ancestors n ∧ t.binding? a key = some set := by
  unfold lookup at h
  obtain ⟨m, hm, hb⟩ := List.exists_of_findSome?_eq_some h
  obtain ⟨found, hfound, heq⟩ := Option.map_eq_some_iff.1 hb
  cases heq
  exact ⟨hm, hfound⟩

/-- Nothing is found exactly if no ancestor binds the path. -/
theorem lookup_eq_none_iff :
    t.lookup n key = none ↔ ∀ a ∈ t.ancestors n, t.binding? a key = none := by
  unfold lookup
  rw [List.findSome?_eq_none_iff]
  simp only [Option.map_eq_none_iff]

/-- What is found depends on what the ancestors bind alone. -/
theorem lookup_congr (hanc : t'.ancestors n = t.ancestors n)
    (hb : ∀ a ∈ t.ancestors n, t'.binding? a key = t.binding? a key) :
    t'.lookup n key = t.lookup n key := by
  unfold lookup
  rw [hanc]
  generalize t.ancestors n = nodes at hb
  induction nodes with
  | nil => rfl
  | cons a nodes ih =>
      obtain ⟨ha, hnodes⟩ := List.forall_mem_cons.1 hb
      rw [List.findSome?_cons, List.findSome?_cons, ha, ih hnodes]

-- =========================================================== shadowing

/-- No path is bound twice on the way from a node to the root. -/
def Unshadowed (t : ScopeTree κ) (n : Nat) : Prop :=
  ∀ a ∈ t.ancestors n, ∀ b ∈ t.ancestors n, ∀ (key : κ) (x y : Nat),
    t.binding? a key = some x → t.binding? b key = some y → a = b

/-- Without shadowing, whatever an ancestor binds is found. -/
theorem Unshadowed.lookup_eq (h : t.Unshadowed n) (ha : a ∈ t.ancestors n)
    (hb : t.binding? a key = some set) : t.lookup n key = some (a, set) := by
  cases hl : t.lookup n key with
  | none =>
      have := lookup_eq_none_iff.1 hl a ha
      rw [hb] at this
      cases this
  | some found =>
      obtain ⟨m, s⟩ := found
      obtain ⟨hm, hs⟩ := binding?_of_lookup hl
      obtain rfl := h a ha m hm key _ _ hb hs
      rw [hb] at hs
      cases hs
      rfl

theorem unshadowed_new (n : Nat) : (new : ScopeTree κ).Unshadowed n := by
  intro a _ b _ key x y hx
  rw [binding?_new] at hx
  cases hx

theorem Unshadowed.of_ancestor (h : t.Unshadowed n) (hr : t.Rooted)
    (ha : a ∈ t.ancestors n) :
    t.Unshadowed a :=
  fun x hx y hy => h x (hr.ancestors_trans hx ha) y (hr.ancestors_trans hy ha)

/-- A new node adds no binding to the way to the root. -/
theorem Unshadowed.attach (h : t.Unshadowed n) (hr : t.Rooted)
    (hn : n < t.size) : (t.attach n).Unshadowed t.size := by
  have hr' := hr.attach hn
  have hold : ∀ x ∈ (t.attach n).ancestors t.size, ∀ key s,
      (t.attach n).binding? x key = some s → x ∈ t.ancestors n := by
    intro x hx key s hs
    rw [binding?_attach] at hs
    rcases hr'.mem_ancestors_iff.1 hx with rfl | ⟨p, hp, hx⟩
    · exact absurd (lt_size_of_binding? hs) (Nat.lt_irrefl _)
    · rw [parent?_attach_self] at hp
      cases hp
      rwa [hr.ancestors_congr hr' (growsFrom_attach t n).parent_old hn] at hx
  intro x hx y hy key s s' hs hs'
  have hx' := hold x hx key s hs
  have hy' := hold y hy key s' hs'
  rw [binding?_attach] at hs hs'
  exact h x hx' y hy' key s s' hs hs'

/-- Binding a path that is not found leaves every path bound once. -/
theorem Unshadowed.bind (h : t.Unshadowed n) (hr : t.Rooted) (hn : n < t.size)
    (hfree : t.lookup n key = none) : (t.bind n key set).Unshadowed n := by
  have hnone := lookup_eq_none_iff.1 hfree
  have hanc := hr.ancestors_congr (hr.bind n key set)
    (fun id _ => parent?_bind t n key set id) hn
  intro a ha b hb key' x y hx hy
  rw [hanc] at ha hb
  rw [binding?_bind hn] at hx hy
  by_cases hkey : key' = key
  · -- the path just bound is bound in the active node alone
    subst hkey
    have hself : ∀ m ∈ t.ancestors n, ∀ z,
        (if m = n ∧ key' = key' then some set else t.binding? m key') = some z →
          m = n := by
      intro m hm z hz
      split at hz
      · next heq => exact heq.1
      · rw [hnone m hm] at hz
        cases hz
    rw [hself a ha x hx, hself b hb y hy]
  · rw [if_neg (by simp [hkey])] at hx hy
    exact h a ha b hb key' x y hx hy

end PathQuery.ScopeTree
