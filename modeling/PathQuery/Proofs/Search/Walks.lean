/-
What the two searches find.

`Walk next n a b` is a walk of exactly `n` steps. Both searches are
related to walks and thereby to each other: `meets` answers whether
some walk no longer than its rounds leads from its layer to the goal
(`meets_iff`), and `levelOrder` lists the ends of such walks
(`walk_of_mem_levelOrder`, `mem_levelOrder_of_walk`), in order of their
distance (`pairwise_levelOrder`). A walk need not be longer than there
are nodes (`Walk.exists_short`).

A property that every step keeps is kept by a walk (`Walk.keeps`),
which is how facts about direct bases become facts about supertypes.
-/
import Mathlib.Data.List.Nodup
import Mathlib.Data.List.Perm.Subperm
import Mathlib.Data.Nat.Find
import Mathlib.Tactic.Choose
import PathQuery.Search

namespace PathQuery.Search

variable {α : Type} {next : α → List α}

-- =============================================================== walks

/-- A walk of `n` steps along `next`. -/
inductive Walk (next : α → List α) : Nat → α → α → Prop where
  | nil (a : α) : Walk next 0 a a
  | cons {n : Nat} {a b c : α} :
      b ∈ next a → Walk next n b c → Walk next (n + 1) a c

namespace Walk

/-- What every step keeps, the walk keeps. -/
theorem keeps {P : α → Prop} (hstep : ∀ a b, P a → b ∈ next a → P b) {n : Nat}
    {a b : α} (h : Walk next n a b) (ha : P a) : P b := by
  induction h with
  | nil => exact ha
  | cons hb _ ih => exact ih (hstep _ _ ha hb)

variable {a b c : α} {m n : Nat}

theorem trans (h : Walk next m a b) (h' : Walk next n b c) :
    Walk next (m + n) a c := by
  induction h with
  | nil => rwa [Nat.zero_add]
  | cons hb _ ih =>
      rw [Nat.add_right_comm]
      exact .cons hb (ih h')

/-- A walk may be cut after any number of its steps. -/
theorem split (h : Walk next (m + n) a c) :
    ∃ b, Walk next m a b ∧ Walk next n b c := by
  induction m generalizing a with
  | zero => exact ⟨a, .nil a, Nat.zero_add n ▸ h⟩
  | succ m ih =>
      rw [Nat.add_right_comm] at h
      cases h with
      | cons hb h =>
          obtain ⟨x, hx, hxc⟩ := ih h
          exact ⟨x, .cons hb hx, hxc⟩

/-- Among nodes that steps do not lead out of, a shortest walk visits no
node twice, so it has fewer steps than there are nodes. -/
theorem exists_short {nodes : List α}
    (hclosed : ∀ a b, a ∈ nodes → b ∈ next a → b ∈ nodes) (ha : a ∈ nodes)
    (h : Walk next n a b) : ∃ m < nodes.length, Walk next m a b := by
  classical
  have hex : ∃ n, Walk next n a b := ⟨n, h⟩
  have hmin : ∀ k, Walk next k a b → Nat.find hex ≤ k := fun _ hk =>
    Nat.find_min' hex hk
  refine ⟨Nat.find hex, ?_, Nat.find_spec hex⟩
  -- the node at each distance from the start, up to the end
  have hat : ∀ k : Nat, ∃ x, k ≤ Nat.find hex → Walk next k a x
      ∧ ∀ j, Walk next j a x → k ≤ j := by
    intro k
    by_cases hk : k ≤ Nat.find hex
    · obtain ⟨x, hx, hxb⟩ :=
        (Nat.add_sub_cancel' hk ▸ Nat.find_spec hex).split
      refine ⟨x, fun _ => ⟨hx, fun j hj => ?_⟩⟩
      have hle := hmin _ (hj.trans hxb)
      omega
    · exact ⟨a, fun h => absurd h hk⟩
  choose node hat using hat
  have hnodup : ((List.range (Nat.find hex + 1)).map node).Nodup := by
    refine List.Nodup.map_on (fun i hi j hj heq => ?_) List.nodup_range
    obtain ⟨hwi, hi'⟩ := hat i (Nat.lt_succ_iff.1 (List.mem_range.1 hi))
    obtain ⟨hwj, hj'⟩ := hat j (Nat.lt_succ_iff.1 (List.mem_range.1 hj))
    exact Nat.le_antisymm (hi' j (heq ▸ hwj)) (hj' i (heq ▸ hwi))
  have hsub : ∀ x ∈ (List.range (Nat.find hex + 1)).map node, x ∈ nodes := by
    intro x hx
    obtain ⟨i, hi, rfl⟩ := List.mem_map.1 hx
    obtain ⟨hw, -⟩ := hat i (Nat.lt_succ_iff.1 (List.mem_range.1 hi))
    exact hw.keeps hclosed ha
  have hle := (hnodup.subperm hsub).length_le
  rw [List.length_map, List.length_range] at hle
  exact hle

/-- Walks of one length to two ends part at some node. -/
theorem exists_fork (h : Walk next n a b) (h' : Walk next n a c) (hne : b ≠ c) :
    ∃ x y z k m, Walk next k a x ∧ y ∈ next x ∧ z ∈ next x ∧ y ≠ z
      ∧ Walk next m y b ∧ Walk next m z c := by
  induction h with
  | nil =>
      cases h'
      exact absurd rfl hne
  | @cons n a y b hy h ih =>
      cases h' with
      | @cons _ _ z _ hz h' =>
          by_cases heq : y = z
          · subst heq
            obtain ⟨x, y', z', k, m, hx, hrest⟩ := ih h' hne
            exact ⟨x, y', z', k + 1, m, .cons hy hx, hrest⟩
          · exact ⟨a, y, z, 0, n, .nil a, hy, hz, heq, h, h'⟩

/-- Where each node has one successor at most, so has each walk one end. -/
theorem unique {P : α → Prop} (hstep : ∀ a b, P a → b ∈ next a → P b)
    (hone : ∀ a, P a → ∀ b ∈ next a, ∀ c ∈ next a, b = c) (ha : P a)
    (h : Walk next n a b) (h' : Walk next n a c) : b = c := by
  by_contra hne
  obtain ⟨x, y, z, k, m, hx, hy, hz, hyz, -⟩ := h.exists_fork h' hne
  exact hyz (hone x (hx.keeps hstep ha) y hy z hz)

end Walk

-- =============================================================== meets

variable [DecidableEq α]

/-- The layered search finds its goal exactly if a walk within its
rounds leads there. -/
theorem meets_iff {goal : α} {rounds : Nat} {layer : List α} :
    meets next goal rounds layer = true
      ↔ ∃ a ∈ layer, ∃ n ≤ rounds, Walk next n a goal := by
  induction rounds generalizing layer with
  | zero =>
      cases layer with
      | nil => simp [meets]
      | cons x xs =>
          rw [meets, List.contains_iff_mem]
          · constructor
            · intro h
              exact ⟨goal, h, 0, Nat.le_refl 0, .nil goal⟩
            · intro h
              obtain ⟨a, ha, n, hn, hw⟩ := h
              cases hw with
              | nil => exact ha
              | cons => omega
          · simp
  | succ rounds ih =>
      cases layer with
      | nil => simp [meets]
      | cons x xs =>
          rw [meets, Bool.or_eq_true, List.contains_iff_mem, ih]
          · constructor
            · intro h
              rcases h with h | ⟨b, hb, n, hn, hw⟩
              · exact ⟨goal, h, 0, Nat.zero_le _, .nil goal⟩
              · rw [List.mem_eraseDups, List.mem_flatMap] at hb
                obtain ⟨a, ha, hab⟩ := hb
                exact ⟨a, ha, n + 1, by omega, .cons hab hw⟩
            · intro h
              obtain ⟨a, ha, n, hn, hw⟩ := h
              cases hw with
              | nil => exact Or.inl ha
              | @cons m _ b _ hb hw =>
                  refine Or.inr ⟨b, ?_, m, by omega, hw⟩
                  rw [List.mem_eraseDups, List.mem_flatMap]
                  exact ⟨a, ha, hb⟩
          · simp

-- ========================================================== levelOrder

theorem mem_fresh {seen : List α} {b : α} (h : b ∈ fresh next seen) :
    ∃ a ∈ seen, b ∈ next a := by
  unfold fresh at h
  rw [List.mem_eraseDups, List.mem_filter, List.mem_flatMap] at h
  exact h.1

/-- Whatever the search by levels lists is within its rounds of the
nodes it started from. -/
theorem walk_of_mem_levelOrder {rounds : Nat} {seen : List α} {b : α}
    (h : b ∈ levelOrder next rounds seen) :
    ∃ a ∈ seen, ∃ n ≤ rounds, Walk next n a b := by
  induction rounds generalizing seen with
  | zero => exact ⟨b, h, 0, Nat.le_refl 0, .nil b⟩
  | succ rounds ih =>
      unfold levelOrder at h
      split at h
      · exact ⟨b, h, 0, Nat.zero_le _, .nil b⟩
      · next found _ hfound =>
          obtain ⟨a, ha, n, hn, hw⟩ := ih h
          rcases List.mem_append.1 ha with ha | ha
          · exact ⟨a, ha, n, by omega, hw⟩
          · obtain ⟨a', ha', hstep⟩ := mem_fresh ha
            exact ⟨a', ha', n + 1, by omega, .cons hstep hw⟩

theorem mem_fresh_or_seen {seen : List α} {a b : α} (ha : a ∈ seen)
    (hb : b ∈ next a) : b ∈ seen ∨ b ∈ fresh next seen := by
  by_cases hmem : b ∈ seen
  · exact Or.inl hmem
  · refine Or.inr ?_
    unfold fresh
    rw [List.mem_eraseDups, List.mem_filter, List.mem_flatMap]
    exact ⟨⟨a, ha, hb⟩, by simpa using hmem⟩

/-- The search by levels lists whatever is within its rounds. -/
theorem mem_levelOrder_of_walk {rounds : Nat} {seen : List α} {a b : α}
    (ha : a ∈ seen) {n : Nat} (hn : n ≤ rounds) (h : Walk next n a b) :
    b ∈ levelOrder next rounds seen := by
  induction rounds generalizing seen a n with
  | zero =>
      obtain rfl := Nat.le_zero.1 hn
      cases h
      exact ha
  | succ rounds ih =>
      unfold levelOrder
      split
      · next hnone =>
          -- nothing leads out of the nodes seen
          refine h.keeps (P := (· ∈ seen)) (fun x y hx hy => ?_) ha
          rcases mem_fresh_or_seen hx hy with hy | hy
          · exact hy
          · rw [hnone] at hy
            cases hy
      · next found _ hfound =>
          cases h with
          | nil =>
              exact ih (List.mem_append_left _ ha) (Nat.zero_le _) (.nil _)
          | cons hb h =>
              refine ih (List.mem_append.2 ?_) (by omega) h
              rcases mem_fresh_or_seen ha hb with hb | hb
              · exact Or.inl hb
              · exact Or.inr hb

/-- One node is no further from a start than another. -/
def Nearer (next : α → List α) (start a b : α) : Prop :=
  ∀ n, Walk next n start b → ∃ m ≤ n, Walk next m start a

omit [DecidableEq α] in
/-- The first node of a list that passes a test stands before the others
that pass it. -/
theorem rel_of_find? {R : α → α → Prop} {nodes : List α} {test : α → Bool}
    {a b : α} (h : nodes.Pairwise R) (ha : nodes.find? test = some a)
    (hb : b ∈ nodes) (htest : test b = true) : a = b ∨ R a b := by
  obtain ⟨-, before, after, rfl, hfails⟩ := List.find?_eq_some_iff_append.1 ha
  rcases List.mem_append.1 hb with hb | hb
  · have hfail := hfails b hb
    rw [htest] at hfail
    cases hfail
  · rcases List.mem_cons.1 hb with rfl | hb
    · exact Or.inl rfl
    · exact Or.inr
        (List.rel_of_pairwise_cons (List.pairwise_append.1 h).2.1 hb)

section Rounds

variable {start : α} {within : Nat} {seen : List α}

/-- What a round adds to the nodes within some distance is further away. -/
theorem lt_of_mem_fresh
    (hmem : ∀ a, a ∈ seen ↔ ∃ n ≤ within, Walk next n start a) {b : α}
    (hb : b ∈ fresh next seen) {n : Nat} (hn : Walk next n start b) :
    within < n := by
  unfold fresh at hb
  rw [List.mem_eraseDups, List.mem_filter] at hb
  by_contra hle
  exact of_decide_eq_true hb.2 ((hmem b).2 ⟨n, by omega, hn⟩)

/-- It is further away by one step. -/
theorem walk_of_mem_fresh
    (hmem : ∀ a, a ∈ seen ↔ ∃ n ≤ within, Walk next n start a) {b : α}
    (hb : b ∈ fresh next seen) : Walk next (within + 1) start b := by
  obtain ⟨a, ha, hab⟩ := mem_fresh hb
  obtain ⟨n, hn, hw⟩ := (hmem a).1 ha
  have hw' := hw.trans (.cons hab (.nil b))
  have hlt := lt_of_mem_fresh hmem hb hw'
  obtain rfl : n = within := by omega
  exact hw'

/-- So after the round the nodes within one step more are listed. -/
theorem mem_append_fresh_iff
    (hmem : ∀ a, a ∈ seen ↔ ∃ n ≤ within, Walk next n start a) (b : α) :
    b ∈ seen ++ fresh next seen ↔ ∃ n ≤ within + 1, Walk next n start b := by
  rw [List.mem_append, hmem]
  constructor
  · intro h
    rcases h with ⟨n, hn, hw⟩ | hb
    · exact ⟨n, by omega, hw⟩
    · exact ⟨within + 1, Nat.le_refl _, walk_of_mem_fresh hmem hb⟩
  · intro h
    obtain ⟨n, hn, hw⟩ := h
    rcases Nat.lt_or_ge within n with hlt | hle
    · obtain rfl : n = within + 1 := by omega
      obtain ⟨a, ha, hab⟩ := hw.split
      cases hab with
      | cons hb hnil =>
          cases hnil
          have hseen := (hmem a).2 ⟨within, Nat.le_refl _, ha⟩
          exact (mem_fresh_or_seen hseen hb).imp_left (hmem b).1
    · exact Or.inl ⟨n, hle, hw⟩

/-- The search by levels goes on in order of distance, if it has so far
listed, in order, what is within some number of steps. -/
theorem pairwise_levelOrder {rounds : Nat} (within : Nat)
    (hmem : ∀ a, a ∈ seen ↔ ∃ n ≤ within, Walk next n start a)
    (hseen : seen.Pairwise (Nearer next start)) :
    (levelOrder next rounds seen).Pairwise (Nearer next start) := by
  induction rounds generalizing within seen with
  | zero => exact hseen
  | succ rounds ih =>
      unfold levelOrder
      split
      · exact hseen
      · refine ih (within + 1) (mem_append_fresh_iff hmem) ?_
        rw [List.pairwise_append]
        refine ⟨hseen, ?_, fun a ha b hb n hn => ?_⟩
        · -- the nodes of one round are at one distance
          refine List.Pairwise.imp_of_mem (R := fun _ _ => True) ?_
            (List.pairwise_of_forall fun _ _ => trivial)
          intro a b ha hb _ n hn
          exact ⟨within + 1, lt_of_mem_fresh hmem hb hn, walk_of_mem_fresh hmem ha⟩
        · obtain ⟨m, hm, hw⟩ := (hmem a).1 ha
          have hlt := lt_of_mem_fresh hmem hb hn
          exact ⟨m, by omega, hw⟩

end Rounds

end PathQuery.Search
