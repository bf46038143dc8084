/-
A search of a graph by a queue.

It visits the node at the front of the queue and lets join, at the back,
those of the node's successors that were not met before (`queueOrder`). No
node is met twice, which each visit keeps (`nodup_queueOrder`).

The search by levels lists the same nodes in the same order, if it has
rounds enough to leave none out (`queueOrder_eq_levelOrder`): with one
level in the queue, as many visits as it has nodes bring the next level
(`queueOrder_round`). So a list by levels has no node twice either
(`nodup_levelOrder`).
-/
import PathQuery.Proofs.Schema.Extension

namespace PathQuery

namespace Search

variable {α : Type} {next : α → List α}

-- ============================================================ distances

/-- A shortest walk has `n` steps. -/
def Distance (next : α → List α) (a b : α) (n : Nat) : Prop :=
  Walk next n a b ∧ ∀ m, Walk next m a b → n ≤ m

theorem Walk.exists_distance {a b : α} {n : Nat} (h : Walk next n a b) :
    ∃ m, Distance next a b m := by
  classical
  have hex : ∃ n, Walk next n a b := ⟨n, h⟩
  exact ⟨Nat.find hex, Nat.find_spec hex, fun _ hm => Nat.find_min' hex hm⟩

theorem Nearer.distance_le {start a b : α} {m n : Nat}
    (h : Nearer next start a b) (ha : Distance next start a m)
    (hb : Distance next start b n) : m ≤ n := by
  obtain ⟨k, hk, hw⟩ := h n hb.1
  exact Nat.le_trans (ha.2 k hw) hk

-- =========================================================== the queue

variable [DecidableEq α]

/-- A node joins the queue unless it was met before. -/
def enqueue (visited queue : List α) (b : α) : List α :=
  if b ∈ visited ++ queue then queue else queue ++ [b]

/-- The nodes in the order in which a search by a queue visits them, in
so many visits. -/
def queueOrder (next : α → List α) :
    (visits : Nat) → (visited queue : List α) → List α
  | 0, visited, _ => visited
  | _ + 1, visited, [] => visited
  | visits + 1, visited, a :: queue =>
    queueOrder next visits (visited ++ [a])
      ((next a).foldl (enqueue (visited ++ [a])) queue)

theorem queueOrder_nil (visits : Nat) (visited : List α) :
    queueOrder next visits visited [] = visited := by
  cases visits <;> rfl

theorem nodup_enqueue {visited queue : List α} (h : (visited ++ queue).Nodup)
    (b : α) : (visited ++ enqueue visited queue b).Nodup := by
  unfold enqueue
  split
  · exact h
  · next hnew =>
      rw [← List.append_assoc, List.nodup_append_comm, List.singleton_append]
      exact List.nodup_cons.2 ⟨hnew, h⟩

theorem nodup_foldl_enqueue {visited nodes : List α} {queue : List α}
    (h : (visited ++ queue).Nodup) :
    (visited ++ nodes.foldl (enqueue visited) queue).Nodup := by
  induction nodes generalizing queue with
  | nil => exact h
  | cons b nodes ih => exact ih (nodup_enqueue h b)

/-- No node is visited twice. -/
theorem nodup_queueOrder {visits : Nat} {visited queue : List α}
    (h : (visited ++ queue).Nodup) :
    (queueOrder next visits visited queue).Nodup := by
  induction visits generalizing visited queue with
  | zero => exact (List.nodup_append.1 h).1
  | succ visits ih =>
      cases queue with
      | nil =>
          rw [List.append_nil] at h
          exact h
      | cons a queue =>
          refine ih (nodup_foldl_enqueue ?_)
          rw [List.append_assoc]
          exact h

-- ============================================== a level of the queue

/-- What is met already does not join. -/
theorem foldl_enqueue_of_met {visited queue nodes : List α}
    (h : ∀ b ∈ nodes, b ∈ visited ++ queue) :
    nodes.foldl (enqueue visited) queue = queue := by
  induction nodes with
  | nil => rfl
  | cons b nodes ih =>
      rw [List.foldl_cons]
      unfold enqueue at ih ⊢
      rw [if_pos (h b List.mem_cons_self)]
      exact ih fun c hc => h c (List.mem_cons_of_mem _ hc)

/-- Nodes in front of those that join were as good as visited. -/
theorem foldl_enqueue_append (visited level found nodes : List α) :
    nodes.foldl (enqueue visited) (level ++ found)
      = level ++ nodes.foldl (enqueue (visited ++ level)) found := by
  induction nodes generalizing found with
  | nil => rfl
  | cons b nodes ih =>
      have hone : enqueue visited (level ++ found) b
          = level ++ enqueue (visited ++ level) found b := by
        unfold enqueue
        rw [List.append_assoc visited level found]
        by_cases hb : b ∈ visited ++ (level ++ found)
        · rw [if_pos hb, if_pos hb]
        · rw [if_neg hb, if_neg hb, List.append_assoc]
      rw [List.foldl_cons, hone, ih, List.foldl_cons]

/-- The visits to the nodes of a level let join what they lead to. -/
theorem queueOrder_level (next : α → List α) (k : Nat)
    (visited level found : List α) :
    queueOrder next (level.length + k) visited (level ++ found)
      = queueOrder next k (visited ++ level)
        ((level.flatMap next).foldl (enqueue (visited ++ level)) found) := by
  induction level generalizing visited found with
  | nil => rw [List.length_nil, Nat.zero_add, List.append_nil]; rfl
  | cons a level ih =>
      have hlength : (a :: level).length + k = (level.length + k) + 1 := by
        rw [List.length_cons]
        omega
      rw [hlength, List.cons_append, queueOrder, foldl_enqueue_append, ih,
        List.flatMap_cons, List.foldl_append, List.append_assoc,
        List.singleton_append]

theorem queueOrder_round (next : α → List α) (k : Nat) (visited level : List α) :
    queueOrder next (level.length + k) visited level
      = queueOrder next k (visited ++ level)
        ((level.flatMap next).foldl (enqueue (visited ++ level)) []) := by
  have h := queueOrder_level next k visited level []
  rwa [List.append_nil] at h

/-- All that was not met before joins, each node once. -/
theorem foldl_enqueue (visited queue nodes : List α) :
    nodes.foldl (enqueue visited) queue
      = queue ++ (nodes.filter (fun a => a ∉ visited ++ queue)).eraseDups := by
  induction nodes generalizing queue with
  | nil => simp
  | cons b nodes ih =>
      rw [List.foldl_cons, ih]
      unfold enqueue
      by_cases hb : b ∈ visited ++ queue
      · have hskip : ¬decide (b ∉ visited ++ queue) = true := by
          rw [decide_eq_true_iff, not_not]
          exact hb
        rw [if_pos hb, List.filter_cons, if_neg hskip]
      · have hlater : nodes.filter (fun a => a ∉ visited ++ (queue ++ [b]))
            = (nodes.filter (fun a => a ∉ visited ++ queue)).filter
              (fun a => !a == b) := by
          rw [List.filter_filter]
          refine List.filter_congr fun a _ => ?_
          by_cases ha : a = b <;> simp [ha]
        rw [if_neg hb, List.filter_cons, if_pos (decide_eq_true hb),
          List.eraseDups_cons, hlater, List.append_assoc, List.singleton_append]

/-- What is fresh after some nodes are what the last of them lead to, if
the others lead to nothing else. -/
theorem fresh_eq_foldl {visited level : List α}
    (h : ∀ a ∈ visited, ∀ b ∈ next a, b ∈ visited ++ level) :
    fresh next (visited ++ level)
      = (level.flatMap next).foldl (enqueue (visited ++ level)) [] := by
  have hold : (visited.flatMap next).foldl (enqueue (visited ++ level)) [] = [] := by
    refine foldl_enqueue_of_met fun b hb => ?_
    obtain ⟨a, ha, hab⟩ := List.mem_flatMap.1 hb
    rw [List.append_nil]
    exact h a ha b hab
  have hall := foldl_enqueue (visited ++ level) [] ((visited ++ level).flatMap next)
  rw [List.flatMap_append, List.foldl_append, hold, List.nil_append,
    List.append_nil, ← List.flatMap_append] at hall
  exact hall.symm

theorem levelOrder_succ (rounds : Nat) (seen : List α) :
    levelOrder next (rounds + 1) seen
      = levelOrder next rounds (seen ++ fresh next seen) := by
  have hone : levelOrder next 1 seen = seen ++ fresh next seen := by
    unfold levelOrder
    split
    · next hnone => rw [hnone, List.append_nil]
    · rfl
  rw [Nat.add_comm, levelOrder_add, hone]

theorem prefix_levelOrder (next : α → List α) (rounds : Nat) (seen : List α) :
    seen <+: levelOrder next rounds seen := by
  induction rounds generalizing seen with
  | zero => exact List.prefix_refl seen
  | succ rounds ih =>
      rw [levelOrder_succ]
      exact (List.prefix_append seen _).trans (ih _)

/-- Rounds that leave nothing out list what a queue visits, in its order. -/
theorem queueOrder_eq_levelOrder {rounds k : Nat} {visited level : List α}
    (h : ∀ a ∈ visited, ∀ b ∈ next a, b ∈ visited ++ level)
    (hclosed : ∀ a ∈ levelOrder next rounds (visited ++ level),
      ∀ b ∈ next a, b ∈ levelOrder next rounds (visited ++ level))
    (hvisits : (levelOrder next rounds (visited ++ level)).length
      ≤ (visited ++ level).length + k) :
    queueOrder next (level.length + k) visited level
      = levelOrder next rounds (visited ++ level) := by
  induction rounds generalizing k visited level with
  | zero =>
      -- nothing new joins, so the queue is empty
      rw [queueOrder_round, foldl_enqueue_of_met, queueOrder_nil]
      · rfl
      · intro b hb
        obtain ⟨a, ha, hab⟩ := List.mem_flatMap.1 hb
        rw [List.append_nil]
        exact hclosed a (List.mem_append_right _ ha) b hab
  | succ rounds ih =>
      rw [levelOrder_succ] at hclosed hvisits ⊢
      rw [queueOrder_round, ← fresh_eq_foldl h]
      -- there are visits left for all that has joined
      have hle := (prefix_levelOrder next rounds
        ((visited ++ level) ++ fresh next (visited ++ level))).length_le
      rw [List.length_append] at hle
      obtain ⟨k', rfl⟩ : ∃ k', k = (fresh next (visited ++ level)).length + k' :=
        Nat.exists_eq_add_of_le (by omega)
      refine ih (fun a ha b hb => ?_) hclosed ?_
      · exact List.mem_append.2 (mem_fresh_or_seen ha hb)
      · rw [List.length_append]
        omega

/-- From one node on both searches list the same, if there are visits
enough. -/
theorem queueOrder_start {rounds visits : Nat} {start : α}
    (hclosed : ∀ a ∈ levelOrder next rounds [start],
      ∀ b ∈ next a, b ∈ levelOrder next rounds [start])
    (hvisits : (levelOrder next rounds [start]).length ≤ visits) :
    queueOrder next visits [] [start] = levelOrder next rounds [start] := by
  have hpos := (prefix_levelOrder next rounds [start]).length_le
  rw [List.length_singleton] at hpos
  obtain ⟨k, rfl⟩ := Nat.exists_eq_add_of_le (Nat.le_trans hpos hvisits)
  have hnone : ∀ a ∈ [], ∀ b ∈ next a, b ∈ [] ++ [start] := by
    intro a ha
    cases ha
  exact queueOrder_eq_levelOrder hnone hclosed hvisits

/-- No node is listed twice. -/
theorem nodup_levelOrder {rounds : Nat} {start : α}
    (hclosed : ∀ a ∈ levelOrder next rounds [start],
      ∀ b ∈ next a, b ∈ levelOrder next rounds [start]) :
    (levelOrder next rounds [start]).Nodup := by
  rw [← queueOrder_start hclosed (Nat.le_refl _)]
  exact nodup_queueOrder (List.nodup_singleton start)

end Search

end PathQuery
