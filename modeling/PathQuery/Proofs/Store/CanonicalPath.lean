/-
The canonical path of a set.

`Arena.canonical` reads the path that a set stands for back from the
sets it goes on from: the objects of a type, or a set that is no path,
and then one pointer for each step. It never looks at keys, so it is
the second side of everything that is said about them. `samePath`
decides equality of canonical paths (`samePath_iff`); a set that is
found by its key and passes the check of `isRootOf` or `isStepOf` hence
stands for the very path that was asked for.
-/
import PathQuery.Compile.Path
import PathQuery.Proofs.Store.Growth

namespace PathQuery

variable {κ : Type}

/-- Some pointers further. -/
def CanonicalPath.follow (p : CanonicalPath) (pointers : List String) :
    CanonicalPath :=
  pointers.foldl .step p

@[simp] theorem CanonicalPath.follow_nil (p : CanonicalPath) :
    p.follow [] = p := rfl

@[simp] theorem CanonicalPath.follow_cons (p : CanonicalPath) (name : String)
    (names : List String) :
    p.follow (name :: names) = (p.step name).follow names := rfl

namespace Ir.Arena

variable {a a' : Arena κ} {node : SetNode κ} {id x y : Nat}

/-- The path that a set stands for. A set that is no path stands for
itself. -/
def canonical (a : Arena κ) (id : SetId) : CanonicalPath :=
  match h : a.get? id with
  | none => .anchor id
  | some node =>
    match ho : node.origin with
    | .root => .root node.type
    | .step source pointer _ =>
      have : source < id := a.lt_of_source h (by rw [ho]; rfl)
      .step (a.canonical source) pointer
    | .computed _ => .anchor id
termination_by id

/-- The cases of reading a path back, as one equation. -/
theorem canonical_eq (h : a.get? id = some node) :
    a.canonical id = match node.origin with
      | .root => .root node.type
      | .step source pointer _ => .step (a.canonical source) pointer
      | .computed _ => .anchor id := by
  rw [canonical]
  split
  · next heq =>
      rw [heq] at h
      cases h
  · next heq =>
      rw [heq] at h
      cases h
      split <;> next ho => simp only [ho]

theorem canonical_of_none (h : a.get? id = none) :
    a.canonical id = .anchor id := by
  rw [canonical]
  split
  · rfl
  · next heq =>
      rw [heq] at h
      cases h

/-- Only the objects of a type stand for them. -/
theorem origin_of_canonical_root {t : TypeId} (h : a.get? id = some node)
    (hc : a.canonical id = .root t) : node.origin = .root ∧ node.type = t := by
  rw [canonical_eq h] at hc
  rcases ho : node.origin with _ | ⟨source, name, per⟩ | op
  · simp only [ho, CanonicalPath.root.injEq] at hc
    exact ⟨rfl, hc⟩
  · simp [ho] at hc
  · simp [ho] at hc

/-- Only one pointer further from a path stands for that. -/
theorem origin_of_canonical_step {p : CanonicalPath} {name : String}
    (h : a.get? id = some node) (hc : a.canonical id = .step p name) :
    ∃ source per, node.origin = .step source name per
      ∧ a.canonical source = p := by
  rw [canonical_eq h] at hc
  rcases ho : node.origin with _ | ⟨source, name', per⟩ | op
  · simp [ho] at hc
  · simp only [ho, CanonicalPath.step.injEq] at hc
    obtain ⟨hsource, rfl⟩ := hc
    exact ⟨source, per, rfl, hsource⟩
  · simp [ho] at hc

/-- Only a set itself has it as its anchor. -/
theorem eq_of_canonical_anchor (h : a.canonical x = .anchor y) : x = y := by
  cases hx : a.get? x with
  | none =>
      rw [canonical_of_none hx] at h
      cases h
      rfl
  | some node =>
      rw [canonical_eq hx] at h
      split at h
      · cases h
      · cases h
      · cases h
        rfl

/-- The path of a set stays what it was. -/
theorem Extends.canonical_eq (h : a.Extends a') (hn : a.get? id = some node) :
    a'.canonical id = a.canonical id := by
  induction id using Nat.strongRecOn generalizing node with
  | ind id ih =>
      rw [Arena.canonical_eq hn, Arena.canonical_eq (h id node hn)]
      split
      · rfl
      · next source name per ho =>
          have hs : node.origin.source? = some source := by rw [ho]; rfl
          obtain ⟨src, hsrc⟩ := exists_get?_source hn hs
          rw [ih source (lt_of_source hn hs) hsrc]
      · rfl

/-- Keys tell the paths of the path sets apart. -/
def Faithful [PathKey κ] (a : Arena κ) : Prop :=
  ∀ x y n m, a.get? x = some n → a.get? y = some m → n.key ≠ none →
    m.key ≠ none →
    ((a.canonical x).key : κ) = (a.canonical y).key →
      a.canonical x = a.canonical y

theorem faithful_of_forall_lt [PathKey κ] (h : ∀ x < a.size, ∀ y < a.size,
    ((a.canonical x).key : κ) = (a.canonical y).key →
    a.canonical x = a.canonical y) :
    a.Faithful :=
  fun x y _ _ hx hy _ _ heq =>
    h x (lt_size_of_get? hx) y (lt_size_of_get? hy) heq

theorem Faithful.of_extends [PathKey κ] (hf : a'.Faithful) (h : a.Extends a') :
    a.Faithful := by
  intro x y n m hx hy hn hm heq
  rw [← h.canonical_eq hx, ← h.canonical_eq hy] at heq ⊢
  exact hf x y n m (h x n hx) (h y m hy) hn hm heq

-- ======================================================== the checks

/-- What decides whether two sets stand for one path does decide it. -/
theorem samePath_iff :
    a.samePath x y = true ↔ a.canonical x = a.canonical y := by
  induction x using Nat.strongRecOn generalizing y with
  | ind x ih =>
      unfold samePath
      split
      · next heq =>
          subst heq
          simp
      · next hne =>
          split
          · next n m hx hy =>
              rw [canonical_eq hx, canonical_eq hy]
              split
              · next ho hm =>
                  rw [ho, hm, beq_iff_eq, CanonicalPath.root.injEq]
              · next source name per source' name' per' ho hm =>
                  have hlt : source < x := lt_of_source hx (by rw [ho]; rfl)
                  simp only [ho, hm, Bool.and_eq_true, beq_iff_eq,
                    ih source hlt, CanonicalPath.step.injEq]
                  exact and_comm
              · -- only anchors could agree, and those are unlike
                next hroot hstep =>
                  rcases hon : n.origin with _ | ⟨s, p, c⟩ | op <;>
                    rcases hom : m.origin with _ | ⟨s', p', c'⟩ | op' <;>
                    simp_all
                  exact absurd rfl (hstep s p c s' p' c' rfl rfl rfl rfl rfl)
          · next hnone =>
              refine ⟨fun h => absurd h (by simp), fun h => absurd ?_ hne⟩
              cases hx : a.get? x with
              | none =>
                  rw [canonical_of_none hx] at h
                  exact (eq_of_canonical_anchor h.symm).symm
              | some n =>
                  cases hy : a.get? y with
                  | none =>
                      rw [canonical_of_none hy] at h
                      exact eq_of_canonical_anchor h
                  | some m => exact absurd hy (hnone n m hx)

/-- A set passes for the objects of a type exactly if it stands for
them. -/
theorem isRootOf_iff {t : TypeId} :
    a.isRootOf id t = true ↔ a.canonical id = .root t := by
  unfold isRootOf
  cases h : a.get? id with
  | none => simp [canonical_of_none h]
  | some node =>
      rw [canonical_eq h]
      rcases ho : node.origin with _ | ⟨s, p, c⟩ | op <;> simp [ho]

/-- A set passes for one pointer further from a path exactly if it stands
for that. -/
theorem isStepOf_iff {source : Nat} {name : String} :
    a.isStepOf id source name = true
      ↔ a.canonical id = .step (a.canonical source) name := by
  unfold isStepOf
  cases h : a.get? id with
  | none => simp [canonical_of_none h]
  | some node =>
      rw [canonical_eq h]
      rcases ho : node.origin with _ | ⟨s, p, c⟩ | op
      · simp [ho]
      · simp only [ho, Bool.and_eq_true, beq_iff_eq, samePath_iff,
          CanonicalPath.step.injEq]
        exact and_comm
      · simp [ho]

end Ir.Arena

end PathQuery
