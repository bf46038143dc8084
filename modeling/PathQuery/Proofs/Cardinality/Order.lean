/-
How cardinalities compare.

One cardinality is at most another if its bounds lie within those of the
other: it excludes the empty set wherever the other does, and admits
many elements only where the other does. Exactly one element is the
least cardinality and any number the greatest; which of two is less is
settled by their bounds, like equality.

Every operation on cardinalities keeps this order. What a query counts
is put together from these operations, so a part that is counted less
makes the whole count no more.
-/
import Mathlib.Data.List.Forall2
import Mathlib.Order.Basic
import PathQuery.Compile.Operation

namespace PathQuery

namespace Cardinality

variable {a b c d : Cardinality}

-- ============================================================== order

instance : LE Cardinality where
  le c d := (d.isRequired = true → c.isRequired = true)
    ∧ (c.isMulti = true → d.isMulti = true)

/-- What comparing means for the two bounds. -/
theorem le_iff : c ≤ d ↔ (d.isRequired = true → c.isRequired = true)
    ∧ (c.isMulti = true → d.isMulti = true) :=
  Iff.rfl

instance : PartialOrder Cardinality where
  le_refl _ := ⟨id, id⟩
  le_trans _ _ _ hab hbc := ⟨hab.1 ∘ hbc.1, hbc.2 ∘ hab.2⟩
  le_antisymm _ _ hab hba := ext_bounds
    (Bool.eq_iff_iff.2 ⟨hba.1, hab.1⟩) (Bool.eq_iff_iff.2 ⟨hab.2, hba.2⟩)

instance : DecidableLE Cardinality :=
  fun _ _ => inferInstanceAs (Decidable (_ ∧ _))

/-- Exactly one element is within any bounds. -/
theorem one_le (c : Cardinality) : one ≤ c :=
  ⟨fun _ => rfl, fun h => by cases h⟩

/-- Any bounds are within those of any number. -/
theorem le_many (c : Cardinality) : c ≤ many :=
  ⟨fun h => (by cases h), fun _ => rfl⟩

/-- What is at most a single element is a single element. -/
theorem isSingleton_of_le (h : c ≤ d) (hd : d.isSingleton = true) :
    c.isSingleton = true := by
  unfold isSingleton at hd ⊢
  cases hc : c.isMulti with
  | false => rfl
  | true =>
      rw [h.2 hc] at hd
      cases hd

-- ========================================================= operations

theorem mul_le_mul (hab : a ≤ b) (hcd : c ≤ d) : a.mul c ≤ b.mul d := by
  rw [le_iff] at hab hcd ⊢
  simp only [mul, isRequired_ofBounds, isMulti_ofBounds, Bool.and_eq_true,
    Bool.or_eq_true]
  exact ⟨And.imp hab.1 hcd.1, Or.imp hab.2 hcd.2⟩

theorem union_le_union (hab : a ≤ b) (hcd : c ≤ d) : a.union c ≤ b.union d := by
  rw [le_iff] at hab hcd ⊢
  simp only [union, isRequired_ofBounds, isMulti_ofBounds, Bool.or_eq_true]
  exact ⟨Or.imp hab.1 hcd.1, id⟩

theorem optional_le_optional (h : c ≤ d) : c.optional ≤ d.optional := by
  rw [le_iff] at h ⊢
  simp only [optional, isRequired_ofBounds, isMulti_ofBounds]
  exact ⟨id, h.2⟩

theorem capped_le_capped (h : c ≤ d) : c.capped ≤ d.capped := by
  rw [le_iff] at h ⊢
  simp only [capped, isRequired_ofBounds, isMulti_ofBounds]
  exact ⟨h.1, id⟩

end Cardinality

/-- A union of sets that are counted less counts no more. -/
theorem CompileM.unionCardinality_le {cs ds : List Cardinality}
    (h : List.Forall₂ (· ≤ ·) cs ds) :
    unionCardinality cs ≤ unionCardinality ds := by
  have hfold : ∀ {cs ds : List Cardinality}, List.Forall₂ (· ≤ ·) cs ds →
      ∀ {c d : Cardinality}, c ≤ d →
        cs.foldl Cardinality.union c ≤ ds.foldl Cardinality.union d := by
    intro cs ds h
    induction h with
    | nil => exact id
    | cons hcd _ ih => exact fun h => ih (Cardinality.union_le_union h hcd)
  cases h with
  | nil => exact le_refl _
  | cons hcd h => exact hfold h hcd

end PathQuery
