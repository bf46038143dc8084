/-
Types fall apart into objects and six families of scalars.

An object type that lists no base extends `std::Object`, and a scalar has
the family of the scalar it was declared over, so along a chain of bases a
type stays what it is. Every object type ends up at `std::Object`, every
scalar at one scalar of `std`, the one of its family, and no type extends
one that is of another kind (`Registry.Builds.kinds_separated`). So any two
objects have a common type.
-/
import PathQuery.Proofs.Schema.CommonType

namespace PathQuery

namespace Registry

section

variable [NameDigest] {s : Schema} {a b t : TypeId} {k : ScalarKind}

omit [NameDigest] in
/-- `std` has one scalar of each family. -/
theorem eq_of_mem_builtinScalars {e e' : String × ScalarKind}
    (he : e ∈ builtinScalars) (he' : e' ∈ builtinScalars) (h : e.2 = e'.2) :
    e = e' := by
  have hnodup : (builtinScalars.map Prod.snd).Nodup := by decide
  exact List.inj_on_of_nodup_map hnodup he he' h

/-- A scalar extends the scalar of `std` that has its family. -/
theorem Builds.isSubtype_builtin_iff (h : builtin.Builds s) (ha : s.Apart)
    (ht : s.scalarKind? t = some k) {e : String × ScalarKind}
    (he : e ∈ builtinScalars) :
    s.isSubtype t (TypeId.ofQualified (.within builtinModule e.1)) = true
      ↔ e.2 = k := by
  rw [ofQualified_eq_root he]
  constructor
  · intro hsub
    have hkind := (h.keepsFamilies builtin_reached.1 ha).scalarKind?_eq hsub
    rw [h.scalarKind?_root ha, ht] at hkind
    exact Option.some.inj hkind
  · rintro rfl
    exact h.isSubtype_root ha ht

/-- Neither of an object and a scalar extends the other. -/
theorem Builds.not_isSubtype (h : builtin.Builds s) (hapart : s.Apart)
    (ha : s.scalarKind? a = some k) (hb : s.isObject b = true) :
    s.isSubtype a b = false ∧ s.isSubtype b a = false := by
  have hkeeps := h.keepsFamilies builtin_reached.1 hapart
  have hascalar := Schema.not_isObject_of_scalarKind? ha
  have hdiffer : s.isObject a ≠ s.isObject b := by
    rw [hascalar, hb]
    decide
  constructor
  · rw [Bool.eq_false_iff]
    exact fun hsub => hdiffer (hkeeps.isObject_eq hsub).symm
  · rw [Bool.eq_false_iff]
    exact fun hsub => hdiffer (hkeeps.isObject_eq hsub)

/-- In a schema that has `std` every object type extends `std::Object`,
every scalar extends one scalar of `std`, which has its family, and what
extends another type is of its kind; so two objects have a common type. -/
theorem Builds.kinds_separated (h : builtin.Builds s) (ha : s.Apart) :
    (∀ t, s.isObject t = true → s.isSubtype t TypeId.object = true)
      ∧ (∀ a b k, s.scalarKind? a = some k → s.isObject b = true →
        s.isSubtype a b = false ∧ s.isSubtype b a = false)
      ∧ (∀ t k, s.scalarKind? t = some k → ∃ e ∈ builtinScalars,
        s.isSubtype t (TypeId.ofQualified (.within builtinModule e.1)) = true
          ∧ s.scalarKind? (TypeId.ofQualified (.within builtinModule e.1))
            = some k
          ∧ ∀ e' ∈ builtinScalars, s.isSubtype t
            (TypeId.ofQualified (.within builtinModule e'.1)) = true → e' = e)
      ∧ (∀ a b k l, s.scalarKind? a = some k → s.scalarKind? b = some l →
        s.isSubtype a b = true → k = l)
      ∧ ∀ a b, s.isObject a = true → s.isObject b = true →
        (s.commonType? a b).isSome = true := by
  have hordered := h.ordered builtin_reached.1 ha
  refine ⟨fun _ => h.isSubtype_object ha, fun _ _ _ => h.not_isSubtype ha,
    fun t k ht => ?_, fun a b k l hak hbl hsub => ?_, fun a b haobj hbobj => ?_⟩
  · obtain ⟨name, hname⟩ := exists_builtinScalar k
    refine ⟨_, hname, (h.isSubtype_builtin_iff ha ht hname).2 rfl,
      h.scalarKind? ha name hname, fun e' he' hsub => ?_⟩
    exact eq_of_mem_builtinScalars he' hname
      ((h.isSubtype_builtin_iff ha ht he').1 hsub)
  · have hkind := hordered.families.scalarKind?_eq hsub
    rw [hak, hbl] at hkind
    exact (Option.some.inj hkind).symm
  · obtain ⟨-, hac, hbc⟩ := h.common_of_objects ha haobj hbobj
    have hobj := hordered.families.isObject_eq (h.isSubtype_object ha haobj)
    exact Option.isSome_iff_exists.2 (Schema.exists_commonType?_of_object
      hordered (hobj.trans haobj) hac hbc)

end

end Registry

-- ============================================================= examples

open scoped Xxh64
open Declaration (typeNamed)

theorem kinds_separated_kin :
    Registry.builtin.Builds kinSchema ∧ kinSchema.Apart
      ∧ kinSchema.scalarKind? (typeNamed "default::Code") = some .str
      ∧ (∃ e ∈ Registry.builtinScalars, kinSchema.isSubtype
        (typeNamed "default::Code")
        (TypeId.ofQualified (.within builtinModule e.1)) = true)
      ∧ kinSchema.isSubtype (typeNamed "default::Code")
        (typeNamed "default::Guest") = false
      ∧ (kinSchema.commonType? (typeNamed "default::Guest")
        (typeNamed "default::Thing")).isSome = true := by
  obtain ⟨hcode, hguest, hthing⟩ :
      kinSchema.scalarKind? (typeNamed "default::Code") = some .str
        ∧ kinSchema.isObject (typeNamed "default::Guest") = true
        ∧ kinSchema.isObject (typeNamed "default::Thing") = true := by
    decide +kernel
  have hapart := Schema.apart_of_nodup kin_checks.2.1
  obtain ⟨-, hsep, hscalar, -, hcommon⟩ := builds_kin.kinds_separated hapart
  obtain ⟨e, he, hsub, -⟩ := hscalar _ _ hcode
  exact ⟨builds_kin, hapart, hcode, ⟨e, he, hsub⟩,
    (hsep _ _ _ hcode hguest).1, hcommon _ _ hguest hthing⟩

end PathQuery
