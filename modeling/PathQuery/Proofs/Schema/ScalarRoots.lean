/-
Every scalar type extends the built-in scalar of its family.

A scalar is declared over another that is there already, and a family
never changes along bases, so going from base to base ends at a scalar
that extends nothing. In a registry that starts with `std` these are the
six of `std` alone (`Registry.Holds.rooted`), one for each family
(`ScalarKind.root`), so two scalars of one family always have a type
above both (`Registry.Builds.isSubtype_root`). This is to scalars what
`std::Object` is to object types.
-/
import PathQuery.Proofs.Schema.Contents

namespace PathQuery

variable [NameDigest]

/-- The built-in scalar of a family. -/
def ScalarKind.root : ScalarKind → TypeId
  | .bool => TypeId.bool
  | .int => TypeId.int
  | .float => TypeId.float
  | .str => TypeId.str
  | .uuid => TypeId.ofName "std::uuid"
  | .datetime => TypeId.ofName "std::datetime"

namespace Registry

/-- `std` has one scalar for each family. -/
theorem ofQualified_eq_root {e : String × ScalarKind} (h : e ∈ builtinScalars) :
    TypeId.ofQualified (.within builtinModule e.1) = e.2.root := by
  have hall : ∀ x ∈ builtinScalars,
      TypeId.ofQualified (.within builtinModule x.1) = x.2.root := by
    unfold builtinScalars
    simp only [List.forall_mem_cons]
    exact ⟨rfl, rfl, rfl, rfl, rfl, rfl, by simp⟩
  exact hall e h

omit [NameDigest] in
theorem exists_builtinScalar (k : ScalarKind) :
    ∃ name, (name, k) ∈ builtinScalars := by
  cases k <;> simp [builtinScalars]

variable {r : Registry} {s : Schema} {ds : List Declaration} {t : TypeId}
  {k : ScalarKind}

/-- The built-in scalar of a family is of that family. -/
theorem Builds.scalarKind?_root (h : builtin.Builds s) (ha : s.Apart)
    (k : ScalarKind) : s.scalarKind? k.root = some k := by
  obtain ⟨name, hname⟩ := exists_builtinScalar k
  rw [← ofQualified_eq_root hname]
  exact h.scalarKind? ha name hname

/-- A scalar that extends nothing is the built-in one of its family. -/
theorem Holds.rooted (h : Holds ds r) {entry : TypeEntry}
    (ht : r.schema.type? t = some entry) (hbody : entry.body = .scalar k none) :
    t = k.root := by
  rcases h.named t (Schema.isRegistered_of_type? ht) with hobject | hscalar
  · have hobj := h.isObject_of_names hobject
    unfold Schema.isObject TypeEntry.isObject at hobj
    rw [ht, Option.any_some, hbody] at hobj
    cases hobj
  · rcases hscalar with ⟨e, he, rfl⟩ | ⟨name, base, hd, rfl⟩
    · have hmem : (e.1, TypeBody.scalar e.2 none) ∈ builtinBodies :=
        List.mem_append_left _ (List.mem_map.2 ⟨e, he, rfl⟩)
      rw [h.builtin _ hmem] at ht
      cases ht
      cases hbody
      exact ofQualified_eq_root he
    · -- a declared scalar extends the one it names
      obtain ⟨kind, b, hentry⟩ := h.scalars name base hd
      rw [hentry] at ht
      cases ht
      cases hbody

/-- In a schema that has `std` every scalar extends the built-in scalar
of its family. -/
theorem Builds.isSubtype_root (h : builtin.Builds s) (ha : s.Apart)
    (ht : s.scalarKind? t = some k) : s.isSubtype t k.root = true := by
  obtain ⟨ds, r, hds, hbuild⟩ := h
  obtain ⟨rfl, hchecked⟩ := checked_of_build hbuild
  have hholds := holds_of_declareAll hds ha
  have hfiled : r.Filed :=
    Reaches.filed (builtin_reached.1.trans (declareAll_reaches hds)) filed_empty
  refine Schema.directBases_induction (acyclic_of_build hbuild)
    (P := fun t => r.schema.scalarKind? t = some k →
      r.schema.isSubtype t k.root = true) (fun a hreg ih hkind => ?_)
    (Schema.isRegistered_of_scalarKind? ht) ht
  obtain ⟨entry, hentry, hfamily⟩ := Option.bind_eq_some_iff.1 hkind
  unfold TypeEntry.scalarKind? at hfamily
  cases hbody : entry.body with
  | object bases pointers =>
      rw [hbody] at hfamily
      cases hfamily
  | scalar kind base =>
      rw [hbody] at hfamily
      cases hfamily
      cases base with
      | none =>
          rw [hholds.rooted hentry hbody]
          exact Schema.isSubtype_self _ _
      | some b =>
          have hb := hfiled.bases ha a entry k b hentry hbody
          have hmem : b ∈ r.schema.directBases a := by
            refine Schema.mem_directBases hentry ?_
              (Schema.isRegistered_of_scalarKind? hb)
            unfold TypeEntry.bases
            rw [hbody]
            exact List.mem_singleton_self b
          exact Schema.isSubtype_trans
            (Schema.isSubtype_of_walk hreg (.cons hmem (.nil b))) (ih b hmem hb)

end Registry

end PathQuery
