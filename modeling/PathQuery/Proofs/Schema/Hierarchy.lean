/-
The type hierarchy of a schema.

Subtyping is reachability along direct bases (`isSubtype_iff`), and
what `ancestors` lists is reachable, so an ancestor is a supertype
(`isSubtype_of_mem_ancestors`). A direct base is registered; hence a
supertype of a registered type is registered.

A schema is *coherent* if its built-in scalars are of their families
and no type extends one of another family, scalars and objects apart.
Along a chain of bases the family then never changes, so it is an
invariant of subtyping (`Coherent.scalarKind?_eq`), and the operators
may decide by families what the conversions decide by types.
-/
import PathQuery.Proofs.Search.Walks
import PathQuery.Schema.Conversion

namespace PathQuery

open Search (Walk)

namespace Schema

variable {s : Schema} {a b c : TypeId}

-- ============================================================== lookup

theorem isRegistered_of_type? {entry : TypeEntry} (h : s.type? a = some entry) :
    s.isRegistered a = true := by
  unfold isRegistered
  rw [h]
  rfl

theorem isRegistered_of_scalarKind? {k : ScalarKind}
    (h : s.scalarKind? a = some k) :
    s.isRegistered a = true := by
  obtain ⟨entry, hentry, -⟩ := Option.bind_eq_some_iff.1 h
  exact isRegistered_of_type? hentry

theorem isRegistered_of_isObject (h : s.isObject a = true) :
    s.isRegistered a = true := by
  unfold isObject at h
  cases htype : s.type? a with
  | none =>
      rw [htype] at h
      cases h
  | some entry => exact isRegistered_of_type? htype

theorem typeByName?_eq_some_iff {name : QualifiedName} {entry : TypeEntry} :
    s.typeByName? name = some (a, entry)
      ↔ s.names.get? name = some a ∧ s.type? a = some entry := by
  unfold typeByName?
  simp only [Option.bind_eq_bind, Option.bind_eq_some_iff, Option.pure_def,
    Option.some.injEq, Prod.mk.injEq]
  constructor
  · rintro ⟨id, hname, e, hentry, rfl, rfl⟩
    exact ⟨hname, hentry⟩
  · rintro ⟨hname, hentry⟩
    exact ⟨a, hname, entry, hentry, rfl, rfl⟩

/-- What a name stands for is in the schema under the key it is given
with. -/
theorem lookup_type {name : QualifiedName} {entry : TypeEntry}
    (h : s.lookup name = some (.type a entry)) : s.type? a = some entry := by
  unfold lookup at h
  split at h
  · next id e hname =>
      cases h
      exact (typeByName?_eq_some_iff.1 hname).2
  · obtain ⟨sig, -, heq⟩ := Option.map_eq_some_iff.1 h
    cases heq

theorem lookup_function {name f : QualifiedName} {sig : Signature}
    (h : s.lookup name = some (.function f sig)) :
    s.function? f = some sig := by
  unfold lookup at h
  split at h
  · cases h
  · obtain ⟨sig, hsig, heq⟩ := Option.map_eq_some_iff.1 h
    cases heq
    exact hsig

-- =========================================================== subtyping

theorem isRegistered_of_mem_directBases (h : b ∈ s.directBases a) :
    s.isRegistered b = true := by
  unfold directBases at h
  split at h
  · rw [List.mem_reverse, List.mem_filter] at h
    exact h.2
  · cases h

/-- Subtyping is reachability along direct bases, from a type the
schema knows. -/
theorem isSubtype_iff :
    s.isSubtype a b = true
      ↔ a = b ∨ (s.isRegistered a = true
        ∧ ∃ n ≤ s.types.size, Walk s.directBases n a b) := by
  unfold isSubtype
  rw [Bool.or_eq_true, Bool.and_eq_true, beq_iff_eq, Search.meets_iff]
  simp only [List.mem_singleton, exists_eq_left]

theorem exists_walk_of_isSubtype (h : s.isSubtype a b = true) :
    ∃ n, Walk s.directBases n a b := by
  rcases isSubtype_iff.1 h with rfl | ⟨-, n, -, hw⟩
  · exact ⟨0, .nil a⟩
  · exact ⟨n, hw⟩

@[simp] theorem isSubtype_self (s : Schema) (a : TypeId) :
    s.isSubtype a a = true :=
  isSubtype_iff.2 (Or.inl rfl)

/-- A supertype of a type the schema knows is one the schema knows. -/
theorem isRegistered_of_isSubtype (h : s.isSubtype a b = true)
    (ha : s.isRegistered a = true) :
    s.isRegistered b = true := by
  obtain ⟨n, hw⟩ := exists_walk_of_isSubtype h
  exact hw.keeps (P := fun t => s.isRegistered t = true)
    (fun _ _ _ hb => isRegistered_of_mem_directBases hb) ha

theorem isSubtype_of_mem_ancestors (h : b ∈ s.ancestors a) :
    s.isSubtype a b = true := by
  unfold ancestors at h
  split at h
  · next hreg =>
      obtain ⟨a', ha', n, hn, hw⟩ := Search.walk_of_mem_levelOrder h
      rw [List.mem_singleton] at ha'
      subst ha'
      exact isSubtype_iff.2 (Or.inr ⟨hreg, n, hn, hw⟩)
  · cases h

theorem isRegistered_of_mem_ancestors (h : b ∈ s.ancestors a) :
    s.isRegistered b = true := by
  have hsub := isSubtype_of_mem_ancestors h
  unfold ancestors at h
  split at h
  · next hreg => exact isRegistered_of_isSubtype hsub hreg
  · cases h

-- ========================================================= conversions

/-- A conversion without a cast is to a supertype, or from an integer
to a float family. -/
theorem conversion?_cases {k : Conversion} (h : s.conversion? a b = some k) :
    (k ≠ .implicit ∧ s.isSubtype a b = true)
      ∨ (k = .implicit ∧ s.scalarKind? a = some .int
        ∧ s.scalarKind? b = some .float) := by
  unfold conversion? at h
  split at h
  · next heq =>
      subst heq
      cases h
      exact Or.inl ⟨by simp, isSubtype_self s a⟩
  · split at h
    · next hsub =>
        cases h
        exact Or.inl ⟨by simp, hsub⟩
    · split at h
      · next hint hfloat =>
          injection h with h
          exact Or.inr ⟨h.symm, hint, hfloat⟩
      · cases h

@[simp] theorem conversion?_self (s : Schema) (a : TypeId) :
    s.conversion? a a = some .identity := by
  unfold conversion?
  rw [if_pos rfl]

/-- A conversion that is not by a supertype is the implicit one. -/
theorem conversion?_of_kinds (hne : a ≠ b) (hsub : s.isSubtype a b = false)
    (ha : s.scalarKind? a = some .int) (hb : s.scalarKind? b = some .float) :
    s.conversion? a b = some .implicit := by
  unfold conversion?
  rw [if_neg hne, if_neg (by simp [hsub]), ha, hb]

/-- What needs no cast may be cast. -/
theorem cast?_of_conversion? {k : Conversion} (h : s.conversion? a b = some k) :
    s.cast? a b = some k := by
  unfold cast?
  rw [h]

/-- A common type is one of the two, or one that both objects extend. -/
theorem commonType?_cases (h : s.commonType? a b = some c) :
    (c = b ∧ (s.conversion? a b).isSome) ∨ (c = a ∧ (s.conversion? b a).isSome)
      ∨ (s.isObject a = true ∧ s.isObject b = true ∧ c ∈ s.ancestors a
          ∧ s.isSubtype b c = true) := by
  unfold commonType? at h
  split at h
  · next hab =>
      injection h with h
      exact Or.inl ⟨h.symm, hab⟩
  · split at h
    · next hba =>
        injection h with h
        exact Or.inr (Or.inl ⟨h.symm, hba⟩)
    · split at h
      · next hobj =>
          rw [Bool.and_eq_true] at hobj
          unfold commonSupertype at h
          exact Or.inr (Or.inr ⟨hobj.1, hobj.2, List.mem_of_find?_eq_some h,
            List.find?_some h⟩)
      · cases h

/-- The type that an operand of type `t` has once it was converted to
`target`: only the implicit conversion changes it. -/
def converted (s : Schema) (t target : TypeId) : TypeId :=
  if s.conversion? t target = some .implicit then target else t

/-- Objects are no scalars. -/
theorem not_isObject_of_scalarKind? {k : ScalarKind}
    (h : s.scalarKind? a = some k) :
    s.isObject a = false := by
  unfold scalarKind? at h
  unfold isObject
  cases ht : s.type? a with
  | none => rfl
  | some entry =>
      rw [ht] at h
      unfold TypeEntry.scalarKind? at h
      rw [Option.any_some]
      unfold TypeEntry.isObject
      rcases hb : entry.body with _ | _
      · rfl
      · simp [hb] at h

/-- Where one of two types is an object type, a common type is a
supertype of both. -/
theorem isSubtype_of_commonType? (h : s.commonType? a b = some c)
    (hobj : s.isObject a = true ∨ s.isObject b = true) :
    s.isSubtype a c = true ∧ s.isSubtype b c = true := by
  have hscalar : ∀ x y : TypeId, (x = a ∧ y = b ∨ x = b ∧ y = a) →
      (s.conversion? x y).isSome → s.isSubtype x y = true := by
    intro x y hxy hsome
    obtain ⟨k, hk⟩ := Option.isSome_iff_exists.1 hsome
    rcases conversion?_cases hk with ⟨-, hsub⟩ | ⟨-, hx, hy⟩
    · exact hsub
    · have hx' := not_isObject_of_scalarKind? hx
      have hy' := not_isObject_of_scalarKind? hy
      rcases hxy with ⟨rfl, rfl⟩ | ⟨rfl, rfl⟩ <;> rcases hobj with h | h <;>
        simp_all
  rcases commonType?_cases h with ⟨rfl, hab⟩ | ⟨rfl, hba⟩ | ⟨-, -, hmem, hsub⟩
  · exact ⟨hscalar a c (Or.inl ⟨rfl, rfl⟩) hab, isSubtype_self s c⟩
  · exact ⟨isSubtype_self s c, hscalar b c (Or.inr ⟨rfl, rfl⟩) hba⟩
  · exact ⟨isSubtype_of_mem_ancestors hmem, hsub⟩

/-- Of two scalars that were converted to a common type, one extends the
other. -/
theorem isSubtype_converted (h : s.commonType? a b = some c)
    (ha : s.isObject a = false) (hb : s.isObject b = false) :
    s.isSubtype (s.converted a c) (s.converted b c) = true
      ∨ s.isSubtype (s.converted b c) (s.converted a c) = true := by
  have hself : s.converted c c = c := by
    unfold converted
    rw [conversion?_self]
    exact if_neg (by simp)
  have hsub : ∀ x k, s.conversion? x c = some k →
      s.isSubtype (s.converted x c) c = true := by
    intro x k hk
    unfold converted
    split
    · exact isSubtype_self s c
    · next hne =>
        rcases conversion?_cases hk with ⟨-, hsub⟩ | ⟨rfl, -⟩
        · exact hsub
        · exact absurd hk hne
  rcases commonType?_cases h with ⟨rfl, hab⟩ | ⟨rfl, hba⟩ | ⟨hobj, -⟩
  · obtain ⟨k, hk⟩ := Option.isSome_iff_exists.1 hab
    rw [hself]
    exact Or.inl (hsub a k hk)
  · obtain ⟨k, hk⟩ := Option.isSome_iff_exists.1 hba
    rw [hself]
    exact Or.inr (hsub b k hk)
  · rw [ha] at hobj
    cases hobj

/-- Converting takes scalars to scalars. -/
theorem isObject_converted (ha : s.isObject a = false) :
    s.isObject (s.converted a c) = false := by
  unfold converted
  split
  · next hk =>
      rcases conversion?_cases hk with ⟨hne, -⟩ | ⟨-, -, hfloat⟩
      · exact absurd rfl hne
      · exact not_isObject_of_scalarKind? hfloat
  · exact ha

-- =========================================================== coherence

/-- A type extends only types of its own family, and objects only
objects. -/
def KeepsFamilies (s : Schema) : Prop :=
  ∀ a b, b ∈ s.directBases a →
    s.scalarKind? b = s.scalarKind? a ∧ s.isObject b = s.isObject a

namespace KeepsFamilies

/-- A supertype is of the same family. -/
theorem scalarKind?_eq (h : s.KeepsFamilies) (hsub : s.isSubtype a b = true) :
    s.scalarKind? b = s.scalarKind? a := by
  obtain ⟨n, hw⟩ := exists_walk_of_isSubtype hsub
  exact hw.keeps (P := fun t => s.scalarKind? t = s.scalarKind? a)
    (fun x y hx hy => ((h x y hy).1).trans hx) rfl

/-- A supertype is an object type exactly if the subtype is. -/
theorem isObject_eq (h : s.KeepsFamilies) (hsub : s.isSubtype a b = true) :
    s.isObject b = s.isObject a := by
  obtain ⟨n, hw⟩ := exists_walk_of_isSubtype hsub
  exact hw.keeps (P := fun t => s.isObject t = s.isObject a)
    (fun x y hx hy => ((h x y hy).2).trans hx) rfl

end KeepsFamilies

/-- The built-in scalars are of their families, and a type extends only
types of its own family. -/
structure Coherent [NameDigest] (s : Schema) : Prop where
  bool : s.scalarKind? TypeId.bool = some .bool
  int : s.scalarKind? TypeId.int = some .int
  float : s.scalarKind? TypeId.float = some .float
  str : s.scalarKind? TypeId.str = some .str
  family : ∀ a b, b ∈ s.directBases a →
    s.scalarKind? b = s.scalarKind? a ∧ s.isObject b = s.isObject a

namespace Coherent

variable [NameDigest]

/-- A supertype is of the same family. -/
theorem scalarKind?_eq (h : s.Coherent) (hsub : s.isSubtype a b = true) :
    s.scalarKind? b = s.scalarKind? a :=
  KeepsFamilies.scalarKind?_eq h.family hsub

/-- A supertype is an object type exactly if the subtype is. -/
theorem isObject_eq (h : s.Coherent) (hsub : s.isSubtype a b = true) :
    s.isObject b = s.isObject a :=
  KeepsFamilies.isObject_eq h.family hsub

/-- A number that was converted to a float is a float. -/
theorem scalarKind?_converted (h : s.Coherent) (hnum : s.isNumeric a = true) :
    s.scalarKind? (s.converted a TypeId.float) = some .float := by
  unfold converted
  split
  · exact h.float
  · next hconv =>
      unfold isNumeric at hnum
      cases hk : s.scalarKind? a with
      | none => simp [hk] at hnum
      | some k =>
          rw [hk, Option.any_some] at hnum
          cases k with
          | float => rfl
          | int =>
              -- an integer extends no float: the conversion is implicit
              have hsub : s.isSubtype a TypeId.float = false := by
                rw [Bool.eq_false_iff]
                intro hsub
                have := h.scalarKind?_eq hsub
                rw [h.float, hk] at this
                cases this
              have hne : a ≠ TypeId.float := by
                intro h
                obtain rfl := h
                rw [h.float] at hk
                cases hk
              exact absurd (conversion?_of_kinds hne hsub hk h.float) hconv
          | _ => cases hnum

end Coherent

end Schema

end PathQuery
