/-
Types are ordered by conversion.

A type converts to another without a cast if it extends it, or from an
integer to a float family (`converts_iff`). In a schema that was built
this is a partial order: a walk along bases need be no longer than the
searches go, so subtyping is transitive, and a build leaves no type that
extends itself, so it is antisymmetric; and between families a
conversion leads one way only.

`ancestors` lists all supertypes, nearest first. The nearest type that
two objects both extend may be one of several that have nothing to do
with each other, or may not be the narrowest, if a base is listed
although another base extends it. Neither happens where each type has
one direct base at most: there the nearest common supertype is the least
one (`nearestLeast_of_single`).
-/
import PathQuery.Proofs.Schema.Build

namespace PathQuery

open Search (Walk)

namespace Schema

variable {s : Schema} {a b c t : TypeId}

/-- A value of the first type is used at the second without a cast. -/
def Converts (s : Schema) (a b : TypeId) : Prop := (s.conversion? a b).isSome = true

/-- No type that the schema knows extends itself. -/
def Acyclic (s : Schema) : Prop :=
  ∀ t, s.isRegistered t = true → s.isCyclic t = false

-- ============================================================ subtyping

theorem mem_keys_of_isRegistered (h : s.isRegistered a = true) :
    a ∈ s.types.keys := by
  obtain ⟨entry, hentry⟩ := exists_type? h
  exact List.mem_map.2 ⟨_, Table.mem_entries_of_get? hentry, rfl⟩

/-- A walk along bases need be no longer than the searches go. -/
theorem exists_walk_le (ha : s.isRegistered a = true) {n : Nat}
    (h : Walk s.directBases n a b) :
    ∃ m ≤ s.types.size, Walk s.directBases m a b := by
  have hclosed : ∀ x y, x ∈ s.types.keys.filter s.isRegistered →
      y ∈ s.directBases x → y ∈ s.types.keys.filter s.isRegistered := by
    intro x y _ hy
    have hreg := isRegistered_of_mem_directBases hy
    exact List.mem_filter.2 ⟨mem_keys_of_isRegistered hreg, hreg⟩
  obtain ⟨m, hm, hw⟩ := h.exists_short hclosed
    (List.mem_filter.2 ⟨mem_keys_of_isRegistered ha, ha⟩)
  have hle : (s.types.keys.filter s.isRegistered).length ≤ s.types.keys.length :=
    List.length_filter_le _ _
  have hsize : s.types.keys.length = s.types.size := List.length_map _
  exact ⟨m, by omega, hw⟩

theorem isSubtype_of_walk (ha : s.isRegistered a = true) {n : Nat}
    (h : Walk s.directBases n a b) : s.isSubtype a b = true := by
  obtain ⟨m, hm, hw⟩ := exists_walk_le ha h
  exact isSubtype_iff.2 (Or.inr ⟨ha, m, hm, hw⟩)

theorem isSubtype_trans (h : s.isSubtype a b = true)
    (h' : s.isSubtype b c = true) : s.isSubtype a c = true := by
  rcases isSubtype_iff.1 h with rfl | ⟨ha, m, -, hw⟩
  · exact h'
  · rcases isSubtype_iff.1 h' with rfl | ⟨-, n, -, hw'⟩
    · exact h
    · exact isSubtype_of_walk ha (hw.trans hw')

/-- Two types that extend each other are one. -/
theorem isSubtype_antisymm (hs : s.Acyclic) (h : s.isSubtype a b = true)
    (h' : s.isSubtype b a = true) : a = b := by
  rcases isSubtype_iff.1 h with rfl | ⟨ha, m, -, hw⟩
  · rfl
  · rcases isSubtype_iff.1 h' with rfl | ⟨-, n, -, hw'⟩
    · rfl
    · cases hw with
      | nil => rfl
      | @cons _ _ x _ hx hw =>
          -- a walk from a direct base back to the type
          obtain ⟨k, hk, hcycle⟩ := exists_walk_le
            (isRegistered_of_mem_directBases hx) (hw.trans hw')
          have hcyclic := hs a ha
          unfold isCyclic at hcyclic
          rw [Search.meets_iff.2 ⟨x, hx, k, hk, hcycle⟩] at hcyclic
          cases hcyclic

theorem ancestors_of_isRegistered (ha : s.isRegistered a = true) :
    s.ancestors a = Search.levelOrder s.directBases s.types.size [a] := if_pos ha

/-- What a type extends is listed, and nothing else. -/
theorem mem_ancestors_iff :
    b ∈ s.ancestors a ↔ s.isRegistered a = true ∧ s.isSubtype a b = true := by
  constructor
  · intro h
    refine ⟨?_, isSubtype_of_mem_ancestors h⟩
    unfold ancestors at h
    split at h
    · assumption
    · cases h
  · intro h
    obtain ⟨ha, hsub⟩ := h
    rw [ancestors_of_isRegistered ha]
    rcases isSubtype_iff.1 hsub with rfl | ⟨-, n, hn, hw⟩
    · exact Search.mem_levelOrder_of_walk List.mem_cons_self (Nat.zero_le _)
        (.nil a)
    · exact Search.mem_levelOrder_of_walk List.mem_cons_self hn hw

/-- What extends a type that the schema knows is one that it knows. -/
theorem isRegistered_of_supertype (h : s.isSubtype a b = true)
    (hb : s.isRegistered b = true) : s.isRegistered a = true := by
  rcases isSubtype_iff.1 h with rfl | ⟨ha, -⟩
  · exact hb
  · exact ha

theorem mem_ancestors_of_mem_directBases (h : b ∈ s.ancestors a)
    (hc : c ∈ s.directBases b) : c ∈ s.ancestors a := by
  obtain ⟨ha, hab⟩ := mem_ancestors_iff.1 h
  have hb := isRegistered_of_isSubtype hab ha
  exact mem_ancestors_iff.2
    ⟨ha, isSubtype_trans hab (isSubtype_of_walk hb (.cons hc (.nil c)))⟩

/-- The nearest come first. -/
theorem pairwise_ancestors (s : Schema) (a : TypeId) :
    (s.ancestors a).Pairwise (Search.Nearer s.directBases a) := by
  unfold ancestors
  split
  · refine Search.pairwise_levelOrder 0 (fun x => ?_)
      (List.pairwise_singleton _ _)
    rw [List.mem_singleton]
    constructor
    · intro h
      obtain rfl := h
      exact ⟨0, Nat.le_refl 0, .nil x⟩
    · intro h
      obtain ⟨n, hn, hw⟩ := h
      obtain rfl := Nat.le_zero.1 hn
      cases hw
      rfl
  · exact .nil

-- ========================================================== conversion

/-- A conversion is to a supertype, or from an integer to a float. -/
theorem converts_iff : s.Converts a b ↔ s.isSubtype a b = true
    ∨ (s.scalarKind? a = some .int ∧ s.scalarKind? b = some .float) := by
  unfold Converts
  constructor
  · intro h
    obtain ⟨k, hk⟩ := Option.isSome_iff_exists.1 h
    rcases conversion?_cases hk with ⟨-, hsub⟩ | ⟨-, hkinds⟩
    · exact Or.inl hsub
    · exact Or.inr hkinds
  · intro h
    unfold conversion?
    split
    · rfl
    · split
      · rfl
      · next hsub =>
          obtain ⟨ha, hb⟩ := h.resolve_left hsub
          rw [ha, hb]
          rfl

@[simp] theorem converts_self (s : Schema) (a : TypeId) : s.Converts a a :=
  converts_iff.2 (Or.inl (isSubtype_self s a))

theorem converts_trans (hs : s.KeepsFamilies) (h : s.Converts a b)
    (h' : s.Converts b c) : s.Converts a c := by
  rw [converts_iff] at h h' ⊢
  rcases h with hab | ⟨ha, hb⟩
  · rcases h' with hbc | ⟨hb, hc⟩
    · exact Or.inl (isSubtype_trans hab hbc)
    · exact Or.inr ⟨(hs.scalarKind?_eq hab).symm.trans hb, hc⟩
  · rcases h' with hbc | ⟨hb', -⟩
    · exact Or.inr ⟨ha, (hs.scalarKind?_eq hbc).trans hb⟩
    · rw [hb] at hb'
      cases hb'

/-- Two types that convert to each other are one. -/
theorem converts_antisymm (hs : s.KeepsFamilies) (hacyclic : s.Acyclic)
    (h : s.Converts a b) (h' : s.Converts b a) : a = b := by
  rw [converts_iff] at h h'
  -- a float is no integer
  have hkinds : ∀ x y, s.scalarKind? x = some .int → s.scalarKind? y = some .float →
      (s.isSubtype y x = true ∨ (s.scalarKind? y = some .int
        ∧ s.scalarKind? x = some .float)) → False := by
    intro x y hx hy hback
    rcases hback with hsub | ⟨hy', -⟩
    · rw [hs.scalarKind?_eq hsub, hy] at hx
      cases hx
    · rw [hy] at hy'
      cases hy'
  rcases h with hab | ⟨ha, hb⟩
  · rcases h' with hba | ⟨hb, ha⟩
    · exact isSubtype_antisymm hacyclic hab hba
    · exact (hkinds b a hb ha (Or.inl hab)).elim
  · exact (hkinds a b ha hb h').elim

/-- What converts to an object type is an object type that extends it. -/
theorem isSubtype_of_converts (h : s.Converts a b) (hb : s.isObject b = true) :
    s.isSubtype a b = true := by
  rcases converts_iff.1 h with hsub | ⟨-, hb'⟩
  · exact hsub
  · rw [not_isObject_of_scalarKind? hb'] at hb
    cases hb

-- ======================================================== common types

/-- Both types convert to a type that they have in common. -/
theorem converts_of_commonType? (h : s.commonType? a b = some c) :
    s.Converts a c ∧ s.Converts b c := by
  rcases commonType?_cases h with ⟨rfl, hab⟩ | ⟨rfl, hba⟩ | ⟨-, -, hmem, hsub⟩
  · exact ⟨hab, converts_self s c⟩
  · exact ⟨converts_self s c, hba⟩
  · exact ⟨converts_iff.2 (Or.inl (isSubtype_of_mem_ancestors hmem)),
      converts_iff.2 (Or.inl hsub)⟩

/-- Types that have a supertype in common have a nearest one. -/
theorem exists_commonSupertype (ha : s.isRegistered a = true)
    (hac : s.isSubtype a c = true) (hbc : s.isSubtype b c = true) :
    ∃ t, s.commonSupertype a b = some t := by
  refine Option.isSome_iff_exists.1 (List.find?_isSome.2 ⟨c, ?_, hbc⟩)
  exact mem_ancestors_iff.2 ⟨ha, hac⟩

/-- The common supertype that is found is no further from the first type
than any other. -/
theorem nearer_of_commonSupertype (hc : s.commonSupertype a b = some c)
    (hac : s.isSubtype a t = true) (hbc : s.isSubtype b t = true) :
    c = t ∨ Search.Nearer s.directBases a c t := by
  obtain ⟨ha, -⟩ := mem_ancestors_iff.1 (List.mem_of_find?_eq_some hc)
  exact Search.rel_of_find? (pairwise_ancestors s a) hc
    (mem_ancestors_iff.2 ⟨ha, hac⟩) hbc

/-- Among the types above some types, the nearest common supertype of two
is the least. -/
def NearestLeast (s : Schema) (types : List TypeId) : Prop :=
  ∀ a b c, (∃ t ∈ types, s.isSubtype t a = true) →
    (∃ t ∈ types, s.isSubtype t b = true) → s.commonSupertype a b = some c →
      ∀ u, s.isSubtype a u = true → s.isSubtype b u = true →
        s.isSubtype c u = true

/-- So it is where no type above them has two direct bases. -/
theorem nearestLeast_of_single {types : List TypeId}
    (h : ∀ t ∈ types, ∀ a ∈ s.ancestors t, ∀ b ∈ s.directBases a,
      ∀ c ∈ s.directBases a, b = c) : s.NearestLeast types := by
  intro a b c ha _ hc u hau hbu
  obtain ⟨t, ht, hta⟩ := ha
  obtain ⟨hreg, -⟩ := mem_ancestors_iff.1 (List.mem_of_find?_eq_some hc)
  rcases nearer_of_commonSupertype hc hau hbu with rfl | hnear
  · exact isSubtype_self s c
  · obtain ⟨n, hw⟩ := exists_walk_of_isSubtype hau
    obtain ⟨m, hm, hwc⟩ := hnear n hw
    obtain ⟨x, hx, hxu⟩ := (Nat.add_sub_cancel' hm ▸ hw).split
    -- there is one walk of each length only
    obtain rfl := hx.unique (P := (· ∈ s.ancestors t))
      (fun y z hy hz => mem_ancestors_of_mem_directBases hy hz) (h t ht)
      (mem_ancestors_iff.2 ⟨isRegistered_of_supertype hta hreg, hta⟩) hwc
    exact isSubtype_of_walk
      (isRegistered_of_isSubtype (isSubtype_of_walk hreg hwc) hreg) hxu

end Schema

-- =============================================================== builds

/-- A build leaves no type that extends itself. -/
theorem Registry.acyclic_of_build {r : Registry} {s : Schema}
    (h : r.build = .ok s) : s.Acyclic := by
  have hs := (checked_of_build h).1
  subst hs
  intro t ht
  unfold build at h
  obtain ⟨_, -, h⟩ := ok_of_bind_eq_ok h
  obtain ⟨_, -, h⟩ := ok_of_bind_eq_ok h
  obtain ⟨_, hcheck, -⟩ := ok_of_bind_eq_ok h
  unfold checkAcyclic at hcheck
  split at hcheck
  · next hnone =>
      have hkey := Schema.mem_keys_of_isRegistered ht
      simpa using List.find?_eq_none.1 hnone t hkey
  · cases hcheck

theorem Registry.Builds.acyclic [NameDigest] {start : Registry} {s : Schema}
    (h : start.Builds s) : s.Acyclic := by
  obtain ⟨_, r, -, hbuild⟩ := h
  exact acyclic_of_build hbuild

end PathQuery
