/-
The common type of two types: when it is found, and whether it is the
narrowest.

A type is common to two others if both convert to it (`Schema.Common`).
`commonType?` finds one wherever there is one, with one exception: of two
scalars of one family that do not extend each other (`Schema.Siblings`)
it finds none, although the built-in scalar of the family is common to
them. It answers for two scalars by comparing them, and looks for a third
type only if both are objects.

A type that is found is the narrowest where one of the two converts to
the other. Of two objects it is the one that is nearest to the first,
and a narrower one may be further away: then some type on the way has
two bases, one that leads to the type found and one that leads to the
narrower one (`forks_of_commonType?`).
-/
import PathQuery.Proofs.Schema.Join
import PathQuery.Proofs.Schema.ScalarRoots

namespace PathQuery

open Search (Walk Nearer)

namespace Schema

variable {s : Schema} {a b t u : TypeId}

/-- A type that the schema knows and that both types convert to. -/
def Common (s : Schema) (a b t : TypeId) : Prop :=
  s.isRegistered t = true ∧ s.Converts a t ∧ s.Converts b t

/-- Two scalars of one family, neither of which extends the other. -/
def Siblings (s : Schema) (a b : TypeId) : Prop :=
  (∃ k, s.scalarKind? a = some k ∧ s.scalarKind? b = some k)
    ∧ s.isSubtype a b = false ∧ s.isSubtype b a = false

/-- A type, or one that it extends, has two bases of which one leads to one
of two types and the other to the other. -/
def Forks (s : Schema) (a t u : TypeId) : Prop :=
  ∃ x y z, s.isSubtype a x = true ∧ y ∈ s.directBases x
    ∧ z ∈ s.directBases x ∧ y ≠ z
    ∧ s.isSubtype y t = true ∧ s.isSubtype z u = true

-- ============================================================= existence

/-- What a type that the schema knows converts to is such a type too. -/
theorem isRegistered_of_converts (h : s.Converts a b)
    (ha : s.isRegistered a = true) : s.isRegistered b = true := by
  rcases converts_iff.1 h with hsub | ⟨-, hb⟩
  · exact isRegistered_of_isSubtype hsub ha
  · exact isRegistered_of_scalarKind? hb

/-- A type is an object type or of a family of scalars. -/
theorem exists_scalarKind? (ha : s.isRegistered a = true)
    (hobj : s.isObject a = false) : ∃ k, s.scalarKind? a = some k := by
  obtain ⟨entry, hentry⟩ := exists_type? ha
  unfold isObject TypeEntry.isObject at hobj
  rw [hentry, Option.any_some] at hobj
  unfold scalarKind? TypeEntry.scalarKind?
  rw [hentry, Option.bind_some]
  cases hbody : entry.body with
  | scalar k base => exact ⟨k, rfl⟩
  | object bases pointers =>
      rw [hbody] at hobj
      cases hobj

/-- A common type is of objects if either of the two is. -/
theorem Common.isObject_eq (hs : s.Ordered) (h : s.Common a b t) :
    s.isObject t = s.isObject a ∧ s.isObject t = s.isObject b :=
  ⟨isObject_of_converts hs h.2.1, isObject_of_converts hs h.2.2⟩

/-- Siblings are no objects. -/
theorem Siblings.not_isObject (h : s.Siblings a b) :
    s.isObject a = false ∧ s.isObject b = false := by
  obtain ⟨⟨_, ha, hb⟩, -⟩ := h
  exact ⟨not_isObject_of_scalarKind? ha, not_isObject_of_scalarKind? hb⟩

/-- No common type is found of siblings. -/
theorem Siblings.commonType?_eq_none (h : s.Siblings a b) :
    s.commonType? a b = none := by
  have hscalars := h.not_isObject
  obtain ⟨⟨k, ha, hb⟩, hab, hba⟩ := h
  cases hc : s.commonType? a b with
  | none => rfl
  | some c =>
      have hno : ∀ x y, s.scalarKind? x = some k → s.scalarKind? y = some k →
          s.isSubtype x y = false → ¬s.Converts x y := by
        intro x y hx hy hxy hconv
        rcases converts_iff.1 hconv with hsub | ⟨hint, hfloat⟩
        · rw [hxy] at hsub
          cases hsub
        · rw [hx] at hint
          rw [hy] at hfloat
          cases hint
          cases hfloat
      rcases commonType?_cases hc with ⟨-, hconv⟩ | ⟨-, hconv⟩ | ⟨hobj, -⟩
      · exact (hno a b ha hb hab hconv).elim
      · exact (hno b a hb ha hba hconv).elim
      · cases hscalars.1.symm.trans hobj

/-- Scalars that convert to a third type convert to each other, or are
siblings. -/
theorem Common.cases_scalar (hs : s.KeepsFamilies) (ha : s.isRegistered a = true)
    (hobj : s.isObject a = false) (h : s.Common a b t) :
    s.Converts a b ∨ s.Converts b a ∨ s.Siblings a b := by
  obtain ⟨-, hat, hbt⟩ := h
  -- where the families agree it is for subtyping to decide
  have hfamily : ∀ k, s.scalarKind? a = some k → s.scalarKind? b = some k →
      s.Converts a b ∨ s.Converts b a ∨ s.Siblings a b := by
    intro k hak hbk
    cases hab : s.isSubtype a b with
    | true => exact Or.inl (converts_iff.2 (Or.inl hab))
    | false =>
        cases hba : s.isSubtype b a with
        | true => exact Or.inr (Or.inl (converts_iff.2 (Or.inl hba)))
        | false => exact Or.inr (Or.inr ⟨⟨k, hak, hbk⟩, hab, hba⟩)
  rcases converts_iff.1 hat with hsub | ⟨haint, htfloat⟩
  · rcases converts_iff.1 hbt with hsub' | ⟨hbint, htfloat⟩
    · obtain ⟨k, hk⟩ := exists_scalarKind? ha hobj
      refine hfamily k hk ?_
      rw [← hk, ← hs.scalarKind?_eq hsub, hs.scalarKind?_eq hsub']
    · refine Or.inr (Or.inl (converts_iff.2 (Or.inr ⟨hbint, ?_⟩)))
      rw [← hs.scalarKind?_eq hsub, htfloat]
  · rcases converts_iff.1 hbt with hsub' | ⟨hbint, -⟩
    · refine Or.inl (converts_iff.2 (Or.inr ⟨haint, ?_⟩))
      rw [← hs.scalarKind?_eq hsub', htfloat]
    · exact hfamily .int haint hbint

/-- A common type is found exactly where there is one and the two are no
siblings. -/
theorem isSome_commonType?_iff (hs : s.Ordered) (ha : s.isRegistered a = true) :
    (s.commonType? a b).isSome = true
      ↔ (∃ t, s.Common a b t) ∧ ¬s.Siblings a b := by
  constructor
  · intro h
    obtain ⟨t, ht⟩ := Option.isSome_iff_exists.1 h
    obtain ⟨hat, hbt⟩ := converts_of_commonType? ht
    refine ⟨⟨t, isRegistered_of_converts hat ha, hat, hbt⟩, fun hsiblings => ?_⟩
    rw [hsiblings.commonType?_eq_none] at ht
    cases ht
  · rintro ⟨⟨t, hcommon⟩, hno⟩
    cases hobj : s.isObject a with
    | true =>
        have ht := (hcommon.isObject_eq hs).1.trans hobj
        exact Option.isSome_iff_exists.2
          (exists_commonType?_of_object hs ht hcommon.2.1 hcommon.2.2)
    | false =>
        rcases hcommon.cases_scalar hs.families ha hobj with hab | hba | hsiblings
        · obtain ⟨c, hc, -⟩ := exists_commonType?_of_converts (Or.inl hab)
          exact Option.isSome_iff_exists.2 ⟨c, hc⟩
        · obtain ⟨c, hc, -⟩ := exists_commonType?_of_converts (Or.inr hba)
          exact Option.isSome_iff_exists.2 ⟨c, hc⟩
        · exact absurd hsiblings hno

-- ============================================================ narrowness

/-- Where a nearer type was found that does not extend another, the way
there forks. -/
theorem forks_of_not_isSubtype (ha : s.isRegistered a = true)
    (hau : s.isSubtype a u = true) (htu : s.isSubtype t u = false)
    (h : Nearer s.directBases a t u) : s.Forks a t u := by
  -- a walk to the other type, and one to the nearer of the same length
  obtain ⟨n, hw⟩ := exists_walk_of_isSubtype hau
  obtain ⟨m, hm, hwt⟩ := h n hw
  obtain ⟨v, hv, hvu⟩ := (Nat.add_sub_cancel' hm ▸ hw).split
  have hvreg := isRegistered_of_isSubtype (isSubtype_of_walk ha hv) ha
  have hvsub := isSubtype_of_walk hvreg hvu
  have htv : t ≠ v := by
    rintro rfl
    rw [hvsub] at htu
    cases htu
  obtain ⟨x, y, z, k, l, hx, hy, hz, hyz, hyt, hzv⟩ := hwt.exists_fork hv htv
  exact ⟨x, y, z, isSubtype_of_walk ha hx, hy, hz, hyz,
    isSubtype_of_walk (isRegistered_of_mem_directBases hy) hyt,
    isSubtype_trans (isSubtype_of_walk (isRegistered_of_mem_directBases hz) hzv)
      hvsub⟩

/-- Where a nearer type was found than one that extends it, the way there
forks. -/
theorem forks_of_nearer (hs : s.Acyclic) (ha : s.isRegistered a = true)
    (hau : s.isSubtype a u = true) (hut : s.isSubtype u t = true) (hne : u ≠ t)
    (h : Nearer s.directBases a t u) : s.Forks a t u := by
  refine forks_of_not_isSubtype ha hau ?_ h
  rw [Bool.eq_false_iff]
  exact fun htu => hne (isSubtype_antisymm hs hut htu)

/-- A common type narrower than the one found is one of objects, and is
further away, and the way there forks. -/
theorem forks_of_commonType? (hs : s.Ordered) (ha : s.isRegistered a = true)
    (h : s.commonType? a b = some t) (hu : s.Common a b u)
    (hut : s.Converts u t) (hne : u ≠ t) :
    (s.isObject a = true ∧ s.isObject b = true)
      ∧ Nearer s.directBases a t u ∧ s.Forks a t u := by
  have huobj := (hu.isObject_eq hs).1
  obtain ⟨-, hau, hbu⟩ := hu
  unfold commonType? at h
  split at h
  · cases h
    exact absurd (converts_antisymm hs.families hs.acyclic hut hbu) hne
  · split at h
    · cases h
      exact absurd (converts_antisymm hs.families hs.acyclic hut hau) hne
    · split at h
      · next hobj =>
          rw [Bool.and_eq_true] at hobj
          have huobj := huobj.trans hobj.1
          have hutsub := isSubtype_of_converts hut
            ((isObject_of_converts hs hut).trans huobj)
          have hausub := isSubtype_of_converts hau huobj
          have hnear := (nearer_of_commonSupertype h hausub
            (isSubtype_of_converts hbu huobj)).resolve_left (Ne.symm hne)
          exact ⟨hobj, hnear, forks_of_nearer hs.acyclic ha hausub hutsub hne hnear⟩
      · cases h

end Schema

-- ================================================================ builds

section

variable [NameDigest] {s : Schema} {a b : TypeId}

/-- Siblings have a type in common, the built-in one of their family. -/
theorem Registry.Builds.common_of_siblings (h : builtin.Builds s)
    (ha : s.Apart) (hab : s.Siblings a b) : ∃ k : ScalarKind, s.Common a b k.root := by
  obtain ⟨⟨k, hak, hbk⟩, -⟩ := hab
  exact ⟨k, Schema.isRegistered_of_scalarKind? (h.scalarKind?_root ha k),
    Schema.converts_iff.2 (Or.inl (h.isSubtype_root ha hak)),
    Schema.converts_iff.2 (Or.inl (h.isSubtype_root ha hbk))⟩

/-- Two objects have `std::Object` in common. -/
theorem Registry.Builds.common_of_objects (h : builtin.Builds s) (hapart : s.Apart)
    (ha : s.isObject a = true) (hb : s.isObject b = true) :
    s.Common a b TypeId.object := by
  have hsub := h.isSubtype_object hapart ha
  exact ⟨Schema.isRegistered_of_isSubtype hsub (Schema.isRegistered_of_isObject ha),
    Schema.converts_iff.2 (Or.inl hsub),
    Schema.converts_iff.2 (Or.inl (h.isSubtype_object hapart hb))⟩

/-- In a schema that has `std` a common type of two types is found exactly
where there is one, siblings apart, which always have one. The type found
is one that both convert to, and none of the others converts to it unless
both are objects and it is further away, behind a fork. -/
theorem Registry.Builds.commonType?_narrowest (h : builtin.Builds s)
    (hapart : s.Apart) (ha : s.isRegistered a = true) :
    ((s.commonType? a b).isSome = true
        ↔ (∃ t, s.Common a b t) ∧ ¬s.Siblings a b)
      ∧ (s.Siblings a b → ∃ t, s.Common a b t)
      ∧ ∀ t, s.commonType? a b = some t → s.Common a b t
          ∧ ∀ u, s.Common a b u → s.Converts u t → u ≠ t →
            (s.isObject a = true ∧ s.isObject b = true)
              ∧ Nearer s.directBases a t u ∧ s.Forks a t u := by
  have hordered := h.ordered builtin_reached.1 hapart
  refine ⟨Schema.isSome_commonType?_iff hordered ha, fun hsiblings => ?_,
    fun t ht => ⟨?_, fun u => Schema.forks_of_commonType? hordered ha ht⟩⟩
  · obtain ⟨k, hk⟩ := h.common_of_siblings hapart hsiblings
    exact ⟨k.root, hk⟩
  · obtain ⟨hat, hbt⟩ := Schema.converts_of_commonType? ht
    exact ⟨Schema.isRegistered_of_converts hat ha, hat, hbt⟩

end

-- ============================================================= examples

open scoped Xxh64
open Declaration (typeNamed)

/-- Two scalars of one base, and objects of which one lists a base that its
other base extends. -/
def kin : List Declaration :=
  [.scalar "default::Code" "std::str", .scalar "default::Tag" "std::str",
   .object "default::Thing" [] [],
   .object "default::Named" ["default::Thing"] [],
   .object "default::Member" ["default::Named", "default::Thing"] [],
   .object "default::Guest" ["default::Named"] []]

/-- The schema of them. -/
def kinSchema : Schema := Registry.builtin.schemaOf kin

instance (s : Schema) (a b t : TypeId) : Decidable (s.Common a b t) :=
  inferInstanceAs (Decidable (_ = true ∧ _ = true ∧ _ = true))

/-- What is computed of them. -/
theorem kin_checks :
    ((Registry.builtin.declareAll kin).bind Registry.build).isOk = true
      ∧ (kinSchema.names.entries.map Prod.snd).Nodup
      ∧ (∀ e ∈ kinSchema.names.entries, e.2 ≠ .empty)
      ∧ kinSchema.commonType? (typeNamed "default::Code")
        (typeNamed "default::Tag") = none
      ∧ kinSchema.Common (typeNamed "default::Code") (typeNamed "default::Tag")
        TypeId.str
      ∧ kinSchema.commonType? (typeNamed "default::Member")
        (typeNamed "default::Guest") = some (typeNamed "default::Thing")
      ∧ kinSchema.Common (typeNamed "default::Member")
        (typeNamed "default::Guest") (typeNamed "default::Named")
      ∧ kinSchema.isSubtype (typeNamed "default::Named")
        (typeNamed "default::Thing") = true
      ∧ kinSchema.isRegistered (typeNamed "default::Member") = true
      ∧ typeNamed "default::Named" ≠ typeNamed "default::Thing" := by
  decide +kernel

theorem builds_kin : Registry.builtin.Builds kinSchema :=
  Registry.builds_schemaOf kin_checks.1

theorem commonType?_narrowest_kin :
    kinSchema.commonType? (typeNamed "default::Member")
        (typeNamed "default::Guest") = some (typeNamed "default::Thing")
      ∧ kinSchema.Forks (typeNamed "default::Member")
        (typeNamed "default::Thing") (typeNamed "default::Named") := by
  obtain ⟨-, hnodup, -, -, -, hfound, hcommon, hsub, hreg, hne⟩ := kin_checks
  obtain ⟨-, -, hnarrow⟩ := builds_kin.commonType?_narrowest
    (Schema.apart_of_nodup hnodup) (b := typeNamed "default::Guest") hreg
  obtain ⟨-, hforks⟩ := hnarrow _ hfound
  exact ⟨hfound,
    (hforks _ hcommon (Schema.converts_iff.2 (Or.inl hsub)) hne).2.2⟩

/-- A common type is missed of the scalars, and a narrower one of the
objects. -/
theorem commonType?_misses_kin :
    Registry.builtin.Builds kinSchema ∧ kinSchema.Apart ∧ kinSchema.Proper
      ∧ kinSchema.commonType? (typeNamed "default::Code")
        (typeNamed "default::Tag") = none
      ∧ kinSchema.Common (typeNamed "default::Code") (typeNamed "default::Tag")
        TypeId.str
      ∧ kinSchema.commonType? (typeNamed "default::Member")
        (typeNamed "default::Guest") = some (typeNamed "default::Thing")
      ∧ kinSchema.Common (typeNamed "default::Member")
        (typeNamed "default::Guest") (typeNamed "default::Named")
      ∧ kinSchema.Converts (typeNamed "default::Named")
        (typeNamed "default::Thing")
      ∧ typeNamed "default::Named" ≠ typeNamed "default::Thing" := by
  obtain ⟨-, hnodup, hproper, hnone, hstr, hfound, hcommon, hsub, -, hne⟩ :=
    kin_checks
  exact ⟨builds_kin, Schema.apart_of_nodup hnodup,
    Schema.proper_of_forall hproper, hnone, hstr, hfound, hcommon,
    Schema.converts_iff.2 (Or.inl hsub), hne⟩

end PathQuery
