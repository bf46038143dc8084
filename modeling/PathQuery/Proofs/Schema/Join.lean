/-
The type that the elements of a set literal have in common.

It is a left fold of `commonType?` over the types of the elements. Each
step goes up in the order of conversion, so the result is an upper bound
of them all (`Schema.bounds_of_foldlM`). It is the least one, wherever the
nearest common supertype of two types is the least
(`Schema.foldlM_least`): least upper bounds do not depend on the order of
the elements, and so neither does the type (`Schema.commonOf?_perm`).

Whether there is a result is another matter. Objects have a common type
as soon as they have an upper bound, but scalars only if one of them is
the bound: scalars that extend a third one, but not each other, have no
common type before the third one is met. Where there are no such scalars
the fold succeeds or fails in every order alike
(`Schema.isSome_commonOf?_perm`), provided that all objects have a bound
or that common types are least.
-/
import PathQuery.Proofs.Schema.ObjectRoot

namespace PathQuery

namespace Schema

variable {s : Schema} {a b c t u : TypeId} {types more : List TypeId}

/-- What some types have in common: the empty type if there are none. -/
def commonOf? (s : Schema) : List TypeId → Option TypeId
  | [] => some .empty
  | t :: types => types.foldlM s.commonType? t

/-- Of two scalars among some types that convert to a third one, one
converts to the other. -/
def Comparable (s : Schema) (types : List TypeId) : Prop :=
  ∀ a ∈ types, ∀ b ∈ types, ∀ c ∈ types,
    s.isObject a = false → s.isObject b = false →
    s.Converts a c → s.Converts b c → s.Converts a b ∨ s.Converts b a

/-- What is asked of a hierarchy: no type extends itself, or a type of
another family. -/
structure Ordered (s : Schema) : Prop where
  families : s.KeepsFamilies
  acyclic : s.Acyclic

/-- The type that elements of some types have in common with `common`, as
a set literal goes about it: elements of no type do not count. -/
def elementsType? (s : Schema) (common : TypeId) : List TypeId → Option TypeId
  | [] => some common
  | t :: types =>
    if t.isEmpty then s.elementsType? common types
    else if common.isEmpty then s.elementsType? t types
    else (s.commonType? common t).bind fun wider => s.elementsType? wider types

/-- Objects convert to objects, and scalars to scalars. -/
theorem isObject_of_converts (hs : s.Ordered) (h : s.Converts a b) :
    s.isObject b = s.isObject a := by
  rcases converts_iff.1 h with hsub | ⟨hint, hfloat⟩
  · exact hs.families.isObject_eq hsub
  · rw [not_isObject_of_scalarKind? hint, not_isObject_of_scalarKind? hfloat]

-- ========================================================= upper bounds

/-- All of some types convert to a type. -/
def Bounds (s : Schema) (types : List TypeId) (u : TypeId) : Prop :=
  ∀ t ∈ types, s.Converts t u

theorem bounds_cons :
    s.Bounds (t :: types) u ↔ s.Converts t u ∧ s.Bounds types u :=
  List.forall_mem_cons

/-- A fold ends at an upper bound, which is one of the types or an object
type. -/
theorem bounds_of_foldlM (hs : s.Ordered)
    (h : types.foldlM s.commonType? t = some c) :
    s.Bounds (t :: types) c ∧ (c ∈ t :: types ∨ s.isObject c = true) := by
  induction types generalizing t with
  | nil =>
      cases h
      exact ⟨bounds_cons.2 ⟨converts_self s c, fun _ hx => by cases hx⟩,
        Or.inl List.mem_cons_self⟩
  | cons b types ih =>
      rw [List.foldlM_cons] at h
      obtain ⟨w, hw, hrest⟩ := Option.bind_eq_some_iff.1 h
      obtain ⟨htw, hbw⟩ := converts_of_commonType? hw
      obtain ⟨hbounds, hc⟩ := ih hrest
      obtain ⟨hwc, htypes⟩ := bounds_cons.1 hbounds
      refine ⟨?_, ?_⟩
      · rw [bounds_cons, bounds_cons]
        exact ⟨converts_trans hs.families htw hwc,
          converts_trans hs.families hbw hwc, htypes⟩
      · rcases hc with hc | hobj
        · rcases List.mem_cons.1 hc with rfl | hc
          · -- a common type is one of the two, or one of objects
            rcases commonType?_cases hw with ⟨rfl, -⟩ | ⟨rfl, -⟩
              | ⟨hobj, -, hmem, -⟩
            · exact Or.inl (by simp)
            · exact Or.inl (by simp)
            · have hsub := isSubtype_of_mem_ancestors hmem
              exact Or.inr ((hs.families.isObject_eq hsub).trans hobj)
          · exact Or.inl (by simp [hc])
        · exact Or.inr hobj

/-- A common type is below every upper bound, where the nearest common
supertype is the least. -/
theorem commonType?_least (hs : s.Ordered) (hleast : s.NearestLeast types)
    (ha : ∃ t ∈ types, s.Converts t a) (hb : ∃ t ∈ types, s.Converts t b)
    (h : s.commonType? a b = some c) (hau : s.Converts a u)
    (hbu : s.Converts b u) : s.Converts c u := by
  unfold commonType? at h
  split at h
  · cases h
    exact hbu
  · split at h
    · cases h
      exact hau
    · split at h
      · next hobj =>
          rw [Bool.and_eq_true] at hobj
          obtain ⟨t, ht, hta⟩ := ha
          obtain ⟨t', ht', htb⟩ := hb
          have hu := (isObject_of_converts hs hau).trans hobj.1
          exact converts_iff.2 (Or.inl (hleast a b c
            ⟨t, ht, isSubtype_of_converts hta hobj.1⟩
            ⟨t', ht', isSubtype_of_converts htb hobj.2⟩ h u
            (isSubtype_of_converts hau hu) (isSubtype_of_converts hbu hu)))
      · cases h

/-- So a fold ends at the least upper bound. -/
theorem foldlM_least {more : List TypeId} (hs : s.Ordered)
    (hleast : s.NearestLeast more) (ht : ∃ t' ∈ more, s.Converts t' t)
    (hmore : ∀ b ∈ types, b ∈ more)
    (h : types.foldlM s.commonType? t = some c)
    (hu : s.Bounds (t :: types) u) : s.Converts c u := by
  induction types generalizing t with
  | nil =>
      cases h
      exact hu c List.mem_cons_self
  | cons b types ih =>
      rw [List.foldlM_cons] at h
      obtain ⟨w, hw, hrest⟩ := Option.bind_eq_some_iff.1 h
      obtain ⟨htu, hrestu⟩ := bounds_cons.1 hu
      obtain ⟨hbu, htypes⟩ := bounds_cons.1 hrestu
      rw [List.forall_mem_cons] at hmore
      have hwu := commonType?_least hs hleast ht
        ⟨b, hmore.1, converts_self s b⟩ hw htu hbu
      obtain ⟨t', ht', htt⟩ := ht
      have htw := converts_trans hs.families htt (converts_of_commonType? hw).1
      exact ih ⟨t', ht', htw⟩ hmore.2 hrest (bounds_cons.2 ⟨hwu, htypes⟩)

-- =========================================================== acceptance

/-- Objects that have an upper bound have a common type. -/
theorem exists_commonType?_of_object (hs : s.Ordered)
    (hu : s.isObject u = true) (hau : s.Converts a u) (hbu : s.Converts b u) :
    ∃ c, s.commonType? a b = some c := by
  have hau' := isSubtype_of_converts hau hu
  have hbu' := isSubtype_of_converts hbu hu
  have ha : s.isObject a = true := (hs.families.isObject_eq hau').symm.trans hu
  have hb : s.isObject b = true := (hs.families.isObject_eq hbu').symm.trans hu
  unfold commonType?
  split
  · exact ⟨_, rfl⟩
  · split
    · exact ⟨_, rfl⟩
    · rw [ha, hb]
      exact exists_commonSupertype (isRegistered_of_isObject ha) hau' hbu'

/-- Of two types of which one converts to the other that is a common
type. -/
theorem exists_commonType?_of_converts
    (h : s.Converts a b ∨ s.Converts b a) :
    ∃ c, s.commonType? a b = some c ∧ (c = a ∨ c = b) := by
  unfold commonType?
  split
  · exact ⟨b, rfl, Or.inr rfl⟩
  · next hab =>
      split
      · exact ⟨a, rfl, Or.inl rfl⟩
      · next hba => exact (h.elim hab hba).elim

/-- Objects that have an upper bound have a common type, and scalars that
can be compared have one if one of them is the bound, provided that a
common type of two types below the bound is below it. -/
theorem exists_foldlM {more : List TypeId} (hs : s.Ordered)
    (hbelow : ∀ a b c, (∃ t ∈ more, s.Converts t a) →
      (∃ t ∈ more, s.Converts t b) → s.commonType? a b = some c →
        s.Converts a u → s.Converts b u → s.Converts c u)
    (hcomp : s.Comparable more)
    (ht : (∃ t' ∈ more, s.Converts t' t) ∧ (s.isObject t = false → t ∈ more))
    (hmore : ∀ b ∈ types, b ∈ more) (hu : s.Bounds (t :: types) u)
    (hbound : s.isObject u = true ∨ u ∈ more) :
    ∃ c, types.foldlM s.commonType? t = some c := by
  induction types generalizing t with
  | nil => exact ⟨t, rfl⟩
  | cons b types ih =>
      obtain ⟨htu, hrestu⟩ := bounds_cons.1 hu
      obtain ⟨hbu, htypes⟩ := bounds_cons.1 hrestu
      rw [List.forall_mem_cons] at hmore
      obtain ⟨⟨t', ht', htt⟩, hmem⟩ := ht
      -- one step goes up, to a type that is bounded as well
      have hstep : ∃ w, s.commonType? t b = some w
          ∧ (s.isObject w = false → w ∈ more) := by
        cases hobj : s.isObject u with
        | true =>
            obtain ⟨w, hw⟩ := exists_commonType?_of_object hs hobj htu hbu
            refine ⟨w, hw, fun hw' => ?_⟩
            have hwu := hbelow t b w ⟨t', ht', htt⟩
              ⟨b, hmore.1, converts_self s b⟩ hw htu hbu
            rw [← hs.families.isObject_eq (isSubtype_of_converts hwu hobj),
              hobj] at hw'
            cases hw'
        | false =>
            have hum : u ∈ more := hbound.resolve_left (by simp [hobj])
            have htscalar := (isObject_of_converts hs htu).symm.trans hobj
            have hbscalar := (isObject_of_converts hs hbu).symm.trans hobj
            have htm := hmem htscalar
            obtain ⟨w, hw, hor⟩ := exists_commonType?_of_converts
              (hcomp t htm b hmore.1 u hum htscalar hbscalar htu hbu)
            refine ⟨w, hw, fun _ => ?_⟩
            rcases hor with rfl | rfl
            · exact htm
            · exact hmore.1
      obtain ⟨w, hw, hwm⟩ := hstep
      have hwu := hbelow t b w ⟨t', ht', htt⟩
        ⟨b, hmore.1, converts_self s b⟩ hw htu hbu
      have htw := converts_trans hs.families htt (converts_of_commonType? hw).1
      rw [List.foldlM_cons, hw]
      exact ih ⟨⟨t', ht', htw⟩, hwm⟩ hmore.2 (bounds_cons.2 ⟨hwu, htypes⟩)

-- ======================================================= no types yet

/-- Where no known type is the empty one, elements of no type may be left
out. -/
theorem elementsType?_eq_foldlM
    (hne : ∀ t, s.isRegistered t = true → t ≠ .empty) (ha : a ≠ .empty) :
    s.elementsType? a types
      = (types.filter (· ≠ .empty)).foldlM s.commonType? a := by
  induction types generalizing a with
  | nil => rfl
  | cons t types ih =>
      unfold elementsType?
      by_cases ht : t = .empty
      · subst ht
        rw [if_pos (by decide), List.filter_cons_of_neg (by simp), ih ha]
      · rw [if_neg (by simpa [TypeId.isEmpty] using ht),
          if_neg (by simpa [TypeId.isEmpty] using ha),
          List.filter_cons_of_pos (by simpa using ht), List.foldlM_cons]
        refine Option.bind_congr fun w hw => ih ?_
        rcases commonType?_cases hw with ⟨rfl, -⟩ | ⟨rfl, -⟩ | ⟨-, -, hmem, -⟩
        · exact ht
        · exact ha
        · exact hne w (isRegistered_of_mem_ancestors hmem)

theorem elementsType?_eq_commonOf?
    (hne : ∀ t, s.isRegistered t = true → t ≠ .empty) :
    s.elementsType? .empty types
      = s.commonOf? (types.filter (· ≠ .empty)) := by
  induction types with
  | nil => rfl
  | cons t types ih =>
      unfold elementsType?
      by_cases ht : t = .empty
      · subst ht
        rw [if_pos (by decide), List.filter_cons_of_neg (by simp), ih]
      · rw [if_neg (by simpa [TypeId.isEmpty] using ht), if_pos (by decide),
          List.filter_cons_of_pos (by simpa using ht)]
        exact elementsType?_eq_foldlM hne ht

-- ========================================================= permutations

/-- In whichever order some types are met, they have one type in
common. -/
theorem commonOf?_perm (hs : s.Ordered) (hleast : s.NearestLeast types)
    {types' : List TypeId} (hperm : types.Perm types') {c' : TypeId}
    (h : s.commonOf? types = some c) (h' : s.commonOf? types' = some c') :
    c = c' := by
  cases types with
  | nil =>
      rw [hperm.nil_eq] at h
      rw [h'] at h
      cases h
      rfl
  | cons t types =>
      cases types' with
      | nil => cases hperm.eq_nil
      | cons t' types' =>
          have hbounds := (bounds_of_foldlM hs h).1
          have hbounds' := (bounds_of_foldlM hs h').1
          have hmem : ∀ x, x ∈ t' :: types' → x ∈ t :: types := fun x hx =>
            hperm.mem_iff.2 hx
          have hle := foldlM_least hs hleast
            ⟨t, List.mem_cons_self, converts_self s t⟩
            (fun b hb => List.mem_cons_of_mem _ hb) h
            (fun x hx => hbounds' x (hperm.mem_iff.1 hx))
          have hle' := foldlM_least hs hleast
            ⟨t', hmem t' List.mem_cons_self, converts_self s t'⟩
            (fun b hb => hmem b (List.mem_cons_of_mem _ hb)) h'
            (fun x hx => hbounds x (hmem x hx))
          exact converts_antisymm hs.families hs.acyclic hle hle'

/-- All object types extend one type. -/
def Topped (s : Schema) : Prop :=
  ∃ top, ∀ t, s.isObject t = true → s.isSubtype t top = true

/-- Some types that have a type in common have an upper bound that is one
of them or an object type, and that is above the common type of any two
types below it. -/
theorem exists_bound (hs : s.Ordered)
    (h : s.commonOf? (t :: types) = some c)
    (hleast : s.NearestLeast (t :: types) ∨ s.Topped) :
    ∃ u, s.Bounds (t :: types) u ∧ (s.isObject u = true ∨ u ∈ t :: types)
      ∧ ∀ a b w, (∃ x ∈ t :: types, s.Converts x a) →
        (∃ x ∈ t :: types, s.Converts x b) → s.commonType? a b = some w →
          s.Converts a u → s.Converts b u → s.Converts w u := by
  obtain ⟨hbounds, hc⟩ := bounds_of_foldlM hs h
  rcases hleast with hleast | ⟨top, htop⟩
  · exact ⟨c, hbounds, hc.symm, fun a b w ha hb hw =>
      commonType?_least hs hleast ha hb hw⟩
  · cases hobj : s.isObject c with
    | true =>
        have hctop := htop c hobj
        refine ⟨top, fun x hx => ?_, Or.inl ?_, ?_⟩
        · exact converts_trans hs.families (hbounds x hx)
            (converts_iff.2 (Or.inl hctop))
        · rw [hs.families.isObject_eq hctop, hobj]
        · intro a b w _ _ hw ha hb
          rcases commonType?_cases hw with ⟨rfl, -⟩ | ⟨rfl, -⟩
            | ⟨hobj', -, hmem, -⟩
          · exact hb
          · exact ha
          · have hwobj := hs.families.isObject_eq (isSubtype_of_mem_ancestors hmem)
            exact converts_iff.2 (Or.inl (htop w (hwobj.trans hobj')))
    | false =>
        refine ⟨c, hbounds, hc.symm, fun a b w _ _ hw ha hb => ?_⟩
        rcases commonType?_cases hw with ⟨rfl, -⟩ | ⟨rfl, -⟩ | ⟨hobj', -, -, -⟩
        · exact hb
        · exact ha
        · rw [← isObject_of_converts hs ha, hobj] at hobj'
          cases hobj'

/-- In whichever order some types are met, they have a type in common or
have none. -/
theorem isSome_commonOf?_perm (hs : s.Ordered)
    (hleast : s.NearestLeast types ∨ s.Topped)
    (hcomp : s.Comparable types) {types' : List TypeId}
    (hperm : types.Perm types') (h : s.commonOf? types = some c) :
    ∃ c', s.commonOf? types' = some c' := by
  cases types' with
  | nil => exact ⟨_, rfl⟩
  | cons t' types' =>
      cases types with
      | nil => cases hperm.nil_eq
      | cons t types =>
          obtain ⟨u, hbounds, hu, hbelow⟩ := exists_bound hs h hleast
          have hmem : ∀ x, x ∈ t' :: types' → x ∈ t :: types := fun x hx =>
            hperm.mem_iff.2 hx
          exact exists_foldlM hs hbelow hcomp
            ⟨⟨t', hmem t' List.mem_cons_self, converts_self s t'⟩,
              fun _ => hmem t' List.mem_cons_self⟩
            (fun b hb => hmem b (List.mem_cons_of_mem _ hb))
            (fun x hx => hbounds x (hmem x hx)) hu

end Schema

/-- Whatever a schema was built from, its types are ordered. -/
theorem Registry.Builds.ordered [NameDigest] {start : Registry} {s : Schema}
    (h : start.Builds s) (hd : Registry.Declared start) (ha : s.Apart) :
    s.Ordered :=
  ⟨h.keepsFamilies hd ha, h.acyclic⟩

theorem Registry.Builds.topped [NameDigest] {s : Schema}
    (h : Registry.builtin.Builds s) (ha : s.Apart) : s.Topped :=
  ⟨TypeId.object, fun _ ht => h.isSubtype_object ha ht⟩

end PathQuery
