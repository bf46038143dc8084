/-
What a type extends, and in which order it is listed.

In a schema that was built subtyping is a partial order. `ancestors` lists
the supertypes of a type, each once and the type itself first, by their
distance, which is the length of a shortest chain of direct bases, and as
a search by a queue would visit them. A pointer is found if a supertype
declares it (`Schema.ownPointer?`), and the declaration that is found is
one at the least distance (`Registry.supertypes_of_build`).
-/
import PathQuery.Proofs.Search.Queue

namespace PathQuery

namespace Schema

open Search (Walk Distance Nearer queueOrder)

variable {s : Schema} {t u : TypeId} {name : String} {p : Pointer}

-- ========================================================= supertypes

theorem isSubtype_iff_distance (ht : s.isRegistered t = true) :
    s.isSubtype t u = true ↔ ∃ n, Distance s.directBases t u n := by
  constructor
  · intro h
    obtain ⟨n, hw⟩ := exists_walk_of_isSubtype h
    exact hw.exists_distance
  · rintro ⟨n, hw, -⟩
    exact isSubtype_of_walk ht hw

theorem levelOrder_closed (ht : s.isRegistered t = true) :
    ∀ a ∈ Search.levelOrder s.directBases s.types.size [t], ∀ b ∈ s.directBases a,
      b ∈ Search.levelOrder s.directBases s.types.size [t] := by
  rw [← ancestors_of_isRegistered ht]
  exact fun _ ha _ hb => mem_ancestors_of_mem_directBases ha hb

theorem nodup_ancestors (ht : s.isRegistered t = true) : (s.ancestors t).Nodup := by
  rw [ancestors_of_isRegistered ht]
  exact Search.nodup_levelOrder (levelOrder_closed ht)

/-- There are no more supertypes than types. -/
theorem length_ancestors_le (ht : s.isRegistered t = true) :
    (s.ancestors t).length ≤ s.types.size := by
  have hsub : s.ancestors t ⊆ s.types.keys := fun _ ha =>
    mem_keys_of_isRegistered (isRegistered_of_mem_ancestors ha)
  have hle := ((nodup_ancestors ht).subperm hsub).length_le
  have hsize : s.types.keys.length = s.types.size := List.length_map _
  omega

/-- The supertypes of a type are what a queue visits, in its order. -/
theorem queueOrder_ancestors (ht : s.isRegistered t = true) {visits : Nat}
    (h : s.types.size ≤ visits) :
    queueOrder s.directBases visits [] [t] = s.ancestors t := by
  have hle := Nat.le_trans (length_ancestors_le ht) h
  rw [ancestors_of_isRegistered ht] at hle ⊢
  exact Search.queueOrder_start (levelOrder_closed ht) hle

/-- A type is the first of its supertypes. -/
theorem head?_ancestors (ht : s.isRegistered t = true) :
    (s.ancestors t).head? = some t := by
  obtain ⟨rest, hrest⟩ := Search.prefix_levelOrder s.directBases s.types.size [t]
  rw [ancestors_of_isRegistered ht, ← hrest]
  rfl

-- ============================================================ pointers

/-- The pointer of the name that a type declares itself. -/
def ownPointer? (s : Schema) (t : TypeId) (name : String) : Option Pointer :=
  (s.type? t).bind fun entry => entry.pointers.get? name

/-- The type whose declaration is found: the first one of the supertypes
that declares the name. -/
def declarer? (s : Schema) (t : TypeId) (name : String) : Option TypeId :=
  (s.ancestors t).find? fun u => (s.ownPointer? u name).isSome

/-- Only object types declare pointers. -/
theorem isObject_of_ownPointer? (h : s.ownPointer? t name = some p) :
    s.isObject t = true := by
  obtain ⟨entry, hentry, hp⟩ := Option.bind_eq_some_iff.1 h
  unfold isObject TypeEntry.isObject
  rw [hentry, Option.any_some]
  unfold TypeEntry.pointers at hp
  cases hbody : entry.body with
  | scalar kind base =>
      rw [hbody] at hp
      cases hp
  | object bases pointers => rfl

theorem findPointer_eq_declarer? (s : Schema) (t : TypeId) (name : String) :
    s.findPointer t name
      = (s.declarer? t name).bind fun d => s.ownPointer? d name := by
  unfold findPointer declarer? ownPointer?
  induction s.ancestors t with
  | nil => rfl
  | cons u rest ih =>
      rw [List.findSome?_cons, List.find?_cons]
      cases hu : (s.type? u).bind fun entry => entry.pointers.get? name with
      | none => exact ih
      | some p => exact hu.symm

/-- A pointer is found by a declaration of some supertype. -/
theorem exists_declarer (h : s.findPointer t name = some p) :
    ∃ d, s.declarer? t name = some d ∧ s.ownPointer? d name = some p := by
  rw [findPointer_eq_declarer?] at h
  exact Option.bind_eq_some_iff.1 h

/-- A type finds what it declares itself. -/
theorem findPointer_of_ownPointer? (ht : s.isRegistered t = true)
    (h : s.ownPointer? t name = some p) : s.findPointer t name = some p := by
  have hhead := head?_ancestors ht
  unfold findPointer
  cases hlist : s.ancestors t with
  | nil =>
      rw [hlist] at hhead
      cases hhead
  | cons u rest =>
      rw [hlist] at hhead
      cases hhead
      unfold ownPointer? at h
      rw [List.findSome?_cons, h]

/-- No supertype that declares the name is nearer. -/
theorem nearer_of_declarer? {d e : TypeId} (h : s.declarer? t name = some d)
    (he : e ∈ s.ancestors t) (hown : (s.ownPointer? e name).isSome = true) :
    d = e ∨ Nearer s.directBases t d e :=
  Search.rel_of_find? (pairwise_ancestors s t) h he hown

/-- A pointer is found if a supertype declares one. -/
theorem isSome_findPointer_iff :
    (s.findPointer t name).isSome = true
      ↔ ∃ u ∈ s.ancestors t, s.isObject u = true
        ∧ (s.ownPointer? u name).isSome = true := by
  unfold findPointer
  rw [List.findSome?_isSome_iff]
  constructor
  · rintro ⟨u, hu, hown⟩
    obtain ⟨p, hp⟩ := Option.isSome_iff_exists.1 hown
    exact ⟨u, hu, isObject_of_ownPointer? hp, hown⟩
  · rintro ⟨u, hu, -, hown⟩
    exact ⟨u, hu, hown⟩

/-- The pointer that is found is declared at the least distance at which
one is. -/
theorem distance_of_findPointer (h : s.findPointer t name = some p) :
    ∃ d ∈ s.ancestors t, s.ownPointer? d name = some p
      ∧ ∃ n, Distance s.directBases t d n ∧ ∀ e ∈ s.ancestors t,
        (s.ownPointer? e name).isSome = true →
          ∀ m, Distance s.directBases t e m → n ≤ m := by
  obtain ⟨d, hd, hp⟩ := exists_declarer h
  have hmem := List.mem_of_find?_eq_some hd
  obtain ⟨ht, hsub⟩ := mem_ancestors_iff.1 hmem
  obtain ⟨n, hn⟩ := (isSubtype_iff_distance ht).1 hsub
  refine ⟨d, hmem, hp, n, hn, fun e he hown m hm => ?_⟩
  rcases nearer_of_declarer? hd he hown with rfl | hnear
  · exact hn.2 m hm.1
  · exact hnear.distance_le hn hm

end Schema

-- =============================================================== builds

open Search (Distance queueOrder)

/-- In a schema that was built subtyping is a partial order. What a type
extends is listed once each, the type first and the others by distance,
as a search by a queue would visit them; and a pointer is found where one
of them declares it, at the least distance at which one does. -/
theorem Registry.supertypes_of_build {r : Registry} {s : Schema}
    (h : r.build = .ok s) :
    ((∀ t, s.isSubtype t t = true)
        ∧ (∀ a b c, s.isSubtype a b = true → s.isSubtype b c = true →
          s.isSubtype a c = true)
        ∧ ∀ a b, s.isSubtype a b = true → s.isSubtype b a = true → a = b)
      ∧ ∀ t, s.isRegistered t = true →
        ((s.ancestors t).Nodup
          ∧ (∀ u, u ∈ s.ancestors t ↔ s.isSubtype t u = true)
          ∧ (s.ancestors t).head? = some t
          ∧ (∀ u, u ∈ s.ancestors t ↔ ∃ n, Distance s.directBases t u n)
          ∧ (s.ancestors t).Pairwise (fun a b => ∀ m n,
            Distance s.directBases t a m → Distance s.directBases t b n → m ≤ n)
          ∧ ∀ visits, s.types.size ≤ visits →
            queueOrder s.directBases visits [] [t] = s.ancestors t)
        ∧ ∀ name,
          ((s.findPointer t name).isSome = true
              ↔ ∃ u ∈ s.ancestors t, s.isObject u = true
                ∧ (s.ownPointer? u name).isSome = true)
            ∧ ∀ p, s.findPointer t name = some p →
              ∃ d ∈ s.ancestors t, s.ownPointer? d name = some p
                ∧ ∃ n, Distance s.directBases t d n ∧ ∀ e ∈ s.ancestors t,
                  (s.ownPointer? e name).isSome = true →
                    ∀ m, Distance s.directBases t e m → n ≤ m := by
  refine ⟨⟨Schema.isSubtype_self s, fun _ _ _ => Schema.isSubtype_trans,
    fun _ _ => Schema.isSubtype_antisymm (acyclic_of_build h)⟩, fun t ht => ?_⟩
  have hmem : ∀ u, u ∈ s.ancestors t ↔ s.isSubtype t u = true := by
    intro u
    rw [Schema.mem_ancestors_iff]
    exact and_iff_right ht
  have hordered : (s.ancestors t).Pairwise fun a b => ∀ m n,
      Distance s.directBases t a m → Distance s.directBases t b n → m ≤ n :=
    (Schema.pairwise_ancestors s t).imp fun hnear m n => hnear.distance_le
  exact ⟨⟨Schema.nodup_ancestors ht, hmem, Schema.head?_ancestors ht,
    fun u => (hmem u).trans (Schema.isSubtype_iff_distance ht), hordered,
    fun _ => Schema.queueOrder_ancestors ht⟩,
    fun _ => ⟨Schema.isSome_findPointer_iff,
      fun _ => Schema.distance_of_findPointer⟩⟩

-- ============================================================= examples

open scoped Xxh64
open Declaration (typeNamed)

/-- A pointer that one type declares again, and a type that lists both. -/
def labelled : List Declaration :=
  [.object "default::Thing" [] [.property "label" "std::str" { multi := true }],
   .object "default::Named" ["default::Thing"]
    [.property "label" "std::str" { required := true }],
   .object "default::Member" ["default::Named", "default::Thing"] []]

/-- The schema of them. -/
def labelledSchema : Schema := Registry.builtin.schemaOf labelled

/-- What is computed of them. -/
theorem labelled_checks :
    ((Registry.builtin.declareAll labelled).bind Registry.build).isOk = true
      ∧ (labelledSchema.names.entries.map Prod.snd).Nodup
      ∧ (∀ e ∈ labelledSchema.names.entries, e.2 ≠ .empty)
      ∧ labelledSchema.isObject (typeNamed "default::Member") = true
      ∧ labelledSchema.isSubtype (typeNamed "default::Member")
        (typeNamed "default::Named") = true
      ∧ labelledSchema.isSubtype (typeNamed "default::Named")
        (typeNamed "default::Thing") = true
      ∧ labelledSchema.declarer? (typeNamed "default::Member") "label"
        = some (typeNamed "default::Thing")
      ∧ labelledSchema.findPointer (typeNamed "default::Member") "label"
        = labelledSchema.ownPointer? (typeNamed "default::Thing") "label"
      ∧ labelledSchema.ownPointer? (typeNamed "default::Thing") "label"
        = some ⟨TypeId.str, { multi := true }⟩
      ∧ labelledSchema.ownPointer? (typeNamed "default::Named") "label"
        = some ⟨TypeId.str, { required := true }⟩
      ∧ typeNamed "default::Named" ≠ typeNamed "default::Thing" := by
  decide +kernel

theorem builds_labelled : Registry.builtin.Builds labelledSchema :=
  Registry.builds_schemaOf labelled_checks.1

theorem supertypes_of_build_labelled :
    (∃ r : Registry, r.build = .ok labelledSchema)
      ∧ labelledSchema.isRegistered (typeNamed "default::Member") = true
      ∧ (labelledSchema.ancestors (typeNamed "default::Member")).Nodup
      ∧ queueOrder labelledSchema.directBases labelledSchema.types.size []
          [typeNamed "default::Member"]
        = labelledSchema.ancestors (typeNamed "default::Member")
      ∧ (labelledSchema.findPointer (typeNamed "default::Member")
        "label").isSome = true := by
  obtain ⟨-, -, -, hobj, hsub, -, -, -, -, hown, -⟩ := labelled_checks
  obtain ⟨_, r, -, hbuild⟩ := builds_labelled
  have hreg := Schema.isRegistered_of_isObject hobj
  obtain ⟨-, hall⟩ := Registry.supertypes_of_build hbuild
  obtain ⟨⟨hnodup, hmem, -, -, -, hqueue⟩, hpointers⟩ := hall _ hreg
  have hown' : (labelledSchema.ownPointer? (typeNamed "default::Named")
      "label").isSome = true := by
    rw [hown]
    rfl
  obtain ⟨p, hp⟩ := Option.isSome_iff_exists.1 hown'
  exact ⟨⟨r, hbuild⟩, hreg, hnodup, hqueue _ (Nat.le_refl _),
    (hpointers "label").1.2
      ⟨_, (hmem _).2 hsub, Schema.isObject_of_ownPointer? hp, hown'⟩⟩

/-- The base that is listed last comes first, and `std::Object` last. -/
example : labelledSchema.ancestors (typeNamed "default::Member")
    = [typeNamed "default::Member", typeNamed "default::Thing",
      typeNamed "default::Named", TypeId.object] := by
  decide +kernel

end PathQuery
