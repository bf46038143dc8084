/-
Which declaration of a pointer is found where a type declares it again.

A type may declare a pointer that a type it extends declares as well. The
lookup takes the first declaration by distance (`Schema.declarer?`), so
one that is declared again on the way is not found unless it is no
further away than the type that does so. Then the way forks: some type
has two direct bases, of which one leads to the declaration found and the
other to the more specific one (`Schema.forks_of_declarer?`). Where no
type on the way has two direct bases, the most specific declaration is
the one found (`Registry.findPointer_of_build`).
-/
import PathQuery.Proofs.Schema.CommonType
import PathQuery.Proofs.Schema.Supertypes

namespace PathQuery

open Search (Distance Nearer)

namespace Schema

variable {s : Schema} {t d e : TypeId} {name : String} {p : Pointer}

/-- A type between a type and the declaration found for it declares the
pointer again. -/
def Overrides (s : Schema) (t d e : TypeId) (name : String) : Prop :=
  (s.ownPointer? e name).isSome = true ∧ s.isSubtype t e = true
    ∧ s.isSubtype e d = true ∧ e ≠ d

theorem isSubtype_of_declarer? (h : s.declarer? t name = some d) :
    s.isRegistered t = true ∧ s.isSubtype t d = true :=
  mem_ancestors_iff.1 (List.mem_of_find?_eq_some h)

/-- A declaration that is found although it is declared again is no further
away, and the way there forks. -/
theorem forks_of_declarer? (hs : s.Acyclic) (h : s.declarer? t name = some d)
    (he : s.Overrides t d e name) :
    Nearer s.directBases t d e ∧ s.Forks t d e := by
  obtain ⟨hown, hte, hed, hne⟩ := he
  obtain ⟨ht, -⟩ := isSubtype_of_declarer? h
  have hnear := (nearer_of_declarer? h (mem_ancestors_iff.2 ⟨ht, hte⟩)
    hown).resolve_left (Ne.symm hne)
  exact ⟨hnear, forks_of_nearer hs ht hte hed hne hnear⟩

/-- There is no fork where no type has two direct bases. -/
theorem not_forks_of_single (ht : s.isRegistered t = true)
    (h : ∀ u ∈ s.ancestors t, ∀ a ∈ s.directBases u, ∀ b ∈ s.directBases u,
      a = b) : ¬s.Forks t d e := by
  rintro ⟨x, y, z, hx, hy, hz, hyz, -⟩
  exact hyz (h x (mem_ancestors_iff.2 ⟨ht, hx⟩) y hy z hz)

end Schema

/-- In a schema that was built the pointer that is found is the one of the
first type by distance that declares it. A type in between that declares
it again is no nearer, and the way there forks, so there is none where no
type on the way has two direct bases. -/
theorem Registry.findPointer_of_build {r : Registry} {s : Schema}
    (h : r.build = .ok s) {t : TypeId} {name : String} {p : Pointer}
    (hp : s.findPointer t name = some p) :
    ∃ d, s.declarer? t name = some d ∧ s.ownPointer? d name = some p
      ∧ s.isSubtype t d = true
      ∧ (∀ e, s.Overrides t d e name →
        (∀ m n, Distance s.directBases t d m →
            Distance s.directBases t e n → m ≤ n)
          ∧ s.Forks t d e)
      ∧ ((∀ u ∈ s.ancestors t, ∀ a ∈ s.directBases u,
          ∀ b ∈ s.directBases u, a = b) → ∀ e, ¬s.Overrides t d e name) := by
  have hs := acyclic_of_build h
  rw [Schema.findPointer_eq_declarer?] at hp
  obtain ⟨d, hd, hown⟩ := Option.bind_eq_some_iff.1 hp
  obtain ⟨ht, htd⟩ := Schema.isSubtype_of_declarer? hd
  refine ⟨d, hd, hown, htd, fun e he => ?_, fun hsingle e he => ?_⟩
  · obtain ⟨hnear, hforks⟩ := Schema.forks_of_declarer? hs hd he
    exact ⟨fun m n => hnear.distance_le, hforks⟩
  · exact Schema.not_forks_of_single ht hsingle
      (Schema.forks_of_declarer? hs hd he).2

-- ============================================================= examples

open scoped Xxh64
open Declaration (typeNamed)

theorem findPointer_of_build_labelled :
    (∃ r : Registry, r.build = .ok labelledSchema)
      ∧ labelledSchema.findPointer (typeNamed "default::Member") "label"
        = some ⟨TypeId.str, { multi := true }⟩
      ∧ labelledSchema.Forks (typeNamed "default::Member")
        (typeNamed "default::Thing") (typeNamed "default::Named") := by
  obtain ⟨-, -, -, -, hsub, hsub', hd, hfound, hthing, hnamed, hne⟩ :=
    labelled_checks
  obtain ⟨_, r, -, hbuild⟩ := builds_labelled
  have hp := hfound.trans hthing
  obtain ⟨d, hd', -, -, hforks, -⟩ := Registry.findPointer_of_build hbuild hp
  obtain rfl := Option.some.inj (hd.symm.trans hd')
  have hown : (labelledSchema.ownPointer? (typeNamed "default::Named")
      "label").isSome = true := by
    rw [hnamed]
    rfl
  exact ⟨⟨r, hbuild⟩, hp, (hforks _ ⟨hown, hsub, hsub', hne⟩).2⟩

/-- A declaration is found that a more specific one replaces. -/
theorem findPointer_passes_over_labelled :
    Registry.builtin.Builds labelledSchema ∧ labelledSchema.Apart
      ∧ labelledSchema.Proper
      ∧ labelledSchema.isObject (typeNamed "default::Member") = true
      ∧ labelledSchema.declarer? (typeNamed "default::Member") "label"
        = some (typeNamed "default::Thing")
      ∧ labelledSchema.findPointer (typeNamed "default::Member") "label"
        = labelledSchema.ownPointer? (typeNamed "default::Thing") "label"
      ∧ labelledSchema.ownPointer? (typeNamed "default::Thing") "label"
        = some ⟨TypeId.str, { multi := true }⟩
      ∧ labelledSchema.ownPointer? (typeNamed "default::Named") "label"
        = some ⟨TypeId.str, { required := true }⟩
      ∧ labelledSchema.Overrides (typeNamed "default::Member")
        (typeNamed "default::Thing") (typeNamed "default::Named") "label" := by
  obtain ⟨-, hnodup, hproper, hobj, hsub, hsub', hd, hfound, hthing, hnamed,
    hne⟩ := labelled_checks
  refine ⟨builds_labelled, Schema.apart_of_nodup hnodup,
    Schema.proper_of_forall hproper, hobj, hd, hfound, hthing, hnamed,
    ?_, hsub, hsub', hne⟩
  rw [hnamed]
  rfl

end PathQuery
