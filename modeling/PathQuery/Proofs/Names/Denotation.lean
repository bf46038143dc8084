/-
What a registered name stands for.

Declarations are made one by one, and one that is refused changes
nothing, so any sequence of them leads somewhere (`attemptAll`). What an
accepted declaration stores is told by the declaration and by what was
there (`entryFor`); a run of them stores a list of types, in order
(`stores`).

Names are never taken twice, but types are stored under the identities
of their names, and two names may have one identity. The type stored
last is then what both of them stand for: a name keeps standing for the
type that it was declared with exactly if no type that is accepted later
has its identity (`Registry.names_resolve`).
-/
import PathQuery.Proofs.Schema.References

namespace PathQuery

-- =============================================================== names

namespace QualifiedName

theorem eq_of_splitLast {cs before after : List Char}
    (h : splitLast cs = some (before, after)) :
    cs = before ++ ':' :: ':' :: after := by
  induction cs generalizing before with
  | nil => cases h
  | cons c rest ih =>
      unfold splitLast at h
      split at h
      · next b a hrest =>
          cases h
          rw [ih hrest, List.cons_append]
      · split at h
        · next after' _ =>
            split at h
            · next hc =>
                cases h
                rw [hc]
                rfl
            · cases h
        · cases h

/-- A name that was read as qualified is written as it was read. -/
theorem text_parse {text : String} (h : (parse text).isQualified = true) :
    (parse text).text = text := by
  unfold parse at h ⊢
  split at h
  · cases h
  · next before after _ hsplit =>
      show String.ofList before ++ "::" ++ String.ofList after = text
      apply String.toList_injective
      rw [eq_of_splitLast hsplit]
      simp
  · cases h

end QualifiedName

namespace Registry

open Declaration (typeNamed pointerEntry)

variable [NameDigest] {r r' : Registry} {ds : List Declaration}

-- ============================================================ attempts

/-- A declaration that may be refused. -/
def attempt (r : Registry) (d : Declaration) : Registry :=
  match r.declare d with
  | .ok (r', _) => r'
  | .error _ => r

/-- Declarations in turn, of which some may be refused. -/
def attemptAll (r : Registry) (ds : List Declaration) : Registry :=
  ds.foldl attempt r

/-- The type that a declaration stores, if it is accepted: a scalar of the
family of the one that its base stands for, or an object type as it is
written. -/
def entryFor (r : Registry) : Declaration → Option TypeEntry
  | .scalar name base => do
    let (id, entry) ← r.schema.typeByName? (.parse base)
    let kind ← entry.scalarKind?
    return ⟨.parse name, .scalar kind (some id)⟩
  | .object name bases pointers =>
    some ⟨.parse name,
      .object (r.schema.effectiveBases (typeNamed name) (bases.map typeNamed))
        ⟨pointers.map pointerEntry⟩⟩
  | .module _ | .function _ _ => none

/-- The types that were stored by those of some declarations that were
accepted, in order. -/
def stores (r : Registry) : List Declaration → List TypeEntry
  | [] => []
  | d :: ds =>
    match r.declare d with
    | .ok (r', _) => (r.entryFor d).toList ++ r'.stores ds
    | .error _ => r.stores ds

/-- A type was stored under its identity and a new name. -/
structure Stored (entry : TypeEntry) (r r' : Registry) : Prop where
  fresh : r.schema.names.get? entry.name = none
  qualified : (QualifiedName.parse entry.name.text) = entry.name
  names : r'.schema.names
    = r.schema.names.insert entry.name (TypeId.ofQualified entry.name)
  types : r'.schema.types
    = r.schema.types.insert (TypeId.ofQualified entry.name) entry

theorem stored_of_addType {name : String} {body : TypeBody} {schema : Schema}
    (references : List Reference)
    (hname : (QualifiedName.parse name).isQualified = true)
    (h : r.schema.addType (.parse name) body = .ok schema) :
    Stored ⟨.parse name, body⟩ r ⟨schema, references⟩ := by
  obtain ⟨hfresh, hnames, htypes⟩ := addType_ok h
  refine ⟨hfresh, ?_, hnames, htypes⟩
  dsimp only
  rw [QualifiedName.text_parse hname]

/-- An accepted declaration stores the type that it is told to store, or
is the declaration of no type. -/
theorem declare_stores {d : Declaration} {id : Option TypeId}
    (h : r.declare d = .ok (r', id)) :
    (id = none ∧ r.entryFor d = none ∧ r'.schema.types = r.schema.types
        ∧ r'.schema.names = r.schema.names)
      ∨ ∃ entry, r.entryFor d = some entry
        ∧ id = some (TypeId.ofQualified entry.name) ∧ Stored entry r r' := by
  cases declare_admits h with
  | module name =>
      exact Or.inl ⟨rfl, rfl, Schema.addModule_untouched r.schema name⟩
  | @scalar name base _ entry _ _ qualified extended family added =>
      refine Or.inr ⟨⟨.parse name, _⟩, ?_, rfl,
        stored_of_addType _ qualified added⟩
      show (r.schema.typeByName? (.parse base)).bind _ = _
      rw [extended]
      show entry.scalarKind?.bind _ = _
      rw [family]
      rfl
  | @object name _ _ _ _ _ qualified _ _ added =>
      exact Or.inr ⟨⟨.parse name, _⟩, rfl, rfl,
        stored_of_addType _ qualified added⟩
  | @function _ _ module _ _ =>
      exact Or.inl ⟨rfl, rfl, Schema.addModule_untouched r.schema module⟩

/-- An attempt is a declaration or nothing. -/
theorem attempt_eq (r : Registry) (d : Declaration) :
    (∃ id, r.declare d = .ok (r.attempt d, id)) ∨ r.attempt d = r := by
  unfold attempt
  cases h : r.declare d with
  | ok out => exact Or.inl ⟨out.2, rfl⟩
  | error e => exact Or.inr rfl

theorem attemptAll_reaches (r : Registry) (ds : List Declaration) :
    Reaches r (r.attemptAll ds) := by
  unfold attemptAll
  induction ds generalizing r with
  | nil => exact .refl
  | cons d ds ih =>
      rw [List.foldl_cons]
      rcases attempt_eq r d with ⟨id, hd⟩ | heq
      · exact .head (declare_cases hd) (ih _)
      · rw [heq]
        exact ih r

theorem Reaches.names (h : Reaches r r') {name : QualifiedName} {id : TypeId}
    (hn : r.schema.names.get? name = some id) :
    r'.schema.names.get? name = some id := by
  induction h with
  | refl => exact hn
  | tail _ hstep ih => exact hstep.names ih

/-- What a run of declarations stores, by its first one. -/
theorem stores_cons (r : Registry) (d : Declaration) (ds : List Declaration) :
    ((r.attempt d).schema.types = r.schema.types
        ∧ (r.attempt d).schema.names = r.schema.names
        ∧ r.stores (d :: ds) = (r.attempt d).stores ds)
      ∨ ∃ entry, Stored entry r (r.attempt d)
        ∧ r.stores (d :: ds) = entry :: (r.attempt d).stores ds := by
  rw [stores]
  unfold attempt
  cases h : r.declare d with
  | error e => exact Or.inl ⟨rfl, rfl, rfl⟩
  | ok out =>
      obtain ⟨r', id⟩ := out
      rcases declare_stores h with
        ⟨-, hnone, htypes, hnames⟩ | ⟨entry, hentry, -, hstored⟩
      · rw [hnone]
        exact Or.inl ⟨htypes, hnames, rfl⟩
      · rw [hentry]
        exact Or.inr ⟨entry, hstored, rfl⟩

/-- What is stored takes a new name, and keeps it. -/
theorem names_of_mem_stores {entry : TypeEntry} (h : entry ∈ r.stores ds) :
    r.schema.names.get? entry.name = none
      ∧ (r.attemptAll ds).schema.names.get? entry.name
        = some (TypeId.ofQualified entry.name) := by
  induction ds generalizing r with
  | nil => cases h
  | cons d ds ih =>
      have hreaches := attemptAll_reaches (r.attempt d) ds
      rcases stores_cons r d ds with ⟨-, hnames, heq⟩ | ⟨first, hstored, heq⟩
      · rw [heq] at h
        rw [← hnames]
        exact ih h
      · rw [heq] at h
        rcases List.mem_cons.1 h with rfl | h
        · refine ⟨hstored.fresh, hreaches.names ?_⟩
          rw [hstored.names, Table.get?_insert_self]
        · obtain ⟨hnone, hsome⟩ := ih h
          refine ⟨?_, hsome⟩
          rw [hstored.names, Table.get?_insert] at hnone
          split at hnone
          · cases hnone
          · exact hnone

/-- Under an identity that nothing was stored under, there is what there
was. -/
theorem type?_of_not_stored {id : TypeId}
    (h : ∀ entry ∈ r.stores ds, TypeId.ofQualified entry.name ≠ id) :
    (r.attemptAll ds).schema.type? id = r.schema.type? id := by
  induction ds generalizing r with
  | nil => rfl
  | cons d ds ih =>
      rcases stores_cons r d ds with ⟨htypes, -, heq⟩ | ⟨first, hstored, heq⟩
      · rw [heq] at h
        exact (ih h).trans (type?_eq_of_types htypes id)
      · rw [heq, List.forall_mem_cons] at h
        refine (ih h.2).trans ?_
        unfold Schema.type?
        rw [hstored.types, Table.get?_insert_of_ne _ _ h.1.symm]

/-- Under an identity that something was stored under, there is something
that was. -/
theorem exists_stored {id : TypeId}
    (h : ∃ entry ∈ r.stores ds, TypeId.ofQualified entry.name = id) :
    ∃ last ∈ r.stores ds, TypeId.ofQualified last.name = id
      ∧ (r.attemptAll ds).schema.type? id = some last := by
  induction ds generalizing r with
  | nil =>
      obtain ⟨entry, hmem, -⟩ := h
      cases hmem
  | cons d ds ih =>
      rcases stores_cons r d ds with ⟨-, -, heq⟩ | ⟨first, hstored, heq⟩
      · rw [heq] at h ⊢
        exact ih h
      · rw [heq] at h ⊢
        by_cases hlater : ∃ entry ∈ (r.attempt d).stores ds,
            TypeId.ofQualified entry.name = id
        · obtain ⟨last, hmem, hid, htype⟩ := ih hlater
          exact ⟨last, List.mem_cons_of_mem _ hmem, hid, htype⟩
        · obtain ⟨entry, hmem, hid⟩ := h
          rcases List.mem_cons.1 hmem with rfl | hmem
          · refine ⟨entry, List.mem_cons_self, hid, ?_⟩
            refine (type?_of_not_stored fun e he heq => hlater ⟨e, he, heq⟩).trans
              ?_
            unfold Schema.type?
            rw [hstored.types, hid, Table.get?_insert_self]
          · exact absurd ⟨entry, hmem, hid⟩ hlater

/-- What stands under the name of a type that was stored is that type,
exactly if no type of the same identity was stored after it. -/
theorem type?_iff_last {entry : TypeEntry} {id : TypeId}
    (htype : r.schema.type? id = some entry)
    (hname : r.schema.names.get? entry.name = some id) :
    (r.attemptAll ds).schema.type? id = some entry
      ↔ ∀ other ∈ r.stores ds, TypeId.ofQualified other.name ≠ id := by
  constructor
  · intro h other hother hid
    obtain ⟨last, hlast, -, hstored⟩ := exists_stored ⟨other, hother, hid⟩
    rw [hstored] at h
    cases h
    -- what is stored later has a name that was new then
    rw [(names_of_mem_stores hlast).1] at hname
    cases hname
  · intro h
    rw [type?_of_not_stored h, htype]

-- ============================================================ spelling

omit [NameDigest] in
/-- Names are what their texts are read as. -/
def Spelled (s : Schema) : Prop :=
  ∀ name id, s.names.get? name = some id →
    QualifiedName.parse name.text = name

theorem spelled_builtin : Spelled builtin.schema := by
  intro name id hname
  obtain ⟨-, e, he, rfl⟩ := (hasBuiltin_builtin.names name id).1 hname
  have hall : ∀ simple ∈ builtinBodies.map Prod.fst,
      QualifiedName.parse (QualifiedName.within builtinModule simple).text
        = .within builtinModule simple := by decide +kernel
  exact hall e.1 (List.mem_map_of_mem he)

theorem Spelled.attemptAll (h : Spelled r.schema) (ds : List Declaration) :
    Spelled (r.attemptAll ds).schema := by
  induction ds generalizing r with
  | nil => exact h
  | cons d ds ih =>
      refine ih (r := r.attempt d) fun name id hname => ?_
      rcases stores_cons r d [] with ⟨-, hnames, -⟩ | ⟨entry, hstored, -⟩
      · rw [hnames] at hname
        exact h name id hname
      · rw [hstored.names, Table.get?_insert] at hname
        split at hname
        · next heq =>
            rw [heq]
            exact hstored.qualified
        · exact h name id hname

/-- Two identities are one exactly if the texts have one digest. -/
theorem ofQualified_eq_iff {name other : QualifiedName} :
    TypeId.ofQualified name = TypeId.ofQualified other
      ↔ NameDigest.digest name.text = NameDigest.digest other.text := by
  unfold TypeId.ofQualified TypeId.ofName
  rw [TypeId.mk.injEq, UInt64.xor_right_inj]

/-- A name leads to the identity that is set aside for empty sets exactly
if its digest is the word that keeps types apart. -/
theorem ofQualified_eq_empty_iff {name : QualifiedName} :
    TypeId.ofQualified name = .empty
      ↔ NameDigest.digest name.text = TypeId.domain := by
  unfold TypeId.ofQualified TypeId.ofName TypeId.empty
  rw [TypeId.mk.injEq, UInt64.xor_eq_zero_iff, eq_comm]

-- =========================================================== standing

/-- A name that was taken leads to a type, of the identity that its text
makes. -/
theorem Declared.typeByName? (h : Declared r) {name : QualifiedName}
    {id : TypeId} (hname : r.schema.names.get? name = some id) :
    id = TypeId.ofQualified name ∧ ∃ entry,
      r.schema.typeByName? name = some (id, entry)
        ∧ r.schema.names.get? entry.name = some id := by
  obtain ⟨hid, hreg⟩ := Declared.leads h name id hname
  obtain ⟨entry, hentry⟩ := Schema.exists_type? hreg
  exact ⟨hid, entry, Schema.typeByName?_eq_some_iff.2 ⟨hname, hentry⟩,
    (Reaches.filed h filed_empty).keyed _ _ hentry⟩

/-- Two names of one identity are two texts with one digest. -/
theorem Declared.digest_eq (h : Declared r) (hspelled : Spelled r.schema)
    {name other : QualifiedName} {id : TypeId}
    (hname : r.schema.names.get? name = some id)
    (hother : r.schema.names.get? other = some id) (hne : name ≠ other) :
    name.text ≠ other.text
      ∧ NameDigest.digest name.text = NameDigest.digest other.text := by
  obtain ⟨hid, -⟩ := Declared.leads h name id hname
  obtain ⟨hid', -⟩ := Declared.leads h other id hother
  refine ⟨fun htext => hne ?_, ofQualified_eq_iff.1 (hid.symm.trans hid')⟩
  rw [← hspelled name id hname, htext, hspelled other id hother]

/-- The name of a type that was declared stands for that type, after
whatever was attempted besides, exactly if nothing that was accepted since
has its identity. -/
theorem declare_stands {d : Declaration} {id : TypeId}
    (h : r.declare d = .ok (r', some id)) (after : List Declaration) :
    ∃ entry, r.entryFor d = some entry
      ∧ (r'.attemptAll after).schema.names.get? entry.name = some id
      ∧ ((r'.attemptAll after).schema.typeByName? entry.name = some (id, entry)
        ↔ ∀ other ∈ r'.stores after, TypeId.ofQualified other.name ≠ id)
      ∧ ((r'.attemptAll after).schema.Apart →
        (r'.attemptAll after).schema.typeByName? entry.name
          = some (id, entry)) := by
  rcases declare_stores h with ⟨hnone, -⟩ | ⟨entry, hentry, heq, hstored⟩
  · cases hnone
  obtain rfl := Option.some.inj heq
  have hname : r'.schema.names.get? entry.name
      = some (TypeId.ofQualified entry.name) := by
    rw [hstored.names, Table.get?_insert_self]
  have htype : r'.schema.type? (TypeId.ofQualified entry.name)
      = some entry := by
    unfold Schema.type?
    rw [hstored.types, Table.get?_insert_self]
  have hlater := (attemptAll_reaches r' after).names hname
  have hiff : (r'.attemptAll after).schema.typeByName? entry.name
      = some (TypeId.ofQualified entry.name, entry)
      ↔ ∀ other ∈ r'.stores after, TypeId.ofQualified other.name
        ≠ TypeId.ofQualified entry.name := by
    rw [← type?_iff_last htype hname, Schema.typeByName?_eq_some_iff,
      and_iff_right hlater]
  refine ⟨entry, hentry, hlater, hiff, fun ha => hiff.2 ?_⟩
  -- a type of that identity would have the name, which is taken
  intro other hother hid
  obtain ⟨hfresh, hsome⟩ := names_of_mem_stores hother
  rw [ha other.name entry.name _ (hid ▸ hsome) hlater, hname] at hfresh
  cases hfresh

/-- Attempts up to an accepted declaration, and those after it. -/
theorem attemptAll_split {before after : List Declaration} {d : Declaration}
    {id : Option TypeId}
    (h : (r.attemptAll before).declare d = .ok (r', id)) :
    r.attemptAll (before ++ d :: after) = r'.attemptAll after := by
  unfold attemptAll at h ⊢
  rw [List.foldl_append, List.foldl_cons]
  congr 1
  unfold attempt at h ⊢
  rw [h]

/-- Whatever names were taken, from nothing or from `std` on and with
whatever was refused, each name leads to a type of its identity, and two
names to one identity only if their texts have one digest. The type is
the one that was declared under the name exactly if no type of that
identity was accepted later, as is always so where identities are told
apart. -/
theorem names_resolve {start : Registry}
    (hstart : start = .empty ∨ start = builtin) {s : Schema}
    (hbuild : (start.attemptAll ds).build = .ok s) :
    (∀ name id, s.names.get? name = some id →
        id = TypeId.ofQualified name
          ∧ (id = .empty ↔ NameDigest.digest name.text = TypeId.domain)
          ∧ ∃ entry, s.typeByName? name = some (id, entry)
            ∧ s.names.get? entry.name = some id)
      ∧ (∀ name other id, s.names.get? name = some id →
          s.names.get? other = some id → name ≠ other →
            name.text ≠ other.text
              ∧ NameDigest.digest name.text = NameDigest.digest other.text)
      ∧ ∀ before d after r id, ds = before ++ d :: after →
          (start.attemptAll before).declare d = .ok (r, some id) →
          ∃ entry, (start.attemptAll before).entryFor d = some entry
            ∧ s.names.get? entry.name = some id
            ∧ (s.typeByName? entry.name = some (id, entry)
              ↔ ∀ other ∈ r.stores after, TypeId.ofQualified other.name ≠ id)
            ∧ (s.Apart → s.typeByName? entry.name = some (id, entry)) := by
  obtain ⟨rfl, -⟩ := checked_of_build hbuild
  obtain ⟨hdeclared, hspelled⟩ : Declared start ∧ Spelled start.schema := by
    rcases hstart with heq | heq
    · rw [heq]
      exact ⟨.refl, fun name id hname => by cases hname⟩
    · rw [heq]
      exact ⟨builtin_reached.1, spelled_builtin⟩
  have hall : Declared (start.attemptAll ds) :=
    hdeclared.trans (attemptAll_reaches start ds)
  refine ⟨fun name id hname => ?_,
    fun name other id => Declared.digest_eq hall (hspelled.attemptAll ds),
    fun before d after r id hds hd => ?_⟩
  · obtain ⟨rfl, hentry⟩ := Declared.typeByName? hall hname
    exact ⟨rfl, ofQualified_eq_empty_iff, hentry⟩
  · rw [hds, attemptAll_split hd]
    exact declare_stands hd after

end Registry

-- ============================================================ examples

open scoped Xxh64

/-- The declaration of a person, and one that comes too late. -/
def personTwice : List Declaration :=
  people ++ [.object "default::Person" [] [],
    .object "default::Pet" ["default::Person"] []]

theorem names_resolve_person : ∃ s r id entry,
    (Registry.builtin.attemptAll personTwice).build = .ok s
      ∧ Registry.builtin.declare (personTwice.head (by decide))
        = .ok (r, some id)
      ∧ s.typeByName? entry.name = some (id, entry)
      ∧ entry.name = .parse "default::Person"
      ∧ entry.pointers.keys = ["name", "friends"] := by
  obtain ⟨s, hs, hnodup⟩ := exists_ok_of_map
    (x := (Registry.builtin.attemptAll personTwice).build)
    (f := fun s => decide (s.names.entries.map Prod.snd).Nodup) (b := true)
    (by decide +kernel)
  obtain ⟨⟨r, id⟩, hd, hid⟩ := exists_ok_of_map
    (x := Registry.builtin.declare (personTwice.head (by decide)))
    (f := fun out => out.2.isSome) (b := true) (by decide +kernel)
  obtain ⟨id, rfl⟩ := Option.isSome_iff_exists.1 hid
  obtain ⟨entry, hentry, -, -, hresolves⟩ :=
    (Registry.names_resolve (Or.inr rfl) hs).2.2 [] _ _ r id rfl hd
  refine ⟨s, r, id, entry, hs, hd,
    hresolves (Schema.apart_of_nodup (of_decide_eq_true hnodup)), ?_⟩
  cases hentry
  exact ⟨rfl, rfl⟩

/-- Two types with one identity, and one with the identity that is set
aside for empty sets. -/
def namesakes : List Declaration :=
  [.object "test::N56864" [] [], .object "colls::TPpbrC7pY" [] [],
   .object "zero0000159613::2zLXzaJZ" [] []]

/-- All three are accepted, and the first name is left with the type of
the second. -/
theorem namesakes_accepted : ∃ r s id entry,
    Registry.builtin.declareAll namesakes = .ok r ∧ r.build = .ok s
      ∧ s.typeByName? (.parse "test::N56864") = some (id, entry)
      ∧ s.typeByName? (.parse "colls::TPpbrC7pY") = some (id, entry)
      ∧ entry.name ≠ .parse "test::N56864"
      ∧ s.names.get? (.parse "zero0000159613::2zLXzaJZ") = some .empty := by
  obtain ⟨r, hr, hchecks⟩ := exists_ok_of_map
    (x := Registry.builtin.declareAll namesakes)
    (f := fun r => (r.build.isOk,
      (r.schema.typeByName? (.parse "test::N56864")).map fun e => e.2.name,
      (r.schema.names.get? (.parse "test::N56864")),
      (r.schema.names.get? (.parse "colls::TPpbrC7pY")),
      r.schema.names.get? (.parse "zero0000159613::2zLXzaJZ")))
    (b := (true, some (.parse "colls::TPpbrC7pY"),
      some (TypeId.ofName "test::N56864"), some (TypeId.ofName "test::N56864"),
      some .empty)) (by decide +kernel)
  obtain ⟨hbuild, hrest⟩ := Prod.mk.inj hchecks
  obtain ⟨htype, hrest⟩ := Prod.mk.inj hrest
  obtain ⟨hfirst, hrest⟩ := Prod.mk.inj hrest
  obtain ⟨hsecond, hzero⟩ := Prod.mk.inj hrest
  obtain ⟨s, hs⟩ := exists_ok_of_isOk hbuild
  obtain ⟨rfl, -⟩ := Registry.checked_of_build hs
  obtain ⟨⟨id, entry⟩, hboth, hname⟩ := Option.map_eq_some_iff.1 htype
  obtain ⟨hid, hentry⟩ := Schema.typeByName?_eq_some_iff.1 hboth
  rw [hid] at hfirst
  cases hfirst
  refine ⟨r, r.schema, _, entry, hr, hs, hboth,
    Schema.typeByName?_eq_some_iff.2 ⟨hsecond, hentry⟩, ?_, hzero⟩
  rw [show entry.name = _ from hname]
  decide +kernel

end PathQuery
