/-
The order of declarations does not matter.

What accepted declarations make of a registry that starts with `std` can
be read off the declarations, in whatever order they come: the names and
functions (`Registry.Adds`), and, where no two names have one identity,
the types as well (`Registry.type?_iff_describes`). Whether they are
built is likewise a matter of what was declared. So two registries with
the same declarations are built or refused alike, and the schemas built
answer alike (`Registry.build_of_perm`).

What a scalar or an object type is declared as does depend on what was
declared before it, through the family of a scalar and the base that is
given to an object type; it is because `std` comes first and identities
are told apart that this shows nowhere.
-/
import PathQuery.Proofs.Schema.Description
import PathQuery.Proofs.Schema.Extension

namespace PathQuery

-- ============================================================= schemas

namespace Schema

/-- Two schemas answer alike. -/
structure Alike (s s' : Schema) : Prop where
  lookup : ∀ name, s'.lookup name = s.lookup name
  type? : ∀ id, s'.type? id = s.type? id
  hasModule : ∀ module, s'.hasModule module = s.hasModule module
  isSubtype : ∀ a b, s'.isSubtype a b = s.isSubtype a b
  ancestors : ∀ a, s'.ancestors a = s.ancestors a
  commonSupertype : ∀ a b, s'.commonSupertype a b = s.commonSupertype a b
  findPointer : ∀ a name, s'.findPointer a name = s.findPointer a name

variable {s s' : Schema}

/-- Schemas that have the same items and modules answer alike, if their
references resolve. -/
theorem alike_of_eq (hs : s.Resolves)
    (hnames : ∀ name, s'.names.get? name = s.names.get? name)
    (htypes : ∀ id, s'.type? id = s.type? id)
    (hfunctions : ∀ name, s'.function? name = s.function? name)
    (hmodules : ∀ module, s'.hasModule module = s.hasModule module) :
    s.Alike s' := by
  have hext : s.ExtendedBy s' :=
    ⟨fun id entry hid => (htypes id).trans hid, hs⟩
  have hreg : ∀ a, s'.isRegistered a = s.isRegistered a := by
    intro a
    unfold isRegistered
    rw [htypes]
  have hsubtype : ∀ a b, s'.isSubtype a b = s.isSubtype a b := by
    intro a b
    cases ha : s.isRegistered a with
    | true => exact hext.isSubtype_eq ha b
    | false =>
        unfold isSubtype
        rw [hreg, ha, Bool.false_and, Bool.false_and]
  have hancestors : ∀ a, s'.ancestors a = s.ancestors a := by
    intro a
    cases ha : s.isRegistered a with
    | true => exact hext.ancestors_eq ha
    | false =>
        unfold ancestors
        rw [hreg, ha, if_neg Bool.false_ne_true, if_neg Bool.false_ne_true]
  refine ⟨fun name => ?_, htypes, hmodules, hsubtype, hancestors,
    fun a b => ?_, fun a name => ?_⟩
  · exact lookup_congr (hnames name) (fun id _ => htypes id) (hfunctions name)
  · unfold commonSupertype
    rw [hancestors, funext (hsubtype b)]
  · unfold findPointer
    rw [hancestors, funext htypes]

end Schema

-- ======================================================== declarations

namespace Declaration

variable [NameDigest] {ds ds' : List Declaration}

/-- Whether declarations are well-formed is a matter of what is
declared. -/
theorem WellFormed.congr (h : ∀ d, d ∈ ds' ↔ d ∈ ds) (hds : WellFormed ds) :
    WellFormed ds' := by
  have hobject : ∀ id, NamesObject ds' id ↔ NamesObject ds id := fun id => by
    unfold NamesObject
    simp only [h]
  have hscalar : ∀ id, NamesScalar ds' id ↔ NamesScalar ds id := fun id => by
    unfold NamesScalar
    simp only [h]
  have htype : ∀ id, NamesType ds' id ↔ NamesType ds id := fun id => by
    unfold NamesType
    rw [hobject, hscalar]
  have hextends : Extends ds' = Extends ds := by
    funext a b
    unfold Extends
    simp only [h]
  constructor
  · simpa only [h, htype] using hds.listed
  · simpa only [h, htype] using hds.targets
  · simpa only [h, hobject] using hds.bases
  · simpa only [h, hobject] using hds.links
  · simpa only [h, hscalar] using hds.properties
  · rw [hextends]
    exact hds.acyclic

end Declaration

namespace Registry

open Declaration (Describes WellFormed)

variable [NameDigest] {r r' : Registry} {ds ds' : List Declaration}

-- ========================================================== registries

/-- The names taken are a matter of what is declared. -/
theorem names_of_same (hsame : ∀ d, d ∈ ds' ↔ d ∈ ds)
    (h : builtin.declareAll ds = .ok r) (h' : builtin.declareAll ds' = .ok r')
    (name : QualifiedName) :
    r'.schema.names.get? name = r.schema.names.get? name := by
  refine Option.ext fun id => ?_
  rw [(adds_of_declareAll h').names, (adds_of_declareAll h).names]
  simp only [hsame]

/-- So are the functions. -/
theorem functions_of_same (hsame : ∀ d, d ∈ ds' ↔ d ∈ ds)
    (h : builtin.declareAll ds = .ok r) (h' : builtin.declareAll ds' = .ok r')
    (name : QualifiedName) :
    r'.schema.function? name = r.schema.function? name := by
  refine Option.ext fun signature => ?_
  rw [(adds_of_declareAll h').functions, (adds_of_declareAll h).functions, hsame]

/-- And the modules. -/
theorem modules_of_same (hsame : ∀ d, d ∈ ds' ↔ d ∈ ds)
    (h : builtin.declareAll ds = .ok r) (h' : builtin.declareAll ds' = .ok r')
    (module : String) :
    r'.schema.hasModule module = r.schema.hasModule module := by
  rw [Bool.eq_iff_iff, (adds_of_declareAll h').modules,
    (adds_of_declareAll h).modules]
  simp only [hsame]

/-- And the types, where identities are told apart. -/
theorem types_of_same (hsame : ∀ d, d ∈ ds' ↔ d ∈ ds)
    (h : builtin.declareAll ds = .ok r) (h' : builtin.declareAll ds' = .ok r')
    (ha : r.schema.Apart) (ha' : r'.schema.Apart) (id : TypeId) :
    r'.schema.type? id = r.schema.type? id := by
  refine Option.ext fun entry => ?_
  rw [type?_iff_describes h' ha', type?_iff_describes h ha]
  exact ⟨.mono fun d => (hsame d).1, .mono fun d => (hsame d).2⟩

/-- Declarations that were all made are built or refused in whatever
order they come, if no two names have one identity, and what is built
answers alike. -/
theorem build_of_perm (hperm : ds.Perm ds')
    (h : builtin.declareAll ds = .ok r) (h' : builtin.declareAll ds' = .ok r')
    (ha : r.schema.Apart) :
    ((∃ s, r.build = .ok s) ↔ ∃ s', r'.build = .ok s')
      ∧ ∀ s s', r.build = .ok s → r'.build = .ok s' → s.Alike s' := by
  have hsame : ∀ d, d ∈ ds' ↔ d ∈ ds := fun d => hperm.mem_iff.symm
  have hnames := names_of_same hsame h h'
  have ha' : r'.schema.Apart := by
    intro n m id hn hm
    rw [hnames] at hn hm
    exact ha n m id hn hm
  have hholds := holds_of_declareAll h ha
  have hholds' := holds_of_declareAll h' ha'
  have hf : r.Filed :=
    Reaches.filed (builtin_reached.1.trans (declareAll_reaches h)) filed_empty
  have hf' : r'.Filed :=
    Reaches.filed (builtin_reached.1.trans (declareAll_reaches h')) filed_empty
  refine ⟨⟨fun hbuild => ?_, fun hbuild => ?_⟩, fun s s' hs hs' => ?_⟩
  · obtain ⟨s, hs⟩ := hbuild
    exact hholds'.exists_build hf' ha' ((hholds.wellFormed hs).congr hsame)
  · obtain ⟨s', hs'⟩ := hbuild
    exact hholds.exists_build hf ha
      ((hholds'.wellFormed hs').congr fun d => (hsame d).symm)
  · have hresolves := resolves_of_build hf ha hs
    obtain ⟨rfl, -⟩ := checked_of_build hs
    obtain ⟨rfl, -⟩ := checked_of_build hs'
    exact Schema.alike_of_eq hresolves hnames (types_of_same hsame h h' ha ha')
      (functions_of_same hsame h h') (modules_of_same hsame h h')

end Registry

-- ============================================================= example

open scoped Xxh64

/-- Declarations of every kind, some of them of what comes later. -/
def household : List Declaration :=
  [.object "default::Person" ["default::Being"]
    [.property "age" "default::Age" { required := true },
     .toObjects "pets" "default::Pet" { multi := true }],
   .module "archive",
   .object "default::Pet" ["default::Being"] [],
   .scalar "default::Age" "std::int",
   .function (.within "default" "older") ⟨[], .concrete TypeId.int, .one⟩,
   .object "default::Being" [] [.property "name" "std::str" {}]]

theorem build_of_perm_household : ∃ r r' s s',
    household.Perm household.reverse
      ∧ Registry.builtin.declareAll household = .ok r
      ∧ Registry.builtin.declareAll household.reverse = .ok r'
      ∧ r.build = .ok s ∧ r'.build = .ok s' ∧ s.Alike s' := by
  have hperm : household.Perm household.reverse :=
    (List.reverse_perm household).symm
  obtain ⟨r, hr, hchecks⟩ := exists_ok_of_map
    (x := Registry.builtin.declareAll household)
    (f := fun r => (decide (r.schema.names.entries.map Prod.snd).Nodup,
      r.build.isOk)) (b := (true, true)) (by decide +kernel)
  obtain ⟨r', hr'⟩ := exists_ok_of_isOk
    (x := Registry.builtin.declareAll household.reverse) (by decide +kernel)
  obtain ⟨hnodup, hbuild⟩ := Prod.mk.inj hchecks
  obtain ⟨s, hs⟩ := exists_ok_of_isOk hbuild
  obtain ⟨hiff, halike⟩ := Registry.build_of_perm hperm hr hr'
    (Schema.apart_of_nodup (of_decide_eq_true hnodup))
  obtain ⟨s', hs'⟩ := hiff.1 ⟨s, hs⟩
  exact ⟨r, r', s, s', hperm, hr, hr', hs, hs', halike s s' hs hs'⟩

end PathQuery
