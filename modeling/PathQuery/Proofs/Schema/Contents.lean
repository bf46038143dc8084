/-
What a registry holds.

A registry that starts with `std` holds the types of `std` and those
that were declared, and no others, and refers to what the declarations
name (`Registry.Holds`). An object type is held as it was written, with
`std::Object` for a base where none is listed (`objectEntry`). One
declaration keeps this (`Holds.declare`), and so do all of them
(`holds_of_declareAll`).

This needs that no two names have one identity, for otherwise one type
gives way to another.
-/
import PathQuery.Proofs.Schema.ObjectRoot

namespace PathQuery

-- ============================================================== tables

namespace Table

variable {α β : Type} [DecidableEq α] {t : Table α β} {key : α} {value : β}

/-- Each entry is what its key leads to. -/
def Lawful (t : Table α β) : Prop := ∀ e ∈ t.entries, t.get? e.1 = some e.2

theorem Lawful.insert (h : t.Lawful) (key : α) (value : β) :
    (t.insert key value).Lawful := by
  intro e he
  rcases List.mem_append.1 he with hold | hnew
  · obtain ⟨hmem, hne⟩ := List.mem_filter.1 hold
    rw [get?_insert_of_ne t value (by simpa using hne)]
    exact h e hmem
  · obtain rfl := List.mem_singleton.1 hnew
    exact get?_insert_self t key value

end Table

-- ======================================================== declarations

namespace Declaration

variable [NameDigest]

variable (ds : List Declaration)

/-- The identity of an object type: `std::Object`, or one declared. -/
def NamesObject (id : TypeId) : Prop :=
  id = TypeId.object ∨ ∃ name bases pointers,
    .object name bases pointers ∈ ds ∧ typeNamed name = id

/-- The identity of a scalar type, built in or declared. -/
def NamesScalar (id : TypeId) : Prop :=
  (∃ e ∈ Registry.builtinScalars,
      TypeId.ofQualified (.within builtinModule e.1) = id)
    ∨ ∃ name base, .scalar name base ∈ ds ∧ typeNamed name = id

/-- The identity of a type. -/
def NamesType (id : TypeId) : Prop := NamesObject ds id ∨ NamesScalar ds id

-- ============================================================= entries

variable {ds}

/-- The bases of an object type: where none is listed, `std::Object`. -/
def basesOf (bases : List String) : List TypeId :=
  if bases.isEmpty then [TypeId.object] else bases.map typeNamed

/-- An object type as a schema with `std` holds it. -/
def objectEntry (name : String) (bases : List String)
    (pointers : List PointerDecl) : TypeEntry :=
  ⟨.parse name, .object (basesOf bases) ⟨pointers.map pointerEntry⟩⟩

/-- A listed base is a base. -/
theorem mem_basesOf {bases : List String} {base : String} (h : base ∈ bases) :
    typeNamed base ∈ basesOf bases := by
  unfold basesOf
  rw [if_neg (by cases bases <;> simp_all)]
  exact List.mem_map_of_mem h

/-- A base is listed, or is `std::Object`. -/
theorem basesOf_cases {bases : List String} {b : TypeId}
    (h : b ∈ basesOf bases) :
    b = TypeId.object ∨ ∃ base ∈ bases, typeNamed base = b := by
  unfold basesOf at h
  split at h
  · exact Or.inl (List.mem_singleton.1 h)
  · exact Or.inr (List.mem_map.1 h)

end Declaration

namespace Registry

open Declaration (typeNamed pointerEntry objectEntry basesOf)

variable [NameDigest] {r r' : Registry} {ds : List Declaration}

-- ============================================================= declaring

/-- What an object type is declared as. -/
theorem declare_object {name : String} {bases : List String}
    {pointers : List PointerDecl} {id : Option TypeId}
    (h : r.declare (.object name bases pointers) = .ok (r', id)) :
    r.schema.names.get? (.parse name) = none
      ∧ r'.schema.types = r.schema.types.insert (typeNamed name) ⟨.parse name,
          .object
            (r.schema.effectiveBases (typeNamed name) (bases.map typeNamed))
            ⟨pointers.map pointerEntry⟩⟩
      ∧ r'.references.map Reference.id = r.references.map Reference.id
        ++ pointers.map (fun p => typeNamed p.target) ++ bases.map typeNamed := by
  cases declare_admits h with
  | object _ targets extended added =>
      obtain ⟨hfresh, -, htypes⟩ := addType_ok added
      refine ⟨hfresh, htypes, ?_⟩
      rw [List.map_append, List.map_append, targets, extended]

/-- What a scalar is declared as. -/
theorem declare_scalar {name base : String} {id : Option TypeId}
    (h : r.declare (.scalar name base) = .ok (r', id)) :
    r.schema.names.get? (.parse name) = none
      ∧ r'.references = r.references
      ∧ ∃ kind b, r.schema.names.get? (.parse base) = some b
        ∧ r.schema.scalarKind? b = some kind
        ∧ r'.schema.types = r.schema.types.insert (typeNamed name)
          ⟨.parse name, .scalar kind (some b)⟩ := by
  cases declare_admits h with
  | scalar _ extended family added =>
      obtain ⟨hfresh, -, htypes⟩ := addType_ok added
      obtain ⟨hbase, hentry⟩ := Schema.typeByName?_eq_some_iff.1 extended
      refine ⟨hfresh, rfl, _, _, hbase, ?_, htypes⟩
      unfold Schema.scalarKind?
      rw [hentry, Option.bind_some, family]

/-- Modules and functions are no types. -/
theorem declare_other {d : Declaration} {id : Option TypeId}
    (h : r.declare d = .ok (r', id))
    (hobject : ∀ name bases pointers, d ≠ .object name bases pointers)
    (hscalar : ∀ name base, d ≠ .scalar name base) : Untouched r r' := by
  cases declare_admits h with
  | module name =>
      obtain ⟨htypes, hnames⟩ := Schema.addModule_untouched r.schema name
      exact ⟨htypes, hnames, rfl⟩
  | scalar _ _ _ _ => exact absurd rfl (hscalar _ _)
  | object _ _ _ _ => exact absurd rfl (hobject _ _ _)
  | @function _ _ module _ _ =>
      obtain ⟨htypes, hnames⟩ := Schema.addModule_untouched r.schema module
      exact ⟨htypes, hnames, rfl⟩

-- ============================================================= holding

omit [NameDigest] in
/-- Each scalar extends an older one, if any. -/
def Grounded (s : Schema) : Prop :=
  ∃ age : TypeId → Nat, ∀ id entry kind b, s.type? id = some entry →
    entry.body = .scalar kind (some b) → age b < age id

/-- How old a type is that extends older ones. -/
def ageOf (age : TypeId → Nat) : TypeBody → Nat
  | .scalar _ (some b) => age b + 1
  | .scalar _ none | .object _ _ => 0

omit [NameDigest] in
/-- A new type that extends a type which is there, where no type that is
there extends it. -/
theorem Grounded.add {s s' : Schema} (h : Grounded s) {new : TypeId}
    {name : QualifiedName} {body : TypeBody}
    (htype : ∀ id, s'.type? id
      = if id = new then some ⟨name, body⟩ else s.type? id)
    (hbody : ∀ kind b, body = .scalar kind (some b) → b ≠ new)
    (hbase : ∀ id entry kind b, s.type? id = some entry →
      entry.body = .scalar kind (some b) → b ≠ new) : Grounded s' := by
  obtain ⟨age, hage⟩ := h
  refine ⟨fun t => if t = new then ageOf age body else age t,
    fun id entry kind b hid hentry => ?_⟩
  rw [htype] at hid
  dsimp only
  by_cases heq : id = new
  · rw [if_pos heq] at hid
    cases hid
    dsimp only at hentry
    rw [if_neg (hbody kind b hentry), if_pos heq, hentry]
    exact Nat.lt_succ_self _
  · rw [if_neg heq] at hid
    rw [if_neg (hbase id entry kind b hid hentry), if_neg heq]
    exact hage id entry kind b hid hentry

/-- A registry holds `std` and what was declared, and no other types. -/
structure Holds (ds : List Declaration) (r : Registry) : Prop where
  lawful : r.schema.types.Lawful
  builtin : ∀ e ∈ builtinBodies,
    r.schema.type? (TypeId.ofQualified (.within builtinModule e.1))
      = some ⟨.within builtinModule e.1, e.2⟩
  objects : ∀ name bases pointers, .object name bases pointers ∈ ds →
    r.schema.type? (typeNamed name) = some (objectEntry name bases pointers)
  scalars : ∀ name base, .scalar name base ∈ ds → ∃ kind b,
    r.schema.type? (typeNamed name)
      = some ⟨.parse name, .scalar kind (some b)⟩
  named : ∀ id, r.schema.isRegistered id = true → Declaration.NamesType ds id
  references : ∀ id, id ∈ r.references.map Reference.id ↔
    ∃ name bases pointers, .object name bases pointers ∈ ds
      ∧ (id ∈ pointers.map (fun p => typeNamed p.target)
        ∨ id ∈ bases.map typeNamed)
  grounded : Grounded r.schema

namespace Holds

/-- What is declared anew is declared besides the rest. -/
theorem NamesType.mono {ds ds' : List Declaration} (h : ∀ d ∈ ds, d ∈ ds')
    {id : TypeId} (hid : Declaration.NamesType ds id) :
    Declaration.NamesType ds' id := by
  rcases hid with (rfl | ⟨name, bases, pointers, hd, rfl⟩)
    | (hbuiltin | ⟨name, base, hd, rfl⟩)
  · exact Or.inl (Or.inl rfl)
  · exact Or.inl (Or.inr ⟨name, bases, pointers, h _ hd, rfl⟩)
  · exact Or.inr (Or.inl hbuiltin)
  · exact Or.inr (Or.inr ⟨name, base, h _ hd, rfl⟩)

/-- A declaration that is no type changes nothing. -/
theorem other (h : Holds ds r) {d : Declaration} (hd : Untouched r r')
    (hobject : ∀ name bases pointers, d ≠ .object name bases pointers)
    (hscalar : ∀ name base, d ≠ .scalar name base) :
    Holds (ds ++ [d]) r' := by
  obtain ⟨htypes, -, hrefs⟩ := hd
  have htype : ∀ id, r'.schema.type? id = r.schema.type? id :=
    type?_eq_of_types htypes
  have hobjects : ∀ name bases pointers,
      Declaration.object name bases pointers ∈ ds ++ [d]
        ↔ .object name bases pointers ∈ ds := by
    intro name bases pointers
    simp [(hobject name bases pointers).symm]
  have hscalars : ∀ name base, Declaration.scalar name base ∈ ds ++ [d]
      ↔ .scalar name base ∈ ds := by
    intro name base
    simp [(hscalar name base).symm]
  exact
    { lawful := htypes ▸ h.lawful
      builtin := by simpa only [htype] using h.builtin
      objects := by simpa only [htype, hobjects] using h.objects
      scalars := by simpa only [htype, hscalars] using h.scalars
      named := by
        intro id hid
        unfold Schema.isRegistered at hid
        rw [htype] at hid
        exact NamesType.mono (fun _ => List.mem_append_left _) (h.named id hid)
      references := by simpa only [hrefs, hobjects] using h.references
      grounded := by simpa only [Grounded, htype] using h.grounded }

/-- `std::Object` is held. -/
theorem object (h : Holds ds r) : r.schema.type? TypeId.object
    = some ⟨.within builtinModule "Object", .object [] .empty⟩ :=
  h.builtin ("Object", .object [] .empty)
    (List.mem_append_right _ List.mem_cons_self)

section Added

variable {name : String} {body : TypeBody} {d : Declaration}

/-- A type whose name is new has a new identity, if identities are told
apart. -/
theorem unregistered (hf : r.Filed) (hstep : Declares r r')
    (ha : r'.schema.Apart) (hfresh : r.schema.names.get? (.parse name) = none)
    (htypes : r'.schema.types
      = r.schema.types.insert (typeNamed name) ⟨.parse name, body⟩) :
    r.schema.type? (typeNamed name) = none := by
  by_contra hsome
  obtain ⟨entry, hentry⟩ := Option.ne_none_iff_exists'.1 hsome
  have hkept := hstep.keeps hf ha hentry
  unfold Schema.type? at hkept
  rw [htypes, Table.get?_insert_self] at hkept
  have hkeyed := hf.keyed _ entry hentry
  rw [← Option.some.inj hkept, hfresh] at hkeyed
  cases hkeyed

/-- What a new type adds to what is held. -/
theorem add (h : Holds ds r) (hf : r.Filed) (hstep : Declares r r')
    (ha : r'.schema.Apart) (hfresh : r.schema.names.get? (.parse name) = none)
    (htypes : r'.schema.types
      = r.schema.types.insert (typeNamed name) ⟨.parse name, body⟩)
    (hnamed : Declaration.NamesType (ds ++ [d]) (typeNamed name))
    (hobject : ∀ n bases pointers, d = .object n bases pointers →
      n = name ∧ body = .object (basesOf bases) ⟨pointers.map pointerEntry⟩)
    (hscalar : ∀ n base, d = .scalar n base →
      n = name ∧ ∃ kind b, body = .scalar kind (some b))
    (hrefs : ∀ id, id ∈ r'.references.map Reference.id ↔
      id ∈ r.references.map Reference.id
        ∨ ∃ n bases pointers, d = .object n bases pointers
          ∧ (id ∈ pointers.map (fun p => typeNamed p.target)
            ∨ id ∈ bases.map typeNamed))
    (holder : ∀ kind b, body = .scalar kind (some b) →
      r.schema.isRegistered b = true) :
    Holds (ds ++ [d]) r' := by
  have hkeeps : ∀ {id entry}, r.schema.type? id = some entry →
      r'.schema.type? id = some entry := fun hid => hstep.keeps hf ha hid
  have htype : ∀ id, r'.schema.type? id
      = if id = typeNamed name then some ⟨.parse name, body⟩
        else r.schema.type? id := by
    intro id
    unfold Schema.type?
    rw [htypes, Table.get?_insert]
  have hfree := unregistered hf hstep ha hfresh htypes
  have hnew : r'.schema.type? (typeNamed name) = some ⟨.parse name, body⟩ := by
    rw [htype, if_pos rfl]
  have hne : ∀ {b}, r.schema.isRegistered b = true → b ≠ typeNamed name := by
    rintro _ hreg rfl
    unfold Schema.isRegistered at hreg
    rw [hfree] at hreg
    cases hreg
  exact
    { lawful := htypes ▸ h.lawful.insert _ _
      builtin := fun e he => hkeeps (h.builtin e he)
      objects := by
        intro n bases pointers hd
        rcases List.mem_append.1 hd with hd | hd
        · exact hkeeps (h.objects n bases pointers hd)
        · obtain ⟨rfl, rfl⟩ := hobject n bases pointers (List.mem_singleton.1 hd).symm
          exact hnew
      scalars := by
        intro n base hd
        rcases List.mem_append.1 hd with hd | hd
        · obtain ⟨kind, b, hentry⟩ := h.scalars n base hd
          exact ⟨kind, b, hkeeps hentry⟩
        · obtain ⟨rfl, kind, b, rfl⟩ := hscalar n base (List.mem_singleton.1 hd).symm
          exact ⟨kind, b, hnew⟩
      named := by
        intro id hid
        by_cases heq : id = typeNamed name
        · exact heq ▸ hnamed
        · unfold Schema.isRegistered at hid
          rw [htype, if_neg heq] at hid
          exact NamesType.mono (fun _ => List.mem_append_left _) (h.named id hid)
      references := by
        intro id
        rw [hrefs, h.references]
        constructor
        · rintro (⟨n, bases, pointers, hd, hid⟩ | ⟨n, bases, pointers, rfl, hid⟩)
          · exact ⟨n, bases, pointers, List.mem_append_left _ hd, hid⟩
          · exact ⟨n, bases, pointers,
              List.mem_append_right _ List.mem_cons_self, hid⟩
        · rintro ⟨n, bases, pointers, hd, hid⟩
          rcases List.mem_append.1 hd with hd | hd
          · exact Or.inl ⟨n, bases, pointers, hd, hid⟩
          · exact Or.inr ⟨n, bases, pointers, (List.mem_singleton.1 hd).symm, hid⟩
      grounded := h.grounded.add htype
        (fun kind b hbody => hne (holder kind b hbody))
        fun id entry kind b hid hentry =>
          hne (Schema.isRegistered_of_scalarKind?
            (hf.bases (hstep.apart ha) id entry kind b hid hentry)) }

end Added

/-- One declaration more. -/
theorem declare (h : Holds ds r) (hf : r.Filed) {d : Declaration}
    {id : Option TypeId} (hd : r.declare d = .ok (r', id))
    (ha : r'.schema.Apart) : Holds (ds ++ [d]) r' := by
  have hstep : Declares r r' := declare_cases hd
  have hlast : d ∈ ds ++ [d] := List.mem_append_right _ List.mem_cons_self
  cases d with
  | module name =>
      exact h.other (declare_other hd (by simp) (by simp)) (by simp) (by simp)
  | function name sig =>
      exact h.other (declare_other hd (by simp) (by simp)) (by simp) (by simp)
  | scalar name base =>
      obtain ⟨hfresh, hrefs, kind, b, -, hb, htypes⟩ := declare_scalar hd
      refine h.add hf hstep ha hfresh htypes
        (Or.inr (Or.inr ⟨name, base, hlast, rfl⟩)) ?_ ?_ ?_ ?_
      · intro n bases pointers heq
        cases heq
      · intro n base' heq
        cases heq
        exact ⟨rfl, kind, b, rfl⟩
      · simp [hrefs]
      · intro kind' b' heq
        cases heq
        exact Schema.isRegistered_of_scalarKind? hb
  | object name bases pointers =>
      obtain ⟨hfresh, htypes, hrefs⟩ := declare_object hd
      have hfree := unregistered hf hstep ha hfresh htypes
      have hobject : typeNamed name ≠ TypeId.object := by
        intro heq
        rw [heq, h.object] at hfree
        cases hfree
      have hbases : r.schema.effectiveBases (typeNamed name)
          (bases.map typeNamed) = basesOf bases := by
        unfold Schema.effectiveBases basesOf Schema.isRegistered
        rw [h.object]
        simp [hobject]
      rw [hbases] at htypes
      refine h.add hf hstep ha hfresh htypes
        (Or.inl (Or.inr ⟨name, bases, pointers, hlast, rfl⟩)) ?_ ?_ ?_ ?_
      · intro n bases' pointers' heq
        cases heq
        exact ⟨rfl, rfl⟩
      · intro n base heq
        cases heq
      · intro i
        rw [hrefs]
        simp
      · intro kind b heq
        cases heq

/-- All of some declarations. -/
theorem declareAll (hreach : Reaches .builtin r) (h : Holds ds r)
    {more : List Declaration} (hmore : r.declareAll more = .ok r')
    (ha : r'.schema.Apart) : Holds (ds ++ more) r' := by
  induction more generalizing r ds with
  | nil =>
      cases hmore
      rwa [List.append_nil]
  | cons d more ih =>
      have hapart := (declareAll_reaches hmore).apart ha
      obtain ⟨r₁, id, hd, hrest⟩ := declareAll_cons_ok hmore
      have hf : r.Filed :=
        Reaches.filed (builtin_reached.1.trans hreach) filed_empty
      have hapart₁ := (declareAll_reaches hrest).apart ha
      rw [List.append_cons]
      exact ih (hreach.tail (declare_cases hd)) (h.declare hf hd hapart₁) hrest

end Holds

-- ============================================================ built in

/-- The types that were added to a schema, and those that were there. -/
theorem type?_of_foldlM {types : List (String × TypeBody)} {s s' : Schema}
    (h : types.foldlM (fun s e => s.addType (.within builtinModule e.1) e.2) s
      = .ok s') {id : TypeId} {entry : TypeEntry}
    (hid : s'.type? id = some entry) :
    s.type? id = some entry ∨ ∃ e ∈ types,
      TypeId.ofQualified (.within builtinModule e.1) = id
        ∧ entry = ⟨.within builtinModule e.1, e.2⟩ := by
  induction types generalizing s with
  | nil =>
      cases h
      exact Or.inl hid
  | cons e types ih =>
      rw [List.foldlM_cons] at h
      obtain ⟨s₁, hadd, h⟩ := ok_of_bind_eq_ok h
      obtain ⟨-, -, htypes⟩ := addType_ok hadd
      rcases ih h with hold | ⟨e', he', hentry⟩
      · unfold Schema.type? at hold ⊢
        rw [htypes, Table.get?_insert] at hold
        split at hold
        · next heq =>
            cases hold
            exact Or.inr ⟨e, List.mem_cons_self, heq.symm, rfl⟩
        · exact Or.inl hold
      · exact Or.inr ⟨e', List.mem_cons_of_mem _ he', hentry⟩

/-- `std` refers to nothing and has no types but its own. -/
theorem builtin_holds : (builtin : Registry).references = []
    ∧ ∀ id entry, builtin.schema.type? id = some entry → ∃ e ∈ builtinBodies,
      TypeId.ofQualified (.within builtinModule e.1) = id
        ∧ entry = ⟨.within builtinModule e.1, e.2⟩ := by
  obtain ⟨s, hs, -⟩ := exists_builtinTypes
  rw [builtin_eq hs]
  refine ⟨rfl, fun id entry hid => ?_⟩
  refine (type?_of_foldlM hs hid).resolve_left fun hempty => ?_
  unfold Schema.type? at hempty
  rw [(Schema.addModule_untouched _ _).1] at hempty
  cases hempty

/-- The types of a registry are in a lawful table. -/
theorem Reaches.lawful (h : Reaches r r') (hr : r.schema.types.Lawful) :
    r'.schema.types.Lawful := by
  induction h with
  | refl => exact hr
  | tail _ hstep ih =>
      rcases hstep with ⟨htypes, -, -⟩ | ⟨name, body, hadded⟩
      · exact htypes ▸ ih
      · exact hadded.types ▸ ih.insert _ _

theorem holds_builtin (ha : (builtin : Registry).schema.Apart) :
    Holds [] builtin where
  lawful := builtin_reached.1.lawful fun e he => by cases he
  builtin := fun e he => builtin_reached.2 e he _ .refl ha
  objects := fun _ _ _ h => by cases h
  scalars := fun _ _ h => by cases h
  named := fun id hid => by
    obtain ⟨entry, hentry⟩ := Schema.exists_type? hid
    obtain ⟨e, he, rfl, -⟩ := builtin_holds.2 id entry hentry
    unfold builtinBodies at he
    rw [List.mem_append, List.mem_map, List.mem_singleton] at he
    rcases he with ⟨x, hx, rfl⟩ | rfl
    · exact Or.inr (Or.inl ⟨x, hx, rfl⟩)
    · exact Or.inl (Or.inl rfl)
  references := fun id => by
    rw [builtin_holds.1]
    simp
  grounded := ⟨fun _ => 0, fun id entry kind b hid hentry => by
    obtain ⟨e, he, -, rfl⟩ := builtin_holds.2 id entry hid
    unfold builtinBodies at he
    rw [List.mem_append, List.mem_map, List.mem_singleton] at he
    rcases he with ⟨x, -, rfl⟩ | rfl
    · cases hentry
    · cases hentry⟩

/-- What was declared after `std` is held. -/
theorem holds_of_declareAll (h : builtin.declareAll ds = .ok r)
    (ha : r.schema.Apart) : Holds ds r :=
  Holds.declareAll .refl (holds_builtin ((declareAll_reaches h).apart ha)) h ha

-- ============================================================== reading

namespace Holds

open Declaration (NamesObject NamesScalar NamesType)

/-- What names a scalar is the identity of one. -/
theorem exists_scalar (h : Holds ds r) {id : TypeId} (hid : NamesScalar ds id) :
    ∃ name kind base, r.schema.type? id = some ⟨name, .scalar kind base⟩ := by
  rcases hid with ⟨e, he, rfl⟩ | ⟨name, base, hd, rfl⟩
  · have hmem : (e.1, TypeBody.scalar e.2 none) ∈ builtinBodies :=
      List.mem_append_left _ (List.mem_map.2 ⟨e, he, rfl⟩)
    have hentry := h.builtin (e.1, .scalar e.2 none) hmem
    exact ⟨.within builtinModule e.1, e.2, none, hentry⟩
  · obtain ⟨kind, b, hentry⟩ := h.scalars name base hd
    exact ⟨_, _, _, hentry⟩

/-- What names an object type is the identity of one. -/
theorem isObject_of_names (h : Holds ds r) {id : TypeId}
    (hid : NamesObject ds id) : r.schema.isObject id = true := by
  unfold Schema.isObject
  rcases hid with rfl | ⟨name, bases, pointers, hd, rfl⟩
  · rw [h.object]
    rfl
  · rw [h.objects name bases pointers hd]
    rfl

theorem not_isObject_of_names (h : Holds ds r) {id : TypeId}
    (hid : NamesScalar ds id) : r.schema.isObject id = false := by
  obtain ⟨name, kind, base, hentry⟩ := h.exists_scalar hid
  unfold Schema.isObject
  rw [hentry]
  rfl

theorem isRegistered_of_names (h : Holds ds r) {id : TypeId}
    (hid : NamesType ds id) : r.schema.isRegistered id = true := by
  rcases hid with hobject | hscalar
  · exact Schema.isRegistered_of_isObject (h.isObject_of_names hobject)
  · obtain ⟨name, kind, base, hentry⟩ := h.exists_scalar hscalar
    exact Schema.isRegistered_of_type? hentry

theorem isRegistered_iff (h : Holds ds r) {id : TypeId} :
    r.schema.isRegistered id = true ↔ NamesType ds id :=
  ⟨h.named id, h.isRegistered_of_names⟩

theorem isObject_iff (h : Holds ds r) {id : TypeId} :
    r.schema.isObject id = true ↔ NamesObject ds id := by
  refine ⟨fun hid => ?_, h.isObject_of_names⟩
  rcases h.named id (Schema.isRegistered_of_isObject hid) with hobject | hscalar
  · exact hobject
  · rw [h.not_isObject_of_names hscalar] at hid
    cases hid

/-- The scalars are the types that are no objects. -/
theorem namesScalar_iff (h : Holds ds r) {id : TypeId} :
    NamesScalar ds id
      ↔ r.schema.isRegistered id = true ∧ r.schema.isObject id = false := by
  refine ⟨fun hid => ⟨h.isRegistered_of_names (Or.inr hid),
    h.not_isObject_of_names hid⟩, fun hid => ?_⟩
  obtain ⟨hreg, hobject⟩ := hid
  rcases h.named id hreg with hnames | hscalar
  · rw [h.isObject_of_names hnames] at hobject
    cases hobject
  · exact hscalar

/-- An object type that is held is `std::Object` or was declared. -/
theorem object_cases (h : Holds ds r) {id : TypeId} {entry : TypeEntry}
    (hid : r.schema.type? id = some entry) (hobject : entry.isObject = true) :
    (id = TypeId.object ∧ entry.body = .object [] .empty)
      ∨ ∃ name bases pointers, .object name bases pointers ∈ ds
          ∧ typeNamed name = id ∧ entry = objectEntry name bases pointers := by
  have hnames : r.schema.isObject id = true := by
    unfold Schema.isObject
    rw [hid]
    exact hobject
  rcases h.isObject_iff.1 hnames with rfl | ⟨name, bases, pointers, hd, rfl⟩
  · rw [h.object] at hid
    cases hid
    exact Or.inl ⟨rfl, rfl⟩
  · rw [h.objects name bases pointers hd] at hid
    cases hid
    exact Or.inr ⟨name, bases, pointers, hd, rfl, rfl⟩

end Holds

end Registry

end PathQuery
