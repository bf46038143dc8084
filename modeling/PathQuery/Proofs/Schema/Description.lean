/-
What a registry holds, read off the declarations.

A declaration that is accepted takes a new name, if it takes any, so
what it adds stays apart from what was there: names, functions and
modules are those from before and those of the declaration (`Adds`), and
after some declarations those of all of them (`adds_of_declareAll`). In
what order they were made does not show.

Of types as much is true where identities are told apart. What a type is
follows from its own declaration, and for a scalar from what the type
that it extends is (`Declaration.Describes`); a registry that starts
with `std` stores a type exactly as the declarations describe it
(`type?_iff_describes`).
-/
import Mathlib.Data.List.Induction
import PathQuery.Proofs.Schema.WellFormed

namespace PathQuery

-- ======================================================== declarations

namespace Declaration

/-- The name of the type that is declared. -/
def declaredType? : Declaration → Option QualifiedName
  | .scalar name _ | .object name _ _ => some (.parse name)
  | .module _ | .function _ _ => none

/-- The name of the type or function that is declared. -/
def declaredItem? : Declaration → Option QualifiedName
  | .scalar name _ | .object name _ _ => some (.parse name)
  | .function name _ => some name
  | .module _ => none

/-- The module that is declared, or that of the item declared. -/
def declaredModule? : Declaration → Option String
  | .module name => some name
  | .scalar name _ | .object name _ _ => (QualifiedName.parse name).module
  | .function name _ => name.module

/-- The name of a type is the name of an item. -/
theorem declaredItem?_of_type {d : Declaration} {name : QualifiedName}
    (h : d.declaredType? = some name) : d.declaredItem? = some name := by
  cases d with
  | module _ => cases h
  | function _ _ => cases h
  | scalar _ _ => exact h
  | object _ _ _ => exact h

variable [NameDigest] (ds : List Declaration)

/-- What a type is, by the declarations: one of `std`, or an object type as
it was written, or a scalar of the family of the one that it extends. -/
inductive Describes : TypeId → TypeEntry → Prop where
  | builtin {name : String} {body : TypeBody}
      (h : (name, body) ∈ Registry.builtinBodies) :
      Describes (TypeId.ofQualified (.within builtinModule name))
        ⟨.within builtinModule name, body⟩
  | object {name : String} {bases : List String} {pointers : List PointerDecl}
      (h : .object name bases pointers ∈ ds) :
      Describes (typeNamed name) (objectEntry name bases pointers)
  | scalar {name base : String} {kind : ScalarKind} {entry : TypeEntry}
      (h : .scalar name base ∈ ds) (hbase : Describes (typeNamed base) entry)
      (hkind : entry.scalarKind? = some kind) :
      Describes (typeNamed name)
        ⟨.parse name, .scalar kind (some (typeNamed base))⟩

variable {ds} {ds' : List Declaration}

/-- What some declarations describe, more declarations describe alike. -/
theorem Describes.mono (hsub : ∀ d ∈ ds, d ∈ ds') {id : TypeId}
    {entry : TypeEntry} (h : Describes ds id entry) : Describes ds' id entry := by
  induction h with
  | builtin h => exact .builtin h
  | object h => exact .object (hsub _ h)
  | scalar h _ hkind ih => exact .scalar (hsub _ h) ih hkind

end Declaration

-- ============================================================= schemas

namespace Schema

variable {s s' : Schema}

theorem hasModule_addModule {module m : String} :
    (s.addModule module).hasModule m = true
      ↔ s.hasModule m = true ∨ module = m := by
  unfold addModule
  split
  · next h =>
      refine ⟨Or.inl, ?_⟩
      rintro (hm | rfl)
      · exact hm
      · exact h
  · unfold hasModule
    rw [List.contains_iff_mem, List.contains_iff_mem, List.mem_append,
      List.mem_singleton, eq_comm (a := m)]

@[simp] theorem functions_addModule (s : Schema) (module : String) :
    (s.addModule module).functions = s.functions := by
  unfold addModule
  split <;> rfl

/-- A type that is added brings its module along, and no function. -/
theorem addType_brings [NameDigest] {name : QualifiedName} {body : TypeBody}
    (h : s.addType name body = .ok s') :
    s'.functions = s.functions ∧ ∀ m, s'.hasModule m = true
      ↔ s.hasModule m = true ∨ name.module = some m := by
  unfold addType at h
  obtain ⟨named, hnamed, heq⟩ := ok_of_bind_eq_ok h
  cases heq
  unfold reserveName at hnamed
  split at hnamed
  · cases hnamed
  · cases hnamed
    cases name.module with
    | none =>
        exact ⟨rfl, fun m => (or_iff_left (Option.some_ne_none m).symm).symm⟩
    | some module =>
        refine ⟨functions_addModule _ _, fun m => ?_⟩
        rw [Option.some.injEq]
        exact hasModule_addModule

end Schema

namespace Registry

open Declaration (typeNamed objectEntry Describes)

variable [NameDigest] {r r' r'' : Registry} {ds ds' : List Declaration}

-- ============================================================== adding

/-- What some declarations add to the names, functions and modules of a
registry. -/
structure Adds (ds : List Declaration) (r r' : Registry) : Prop where
  names : ∀ name id, r'.schema.names.get? name = some id
    ↔ r.schema.names.get? name = some id
      ∨ (id = TypeId.ofQualified name ∧ ∃ d ∈ ds, d.declaredType? = some name)
  functions : ∀ name signature, r'.schema.function? name = some signature
    ↔ r.schema.function? name = some signature
      ∨ .function name signature ∈ ds
  modules : ∀ module, r'.schema.hasModule module = true
    ↔ r.schema.hasModule module = true
      ∨ ∃ d ∈ ds, d.declaredModule? = some module

theorem Adds.refl (r : Registry) : Adds [] r r where
  names := by simp
  functions := by simp
  modules := by simp

theorem Adds.trans (h : Adds ds r r') (h' : Adds ds' r' r'') :
    Adds (ds ++ ds') r r'' where
  names := fun name id => by
    rw [h'.names, h.names, or_assoc, ← and_or_left]
    simp only [List.mem_append, or_and_right, exists_or]
  functions := fun name signature => by
    rw [h'.functions, h.functions, or_assoc, List.mem_append]
  modules := fun module => by
    rw [h'.modules, h.modules, or_assoc]
    simp only [List.mem_append, or_and_right, exists_or]

/-- A type that is added under a new name. -/
theorem adds_of_addType {d : Declaration} {name : QualifiedName}
    {body : TypeBody} {schema : Schema} {references : List Reference}
    (htype : d.declaredType? = some name)
    (hmodule : d.declaredModule? = name.module)
    (h : r.schema.addType name body = .ok schema) :
    Adds [d] r ⟨schema, references⟩ := by
  obtain ⟨hfresh, hnames, -⟩ := addType_ok h
  obtain ⟨hfunctions, hmodules⟩ := Schema.addType_brings h
  have hfunction : ∀ f signature, d ≠ .function f signature := by
    rintro f signature rfl
    cases htype
  refine ⟨fun n id => ?_, fun f signature => ?_, fun m => ?_⟩
  · simp only [List.mem_singleton, exists_eq_left, htype, Option.some.injEq]
    rw [hnames, Table.get?_insert]
    by_cases hn : n = name
    · subst hn
      rw [if_pos rfl, hfresh]
      simp [eq_comm]
    · rw [if_neg hn]
      simp [Ne.symm hn]
  · unfold Schema.function?
    rw [hfunctions, List.mem_singleton, or_iff_left (hfunction f signature).symm]
  · simp only [List.mem_singleton, exists_eq_left, hmodule]
    exact hmodules m

/-- What one declaration adds. -/
theorem adds_of_declare {d : Declaration} {id : Option TypeId}
    (h : r.declare d = .ok (r', id)) : Adds [d] r r' := by
  cases declare_admits h with
  | module name =>
      obtain ⟨-, hnames⟩ := Schema.addModule_untouched r.schema name
      refine ⟨fun n id => ?_, fun f signature => ?_, fun m => ?_⟩
      · rw [hnames]
        simp [Declaration.declaredType?]
      · unfold Schema.function?
        simp
      · rw [Schema.hasModule_addModule]
        simp [Declaration.declaredModule?]
  | scalar _ _ _ added => exact adds_of_addType rfl rfl added
  | object _ _ _ added => exact adds_of_addType rfl rfl added
  | @function name _ module qualified free =>
      obtain ⟨-, hnames⟩ := Schema.addModule_untouched r.schema module
      refine ⟨fun n id => ?_, fun f signature => ?_, fun m => ?_⟩
      · rw [hnames]
        simp [Declaration.declaredType?]
      · unfold Schema.function?
        rw [Schema.functions_addModule, Table.get?_insert]
        by_cases hf : f = name
        · subst hf
          rw [if_pos rfl, free]
          simp [eq_comm]
        · rw [if_neg hf]
          simp [hf]
      · show (r.schema.addModule module).hasModule m = true ↔ _
        rw [Schema.hasModule_addModule]
        simp [Declaration.declaredModule?, qualified]

/-- What some declarations add. -/
theorem adds_of_declareAll (h : r.declareAll ds = .ok r') : Adds ds r r' := by
  induction ds generalizing r with
  | nil =>
      cases h
      exact .refl _
  | cons d ds ih =>
      obtain ⟨r₁, id, hd, hrest⟩ := declareAll_cons_ok h
      exact (adds_of_declare hd).trans (ih hrest)

-- ============================================================= leading

/-- A name leads to the identity that it makes, and a type is stored
there. -/
def Leads (r : Registry) : Prop :=
  ∀ name id, r.schema.names.get? name = some id →
    id = TypeId.ofQualified name ∧ r.schema.isRegistered id = true

/-- A type that is stored may give way to another, but something stays. -/
theorem Declares.isRegistered (h : Declares r r') {id : TypeId}
    (hid : r.schema.isRegistered id = true) :
    r'.schema.isRegistered id = true := by
  unfold Schema.isRegistered at hid ⊢
  rcases h with ⟨htypes, -, -⟩ | ⟨name, body, h⟩
  · rw [type?_eq_of_types htypes]
    exact hid
  · rw [h.type?_eq]
    split
    · rfl
    · exact hid

theorem Reaches.isRegistered (h : Reaches r r') {id : TypeId}
    (hid : r.schema.isRegistered id = true) :
    r'.schema.isRegistered id = true := by
  induction h with
  | refl => exact hid
  | tail _ hstep ih => exact hstep.isRegistered ih

theorem Declares.leads (h : Declares r r') (hr : r.Leads) : r'.Leads := by
  intro name id hname
  have hstep := h
  rcases h with ⟨-, hnames, -⟩ | ⟨added, body, h⟩
  · rw [hnames] at hname
    obtain ⟨hid, hreg⟩ := hr name id hname
    exact ⟨hid, hstep.isRegistered hreg⟩
  · rw [h.names, Table.get?_insert] at hname
    split at hname
    · next heq =>
        cases hname
        subst heq
        unfold Schema.isRegistered
        rw [h.type?_eq, if_pos rfl]
        exact ⟨rfl, rfl⟩
    · obtain ⟨hid, hreg⟩ := hr name id hname
      exact ⟨hid, hstep.isRegistered hreg⟩

/-- Names lead to types in whatever was made by declarations. -/
theorem Declared.leads (h : Declared r) : r.Leads := by
  unfold Declared at h
  induction h with
  | refl => exact fun name id hname => by cases hname
  | tail _ hstep ih => exact hstep.leads ih

/-- A type that was looked up by name has the identity of the name. -/
theorem Leads.eq_typeNamed (h : r.Leads) {name : String} {id : TypeId}
    (hid : r.schema.names.get? (.parse name) = some id) : id = typeNamed name :=
  (h _ _ hid).1

-- ============================================================ built in

/-- The names that types added one by one have taken, and what else came
with them. -/
theorem names_of_foldlM {types : List (String × TypeBody)} {s s' : Schema}
    (h : types.foldlM (fun s e => s.addType (.within builtinModule e.1) e.2) s
      = .ok s') :
    (∀ name id, s'.names.get? name = some id
        ↔ s.names.get? name = some id ∨ (id = TypeId.ofQualified name
          ∧ ∃ e ∈ types, name = .within builtinModule e.1))
      ∧ s'.functions = s.functions
      ∧ ∀ m, s'.hasModule m = true
        ↔ s.hasModule m = true ∨ (types ≠ [] ∧ builtinModule = m) := by
  induction types generalizing s with
  | nil =>
      cases h
      simp
  | cons e types ih =>
      rw [List.foldlM_cons] at h
      obtain ⟨s₁, hadd, h⟩ := ok_of_bind_eq_ok h
      obtain ⟨hfresh, hadded, -⟩ := addType_ok hadd
      obtain ⟨hbrings, hmodule⟩ := Schema.addType_brings hadd
      obtain ⟨hnames, hfunctions, hmodules⟩ := ih h
      refine ⟨fun name id => ?_, hfunctions.trans hbrings, fun m => ?_⟩
      · rw [hnames, hadded, Table.get?_insert]
        by_cases hname : name = .within builtinModule e.1
        · subst hname
          rw [if_pos rfl, hfresh, Option.some.injEq, eq_comm,
            or_iff_right (by simp : ¬ none = some id)]
          constructor
          · rintro (heq | ⟨heq, -⟩) <;> exact ⟨heq, e, List.mem_cons_self, rfl⟩
          · exact fun h => Or.inl h.1
        · rw [if_neg hname, List.exists_mem_cons_iff, or_iff_right hname]
      · rw [hmodules, hmodule]
        show (_ ∨ some builtinModule = some m) ∨ _ ↔ _
        rw [Option.some.injEq]
        simp only [ne_eq, reduceCtorEq, not_false_eq_true, true_and]
        tauto

omit [NameDigest] in
/-- What a table leads to after some functions were written in turn, no two
under one name. -/
theorem get?_foldl_insert {functions : List (String × Signature)}
    (t : Table QualifiedName Signature)
    (hnodup : (functions.map Prod.fst).Nodup) (f : QualifiedName)
    (signature : Signature) :
    (functions.foldl (fun t e => t.insert (.within builtinModule e.1) e.2)
        t).get? f = some signature
      ↔ (∃ e ∈ functions, f = .within builtinModule e.1 ∧ signature = e.2)
        ∨ ((∀ e ∈ functions, f ≠ .within builtinModule e.1)
          ∧ t.get? f = some signature) := by
  induction functions generalizing t with
  | nil => simp
  | cons e functions ih =>
      obtain ⟨hnew, hnodup⟩ := List.nodup_cons.1 hnodup
      rw [List.foldl_cons, ih _ hnodup, List.forall_mem_cons, Table.get?_insert]
      simp only [List.exists_mem_cons_iff]
      by_cases hf : f = .within builtinModule e.1
      · -- the name is not written again
        have hlast : ∀ x ∈ functions, f ≠ .within builtinModule x.1 := by
          intro x hx heq
          have hname : e.1 = x.1 := (QualifiedName.mk.inj (hf ▸ heq)).2
          exact hnew (hname ▸ List.mem_map_of_mem hx)
        have hnone : ¬ ∃ x ∈ functions, f = .within builtinModule x.1
            ∧ signature = x.2 := by
          rintro ⟨x, hx, heq, -⟩
          exact hlast x hx heq
        rw [if_pos hf, or_iff_right hnone, and_iff_right hlast,
          Option.some.injEq, and_iff_right hf, or_iff_left hnone,
          or_iff_left fun h => h.1.1 hf, eq_comm]
      · rw [if_neg hf]
        simp only [hf, false_and, false_or, ne_eq, not_false_eq_true, true_and]

/-- What `std` has by name: its types, its functions, and itself for a
module. -/
structure HasBuiltin (r : Registry) : Prop where
  names : ∀ name id, r.schema.names.get? name = some id
    ↔ id = TypeId.ofQualified name
      ∧ ∃ e ∈ builtinBodies, name = .within builtinModule e.1
  functions : ∀ f signature, r.schema.function? f = some signature
    ↔ ∃ e ∈ builtinFunctions,
      f = .within builtinModule e.1 ∧ signature = e.2
  modules : ∀ m, r.schema.hasModule m = true ↔ m = builtinModule

theorem hasBuiltin_builtin : HasBuiltin builtin := by
  obtain ⟨s, hs, -⟩ := exists_builtinTypes
  obtain ⟨hnames, hfunctions, hmodules⟩ := names_of_foldlM hs
  have hnodup : (builtinFunctions.map Prod.fst).Nodup := by
    show ["count", "sum", "min", "max", "len", "lower", "upper"].Nodup
    decide
  rw [builtin_eq hs]
  refine ⟨fun name id => ?_, fun f signature => ?_, fun m => ?_⟩
  · rw [hnames]
    exact or_iff_right fun h => by cases h
  · unfold Schema.function?
    rw [get?_foldl_insert _ hnodup, hfunctions]
    exact or_iff_left fun h => by cases h.2
  · refine (hmodules m).trans ?_
    rw [Schema.hasModule_addModule]
    have hbodies : builtinBodies ≠ [] :=
      List.append_ne_nil_of_right_ne_nil _ (List.cons_ne_nil _ _)
    constructor
    · rintro ((h | rfl) | ⟨-, rfl⟩)
      · cases h
      · rfl
      · rfl
    · rintro rfl
      exact Or.inr ⟨hbodies, rfl⟩

-- ========================================================== describing

theorem declareAll_append (r : Registry) (ds ds' : List Declaration) :
    r.declareAll (ds ++ ds') = (r.declareAll ds).bind (·.declareAll ds') := by
  unfold declareAll
  exact List.foldlM_append

/-- What holds of `std` and is kept by each declaration that follows holds
after all of them. -/
theorem declareAll_induction {P : List Declaration → Registry → Prop}
    (hbuiltin : (builtin : Registry).schema.Apart → P [] builtin)
    (hdeclare : ∀ {ds d r r' id}, builtin.declareAll ds = .ok r → P ds r →
      r.declare d = .ok (r', id) → builtin.declareAll (ds ++ [d]) = .ok r' →
      r'.schema.Apart → P (ds ++ [d]) r')
    (h : builtin.declareAll ds = .ok r) (ha : r.schema.Apart) : P ds r := by
  induction ds using List.reverseRecOn generalizing r with
  | nil =>
      obtain rfl : builtin = r := Except.ok.inj h
      exact hbuiltin ha
  | append_singleton ds d ih =>
      have hall := h
      rw [declareAll_append] at h
      obtain ⟨r₁, hds, hlast⟩ := ok_of_bind_eq_ok h
      have hapart := (declareAll_reaches hlast).apart ha
      obtain ⟨r₂, id, hd, hnil⟩ := declareAll_cons_ok hlast
      cases hnil
      exact hdeclare hds (ih hds hapart) hd hall ha

/-- The types of a registry are as the declarations describe them, and
scalars extend what they were declared to extend. -/
structure Told (ds : List Declaration) (r : Registry) : Prop where
  described : ∀ id entry, r.schema.type? id = some entry →
    Describes ds id entry
  scalars : ∀ name base, .scalar name base ∈ ds → ∃ kind,
    r.schema.type? (typeNamed name)
      = some ⟨.parse name, .scalar kind (some (typeNamed base))⟩

theorem told_builtin : Told [] builtin where
  described := fun id entry hid => by
    obtain ⟨e, he, rfl, rfl⟩ := builtin_holds.2 id entry hid
    exact .builtin he
  scalars := fun _ _ h => by cases h

section Declare

variable {d : Declaration} {id : Option TypeId}

/-- What is stored once a type is added is the type that was declared, or
was stored before. -/
theorem Told.described_insert (h : Told ds r) {name : String} {body : TypeBody}
    (htypes : r'.schema.types
      = r.schema.types.insert (typeNamed name) ⟨.parse name, body⟩)
    (hbody : Describes (ds ++ [d]) (typeNamed name) ⟨.parse name, body⟩)
    (i : TypeId) (entry : TypeEntry) (hi : r'.schema.type? i = some entry) :
    Describes (ds ++ [d]) i entry := by
  unfold Schema.type? at hi
  rw [htypes, Table.get?_insert] at hi
  split at hi
  · next heq =>
      cases hi
      exact heq ▸ hbody
  · exact (h.described i entry hi).mono fun _ => List.mem_append_left _

/-- The scalars that were declared before are what they were. -/
theorem Told.scalars_declared (h : Told ds r) (hf : r.Filed)
    (hd : r.declare d = .ok (r', id)) (ha : r'.schema.Apart) {name base : String}
    (hmem : Declaration.scalar name base ∈ ds) : ∃ kind,
      r'.schema.type? (typeNamed name)
        = some ⟨.parse name, .scalar kind (some (typeNamed base))⟩ := by
  have hstep : Declares r r' := declare_cases hd
  obtain ⟨kind, hentry⟩ := h.scalars name base hmem
  exact ⟨kind, hstep.keeps hf ha hentry⟩

/-- A declaration that is of no type leaves the types as they are. -/
theorem Told.declare_other (h : Told ds r) (hf : r.Filed)
    (hd : r.declare d = .ok (r', id)) (ha : r'.schema.Apart)
    (hobject : ∀ name bases pointers, d ≠ .object name bases pointers)
    (hscalar : ∀ name base, d ≠ .scalar name base) : Told (ds ++ [d]) r' := by
  obtain ⟨htypes, -, -⟩ := Registry.declare_other hd hobject hscalar
  refine ⟨fun i entry hi => ?_, fun name base hmem => ?_⟩
  · rw [type?_eq_of_types htypes] at hi
    exact (h.described i entry hi).mono fun _ => List.mem_append_left _
  · refine h.scalars_declared hf hd ha
      ((List.mem_append.1 hmem).resolve_right fun hmem => ?_)
    exact hscalar name base (List.mem_singleton.1 hmem).symm

/-- One declaration more. -/
theorem Told.declare (h : Told ds r) (hl : r.Leads) (hf : r.Filed)
    (hd : r.declare d = .ok (r', id)) (hholds : Holds (ds ++ [d]) r')
    (ha : r'.schema.Apart) : Told (ds ++ [d]) r' := by
  have hlast : d ∈ ds ++ [d] := List.mem_append_right _ List.mem_cons_self
  cases d with
  | module name => exact h.declare_other hf hd ha (by simp) (by simp)
  | function name sig => exact h.declare_other hf hd ha (by simp) (by simp)
  | scalar name base =>
      obtain ⟨-, -, kind, b, hbase, hkind, htypes⟩ := declare_scalar hd
      obtain rfl := hl.eq_typeNamed hbase
      obtain ⟨entry, hentry, hfamily⟩ := Option.bind_eq_some_iff.1 hkind
      have hdescribed : Describes (ds ++ [.scalar name base]) _ entry :=
        (h.described _ entry hentry).mono fun _ => List.mem_append_left _
      refine ⟨h.described_insert htypes (.scalar hlast hdescribed hfamily),
        fun n b hmem => ?_⟩
      rcases List.mem_append.1 hmem with hmem | hmem
      · exact h.scalars_declared hf hd ha hmem
      · cases List.mem_singleton.1 hmem
        refine ⟨kind, ?_⟩
        unfold Schema.type?
        rw [htypes, Table.get?_insert_self]
  | object name bases pointers =>
      obtain ⟨-, htypes, -⟩ := declare_object hd
      -- the bases that were stored are those that the registry holds
      have hself := hholds.objects name bases pointers hlast
      unfold Schema.type? at hself
      rw [htypes, Table.get?_insert_self, Option.some.injEq] at hself
      refine ⟨h.described_insert htypes ?_, fun n b hmem => ?_⟩
      · rw [hself]
        exact .object hlast
      · refine h.scalars_declared hf hd ha
          ((List.mem_append.1 hmem).resolve_right fun hmem => ?_)
        cases List.mem_singleton.1 hmem

end Declare

theorem told_of_declareAll (h : builtin.declareAll ds = .ok r)
    (ha : r.schema.Apart) : Told ds r := by
  refine declareAll_induction (fun _ => told_builtin) ?_ h ha
  intro ds d r r' id hds htold hd hall ha
  have hdeclared := builtin_reached.1.trans (declareAll_reaches hds)
  exact htold.declare (Declared.leads hdeclared)
    (Reaches.filed hdeclared filed_empty) hd (holds_of_declareAll hall ha) ha

/-- A registry that starts with `std` stores a type exactly as the
declarations describe it, if no two names have one identity. -/
theorem type?_iff_describes (h : builtin.declareAll ds = .ok r)
    (ha : r.schema.Apart) {id : TypeId} {entry : TypeEntry} :
    r.schema.type? id = some entry ↔ Describes ds id entry := by
  have htold := told_of_declareAll h ha
  have hholds := holds_of_declareAll h ha
  have hf : r.Filed :=
    Reaches.filed (builtin_reached.1.trans (declareAll_reaches h)) filed_empty
  refine ⟨htold.described id entry, fun hd => ?_⟩
  induction hd with
  | @builtin name body he => exact hholds.builtin (name, body) he
  | object hd => exact hholds.objects _ _ _ hd
  | @scalar name base kind entry hd hbase hkind ih =>
      obtain ⟨kind', hentry⟩ := htold.scalars _ _ hd
      -- the family stored is that of the base, which is stored as described
      have hfamily := hf.bases ha _ _ kind' _ hentry rfl
      unfold Schema.scalarKind? at hfamily
      rw [ih, Option.bind_some, hkind] at hfamily
      cases hfamily
      exact hentry

end Registry

end PathQuery
