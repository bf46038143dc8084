/-
What declarations make of a registry.

Every declaration that is accepted does one of two things to the types
of a registry (`declare_cases`): it leaves them alone, or it takes one
fresh name and stores one type under the identity of that name. The
module `std` is made in steps of the same kind, so all that is said
below of registries is by induction on such steps from the empty
registry (`Declared`).

Identities may coincide, and then a type gives way to another. Where the
names taken have identities of their own (`Apart`), no type ever does:
what was stored stays (`Declares.keeps`), so what was checked when a
scalar was declared still holds when the schema is built.
-/
import Mathlib.Logic.Relation
import PathQuery.Proofs.Schema.Admission

namespace PathQuery

-- =============================================================== names

/-- Names that are registered lead to types of their own. -/
def Schema.Apart (s : Schema) : Prop :=
  ∀ n m id, s.names.get? n = some id → s.names.get? m = some id → n = m

namespace Registry

open Declaration (typeNamed)

variable [NameDigest] {r r' : Registry}

-- ========================================================= declarations

/-- A type body says what was looked up for it: the family of the scalar
it extends, and a reference for each pointer. -/
def Backed (s : Schema) (references : List Reference) : TypeBody → Prop
  | .scalar kind base => ∀ b, base = some b → s.scalarKind? b = some kind
  | .object _ pointers => ∀ name p, pointers.get? name = some p →
      ∃ ref ∈ references, ref.id = p.target

/-- A declaration that leaves types and names alone. -/
def Untouched (r r' : Registry) : Prop :=
  r'.schema.types = r.schema.types ∧ r'.schema.names = r.schema.names
    ∧ r'.references = r.references

/-- A declaration that takes a fresh name and stores a type. -/
structure Added (name : QualifiedName) (body : TypeBody) (r r' : Registry) :
    Prop where
  fresh : r.schema.names.get? name = none
  names : r'.schema.names = r.schema.names.insert name (TypeId.ofQualified name)
  types : r'.schema.types
    = r.schema.types.insert (TypeId.ofQualified name) ⟨name, body⟩
  references : ∃ more, r'.references = r.references ++ more
  backed : Backed r.schema r'.references body

/-- The two things that a declaration does. -/
theorem declare_cases {d : Declaration} {id : Option TypeId}
    (h : r.declare d = .ok (r', id)) :
    Untouched r r' ∨ ∃ name body, Added name body r r' := by
  cases declare_admits h with
  | module name =>
      obtain ⟨htypes, hnames⟩ := Schema.addModule_untouched r.schema name
      exact Or.inl ⟨htypes, hnames, rfl⟩
  | @scalar name base _ entry kind _ qualified extended family added =>
      obtain ⟨hfresh, hnames, htypes⟩ := addType_ok added
      refine Or.inr ⟨_, _, hfresh, hnames, htypes, ⟨[], by simp⟩, fun b hb => ?_⟩
      cases hb
      unfold Schema.scalarKind?
      rw [(Schema.typeByName?_eq_some_iff.1 extended).2, Option.bind_some, family]
  | @object name bases pointers toTargets _ _ qualified targets extended added =>
      obtain ⟨hfresh, hnames, htypes⟩ := addType_ok added
      refine Or.inr
        ⟨_, _, hfresh, hnames, htypes, ⟨_, List.append_assoc _ _ _⟩, ?_⟩
      intro n p hp
      obtain ⟨decl, hdecl, heq⟩ := List.mem_map.1 (Table.mem_entries_of_get? hp)
      cases heq
      have htarget : typeNamed decl.target ∈ toTargets.map Reference.id :=
        targets ▸ List.mem_map_of_mem hdecl
      obtain ⟨ref, href, heq⟩ := List.mem_map.1 htarget
      exact ⟨ref, List.mem_append_left _ (List.mem_append_right _ href), heq⟩
  | @function name signature module qualified free =>
      obtain ⟨htypes, hnames⟩ := Schema.addModule_untouched r.schema module
      exact Or.inl ⟨htypes, hnames, rfl⟩

-- =============================================================== steps

/-- What an accepted declaration may do. -/
def Declares (r r' : Registry) : Prop :=
  Untouched r r' ∨ ∃ name body, Added name body r r'

/-- Some accepted declarations, one after the other. -/
def Reaches : Registry → Registry → Prop := Relation.ReflTransGen Declares

/-- A registry that was made by declarations. -/
def Declared (r : Registry) : Prop := Reaches .empty r

theorem declareAll_reaches {ds : List Declaration}
    (h : r.declareAll ds = .ok r') :
    Reaches r r' := by
  induction ds generalizing r with
  | nil =>
      cases h
      exact .refl
  | cons d ds ih =>
      obtain ⟨r₁, id, hd, hrest⟩ := declareAll_cons_ok h
      exact .head (declare_cases hd) (ih hrest)

/-- A name that was taken stays taken. -/
theorem Declares.names (h : Declares r r') {name : QualifiedName} {id : TypeId}
    (hn : r.schema.names.get? name = some id) :
    r'.schema.names.get? name = some id := by
  rcases h with ⟨-, hnames, -⟩ | ⟨added, body, h⟩
  · rw [hnames]
    exact hn
  · rw [h.names, Table.get?_insert_of_ne, hn]
    intro h
    obtain rfl := h
    rw [h.fresh] at hn
    cases hn

theorem Declares.apart (h : Declares r r') (ha : r'.schema.Apart) :
    r.schema.Apart :=
  fun n m id hn hm => ha n m id (h.names hn) (h.names hm)

-- =========================================================== invariant

/-- A type is stored under the identity that its name leads to, and its
body is backed. -/
structure Filed (r : Registry) : Prop where
  keyed : ∀ id entry, r.schema.type? id = some entry →
    r.schema.names.get? entry.name = some id
  pointers : ∀ id entry name p, r.schema.type? id = some entry →
    entry.pointers.get? name = some p → ∃ ref ∈ r.references, ref.id = p.target
  bases : r.schema.Apart → ∀ id entry kind b, r.schema.type? id = some entry →
    entry.body = .scalar kind (some b) → r.schema.scalarKind? b = some kind

omit [NameDigest] in
theorem filed_empty : Filed .empty where
  keyed := fun id entry h => by cases h
  pointers := fun id entry name p h => by cases h
  bases := fun _ id entry kind b h => by cases h

/-- What is stored after a type was added: that type, or one from
before. -/
theorem Added.type?_eq {name : QualifiedName} {body : TypeBody}
    (h : Added name body r r') (id : TypeId) : r'.schema.type? id
      = if id = TypeId.ofQualified name then some ⟨name, body⟩
        else r.schema.type? id := by
  unfold Schema.type?
  rw [h.types, Table.get?_insert]

/-- Where identities are told apart, no type gives way to another. -/
theorem Declares.keeps (h : Declares r r') (hf : r.Filed) (ha : r'.schema.Apart)
    {id : TypeId} {entry : TypeEntry} (ht : r.schema.type? id = some entry) :
    r'.schema.type? id = some entry := by
  have hname := h.names (hf.keyed id entry ht)
  rcases h with ⟨htypes, -, -⟩ | ⟨added, body, h⟩
  · unfold Schema.type? at ht ⊢
    rw [htypes, ht]
  · rw [h.type?_eq, if_neg, ht]
    intro h
    obtain rfl := h
    have hself : r'.schema.names.get? added
        = some (TypeId.ofQualified added) := by
      rw [h.names, Table.get?_insert_self]
    -- the name added would be that of the type stored, which was not fresh
    have hsame := ha entry.name added _ hname hself
    have hold := hf.keyed _ entry ht
    rw [hsame, h.fresh] at hold
    cases hold

theorem Declares.scalarKind? (h : Declares r r') (hf : r.Filed)
    (ha : r'.schema.Apart) {id : TypeId} {kind : ScalarKind}
    (hk : r.schema.scalarKind? id = some kind) :
    r'.schema.scalarKind? id = some kind := by
  obtain ⟨entry, ht, hkind⟩ := Option.bind_eq_some_iff.1 hk
  exact Option.bind_eq_some_iff.2 ⟨entry, h.keeps hf ha ht, hkind⟩

/-- One declaration keeps a registry filed. -/
theorem Declares.filed (h : Declares r r') (hf : r.Filed) : r'.Filed := by
  have hstep := h
  rcases h with ⟨htypes, hnames, hrefs⟩ | ⟨name, body, h⟩
  · have htype : ∀ id, r'.schema.type? id = r.schema.type? id := fun id => by
      unfold Schema.type?
      rw [htypes]
    refine ⟨fun id entry ht => ?_, fun id entry n p ht hp => ?_,
      fun ha id entry kind b ht hb => ?_⟩
    · rw [htype] at ht
      exact hstep.names (hf.keyed id entry ht)
    · rw [htype] at ht
      rw [hrefs]
      exact hf.pointers id entry n p ht hp
    · rw [htype] at ht
      exact hstep.scalarKind? hf ha
        (hf.bases (hstep.apart ha) id entry kind b ht hb)
  · obtain ⟨more, hmore⟩ := h.references
    refine ⟨fun id entry ht => ?_, fun id entry n p ht hp => ?_,
      fun ha id entry kind b ht hb => ?_⟩
    · rw [h.type?_eq] at ht
      split at ht
      · next heq =>
          cases ht
          rw [h.names, heq, Table.get?_insert_self]
      · exact hstep.names (hf.keyed id entry ht)
    · rw [h.type?_eq] at ht
      split at ht
      · cases ht
        have hbacked := h.backed
        unfold TypeEntry.pointers at hp
        cases body with
        | scalar kind base => cases hp
        | object bases pointers => exact hbacked n p hp
      · obtain ⟨ref, href, heq⟩ := hf.pointers id entry n p ht hp
        exact ⟨ref, hmore ▸ List.mem_append_left _ href, heq⟩
    · refine hstep.scalarKind? hf ha ?_
      rw [h.type?_eq] at ht
      split at ht
      · cases ht
        have hbacked := h.backed
        rw [show body = .scalar kind (some b) from hb] at hbacked
        exact hbacked b rfl
      · exact hf.bases (hstep.apart ha) id entry kind b ht hb

theorem Reaches.filed (h : Reaches r r') (hf : r.Filed) : r'.Filed := by
  induction h with
  | refl => exact hf
  | tail _ hstep ih => exact hstep.filed ih

/-- What was stored is stored still. -/
theorem Reaches.keeps (h : Reaches r r') (hf : r.Filed) (ha : r'.schema.Apart)
    {id : TypeId} {entry : TypeEntry} (ht : r.schema.type? id = some entry) :
    r'.schema.type? id = some entry := by
  induction h with
  | refl => exact ht
  | tail hsome hstep ih =>
      exact hstep.keeps (Reaches.filed hsome hf) ha (ih (hstep.apart ha))

-- ============================================================ built in

/-- A name that is free may be taken. -/
theorem addType_of_free {s : Schema} {name : QualifiedName} (body : TypeBody)
    (h : s.names.get? name = none) : ∃ s', s.addType name body = .ok s' := by
  unfold Schema.addType Schema.reserveName Table.contains
  rw [h]
  exact ⟨_, rfl⟩

theorem added_of_addType {s s' : Schema} {name : QualifiedName}
    {body : TypeBody} {references : List Reference}
    (h : s.addType name body = .ok s') (hb : Backed s references body) :
    Added name body ⟨s, references⟩ ⟨s', references⟩ := by
  obtain ⟨hfresh, hnames, htypes⟩ := addType_ok h
  exact ⟨hfresh, hnames, htypes, ⟨[], (List.append_nil _).symm⟩, hb⟩

/-- The types of `std`. -/
def builtinBodies : List (String × TypeBody) :=
  builtinScalars.map (fun e => (e.1, .scalar e.2 none)) ++
    [("Object", .object [] .empty)]

theorem builtinTypes_eq : builtinTypes = builtinBodies.foldlM
    (fun s e => s.addType (.within builtinModule e.1) e.2)
    (Schema.empty.addModule builtinModule) := by
  unfold builtinTypes builtinBodies
  rw [List.foldlM_append, List.foldlM_map]
  congr 1
  funext s
  rw [List.foldlM_cons]
  show _ = Except.bind _ _
  cases s.addType (.within builtinModule "Object") (.object [] .empty) <;> rfl

/-- Types of distinct names that refer to nothing may be added in turn,
and are stored ever after. -/
theorem foldlM_addType {types : List (String × TypeBody)} {s : Schema}
    (hs : Filed ⟨s, []⟩) (hnodup : (types.map Prod.fst).Nodup)
    (hbacked : ∀ e ∈ types, ∀ s, Backed s [] e.2)
    (hfree : ∀ e ∈ types, s.names.get? (.within builtinModule e.1) = none) :
    ∃ s', types.foldlM (fun s e => s.addType (.within builtinModule e.1) e.2) s
      = .ok s'
      ∧ Reaches ⟨s, []⟩ ⟨s', []⟩
      ∧ ∀ e ∈ types, ∀ r, Reaches ⟨s', []⟩ r → r.schema.Apart →
          r.schema.type? (TypeId.ofQualified (.within builtinModule e.1))
            = some ⟨.within builtinModule e.1, e.2⟩ := by
  induction types generalizing s with
  | nil => exact ⟨s, rfl, .refl, fun e he => by cases he⟩
  | cons e types ih =>
      obtain ⟨hnew, hnodup⟩ := List.nodup_cons.1 hnodup
      rw [List.forall_mem_cons] at hfree hbacked
      obtain ⟨s₁, hs₁⟩ := addType_of_free e.2 hfree.1
      have hadded : Added _ _ ⟨s, []⟩ ⟨s₁, []⟩ :=
        added_of_addType hs₁ (hbacked.1 s)
      have hstep : Declares ⟨s, []⟩ ⟨s₁, []⟩ := Or.inr ⟨_, _, hadded⟩
      obtain ⟨s', hs', hreaches, hstored⟩ :=
        ih (hstep.filed hs) hnodup hbacked.2 fun x hx => by
          rw [(addType_ok hs₁).2.1, Table.get?_insert_of_ne, hfree.2 x hx]
          intro heq
          have hname : x.1 = e.1 := (QualifiedName.mk.inj heq).2
          exact hnew (hname ▸ List.mem_map_of_mem hx)
      refine ⟨s', ?_, .head hstep hreaches, ?_⟩
      · rw [List.foldlM_cons, hs₁]
        exact hs'
      rw [List.forall_mem_cons]
      refine ⟨fun r hr ha => ?_, hstored⟩
      refine Reaches.keeps (hreaches.trans hr) (hstep.filed hs) ha ?_
      rw [hadded.type?_eq, if_pos rfl]

omit [NameDigest] in
/-- Functions that are written in turn change the table of functions, and
nothing else. -/
theorem foldl_functions (functions : List (String × Signature))
    (r : Registry) :
    functions.foldl
      (fun r (name, signature) => { r with schema :=
        { r.schema with
          functions := r.schema.functions.insert (.within builtinModule name)
            signature } }) r
      = { r with schema := { r.schema with
          functions := functions.foldl
            (fun t f => t.insert (.within builtinModule f.1) f.2)
            r.schema.functions } } := by
  induction functions generalizing r with
  | nil => rfl
  | cons f functions ih => exact ih _

/-- What `std` is once its types were added. -/
theorem builtin_eq {s : Schema} (h : builtinBodies.foldlM
    (fun s e => s.addType (.within builtinModule e.1) e.2)
    (Schema.empty.addModule builtinModule) = .ok s) :
    builtin = ⟨{ s with
      functions := builtinFunctions.foldl
        (fun t f => t.insert (.within builtinModule f.1) f.2) s.functions },
      []⟩ := by
  unfold builtin
  rw [builtinTypes_eq, h]
  exact foldl_functions builtinFunctions ⟨s, []⟩

omit [NameDigest] in
/-- The types of `std` refer to nothing. -/
theorem backed_builtin {e : String × TypeBody} (he : e ∈ builtinBodies)
    (s : Schema) : Backed s [] e.2 := by
  unfold builtinBodies at he
  rw [List.mem_append, List.mem_map, List.mem_singleton] at he
  rcases he with ⟨x, -, rfl⟩ | rfl
  · intro b hb
    cases hb
  · intro name p hp
    cases hp

/-- The types of `std` can be added, in steps of that kind. -/
theorem exists_builtinTypes : ∃ s, builtinBodies.foldlM
      (fun s e => s.addType (.within builtinModule e.1) e.2)
      (Schema.empty.addModule builtinModule) = .ok s
    ∧ Declared ⟨s, []⟩ ∧ ∀ e ∈ builtinBodies, ∀ r, Reaches ⟨s, []⟩ r →
      r.schema.Apart →
        r.schema.type? (TypeId.ofQualified (.within builtinModule e.1))
          = some ⟨.within builtinModule e.1, e.2⟩ := by
  have hmodule : Reaches .empty ⟨Schema.empty.addModule builtinModule, []⟩ :=
    .single (Or.inl ⟨rfl, rfl, rfl⟩)
  obtain ⟨s, hs, hreaches, hstored⟩ :=
    foldlM_addType (Reaches.filed hmodule filed_empty)
      (show (builtinBodies.map Prod.fst).Nodup by decide)
      (fun _ he => backed_builtin he) fun _ _ => rfl
  exact ⟨s, hs, hmodule.trans hreaches, hstored⟩

/-- `std` is made by such steps, and its types are stored in whatever
comes of it. -/
theorem builtin_reached :
    Declared builtin ∧ ∀ e ∈ builtinBodies, ∀ r, Reaches builtin r →
    r.schema.Apart →
      r.schema.type? (TypeId.ofQualified (.within builtinModule e.1))
      = some ⟨.within builtinModule e.1, e.2⟩ := by
  obtain ⟨s, hs, hdeclared, hstored⟩ := exists_builtinTypes
  have hfunctions : Reaches ⟨s, []⟩ builtin := by
    rw [builtin_eq hs]
    exact .single (Or.inl ⟨rfl, rfl, rfl⟩)
  exact ⟨hdeclared.trans hfunctions,
    fun e he r hr ha => hstored e he r (hfunctions.trans hr) ha⟩

end Registry

end PathQuery
