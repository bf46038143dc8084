/-
What a schema promises that was built.

A build checks the references that declarations made and the bases of
object types. With what declarations keep, this gives what compilation
needs of a schema: pointers lead to registered types, and the hierarchy
is coherent, if `std` is part of it and no identity belongs to two
names. The two regimes under which statements are compiled are stated
here with the schemas that suit them.
-/
import Mathlib.Data.List.Nodup
import PathQuery.Proofs.Schema.Declaration
import PathQuery.Proofs.Store.Invariant

namespace PathQuery

theorem exists_ok_of_isOk {ε α : Type} {x : Except ε α} (h : x.isOk = true) :
    ∃ a, x = .ok a := by
  cases x with
  | error e => cases h
  | ok a => exact ⟨a, rfl⟩

/-- What is seen of a result is seen of a result that is there. -/
theorem exists_ok_of_map {ε α β : Type} {x : Except ε α} {f : α → β} {b : β}
    (h : x.map f = .ok b) : ∃ a, x = .ok a ∧ f a = b := by
  cases x with
  | error e => cases h
  | ok a => exact ⟨a, rfl, Except.ok.inj h⟩

/-- A sequence of checks passes only if each of them does. -/
theorem forall_ok_of_forM {ε α : Type} {f : α → Except ε Unit} {xs : List α}
    (h : xs.forM f = .ok ()) : ∀ x ∈ xs, f x = .ok () := by
  induction xs with
  | nil => exact fun x hx => by cases hx
  | cons x xs ih =>
      obtain ⟨u, hx, hxs⟩ :=
        ok_of_bind_eq_ok (show (f x).bind (fun _ => xs.forM f) = _ from h)
      rw [List.forall_mem_cons]
      exact ⟨hx, ih hxs⟩

-- ============================================================= schemas

namespace Schema

variable {s : Schema} {t : TypeId}

/-- No name leads to the identity that is set aside for empty sets. -/
def Proper (s : Schema) : Prop := ∀ n id, s.names.get? n = some id → id ≠ .empty

/-- Functions return types that the schema knows, or types of
arguments. -/
def ReturnsRegistered (s : Schema) : Prop :=
  ∀ f sig t, s.function? f = some sig → sig.returns = .concrete t →
    s.isRegistered t = true

/-- No function returns the identity that is set aside for empty
sets. -/
def ReturnsProper (s : Schema) : Prop :=
  ∀ f sig t, s.function? f = some sig → sig.returns = .concrete t → t ≠ .empty

/-- Names are apart if no identity is listed twice. -/
theorem apart_of_nodup (h : (s.names.entries.map Prod.snd).Nodup) :
    s.Apart := by
  intro n m id hn hm
  have hmem : ∀ name, s.names.get? name = some id →
      (name, id) ∈ s.names.entries := fun _ hname =>
    Table.mem_entries_of_get? hname
  exact congrArg Prod.fst
    (List.inj_on_of_nodup_map h (hmem n hn) (hmem m hm) rfl)

theorem proper_of_forall (h : ∀ e ∈ s.names.entries, e.2 ≠ .empty) : s.Proper :=
  fun _ _ hn => h _ (Table.mem_entries_of_get? hn)

/-- Whether each function that returns one type returns a type that the
schema knows. -/
def returnsRegistered (s : Schema) : Bool :=
  s.functions.values.all fun sig =>
    match sig.returns with
    | .concrete t => s.isRegistered t
    | .sameAs _ => true

theorem returnsRegistered_of_check (h : s.returnsRegistered = true) :
    s.ReturnsRegistered := by
  intro f sig t hf hs
  have hsig := List.all_eq_true.1 h sig (Table.mem_values_of_get? hf)
  rw [hs] at hsig
  exact hsig

theorem exists_type? (h : s.isRegistered t = true) :
    ∃ entry, s.type? t = some entry :=
  Option.isSome_iff_exists.1 h

/-- A pointer is declared by some type of the schema. -/
theorem exists_of_findPointer {name : String} {p : Pointer}
    (h : s.findPointer t name = some p) :
    ∃ id entry, s.type? id = some entry
      ∧ entry.pointers.get? name = some p := by
  unfold findPointer at h
  obtain ⟨id, -, h⟩ := List.exists_of_findSome?_eq_some h
  obtain ⟨entry, hentry, hp⟩ := Option.bind_eq_some_iff.1 h
  exact ⟨id, entry, hentry, hp⟩

theorem scalarKind?_of_isObject (h : s.isObject t = true) :
    s.scalarKind? t = none := by
  cases hk : s.scalarKind? t with
  | none => rfl
  | some k =>
      rw [not_isObject_of_scalarKind? hk] at h
      cases h

/-- A base that is listed is a direct base, if the schema knows it. -/
theorem mem_directBases {entry : TypeEntry} {b : TypeId}
    (h : s.type? t = some entry) (hb : b ∈ entry.bases)
    (hreg : s.isRegistered b = true) : b ∈ s.directBases t := by
  unfold directBases
  rw [h]
  dsimp only
  rw [List.mem_reverse, List.mem_filter]
  exact ⟨hb, hreg⟩

/-- A direct base is listed by the type. -/
theorem exists_of_mem_directBases {b : TypeId} (h : b ∈ s.directBases t) :
    ∃ entry, s.type? t = some entry ∧ b ∈ entry.bases := by
  unfold directBases at h
  split at h
  · next entry hentry =>
      rw [List.mem_reverse, List.mem_filter] at h
      exact ⟨entry, hentry, h.1⟩
  · cases h

end Schema

-- =============================================================== builds

namespace Registry

/-- What a build checks. -/
structure Checked (r : Registry) : Prop where
  references : ∀ ref ∈ r.references, r.schema.isRegistered ref.id = true
  bases : ∀ id entry bases pointers, r.schema.type? id = some entry →
    entry.body = .object bases pointers →
      ∀ b ∈ bases, r.schema.isObject b = true

theorem checked_of_build {r : Registry} {s : Schema} (h : r.build = .ok s) :
    r.schema = s ∧ r.Checked := by
  unfold build at h
  obtain ⟨u, hrefs, h⟩ := ok_of_bind_eq_ok h
  obtain ⟨u, htypes, h⟩ := ok_of_bind_eq_ok h
  obtain ⟨u, -, h⟩ := ok_of_bind_eq_ok h
  cases h
  refine ⟨rfl, fun ref href => ?_,
    fun id entry bases pointers ht hb b hmem => ?_⟩
  · have hcheck := forall_ok_of_forM hrefs ref href
    split at hcheck
    · assumption
    · cases hcheck
  · have hcheck := forall_ok_of_forM htypes entry (Table.mem_values_of_get? ht)
    unfold checkType at hcheck
    rw [hb] at hcheck
    obtain ⟨u, hbases, -⟩ := ok_of_bind_eq_ok hcheck
    have hcheck := forall_ok_of_forM hbases b hmem
    split at hcheck
    · assumption
    · cases hcheck

variable [NameDigest]

/-- A schema was built from a registry after some more declarations. -/
def Builds (start : Registry) (s : Schema) : Prop :=
  ∃ ds r, start.declareAll ds = .ok r ∧ r.build = .ok s

/-- The schema built from a registry and some more declarations; the
empty one if any of them is refused. -/
def schemaOf (start : Registry) (ds : List Declaration) : Schema :=
  match (start.declareAll ds).bind build with
  | .ok s => s
  | .error _ => .empty

variable {start r : Registry} {s : Schema} {t : TypeId}

theorem builds_schemaOf {ds : List Declaration}
    (h : ((start.declareAll ds).bind build).isOk = true) :
    start.Builds (start.schemaOf ds) := by
  obtain ⟨s, hs⟩ := exists_ok_of_isOk h
  obtain ⟨r, hr, hbuild⟩ := ok_of_bind_eq_ok hs
  unfold schemaOf
  rw [hs]
  exact ⟨ds, r, hr, hbuild⟩

theorem Builds.reaches (h : start.Builds s) :
    ∃ r, Reaches start r ∧ r.schema = s ∧ r.Checked := by
  obtain ⟨ds, r, hds, hbuild⟩ := h
  obtain ⟨heq, hchecked⟩ := checked_of_build hbuild
  exact ⟨r, declareAll_reaches hds, heq, hchecked⟩

/-- What a schema was built from that was made by declarations. -/
theorem Builds.filed (h : start.Builds s) (hd : Declared start) :
    ∃ r : Registry, r.schema = s ∧ r.Filed ∧ r.Checked := by
  obtain ⟨r, hr, heq, hchecked⟩ := h.reaches
  exact ⟨r, heq, Reaches.filed (hd.trans hr) filed_empty, hchecked⟩

/-- Pointers lead to types of the schema. -/
theorem Builds.target (h : start.Builds s) (hd : Declared start) {name : String}
    {p : Pointer} (hp : s.findPointer t name = some p) :
    s.isRegistered p.target = true := by
  obtain ⟨r, rfl, hf, hc⟩ := h.filed hd
  obtain ⟨id, entry, hentry, hp⟩ := Schema.exists_of_findPointer hp
  obtain ⟨ref, href, heq⟩ := hf.pointers id entry name p hentry hp
  rw [← heq]
  exact hc.references ref href

/-- Where no name leads to it, no type is stored under the identity that
is set aside for empty sets. -/
theorem Builds.ne_empty (h : start.Builds s) (hd : Declared start)
    (hp : s.Proper) (ht : s.isRegistered t = true) : t ≠ .empty := by
  obtain ⟨r, rfl, hf, -⟩ := h.filed hd
  obtain ⟨entry, hentry⟩ := Schema.exists_type? ht
  exact hp entry.name t (hf.keyed t entry hentry)

/-- A built-in scalar is of its family. -/
theorem Builds.scalarKind? (h : builtin.Builds s) (ha : s.Apart) (name : String)
    {kind : ScalarKind} (hk : (name, kind) ∈ builtinScalars) :
    s.scalarKind? (TypeId.ofQualified (.within builtinModule name))
      = some kind := by
  obtain ⟨r, hr, rfl, -⟩ := h.reaches
  have hmem : (name, TypeBody.scalar kind none) ∈ builtinBodies :=
    List.mem_append_left _ (List.mem_map.2 ⟨_, hk, rfl⟩)
  unfold Schema.scalarKind?
  rw [builtin_reached.2 _ hmem r hr ha]
  rfl

omit [NameDigest] in
/-- In a registry that would be built, each type extends types of its own
family only. -/
theorem Checked.keepsFamilies (hc : r.Checked) (hf : r.Filed)
    (ha : r.schema.Apart) : r.schema.KeepsFamilies := by
  intro a b hb
  obtain ⟨entry, hentry, hmem⟩ := Schema.exists_of_mem_directBases hb
  unfold TypeEntry.bases at hmem
  cases hbody : entry.body with
  | scalar kind base =>
      rw [hbody] at hmem
      rw [Option.mem_toList] at hmem
      cases hmem
      have hkb := hf.bases ha a entry kind b hentry hbody
      have hka : r.schema.scalarKind? a = some kind := by
        unfold Schema.scalarKind? TypeEntry.scalarKind?
        rw [hentry, Option.bind_some, hbody]
      rw [hka, hkb, Schema.not_isObject_of_scalarKind? hka,
        Schema.not_isObject_of_scalarKind? hkb]
      exact ⟨rfl, rfl⟩
  | object bases pointers =>
      rw [hbody] at hmem
      have hob := hc.bases a entry bases pointers hentry hbody b hmem
      have hoa : r.schema.isObject a = true := by
        unfold Schema.isObject TypeEntry.isObject
        rw [hentry, Option.any_some, hbody]
      rw [Schema.scalarKind?_of_isObject hoa,
        Schema.scalarKind?_of_isObject hob, hoa, hob]
      exact ⟨rfl, rfl⟩

/-- Each type extends types of its own family only. -/
theorem Builds.keepsFamilies (h : start.Builds s) (hd : Declared start)
    (ha : s.Apart) : s.KeepsFamilies := by
  obtain ⟨r, rfl, hf, hc⟩ := h.filed hd
  exact hc.keepsFamilies hf ha

/-- The types of a schema that has `std` are coherent. -/
theorem Builds.coherent (h : builtin.Builds s) (ha : s.Apart) : s.Coherent where
  bool := h.scalarKind? ha "bool" (by decide)
  int := h.scalarKind? ha "int" (by decide)
  float := h.scalarKind? ha "float" (by decide)
  str := h.scalarKind? ha "str" (by decide)
  family := h.keepsFamilies builtin_reached.1 ha

end Registry

-- ============================================================= regimes

namespace Regime

/-- Sets are typed: they have types of the schema, and operations obey
the typing rules. -/
def typing (s : Schema) : Regime :=
  ⟨fun t => s.isRegistered t = true ∧ t ≠ .empty, True, True⟩

/-- Sets are counted, and have some type or other. -/
def counting : Regime := ⟨fun t => t ≠ .empty, True, False⟩

variable {s : Schema}

/-- A schema that has `std`, where identities are told apart, suits
typing. -/
theorem typing_suits [NameDigest] (h : Registry.builtin.Builds s) (ha : s.Apart)
    (hp : s.Proper) (hr : s.ReturnsRegistered) : (typing s).Suits s := by
  have hd := Registry.builtin_reached.1
  have hknown : ∀ t, s.isRegistered t = true → (typing s).known t :=
    fun t ht => ⟨ht, h.ne_empty hd hp ht⟩
  have hcoherent := h.coherent ha
  refine ⟨fun l => hknown _ ?_, hknown,
    fun t name p hp => hknown _ (h.target hd hp),
    fun f sig t hf hs => hknown t (hr f sig t hf hs), fun _ => hcoherent,
    fun _ hempty => ?_⟩
  · cases l with
    | bool b => exact Schema.isRegistered_of_scalarKind? hcoherent.bool
    | int n => exact Schema.isRegistered_of_scalarKind? hcoherent.int
    | float x => exact Schema.isRegistered_of_scalarKind? hcoherent.float
    | str s => exact Schema.isRegistered_of_scalarKind? hcoherent.str
  · exact hempty.2 rfl

/-- Any schema that was built suits counting, with or without `std`. -/
theorem counting_suits [NameDigest] {start : Registry} (h : start.Builds s)
    (hd : start.Declared) (hl : ∀ l : Literal, l.type ≠ .empty) (hp : s.Proper)
    (hr : s.ReturnsProper) : counting.Suits s :=
  ⟨hl, fun _ ht => h.ne_empty hd hp ht,
    fun _ _ _ hf => h.ne_empty hd hp (h.target hd hf), hr, fun h => h.elim,
    fun h => h.elim⟩

end Regime

-- ============================================================= example

/-- Some objects that are linked to each other. -/
def people : List Declaration :=
  [.object "default::Person" []
    [.property "name" "std::str" { required := true },
     .toObjects "friends" "default::Person" { multi := true }]]

end PathQuery
