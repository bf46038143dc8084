/-
Which declarations a build accepts.

What is wrong with a declaration by itself is found when it is made;
what it refers to is looked for when the schema is built. Declarations
that were all made are built exactly if, taken together, they are
well-formed (`Registry.build_accepts_iff`): what they name is declared,
objects extend objects, links lead to objects and properties to scalars,
and no object type extends itself.

Well-formedness is about the declarations as written, and says nothing
of registries. The base that an object type without bases is given is
itself without bases, and the scalar that a scalar extends was declared
before it, so neither makes a cycle that is not written down.
-/
import PathQuery.Proofs.Schema.Contents

namespace PathQuery

open Search (Walk)

-- ============================================================== checks

/-- A sequence of checks passes exactly if each of them does. -/
theorem forM_ok_iff {ε α : Type} {f : α → Except ε Unit} {xs : List α} :
    xs.forM f = .ok () ↔ ∀ x ∈ xs, f x = .ok () := by
  refine ⟨forall_ok_of_forM, fun h => ?_⟩
  induction xs with
  | nil => rfl
  | cons x xs ih =>
      obtain ⟨hx, hxs⟩ := List.forall_mem_cons.1 h
      show (f x).bind (fun _ => xs.forM f) = _
      rw [hx]
      exact ih hxs

/-- A check that is followed by another. -/
theorem bind_ok_iff {ε : Type} {x : Except ε Unit} {α : Type} {y : Except ε α} {a : α} :
    (x.bind fun _ => y) = .ok a ↔ x = .ok () ∧ y = .ok a := by
  cases x with
  | error e => simp [Except.bind]
  | ok u => simp [Except.bind]

/-- A check of one condition. -/
theorem ok_of_guard_iff {ε : Type} {p : Prop} [Decidable p] {e : ε} :
    (if p then Except.ok () else Except.error e) = .ok () ↔ p := by
  by_cases hp : p
  · simp [hp]
  · simp [hp]

-- ============================================================= schemas

namespace Schema

variable {s : Schema}

/-- Whatever a type of the schema extends or points to is there. -/
def Resolves (s : Schema) : Prop :=
  ∀ id entry, s.type? id = some entry →
    (∀ b ∈ entry.bases, s.isRegistered b = true)
      ∧ ∀ name p, entry.pointers.get? name = some p →
        s.isRegistered p.target = true

/-- A type is cyclic if some walk leads from a direct base back to it. -/
theorem isCyclic_iff {id : TypeId} : s.isCyclic id = true
    ↔ ∃ b ∈ s.directBases id, ∃ n, Walk s.directBases n b id := by
  unfold isCyclic
  rw [Search.meets_iff]
  constructor
  · intro h
    obtain ⟨b, hb, n, -, hw⟩ := h
    exact ⟨b, hb, n, hw⟩
  · intro h
    obtain ⟨b, hb, n, hw⟩ := h
    exact ⟨b, hb, exists_walk_le (isRegistered_of_mem_directBases hb) hw⟩

/-- What leads from type to direct base leads along a walk. -/
theorem exists_walk_of_transGen {R : TypeId → TypeId → Prop}
    (hstep : ∀ a b, R a b → b ∈ s.directBases a) {a c : TypeId}
    (h : Relation.TransGen R a c) :
    ∃ b ∈ s.directBases a, ∃ n, Walk s.directBases n b c := by
  induction h using Relation.TransGen.head_induction_on with
  | single hab => exact ⟨c, hstep _ _ hab, 0, .nil c⟩
  | head hab _ ih =>
      obtain ⟨b, hb, n, hw⟩ := ih
      exact ⟨_, hstep _ _ hab, n + 1, .cons hb hw⟩

end Schema

-- ======================================================== declarations

namespace Declaration

variable [NameDigest] (ds : List Declaration)

/-- An object type lists another type among its bases. -/
def Extends (a b : TypeId) : Prop :=
  ∃ name bases pointers, .object name bases pointers ∈ ds
    ∧ typeNamed name = a ∧ ∃ base ∈ bases, typeNamed base = b

/-- Declarations that make a schema. -/
structure WellFormed : Prop where
  listed : ∀ name bases pointers, .object name bases pointers ∈ ds →
    ∀ base ∈ bases, NamesType ds (typeNamed base)
  targets : ∀ name bases pointers, .object name bases pointers ∈ ds →
    ∀ p ∈ pointers, NamesType ds (typeNamed p.target)
  bases : ∀ name bases pointers, .object name bases pointers ∈ ds →
    ∀ base ∈ bases, NamesObject ds (typeNamed base)
  links : ∀ name bases pointers, .object name bases pointers ∈ ds →
    ∀ p ∈ pointers, p.flags.link = true → NamesObject ds (typeNamed p.target)
  properties : ∀ name bases pointers, .object name bases pointers ∈ ds →
    ∀ p ∈ pointers, p.flags.link = false → NamesScalar ds (typeNamed p.target)
  acyclic : ∀ id, ¬ Relation.TransGen (Extends ds) id id

end Declaration

namespace Registry

open Declaration (typeNamed pointerEntry objectEntry basesOf)

variable [NameDigest] {r r' : Registry} {ds : List Declaration}

-- =============================================================== cycles

namespace Holds

open Declaration (Extends)

/-- A listed base that is registered is a direct base. -/
theorem mem_directBases (h : Holds ds r) {a b : TypeId} (hab : Extends ds a b)
    (hb : r.schema.isRegistered b = true) : b ∈ r.schema.directBases a := by
  obtain ⟨name, bases, pointers, hd, rfl, base, hbase, rfl⟩ := hab
  unfold Schema.directBases
  rw [h.objects name bases pointers hd]
  dsimp only
  rw [List.mem_reverse, List.mem_filter]
  exact ⟨Declaration.mem_basesOf hbase, hb⟩

/-- A direct base of an object type is listed, or is `std::Object`. -/
theorem extends_of_mem_directBases (h : Holds ds r) {a b : TypeId}
    (ha : r.schema.isObject a = true) (hb : b ∈ r.schema.directBases a) :
    b = TypeId.object ∨ Extends ds a b := by
  obtain ⟨entry, hentry, hmem⟩ := Schema.exists_of_mem_directBases hb
  unfold Schema.isObject at ha
  rw [hentry, Option.any_some] at ha
  rcases h.object_cases hentry ha with
    ⟨-, hbody⟩ | ⟨name, bases, pointers, hd, rfl, rfl⟩
  · unfold TypeEntry.bases at hmem
    rw [hbody] at hmem
    cases hmem
  · rcases Declaration.basesOf_cases hmem with rfl | ⟨base, hbase, rfl⟩
    · exact Or.inl rfl
    · exact Or.inr ⟨name, bases, pointers, hd, rfl, base, hbase, rfl⟩

/-- `std::Object` has no bases. -/
theorem directBases_object (h : Holds ds r) :
    r.schema.directBases TypeId.object = [] := by
  unfold Schema.directBases
  rw [h.object]
  rfl

/-- A walk among the bases of objects is one among listed bases, unless it
ends with `std::Object`. -/
theorem transGen_of_walk (h : Holds ds r)
    (hobjects : ∀ a b, r.schema.isObject a = true → b ∈ r.schema.directBases a →
      r.schema.isObject b = true)
    {n : Nat} {a b c : TypeId} (ha : r.schema.isObject a = true)
    (hb : b ∈ r.schema.directBases a) (hw : Walk r.schema.directBases n b c) :
    c = TypeId.object ∨ Relation.TransGen (Extends ds) a c := by
  induction n generalizing a b with
  | zero =>
      cases hw
      exact (h.extends_of_mem_directBases ha hb).imp_right .single
  | succ n ih =>
      cases hw with
      | cons hx hw =>
          rcases ih (hobjects a b ha hb) hx hw with hc | hc
          · exact Or.inl hc
          · rcases h.extends_of_mem_directBases ha hb with rfl | hab
            · rw [h.directBases_object] at hx
              cases hx
            · exact Or.inr (.head hab hc)

omit [NameDigest] in
/-- A walk among the bases of a scalar goes to older ones. -/
theorem age_lt_of_walk {s : Schema} {age : TypeId → Nat}
    (hage : ∀ id entry kind b, s.type? id = some entry →
      entry.body = .scalar kind (some b) → age b < age id)
    (hscalars : ∀ a b, s.isObject a = false → b ∈ s.directBases a →
      s.isObject b = false)
    {n : Nat} {a b c : TypeId} (ha : s.isObject a = false)
    (hb : b ∈ s.directBases a) (hw : Walk s.directBases n b c) :
    age c < age a := by
  have hstep : ∀ a b, s.isObject a = false → b ∈ s.directBases a →
      age b < age a := by
    intro a b ha hb
    obtain ⟨entry, hentry, hmem⟩ := Schema.exists_of_mem_directBases hb
    unfold Schema.isObject at ha
    rw [hentry, Option.any_some] at ha
    unfold TypeEntry.isObject at ha
    unfold TypeEntry.bases at hmem
    cases hbody : entry.body with
    | object bases pointers =>
        rw [hbody] at ha
        cases ha
    | scalar kind base =>
        rw [hbody] at hmem
        exact hage a entry kind b hentry (by rw [hbody, Option.mem_toList.1 hmem])
  induction n generalizing a b with
  | zero =>
      cases hw
      exact hstep a _ ha hb
  | succ n ih =>
      cases hw with
      | cons hx hw =>
          exact Nat.lt_trans (ih (hscalars a b ha hb) hx hw) (hstep a b ha hb)

end Holds

-- =============================================================== builds

section Builds

omit [NameDigest]

theorem checkType_ok_iff {name : QualifiedName} {bases : List TypeId}
    {pointers : Table String Pointer} :
    r.checkType ⟨name, .object bases pointers⟩ = .ok ()
      ↔ (∀ b ∈ bases, r.schema.isObject b = true)
        ∧ ∀ e ∈ pointers.entries,
          r.schema.isObject e.2.target = e.2.flags.link := by
  show Except.bind _ (fun _ => _) = _ ↔ _
  rw [bind_ok_iff, forM_ok_iff, forM_ok_iff]
  simp only [ok_of_guard_iff]

/-- What is asked of all types is asked of each that has an identity. -/
theorem forall_mem_values_iff (hl : r.schema.types.Lawful) {P : TypeEntry → Prop} :
    (∀ entry ∈ r.schema.types.values, P entry)
      ↔ ∀ id entry, r.schema.type? id = some entry → P entry := by
  constructor
  · intro h id entry hid
    exact h entry (Table.mem_values_of_get? hid)
  · intro h entry hentry
    obtain ⟨e, he, rfl⟩ := List.mem_map.1 hentry
    exact h e.1 e.2 (hl e he)

theorem checkAcyclic_ok_iff (hl : r.schema.types.Lawful) :
    r.checkAcyclic = .ok () ↔ r.schema.Acyclic := by
  unfold checkAcyclic
  constructor
  · intro h t ht
    split at h
    · next hnone =>
        have hkey := Schema.mem_keys_of_isRegistered ht
        simpa using List.find?_eq_none.1 hnone t hkey
    · cases h
  · intro h
    rw [List.find?_eq_none.2]
    intro t ht
    obtain ⟨e, he, rfl⟩ := List.mem_map.1 ht
    simpa using h e.1 (Schema.isRegistered_of_type? (hl e he))

/-- A build succeeds exactly if what is referred to is registered, each
type passes its check, and none extends itself. -/
theorem build_ok_iff (hl : r.schema.types.Lawful) :
    (∃ s, r.build = .ok s)
      ↔ (∀ ref ∈ r.references, r.schema.isRegistered ref.id = true)
        ∧ (∀ id entry, r.schema.type? id = some entry →
          r.checkType entry = .ok ())
        ∧ r.schema.Acyclic := by
  have hbuild : ∀ s, r.build = .ok s ↔ (r.checkReferences = .ok ()
      ∧ r.schema.types.values.forM r.checkType = .ok ()
      ∧ r.checkAcyclic = .ok () ∧ r.schema = s) := by
    intro s
    unfold build
    show Except.bind _ (fun _ => Except.bind _ (fun _ => Except.bind _
      (fun _ => Except.ok _))) = _ ↔ _
    rw [bind_ok_iff, bind_ok_iff, bind_ok_iff, Except.ok.injEq]
  unfold checkReferences at hbuild
  simp only [hbuild, forM_ok_iff, ok_of_guard_iff, forall_mem_values_iff hl,
    checkAcyclic_ok_iff hl]
  simp

end Builds

open Declaration (WellFormed)

/-- In a hierarchy without cycles no declared type extends itself. -/
theorem Holds.not_extends_self (h : Holds ds r)
    (hregistered : ∀ id, id ∈ r.references.map Reference.id →
      r.schema.isRegistered id = true)
    (hacyclic : r.schema.Acyclic) (id : TypeId) :
    ¬ Relation.TransGen (Declaration.Extends ds) id id := by
  intro hid
  have hstep : ∀ a b, Declaration.Extends ds a b →
      b ∈ r.schema.directBases a := by
    intro a b hab
    refine h.mem_directBases hab (hregistered b ((h.references b).2 ?_))
    obtain ⟨name, bases, pointers, hd, -, base, hb, rfl⟩ := hab
    exact ⟨name, bases, pointers, hd, Or.inr (List.mem_map_of_mem hb)⟩
  have hwalk := Schema.exists_walk_of_transGen hstep hid
  have hreg : r.schema.isRegistered id = true := by
    obtain ⟨x, hx, -⟩ := hwalk
    obtain ⟨entry, hentry, -⟩ := Schema.exists_of_mem_directBases hx
    exact Schema.isRegistered_of_type? hentry
  have hcyclic := hacyclic id hreg
  rw [Schema.isCyclic_iff.2 hwalk] at hcyclic
  cases hcyclic

/-- What is built is well-formed. -/
theorem Holds.wellFormed (h : Holds ds r) {s : Schema} (hbuild : r.build = .ok s) :
    WellFormed ds := by
  obtain ⟨hrefs, hchecked, hacyclic⟩ :=
    (build_ok_iff h.lawful).1 ⟨s, hbuild⟩
  have hregistered : ∀ id, id ∈ r.references.map Reference.id →
      r.schema.isRegistered id = true := by
    intro id hid
    obtain ⟨ref, href, rfl⟩ := List.mem_map.1 hid
    exact hrefs ref href
  have hentry : ∀ {name bases pointers}, .object name bases pointers ∈ ds →
      (∀ b ∈ basesOf bases, r.schema.isObject b = true)
        ∧ ∀ e ∈ pointers.map pointerEntry,
          r.schema.isObject e.2.target = e.2.flags.link := fun hd =>
    checkType_ok_iff.1 (hchecked _ _ (h.objects _ _ _ hd))
  have hbase : ∀ {name bases pointers}, .object name bases pointers ∈ ds →
      ∀ base ∈ bases, r.schema.isRegistered (typeNamed base) = true := by
    intro name bases pointers hd base hb
    exact hregistered _ ((h.references _).2
      ⟨name, bases, pointers, hd, Or.inr (List.mem_map_of_mem hb)⟩)
  have htarget : ∀ {name bases pointers}, .object name bases pointers ∈ ds →
      ∀ p ∈ pointers, r.schema.isRegistered (typeNamed p.target) = true := by
    intro name bases pointers hd p hp
    exact hregistered _ ((h.references _).2 ⟨name, bases, pointers, hd,
      Or.inl (List.mem_map.2 ⟨p, hp, rfl⟩)⟩)
  have hlink : ∀ {name bases pointers}, .object name bases pointers ∈ ds →
      ∀ p ∈ pointers, r.schema.isObject (typeNamed p.target) = p.flags.link :=
    fun hd p hp => (hentry hd).2 _ (List.mem_map_of_mem hp)
  exact
    { listed := fun _ _ _ hd base hb => h.isRegistered_iff.1 (hbase hd base hb)
      targets := fun _ _ _ hd p hp => h.isRegistered_iff.1 (htarget hd p hp)
      bases := fun _ _ _ hd base hb =>
        h.isObject_iff.1 ((hentry hd).1 _ (Declaration.mem_basesOf hb))
      links := fun _ _ _ hd p hp hflag =>
        h.isObject_iff.1 ((hlink hd p hp).trans hflag)
      properties := fun _ _ _ hd p hp hflag =>
        h.namesScalar_iff.2 ⟨htarget hd p hp, (hlink hd p hp).trans hflag⟩
      acyclic := h.not_extends_self hregistered hacyclic }

/-- What well-formed declarations refer to is registered. -/
theorem Holds.isRegistered_of_reference (h : Holds ds r) (hds : WellFormed ds) :
    ∀ ref ∈ r.references, r.schema.isRegistered ref.id = true := by
  intro ref href
  obtain ⟨name, bases, pointers, hd, htarget | hbase⟩ :=
    (h.references ref.id).1 (List.mem_map_of_mem href)
  · obtain ⟨p, hp, heq⟩ := List.mem_map.1 htarget
    exact heq ▸ h.isRegistered_iff.2 (hds.targets name bases pointers hd p hp)
  · obtain ⟨base, hb, heq⟩ := List.mem_map.1 hbase
    exact heq ▸ h.isRegistered_iff.2 (hds.listed name bases pointers hd base hb)

/-- The object types of well-formed declarations extend objects, and their
pointers lead to objects exactly if they are links. -/
theorem Holds.extends_objects (h : Holds ds r) (hds : WellFormed ds)
    {id : TypeId} {entry : TypeEntry} {bases : List TypeId}
    {pointers : Table String Pointer} (hid : r.schema.type? id = some entry)
    (hbody : entry.body = .object bases pointers) :
    (∀ b ∈ bases, r.schema.isObject b = true)
      ∧ ∀ e ∈ pointers.entries,
        r.schema.isObject e.2.target = e.2.flags.link := by
  have hobject : entry.isObject = true := by
    unfold TypeEntry.isObject
    rw [hbody]
  rcases h.object_cases hid hobject with
    ⟨-, hroot⟩ | ⟨name, listed, decls, hd, -, rfl⟩
  · -- `std::Object` has neither bases nor pointers
    rw [hroot] at hbody
    cases hbody
    exact ⟨fun b hb => (nomatch hb), fun e he => (nomatch he)⟩
  · cases hbody
    refine ⟨fun b hb => ?_, fun e he => ?_⟩
    · rcases Declaration.basesOf_cases hb with rfl | ⟨base, hbase, rfl⟩
      · exact h.isObject_iff.2 (Or.inl rfl)
      · exact h.isObject_iff.2 (hds.bases name listed decls hd base hbase)
    · obtain ⟨p, hp, rfl⟩ := List.mem_map.1 he
      show r.schema.isObject (typeNamed p.target) = p.flags.link
      cases hflag : p.flags.link with
      | true =>
          exact h.isObject_iff.2 (hds.links name listed decls hd p hp hflag)
      | false =>
          exact (h.namesScalar_iff.1
            (hds.properties name listed decls hd p hp hflag)).2

/-- Where no type extends one of another family, well-formed declarations
make no cycle: one of objects would be written down, and scalars extend
older ones. -/
theorem Holds.acyclic (h : Holds ds r) (hds : WellFormed ds)
    (hfamilies : r.schema.KeepsFamilies) : r.schema.Acyclic := by
  intro id _
  by_contra hcyclic
  obtain ⟨b, hb, n, hw⟩ := Schema.isCyclic_iff.1 (by simpa using hcyclic)
  cases hobject : r.schema.isObject id with
  | true =>
      have hkeep : ∀ a b, r.schema.isObject a = true →
          b ∈ r.schema.directBases a → r.schema.isObject b = true :=
        fun a b ha hb => (hfamilies a b hb).2.trans ha
      rcases h.transGen_of_walk hkeep hobject hb hw with rfl | hcycle
      · rw [h.directBases_object] at hb
        cases hb
      · exact hds.acyclic id hcycle
  | false =>
      have hkeep : ∀ a b, r.schema.isObject a = false →
          b ∈ r.schema.directBases a → r.schema.isObject b = false :=
        fun a b ha hb => (hfamilies a b hb).2.trans ha
      obtain ⟨age, hage⟩ := h.grounded
      exact Nat.lt_irrefl _ (age_lt_of_walk hage hkeep hobject hb hw)

/-- What is well-formed is built. -/
theorem Holds.exists_build (h : Holds ds r) (hf : r.Filed)
    (ha : r.schema.Apart) (hds : WellFormed ds) : ∃ s, r.build = .ok s := by
  have hrefs := h.isRegistered_of_reference hds
  have hchecked : r.Checked :=
    ⟨hrefs, fun id entry bases pointers hid hbody =>
      (h.extends_objects hds hid hbody).1⟩
  have hacyclic := h.acyclic hds (hchecked.keepsFamilies hf ha)
  refine (build_ok_iff h.lawful).2 ⟨hrefs, fun id entry hid => ?_, hacyclic⟩
  obtain ⟨name, body⟩ := entry
  cases body with
  | scalar kind base => rfl
  | object bases pointers =>
      exact checkType_ok_iff.2 (h.extends_objects hds hid rfl)

omit [NameDigest] in
/-- Whatever types refer to is there, if the scalars that are extended
are. -/
theorem Checked.resolves (hc : r.Checked) (hf : r.Filed)
    (hscalars : ∀ id entry kind b, r.schema.type? id = some entry →
      entry.body = .scalar kind (some b) → r.schema.isRegistered b = true) :
    r.schema.Resolves := by
  intro id entry hid
  refine ⟨fun b hb => ?_, fun name p hp => ?_⟩
  · unfold TypeEntry.bases at hb
    cases hbody : entry.body with
    | scalar kind base =>
        rw [hbody] at hb
        exact hscalars id entry kind b hid
          (by rw [hbody, Option.mem_toList.1 hb])
    | object bases pointers =>
        rw [hbody] at hb
        exact Schema.isRegistered_of_isObject
          (hc.bases id entry bases pointers hid hbody b hb)
  · obtain ⟨ref, href, heq⟩ := hf.pointers id entry name p hid hp
    exact heq ▸ hc.references ref href

omit [NameDigest] in
/-- Whatever is referred to in a schema that was built is there. -/
theorem resolves_of_build (hf : r.Filed) (ha : r.schema.Apart) {s : Schema}
    (hbuild : r.build = .ok s) : s.Resolves := by
  obtain ⟨rfl, hchecked⟩ := checked_of_build hbuild
  exact hchecked.resolves hf fun id entry kind b hid hbody =>
    Schema.isRegistered_of_scalarKind? (hf.bases ha id entry kind b hid hbody)

/-- Where no two of the names that were taken have one identity, a build
accepts what was declared exactly if it is well-formed, and then
whatever the schema refers to is there. -/
theorem build_accepts_iff (h : builtin.declareAll ds = .ok r)
    (ha : r.schema.Apart) :
    ((∃ s, r.build = .ok s) ↔ WellFormed ds)
      ∧ ∀ s, r.build = .ok s → s.Resolves := by
  have hholds := holds_of_declareAll h ha
  have hf : r.Filed :=
    Reaches.filed (builtin_reached.1.trans (declareAll_reaches h)) filed_empty
  refine ⟨⟨fun hbuild => ?_, hholds.exists_build hf ha⟩,
    fun s hbuild => resolves_of_build hf ha hbuild⟩
  obtain ⟨s, hs⟩ := hbuild
  exact hholds.wellFormed hs

end Registry

-- ============================================================= example

open scoped Xxh64

theorem build_accepts_people : ∃ r, Registry.builtin.declareAll people = .ok r
    ∧ r.schema.Apart ∧ Declaration.WellFormed people := by
  obtain ⟨r, hr, hchecks⟩ := exists_ok_of_map
    (x := Registry.builtin.declareAll people)
    (f := fun r => (decide (r.schema.names.entries.map Prod.snd).Nodup,
      r.build.isOk)) (b := (true, true)) (by decide +kernel)
  obtain ⟨hnodup, hbuild⟩ := Prod.mk.inj hchecks
  have hapart : r.schema.Apart :=
    Schema.apart_of_nodup (of_decide_eq_true hnodup)
  refine ⟨r, hr, hapart, ?_⟩
  exact (Registry.build_accepts_iff hr hapart).1.1 (exists_ok_of_isOk hbuild)

end PathQuery
