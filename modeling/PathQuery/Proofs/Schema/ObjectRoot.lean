/-
Every object type extends `std::Object`.

An object type that lists no bases is given that one, if it is there
when the type is declared. In a registry that starts with `std` it always
is, so an object type without bases is `std::Object` itself
(`Declaration.rooted`), and since no type extends itself, going from
base to base ends there (`Registry.Builds.isSubtype_object`).
-/
import PathQuery.Proofs.Schema.Order

namespace PathQuery

namespace Schema

variable {s : Schema} {a b : TypeId}

-- ============================================================ supertypes

/-- The types that a type extends, itself among them. -/
def supertypes (s : Schema) (a : TypeId) : List TypeId :=
  s.types.keys.filter (s.isSubtype a)

/-- Each base extends fewer types than the type does. -/
theorem length_supertypes_lt (hs : s.Acyclic) (ha : s.isRegistered a = true)
    (hb : b ∈ s.directBases a) :
    (s.supertypes b).length < (s.supertypes a).length := by
  have hsub : s.isSubtype a b = true :=
    isSubtype_of_walk ha (.cons hb (.nil b))
  have hfilter : s.supertypes b = (s.supertypes a).filter (s.isSubtype b) := by
    unfold supertypes
    rw [List.filter_filter]
    refine List.filter_congr fun t _ => ?_
    cases ht : s.isSubtype b t with
    | false => rfl
    | true => rw [isSubtype_trans hsub ht, Bool.true_and]
  rw [hfilter, List.length_filter_lt_length_iff_exists]
  refine ⟨a, List.mem_filter.2
    ⟨mem_keys_of_isRegistered ha, isSubtype_self s a⟩, fun hba => ?_⟩
  -- a type that extends a base of its own extends itself
  obtain rfl := isSubtype_antisymm hs hsub hba
  have hcyclic := hs a ha
  unfold isCyclic at hcyclic
  rw [Search.meets_iff.2 ⟨a, hb, 0, Nat.zero_le _, .nil a⟩] at hcyclic
  cases hcyclic

/-- What holds of a type as soon as it holds of a direct base holds of all
of a family, if it holds of those without bases. -/
theorem directBases_induction (hs : s.Acyclic) {P : TypeId → Prop}
    (h : ∀ a, s.isRegistered a = true → (∀ b ∈ s.directBases a, P b) → P a)
    (ha : s.isRegistered a = true) : P a := by
  generalize hn : (s.supertypes a).length = n
  induction n using Nat.strongRecOn generalizing a with
  | ind n ih =>
      subst hn
      exact h a ha fun b hb => ih _ (length_supertypes_lt hs ha hb)
        (isRegistered_of_mem_directBases hb) rfl

end Schema

namespace Registry

variable [NameDigest] {r r' : Registry}

-- ========================================================== declarations

/-- No object type but `std::Object` is without bases. -/
def Based (s : Schema) : Prop :=
  ∀ id entry pointers, s.type? id = some entry →
    entry.body = .object [] pointers → id = TypeId.object

/-- A type that is added keeps that, if it has bases or is that type. -/
theorem Based.addType {s s' : Schema} {name : QualifiedName} {body : TypeBody}
    (hs : Based s)
    (hbody : ∀ pointers, body = .object [] pointers →
      TypeId.ofQualified name = TypeId.object)
    (h : s.addType name body = .ok s') : Based s' := by
  obtain ⟨-, -, htypes⟩ := addType_ok h
  intro id entry pointers hid hentry
  unfold Schema.type? at hid
  rw [htypes, Table.get?_insert] at hid
  split at hid
  · next heq =>
      cases hid
      rw [heq]
      exact hbody pointers hentry
  · exact hs id entry pointers hid hentry

omit [NameDigest] in
theorem type?_eq_of_types {s s' : Schema} (h : s'.types = s.types)
    (id : TypeId) : s'.type? id = s.type? id := by
  unfold Schema.type?
  rw [h]

theorem Based.of_types {s s' : Schema} (hs : Based s)
    (h : s'.types = s.types) : Based s' := by
  intro id entry pointers hid
  rw [type?_eq_of_types h] at hid
  exact hs id entry pointers hid

theorem Based.declare {d : Declaration} {id : Option TypeId}
    (hr : Based r.schema) (hroot : r.schema.isRegistered TypeId.object = true)
    (h : r.declare d = .ok (r', id)) : Based r'.schema := by
  cases declare_admits h with
  | module name => exact hr.of_types (Schema.addModule_untouched r.schema name).1
  | scalar _ _ _ added =>
      exact hr.addType (fun _ hbody => by cases hbody) added
  | object _ _ _ added =>
      refine hr.addType (fun _ hbody => ?_) added
      have hnone := (TypeBody.object.inj hbody).1
      -- where no base is listed, the one given makes the list
      refine Classical.byContradiction fun hne => ?_
      unfold Schema.effectiveBases at hnone
      split at hnone
      · cases hnone
      · next hlisted => exact hlisted ⟨by rw [hnone]; rfl, hne, hroot⟩
  | @function _ _ module _ _ =>
      exact hr.of_types (Schema.addModule_untouched r.schema module).1

-- ============================================================== built in

theorem Reaches.apart (h : Reaches r r') (ha : r'.schema.Apart) :
    r.schema.Apart := by
  induction h with
  | refl => exact ha
  | tail _ hstep ih => exact ih (hstep.apart ha)

/-- `std::Object` is there from the start. -/
theorem Reaches.isRegistered_object (h : Reaches builtin r)
    (ha : r.schema.Apart) : r.schema.isRegistered TypeId.object = true := by
  have hmem : ("Object", TypeBody.object [] .empty) ∈ builtinBodies :=
    List.mem_append_right _ List.mem_cons_self
  exact Schema.isRegistered_of_type? (builtin_reached.2 _ hmem r h ha)

theorem based_of_foldlM {types : List (String × TypeBody)} {s s' : Schema}
    (hbodies : ∀ e ∈ types, ∀ pointers, e.2 = .object [] pointers →
      e.1 = "Object") (hs : Based s)
    (h : types.foldlM (fun s e => s.addType (.within builtinModule e.1) e.2) s
      = .ok s') : Based s' := by
  induction types generalizing s with
  | nil =>
      cases h
      exact hs
  | cons e types ih =>
      rw [List.forall_mem_cons] at hbodies
      rw [List.foldlM_cons] at h
      obtain ⟨s₁, hadd, h⟩ := ok_of_bind_eq_ok h
      refine ih hbodies.2 (hs.addType (fun pointers hbody => ?_) hadd) h
      rw [hbodies.1 pointers hbody]
      rfl

theorem based_builtin : Based builtin.schema := by
  obtain ⟨s, hs, -⟩ := exists_builtinTypes
  rw [builtin_eq hs]
  refine Based.of_types (s := s) ?_ rfl
  refine based_of_foldlM (fun e he pointers hbody => ?_)
    (fun id entry pointers hid => ?_) hs
  · unfold builtinBodies at he
    rw [List.mem_append, List.mem_map, List.mem_singleton] at he
    rcases he with ⟨x, -, rfl⟩ | rfl
    · cases hbody
    · rfl
  · unfold Schema.type? at hid
    rw [(Schema.addModule_untouched _ _).1] at hid
    cases hid

theorem Based.declareAll {ds : List Declaration} (hr : Based r.schema)
    (hreach : Reaches builtin r) (h : r.declareAll ds = .ok r')
    (ha : r'.schema.Apart) : Based r'.schema := by
  induction ds generalizing r with
  | nil =>
      cases h
      exact hr
  | cons d ds ih =>
      have hroot := hreach.isRegistered_object ((declareAll_reaches h).apart ha)
      obtain ⟨r₁, id, hd, hrest⟩ := declareAll_cons_ok h
      exact ih (hr.declare hroot hd) (hreach.tail (declare_cases hd)) hrest

/-- In a schema that has `std` every object type extends
`std::Object`. -/
theorem Builds.isSubtype_object {s : Schema} (h : builtin.Builds s)
    (ha : s.Apart) {t : TypeId} (ht : s.isObject t = true) :
    s.isSubtype t TypeId.object = true := by
  obtain ⟨ds, r, hds, hbuild⟩ := h
  obtain ⟨rfl, hchecked⟩ := checked_of_build hbuild
  have hbased := based_builtin.declareAll .refl hds ha
  refine Schema.directBases_induction (acyclic_of_build hbuild)
    (P := fun t => r.schema.isObject t = true →
      r.schema.isSubtype t TypeId.object = true) (fun a hreg ih hobj => ?_)
    (Schema.isRegistered_of_isObject ht) ht
  obtain ⟨entry, hentry⟩ := Schema.exists_type? hreg
  unfold Schema.isObject at hobj
  rw [hentry, Option.any_some] at hobj
  unfold TypeEntry.isObject at hobj
  cases hbody : entry.body with
  | scalar kind base =>
      rw [hbody] at hobj
      cases hobj
  | object bases pointers =>
      cases bases with
      | nil =>
          rw [hbased a entry pointers hentry hbody]
          exact Schema.isSubtype_self _ _
      | cons b bases =>
          have hb := hchecked.bases a entry _ _ hentry hbody b List.mem_cons_self
          have hmem : b ∈ r.schema.directBases a := by
            refine Schema.mem_directBases hentry ?_
              (Schema.isRegistered_of_isObject hb)
            unfold TypeEntry.bases
            rw [hbody]
            exact List.mem_cons_self
          exact Schema.isSubtype_trans
            (Schema.isSubtype_of_walk hreg (.cons hmem (.nil b))) (ih b hmem hb)

end Registry

end PathQuery
