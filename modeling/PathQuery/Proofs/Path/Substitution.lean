/-
When a subtype may stand for a type.

A set of a subtype is taken as it is where a set of the type is expected,
and the pointers of its own type are followed from it. Every pointer that
the type has is found then, too (`Schema.isSome_findPointer`). But a type
may declare again what a type that it extends declares, and no declaration
is compared with another, so the pointer that is found may lead elsewhere
and to more or fewer targets. It is the one that was meant, unless it was
declared again on the way or behind a fork (`Schema.declarers_cases`).

A pointer may stand for another if it refines it (`Schema.Refines`). What a
type finds refines what its supertypes find exactly if it refines all that
they declare (`Schema.honors_iff`). Where each object type has this
property, a path that can be followed from a type can be followed from its
subtypes, to a subtype and within the bounds
(`Registry.Builds.subtypes_substitute`).
-/
import PathQuery.Proofs.Cardinality.Order
import PathQuery.Proofs.Path.Abbreviation
import PathQuery.Proofs.Schema.Redeclaration

namespace PathQuery

open Ir

namespace Schema

variable {s : Schema} {a b t d e : TypeId} {name : String} {p q : Pointer}

-- ============================================================ refining

/-- A pointer may stand for another: its targets are of a subtype, and
there are as many as were to be expected. -/
def Refines (s : Schema) (p q : Pointer) : Prop :=
  s.isSubtype p.target q.target = true ∧ p.cardinality ≤ q.cardinality

instance : Decidable (s.Refines p q) :=
  inferInstanceAs (Decidable (_ = true ∧ _ ≤ _))

theorem Refines.refl (s : Schema) (p : Pointer) : s.Refines p p :=
  ⟨isSubtype_self s p.target, le_refl _⟩

/-- Whatever pointer is found on one type is found on the other, refined. -/
def Substitutes (s : Schema) (a b : TypeId) : Prop :=
  ∀ name q, s.findPointer b name = some q →
    ∃ p, s.findPointer a name = some p ∧ s.Refines p q

/-- What a type finds refines whatever it or a type that it extends
declares. -/
def Honors (s : Schema) (a : TypeId) : Prop :=
  ∀ d name q, s.isSubtype a d = true → s.ownPointer? d name = some q →
    ∃ p, s.findPointer a name = some p ∧ s.Refines p q

/-- What is declared again, by a subtype or behind a fork, is refined. -/
def Harmonizes (s : Schema) (a : TypeId) : Prop :=
  ∀ e d name p q, s.isSubtype a e = true → s.isSubtype a d = true →
    s.isSubtype e d = true ∨ s.Forks a e d →
    s.ownPointer? e name = some p → s.ownPointer? d name = some q → s.Refines p q

-- ========================================================= declarations

/-- A subtype finds a pointer of each name that the type has. -/
theorem isSome_findPointer (ha : s.isRegistered a = true) (hab : s.isSubtype a b = true)
    (h : s.findPointer b name = some q) : ∃ p, s.findPointer a name = some p := by
  obtain ⟨d, hd, hown⟩ := exists_declarer h
  have hmem := mem_ancestors_iff.2 ⟨ha, isSubtype_trans hab (isSubtype_of_declarer? hd).2⟩
  refine Option.isSome_iff_exists.1 (isSome_findPointer_iff.2
    ⟨d, hmem, isObject_of_ownPointer? hown, ?_⟩)
  rw [hown]
  rfl

/-- A type finds a declaration of its own, or one of a type that extends the
one that declares the name, or one that lies behind a fork. -/
theorem declarers_cases (ha : s.isRegistered a = true) (had : s.isSubtype a d = true)
    (hd : s.ownPointer? d name = some q) (he : s.declarer? a name = some e) :
    e = d ∨ s.isSubtype e d = true ∨ s.Forks a e d := by
  have hsome : (s.ownPointer? d name).isSome = true := by
    rw [hd]
    rfl
  -- another declaration is found only if it is no further away
  refine (nearer_of_declarer? he (mem_ancestors_iff.2 ⟨ha, had⟩) hsome).imp_right
    fun hnear => ?_
  cases hed : s.isSubtype e d with
  | true => exact Or.inl rfl
  | false => exact Or.inr (forks_of_not_isSubtype ha had hed hnear)

-- ========================================================= substituting

/-- A type may stand for all that it extends exactly if it honors what they
declare. -/
theorem honors_iff (ha : s.isRegistered a = true) :
    (∀ b, s.isSubtype a b = true → s.Substitutes a b) ↔ s.Honors a := by
  constructor
  · intro h d name q had hd
    exact h d had name q
      (findPointer_of_ownPointer? (isRegistered_of_isSubtype had ha) hd)
  · intro h b hab name q hq
    obtain ⟨d, hd, hown⟩ := exists_declarer hq
    exact h d name q (isSubtype_trans hab (isSubtype_of_declarer? hd).2) hown

/-- It does so where what is declared again is refined. -/
theorem Harmonizes.honors (h : s.Harmonizes a) (ha : s.isRegistered a = true) :
    s.Honors a := by
  intro d name q had hd
  have hfound := findPointer_of_ownPointer? (isRegistered_of_isSubtype had ha) hd
  obtain ⟨p, hp⟩ := isSome_findPointer ha had hfound
  obtain ⟨e, he, hown⟩ := exists_declarer hp
  refine ⟨p, hp, ?_⟩
  rcases declarers_cases ha had hd he with rfl | hagain
  · rw [Option.some.inj (hown.symm.trans hd)]
    exact Refines.refl s q
  · exact h e d name p q (isSubtype_of_declarer? he).2 had hagain hown hd

/-- What a type honors is told by the types that are stored. -/
theorem honors_of_entries
    (h : ∀ u ∈ s.types.entries, ∀ x ∈ u.2.pointers.entries, s.isSubtype a u.1 = true →
      ∃ p ∈ s.findPointer a x.1, s.Refines p x.2) : s.Honors a := by
  intro d name q had hd
  obtain ⟨entry, hentry, hq⟩ := Option.bind_eq_some_iff.1 hd
  obtain ⟨p, hp, hrefines⟩ :=
    h _ (Table.mem_entries_of_get? hentry) _ (Table.mem_entries_of_get? hq) had
  exact ⟨p, Option.mem_def.1 hp, hrefines⟩

-- ================================================================ paths

/-- How many elements pointers with these names lead to from one element of
a type. -/
def spread? (s : Schema) : TypeId → List String → Option Cardinality
  | _, [] => some .one
  | t, name :: names => do
    let p ← s.findPointer t name
    let c ← s.spread? p.target names
    return p.cardinality.mul c

/-- Where types honor what they extend, a path that can be followed from a
type can be followed from its subtypes, to a subtype and within its
bounds. -/
theorem leads_of_honors (hs : s.KeepsFamilies)
    (h : ∀ t, s.isObject t = true → s.Honors t) {names : List String} {u : TypeId}
    (hab : s.isSubtype a b = true) (hb : s.leads b names = .ok u) :
    ∃ v, s.leads a names = .ok v ∧ s.isSubtype v u = true
      ∧ ∃ c c', s.spread? a names = some c ∧ s.spread? b names = some c' ∧ c ≤ c' := by
  induction names generalizing a b with
  | nil =>
      cases hb
      exact ⟨a, rfl, hab, .one, .one, rfl, rfl, le_refl _⟩
  | cons name names ih =>
      rw [leads] at hb
      split at hb
      · next hobj =>
          split at hb
          · next q hq =>
              have haobj := (hs.isObject_eq hab).symm.trans hobj
              obtain ⟨p, hp, htarget, hcard⟩ :=
                (honors_iff (isRegistered_of_isObject haobj)).2 (h a haobj) b hab name q hq
              obtain ⟨v, hv, hvu, c, c', hc, hc', hle⟩ := ih htarget hb
              refine ⟨v, (leads_of_pointer haobj hp names).trans hv, hvu,
                p.cardinality.mul c, q.cardinality.mul c', ?_, ?_,
                Cardinality.mul_le_mul hcard hle⟩
              · rw [spread?, hp, Option.bind_eq_bind, Option.bind_some, hc]
                rfl
              · rw [spread?, hq, Option.bind_eq_bind, Option.bind_some, hc']
                rfl
          · cases hb
      · cases hb

end Schema

-- ============================================================= sessions

namespace Session

variable {κ : Type} [DecidableEq κ] [PathKey κ] [NameDigest] {x : Session κ} {a b : TypeId}
  {id : SetId}

/-- The schema of a session is that of its start. -/
theorem Steps.schema_of_start {lexical : Prop} {schema : Schema}
    {o : CompileOptions} (h : Steps lexical (start schema o) x) : x.schema = schema :=
  h.schema_eq

/-- Pointers are followed from any set by its type. -/
theorem Reachable.leads (hx : Reachable False x) (hid : x.store.arena.type? id = some a)
    (steps : List Ast.PathStep) :
    Ends (x.schema.leads a (steps.map Ast.PathStep.name))
      ((steps.foldlM (fun set step => CompileM.extendPath set step.name step.span) id).run
        x.env x.store) := by
  obtain ⟨node, hn, htype⟩ := Arena.type?_eq_some_iff.1 hid
  exact (CompileM.run_extendAll_follows hx.ready.active
    ⟨node, hn, htype, fun h => h.elim⟩).ends

end Session

-- ================================================================ builds

section

variable {κ : Type} [DecidableEq κ] [PathKey κ] [NameDigest] {s : Schema}

/-- In a schema that has `std` a subtype finds whatever pointer the type
finds: the same one, or one that was declared again by a type that extends
the declaring one or that lies behind a fork. It may stand for every type
that it extends exactly if it honors all they declare, as it does where what
is declared again is refined. Where every object type does, a path that can
be followed from a type can be followed from its subtypes, to a subtype and
within the bounds, and so from a set of a subtype, which is taken as it is
where one of the type is expected. -/
theorem Registry.Builds.subtypes_substitute (h : builtin.Builds s) (hapart : s.Apart) :
    (∀ a b name q, s.isObject a = true → s.isSubtype a b = true →
        s.findPointer b name = some q →
          ∃ p d e, s.findPointer a name = some p
            ∧ s.declarer? b name = some d ∧ s.declarer? a name = some e
            ∧ ((e = d ∧ p = q)
              ∨ (e ≠ d ∧ (s.isSubtype e d = true ∨ s.Forks a e d))))
      ∧ (∀ a, s.isObject a = true →
        ((∀ b, s.isSubtype a b = true → s.Substitutes a b) ↔ s.Honors a)
          ∧ (s.Harmonizes a → s.Honors a))
      ∧ ((∀ t, s.isObject t = true → s.Honors t) →
        ∀ a b, s.isSubtype a b = true →
          (∀ names u, s.leads b names = .ok u →
            ∃ v, s.leads a names = .ok v ∧ s.isSubtype v u = true
              ∧ ∃ c c', s.spread? a names = some c ∧ s.spread? b names = some c'
                ∧ c ≤ c')
          ∧ ∀ (x : Session κ) (id : SetId), Session.Reachable False x → x.schema = s →
            x.store.arena.type? id = some a → a ≠ .empty →
              x.step (CompileM.coerce id b) = (.ok id, x)
              ∧ ∀ (steps : List Ast.PathStep) (u : TypeId),
                s.leads b (steps.map Ast.PathStep.name) = .ok u →
                  ∃ v, s.isSubtype v u = true ∧ Ends (.ok v)
                    ((steps.foldlM (fun set step =>
                      CompileM.extendPath set step.name step.span) id).run
                        x.env x.store)) := by
  have hfamilies := h.keepsFamilies builtin_reached.1 hapart
  refine ⟨fun a b name q haobj hab hq => ?_, fun a haobj => ?_, fun hall a b hab =>
    ⟨fun names u => Schema.leads_of_honors hfamilies hall hab,
      fun x id hx hschema hid hne => ⟨?_, fun steps u hu => ?_⟩⟩⟩
  · have ha := Schema.isRegistered_of_isObject haobj
    obtain ⟨p, hp⟩ := Schema.isSome_findPointer ha hab hq
    obtain ⟨d, hd, hdown⟩ := Schema.exists_declarer hq
    obtain ⟨e, he, heown⟩ := Schema.exists_declarer hp
    have had := Schema.isSubtype_trans hab (Schema.isSubtype_of_declarer? hd).2
    refine ⟨p, d, e, hp, hd, he, ?_⟩
    by_cases heq : e = d
    · subst heq
      exact Or.inl ⟨rfl, Option.some.inj (heown.symm.trans hdown)⟩
    · exact Or.inr ⟨heq, (Schema.declarers_cases ha had hdown he).resolve_left heq⟩
  · have ha := Schema.isRegistered_of_isObject haobj
    exact ⟨Schema.honors_iff ha, fun hharm => hharm.honors ha⟩
  · subst hschema
    exact Session.step_of_run (CompileM.run_attach_of_isSubtype hid hne hab)
  · subst hschema
    obtain ⟨v, hv, hvu, -⟩ := Schema.leads_of_honors hfamilies hall hab hu
    have hends := hx.leads hid steps
    rw [hv] at hends
    exact ⟨v, hvu, hends⟩

end

-- ============================================================= examples

open scoped Xxh64
open Declaration (typeNamed)

/-- Animals with an owner, and a kind of them that declares the owner again:
one person at most where there may be several, and of a narrower type. -/
def pets : List Declaration :=
  [.object "default::Person" [] [.property "name" "std::str" { required := true }],
   .object "default::Friend" ["default::Person"] [],
   .object "default::Animal" [] [.toObjects "owner" "default::Person" { multi := true }],
   .object "default::Pet" ["default::Animal"] [.toObjects "owner" "default::Friend" {}]]

/-- The schema of them. -/
def petsSchema : Schema := Registry.builtin.schemaOf pets

/-- A session that has met all pets. -/
def afterPets : Session PathId :=
  ((Session.start petsSchema {}).step (CompileM.path
    (Ast.Build.run (Ast.Build.path "default::Pet" [])))).2

/-- What is computed of them. -/
theorem pets_checks :
    ((Registry.builtin.declareAll pets).bind Registry.build).isOk = true
      ∧ (petsSchema.names.entries.map Prod.snd).Nodup
      ∧ (∀ t ∈ petsSchema.types.keys, ∀ u ∈ petsSchema.types.entries,
        ∀ x ∈ u.2.pointers.entries, petsSchema.isSubtype t u.1 = true →
          ∃ p ∈ petsSchema.findPointer t x.1, petsSchema.Refines p x.2)
      ∧ petsSchema.isSubtype (typeNamed "default::Pet") (typeNamed "default::Animal")
        = true
      ∧ petsSchema.leads (typeNamed "default::Animal") ["owner", "name"]
        = .ok TypeId.str
      ∧ afterPets.store.arena.type? 0 = some (typeNamed "default::Pet")
      ∧ typeNamed "default::Pet" ≠ .empty := by
  decide +kernel

theorem subtypes_substitute_pets :
    Registry.builtin.Builds petsSchema ∧ petsSchema.Apart
      ∧ (∀ t, petsSchema.isObject t = true → petsSchema.Honors t)
      ∧ petsSchema.leads (typeNamed "default::Animal") ["owner", "name"]
        = .ok TypeId.str
      ∧ (∃ v, petsSchema.leads (typeNamed "default::Pet") ["owner", "name"] = .ok v
        ∧ petsSchema.isSubtype v TypeId.str = true)
      ∧ afterPets.step (CompileM.coerce 0 (typeNamed "default::Animal"))
        = (.ok 0, afterPets) := by
  obtain ⟨hbuild, hnodup, hhonors, hsub, hleads, hpet, hne⟩ := pets_checks
  have hbuilds : Registry.builtin.Builds petsSchema := Registry.builds_schemaOf hbuild
  have hapart := Schema.apart_of_nodup hnodup
  have hall : ∀ t, petsSchema.isObject t = true → petsSchema.Honors t := fun t ht =>
    Schema.honors_of_entries (hhonors t
      (Schema.mem_keys_of_isRegistered (Schema.isRegistered_of_isObject ht)))
  have hsteps : Session.Steps False (Session.start petsSchema {}) afterPets :=
    .single (.path _)
  have hschema : afterPets.schema = petsSchema := hsteps.schema_of_start
  have hreachable : Session.Reachable False afterPets := ⟨petsSchema, {}, hsteps⟩
  obtain ⟨-, -, hpaths⟩ := hbuilds.subtypes_substitute (κ := PathId) hapart
  obtain ⟨hnames, hsets⟩ := hpaths hall _ _ hsub
  obtain ⟨v, hv, hvsub, -⟩ := hnames _ _ hleads
  exact ⟨hbuilds, hapart, hall, hleads, ⟨v, hv, hvsub⟩,
    (hsets afterPets 0 hreachable hschema hpet hne).1⟩

/-- Animals with an owner, and a kind of them where the owner is some texts. -/
def owned : List Declaration :=
  [.object "default::Person" [] [.property "name" "std::str" { required := true }],
   .object "default::Animal" []
    [.toObjects "owner" "default::Person" { required := true }],
   .object "default::Stray" ["default::Animal"]
    [.property "owner" "std::str" { multi := true }]]

/-- The schema of them. -/
def ownedSchema : Schema := Registry.builtin.schemaOf owned

/-- A subtype does not substitute: it may declare a pointer anew, with
targets of another type and more of them, so that a path from the type leads
nowhere from the subtype. Nor does it if what is declared again is refined,
since the declaration that is found may be the one that was replaced. -/
theorem substitution_fails_owned :
    (Registry.builtin.Builds ownedSchema ∧ ownedSchema.Apart ∧ ownedSchema.Proper
        ∧ ownedSchema.isObject (typeNamed "default::Stray") = true
        ∧ ownedSchema.isObject (typeNamed "default::Animal") = true
        ∧ ownedSchema.isSubtype (typeNamed "default::Stray") (typeNamed "default::Animal")
          = true
        ∧ ∃ p q, ownedSchema.findPointer (typeNamed "default::Animal") "owner" = some q
          ∧ ownedSchema.findPointer (typeNamed "default::Stray") "owner" = some p
          ∧ ownedSchema.isSubtype p.target q.target = false
          ∧ q.cardinality = .one ∧ p.cardinality = .many
          ∧ ownedSchema.leads (typeNamed "default::Animal") ["owner", "name"]
            = .ok TypeId.str
          ∧ ownedSchema.leads (typeNamed "default::Stray") ["owner", "name"]
            = .error .typeMismatch)
      ∧ (Registry.builtin.Builds labelledSchema ∧ labelledSchema.Apart
        ∧ labelledSchema.Proper
        ∧ labelledSchema.isSubtype (typeNamed "default::Member")
          (typeNamed "default::Named") = true
        ∧ ∃ p q, labelledSchema.findPointer (typeNamed "default::Named") "label" = some q
          ∧ labelledSchema.findPointer (typeNamed "default::Member") "label" = some p
          ∧ labelledSchema.Refines q p ∧ ¬labelledSchema.Refines p q) := by
  refine ⟨?_, ?_⟩
  · obtain ⟨hbuild, hnodup, hproper, hrest⟩ :
        ((Registry.builtin.declareAll owned).bind Registry.build).isOk = true
          ∧ (ownedSchema.names.entries.map Prod.snd).Nodup
          ∧ (∀ e ∈ ownedSchema.names.entries, e.2 ≠ .empty)
          ∧ ownedSchema.isObject (typeNamed "default::Stray") = true
          ∧ ownedSchema.isObject (typeNamed "default::Animal") = true
          ∧ ownedSchema.isSubtype (typeNamed "default::Stray")
            (typeNamed "default::Animal") = true
          ∧ ownedSchema.findPointer (typeNamed "default::Animal") "owner"
            = some ⟨typeNamed "default::Person", { required := true, link := true }⟩
          ∧ ownedSchema.findPointer (typeNamed "default::Stray") "owner"
            = some ⟨TypeId.str, { multi := true }⟩
          ∧ ownedSchema.isSubtype TypeId.str (typeNamed "default::Person") = false
          ∧ ownedSchema.leads (typeNamed "default::Animal") ["owner", "name"]
            = .ok TypeId.str
          ∧ ownedSchema.leads (typeNamed "default::Stray") ["owner", "name"]
            = .error .typeMismatch := by
      decide +kernel
    obtain ⟨hstray, hanimal, hsub, hq, hp, hapart, hleads, hfails⟩ := hrest
    exact ⟨Registry.builds_schemaOf hbuild, Schema.apart_of_nodup hnodup,
      Schema.proper_of_forall hproper, hstray, hanimal, hsub, _, _, hq, hp, hapart, rfl,
      rfl, hleads, hfails⟩
  · obtain ⟨-, hnodup, hproper, -, hsub, -, -, hfound, hthing, hnamed, -⟩ :=
      labelled_checks
    have hreg := Schema.isRegistered_of_isObject (Schema.isObject_of_ownPointer? hnamed)
    refine ⟨builds_labelled, Schema.apart_of_nodup hnodup,
      Schema.proper_of_forall hproper, hsub, _, _,
      Schema.findPointer_of_ownPointer? hreg hnamed, hfound.trans hthing,
      ⟨Schema.isSubtype_self _ _, by decide⟩, fun h => ?_⟩
    exact absurd h.2 (by decide)

end PathQuery
