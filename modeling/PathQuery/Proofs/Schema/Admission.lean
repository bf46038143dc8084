/-
What it takes for a declaration to be accepted, and what comes of it.

Declaring goes through lookups and checks, any of which may refuse. Here
they are taken apart once (`declare_admits`): an accepted declaration is
admitted in one of four ways (`Admits`), each with what was looked up,
what was checked and the registry that is left. Whatever is said of
accepted declarations elsewhere is read off these four.
-/
import PathQuery.Proofs.Schema.Hierarchy
import PathQuery.Schema.Builtin

namespace PathQuery

/-- Where a sequence succeeds, both of its parts do. -/
theorem ok_of_bind_eq_ok {ε α β : Type} {x : Except ε α} {f : α → Except ε β}
    {b : β} (h : x.bind f = .ok b) : ∃ a, x = .ok a ∧ f a = .ok b := by
  cases x with
  | error e => cases h
  | ok a => exact ⟨a, rfl, h⟩

-- ======================================================== declarations

namespace Declaration

variable [NameDigest]

/-- The identity of the type that a name as written stands for. -/
def typeNamed (name : String) : TypeId := TypeId.ofQualified (.parse name)

/-- A pointer as the type that declares it holds it. -/
def pointerEntry (p : PointerDecl) : String × Pointer :=
  (p.name, ⟨typeNamed p.target, p.flags⟩)

end Declaration

-- ============================================================== adding

namespace Schema

theorem addModule_untouched (s : Schema) (module : String) :
    (s.addModule module).types = s.types
    ∧ (s.addModule module).names = s.names := by
  unfold Schema.addModule
  split <;> exact ⟨rfl, rfl⟩

end Schema

namespace Registry

open Declaration (typeNamed pointerEntry)

theorem addType_ok [NameDigest] {s s' : Schema} {name : QualifiedName}
    {body : TypeBody} (h : s.addType name body = .ok s') :
    s.names.get? name = none
      ∧ s'.names = s.names.insert name (TypeId.ofQualified name)
      ∧ s'.types = s.types.insert (TypeId.ofQualified name) ⟨name, body⟩ := by
  unfold Schema.addType at h
  obtain ⟨named, hnamed, heq⟩ := ok_of_bind_eq_ok h
  cases heq
  unfold Schema.reserveName at hnamed
  split at hnamed
  · cases hnamed
  · next hfree =>
      cases hnamed
      refine ⟨Table.get?_of_contains_false (eq_false_of_ne_true hfree), ?_, ?_⟩
      · cases name.module with
        | none => rfl
        | some module => exact (Schema.addModule_untouched _ module).2
      · cases name.module with
        | none => rfl
        | some module =>
            show (Schema.addModule _ module).types.insert _ _ = _
            rw [(Schema.addModule_untouched _ module).1]

-- ============================================================ resolving

theorem qualify_ok {name : String} {q : QualifiedName}
    (h : qualify name = .ok q) :
    q = .parse name ∧ (QualifiedName.parse name).isQualified = true := by
  unfold qualify at h
  dsimp only at h
  split at h
  · next hq => exact ⟨(Except.ok.inj h).symm, hq⟩
  · cases h

variable [NameDigest] {r r' : Registry}

/-- The pointers of an object type are held as declared, and each makes a
reference. -/
theorem resolvePointers_eq {owner : String} {decls : List PointerDecl}
    {pointers table : Table String Pointer} {references refs : List Reference}
    (h : resolvePointers owner decls pointers references = .ok (table, refs)) :
    table.entries = pointers.entries ++ decls.map pointerEntry
      ∧ refs.map Reference.id
        = references.map Reference.id ++ decls.map fun d => typeNamed d.target := by
  induction decls generalizing pointers references with
  | nil =>
      cases h
      simp
  | cons d decls ih =>
      unfold resolvePointers at h
      obtain ⟨target, htarget, h⟩ := ok_of_bind_eq_ok h
      obtain ⟨rfl, -⟩ := qualify_ok htarget
      dsimp only at h
      split at h
      · cases h
      · next hnew =>
          obtain ⟨hentries, hrefs⟩ := ih h
          rw [hentries, hrefs, Table.entries_insert (by simpa using hnew)]
          simp [pointerEntry, typeNamed]

/-- The bases of an object type each make a reference. -/
theorem resolveBases_eq {owner : String} {bases : List String}
    {refs : List Reference} (h : resolveBases owner bases = .ok refs) :
    refs.map Reference.id = bases.map typeNamed := by
  unfold resolveBases at h
  induction bases generalizing refs with
  | nil =>
      cases h
      rfl
  | cons base bases ih =>
      rw [List.mapM_cons] at h
      obtain ⟨ref, href, h⟩ := ok_of_bind_eq_ok h
      obtain ⟨q, hq, href⟩ := ok_of_bind_eq_ok href
      obtain ⟨rest, hrest, h⟩ := ok_of_bind_eq_ok h
      obtain ⟨rfl, -⟩ := qualify_ok hq
      cases href
      cases h
      rw [List.map_cons, ih hrest]
      rfl

-- ============================================================ admitting

/-- The ways in which a declaration is accepted, with the registry that it
leaves and the identity that it tells. -/
inductive Admits (r : Registry) :
    Declaration → Registry → Option TypeId → Prop where
  | module (name : String) :
      Admits r (.module name) { r with schema := r.schema.addModule name } none
  | scalar {name base : String} {id : TypeId} {entry : TypeEntry}
      {kind : ScalarKind} {schema : Schema}
      (qualified : (QualifiedName.parse name).isQualified = true)
      (extended : r.schema.typeByName? (.parse base) = some (id, entry))
      (family : entry.scalarKind? = some kind)
      (added : r.schema.addType (.parse name) (.scalar kind (some id))
        = .ok schema) :
      Admits r (.scalar name base) { r with schema } (some (typeNamed name))
  | object {name : String} {bases : List String} {pointers : List PointerDecl}
      {toTargets toBases : List Reference} {schema : Schema}
      (qualified : (QualifiedName.parse name).isQualified = true)
      (targets : toTargets.map Reference.id
        = pointers.map fun p => typeNamed p.target)
      (extended : toBases.map Reference.id = bases.map typeNamed)
      (added : r.schema.addType (.parse name)
        (.object (r.schema.effectiveBases (typeNamed name) (bases.map typeNamed))
          ⟨pointers.map pointerEntry⟩) = .ok schema) :
      Admits r (.object name bases pointers)
        ⟨schema, r.references ++ toTargets ++ toBases⟩ (some (typeNamed name))
  | function {name : QualifiedName} {signature : Signature} {module : String}
      (qualified : name.module = some module)
      (free : r.schema.functions.get? name = none) :
      Admits r (.function name signature)
        { r with schema := { r.schema.addModule module with
          functions := (r.schema.addModule module).functions.insert name
            signature } } none

/-- Accepted declarations are admitted. -/
theorem declare_admits {d : Declaration} {id : Option TypeId}
    (h : r.declare d = .ok (r', id)) : Admits r d r' id := by
  unfold declare at h
  cases d with
  | module name =>
      cases h
      exact .module name
  | scalar name base =>
      obtain ⟨⟨r₁, i⟩, hd, heq⟩ := ok_of_bind_eq_ok h
      cases heq
      unfold declareScalar at hd
      obtain ⟨q, hname, hd⟩ := ok_of_bind_eq_ok hd
      obtain ⟨qbase, hbaseName, hd⟩ := ok_of_bind_eq_ok hd
      obtain ⟨rfl, hqualified⟩ := qualify_ok hname
      obtain ⟨rfl, -⟩ := qualify_ok hbaseName
      split at hd
      · cases hd
      · next baseId entry hbase =>
          split at hd
          · cases hd
          · next kind hkind =>
              obtain ⟨schema, hadd, heq⟩ := ok_of_bind_eq_ok hd
              cases heq
              exact .scalar hqualified hbase hkind hadd
  | object name bases pointers =>
      obtain ⟨⟨r₁, i⟩, hd, heq⟩ := ok_of_bind_eq_ok h
      cases heq
      unfold declareObject at hd
      obtain ⟨q, hname, hd⟩ := ok_of_bind_eq_ok hd
      obtain ⟨⟨⟨entries⟩, toTargets⟩, hpointers, hd⟩ := ok_of_bind_eq_ok hd
      obtain ⟨toBases, hbases, hd⟩ := ok_of_bind_eq_ok hd
      obtain ⟨schema, hadd, heq⟩ := ok_of_bind_eq_ok hd
      obtain ⟨rfl, hqualified⟩ := qualify_ok hname
      obtain ⟨hentries, htargets⟩ := resolvePointers_eq hpointers
      have hextended := resolveBases_eq hbases
      rw [hextended, show entries = _ from hentries] at hadd
      cases heq
      exact .object hqualified htargets hextended hadd
  | function name signature =>
      obtain ⟨r₁, hd, heq⟩ := ok_of_bind_eq_ok h
      cases heq
      unfold declareFunction at hd
      split at hd
      · cases hd
      · next module hmodule =>
          dsimp only at hd
          split at hd
          · cases hd
          · next hfree =>
              cases hd
              exact .function hmodule
                (Table.get?_of_contains_false (eq_false_of_ne_true hfree))

/-- Of declarations that were all accepted, the first one and the rest. -/
theorem declareAll_cons_ok {d : Declaration} {ds : List Declaration}
    (h : r.declareAll (d :: ds) = .ok r') :
    ∃ r₁ id, r.declare d = .ok (r₁, id) ∧ r₁.declareAll ds = .ok r' := by
  unfold declareAll at h
  rw [List.foldlM_cons] at h
  obtain ⟨_, hfirst, hrest⟩ := ok_of_bind_eq_ok h
  obtain ⟨⟨r₁, id⟩, hd, heq⟩ := ok_of_bind_eq_ok hfirst
  cases heq
  exact ⟨r₁, id, hd, hrest⟩

end Registry

end PathQuery
