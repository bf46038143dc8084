/-
What a build checks of what a schema refers to.

Types are looked after: whatever an object type extends or points to is
there, and so is the scalar that a scalar extends
(`Registry.Declared.resolves`). The built-in functions mention built-in
types only. Functions that were declared are held as they came, and
nothing is asked of the types they mention or of the argument whose type
they return (`Registry.build_checks_types`).

What comes of it is seen when such a function is called, and nowhere
else. Every set of a compiled statement has a type of the schema, or one
that a declared function returns; and compiling breaks a rule of its own
only where a declared function returns the type of an argument that it
does not have.
-/
import PathQuery.Proofs.Schema.Description
import PathQuery.Proofs.Statement.Closed

namespace PathQuery

open Ir

-- =========================================================== functions

/-- The type that a parameter is declared with. -/
def ParamType.mentions : ParamType → List TypeId
  | .concrete type => [type]
  | .numeric | .any => []

/-- The type that a function is declared to return. -/
def ReturnType.mentions : ReturnType → List TypeId
  | .concrete type => [type]
  | .sameAs _ => []

/-- The types that a function is declared with. -/
def Signature.mentions (sig : Signature) : List TypeId :=
  sig.params.flatMap (fun p => p.type.mentions) ++ sig.returns.mentions

/-- A function mentions types of the schema and arguments of its own. -/
structure Schema.Supports (s : Schema) (sig : Signature) : Prop where
  types : ∀ t ∈ sig.mentions, s.isRegistered t = true
  argument : ∀ n, sig.returns = .sameAs n → n < sig.params.length

namespace Registry

variable [NameDigest] {r : Registry} {s : Schema} {ds : List Declaration}

-- =============================================================== types

/-- The scalars that scalars extend are there, whatever types gave
way. -/
theorem Declared.isRegistered_base (h : Declared r) :
    ∀ id entry kind b, r.schema.type? id = some entry →
      entry.body = .scalar kind (some b) → r.schema.isRegistered b = true := by
  unfold Declared at h
  induction h with
  | refl => exact fun id entry kind b hid => by cases hid
  | @tail r₁ r₂ _ hstep ih =>
      intro id entry kind b hid hbody
      refine Declares.isRegistered hstep ?_
      rcases hstep with ⟨htypes, -, -⟩ | ⟨name, body, hadded⟩
      · rw [type?_eq_of_types htypes] at hid
        exact ih id entry kind b hid hbody
      · rw [hadded.type?_eq] at hid
        split at hid
        · cases hid
          have hbacked := hadded.backed
          rw [show body = .scalar kind (some b) from hbody] at hbacked
          exact Schema.isRegistered_of_scalarKind? (hbacked b rfl)
        · exact ih id entry kind b hid hbody

/-- Whatever types refer to in a schema that was built is there. -/
theorem Declared.resolves (h : Declared r) (hbuild : r.build = .ok s) :
    s.Resolves := by
  obtain ⟨rfl, hchecked⟩ := checked_of_build hbuild
  exact hchecked.resolves (Reaches.filed h filed_empty) h.isRegistered_base

/-- The types of `std` are there, whatever types gave way. -/
theorem Reaches.isRegistered_builtin (h : Reaches builtin r)
    {e : String × TypeBody} (he : e ∈ builtinBodies) :
    r.schema.isRegistered (TypeId.ofQualified (.within builtinModule e.1))
      = true := by
  have hname := (hasBuiltin_builtin.names (.within builtinModule e.1) _).2
    ⟨rfl, e, he, rfl⟩
  exact h.isRegistered (Declared.leads builtin_reached.1 _ _ hname).2

theorem Reaches.isRegistered_scalar (h : Reaches builtin r)
    {e : String × ScalarKind} (he : e ∈ builtinScalars) :
    r.schema.isRegistered (TypeId.ofQualified (.within builtinModule e.1))
      = true :=
  h.isRegistered_builtin (e := (e.1, .scalar e.2 none))
    (List.mem_append_left _ (List.mem_map.2 ⟨e, he, rfl⟩))

theorem Reaches.isRegistered_literal (h : Reaches builtin r) (l : Literal) :
    r.schema.isRegistered l.type = true := by
  cases l with
  | bool b => exact h.isRegistered_scalar (e := ("bool", .bool)) (by decide)
  | int n => exact h.isRegistered_scalar (e := ("int", .int)) (by decide)
  | float x => exact h.isRegistered_scalar (e := ("float", .float)) (by decide)
  | str x => exact h.isRegistered_scalar (e := ("str", .str)) (by decide)

-- =========================================================== functions

/-- The built-in functions mention built-in types and arguments of their
own. -/
theorem Reaches.supports_builtin (h : Reaches builtin r)
    {e : String × Signature} (he : e ∈ builtinFunctions) :
    r.schema.Supports e.2 := by
  have hint : r.schema.isRegistered TypeId.int = true :=
    h.isRegistered_scalar (e := ("int", .int)) (by decide)
  have hstr : r.schema.isRegistered TypeId.str = true :=
    h.isRegistered_scalar (e := ("str", .str)) (by decide)
  unfold builtinFunctions at he
  simp only [List.mem_cons, List.not_mem_nil, or_false] at he
  rcases he with rfl | rfl | rfl | rfl | rfl | rfl | rfl <;>
    constructor <;>
    simp [Signature.mentions, ParamType.mentions, ReturnType.mentions,
      aggregate, elementWise, hint, hstr]

/-- A function is built in or was declared. -/
theorem function?_iff (h : builtin.declareAll ds = .ok r) {f : QualifiedName}
    {sig : Signature} : r.schema.function? f = some sig
      ↔ (∃ e ∈ builtinFunctions, f = .within builtinModule e.1 ∧ sig = e.2)
        ∨ .function f sig ∈ ds := by
  rw [(adds_of_declareAll h).functions, hasBuiltin_builtin.functions]

theorem supports_or_declared (h : builtin.declareAll ds = .ok r)
    {f : QualifiedName} {sig : Signature}
    (hf : r.schema.function? f = some sig) :
    r.schema.Supports sig ∨ .function f sig ∈ ds := by
  refine ((function?_iff h).1 hf).imp_left fun hbuiltin => ?_
  obtain ⟨e, he, -, rfl⟩ := hbuiltin
  exact (declareAll_reaches h).supports_builtin he

end Registry

-- ========================================================= compilation

section

/-- A type of a schema, or one that a declared function returns. -/
def Schema.Returned (s : Schema) (ds : List Declaration) (t : TypeId) : Prop :=
  s.isRegistered t = true
    ∨ ∃ f sig, .function f sig ∈ ds ∧ sig.returns = .concrete t

/-- A schema suits compiling to such types. -/
theorem Regime.returned_suits [NameDigest] {r : Registry} {s : Schema}
    {ds : List Declaration} (h : Registry.builtin.declareAll ds = .ok r)
    (hbuild : r.build = .ok s) :
    Regime.Suits ⟨s.Returned ds, False, False⟩ s := by
  have hbuilds : Registry.builtin.Builds s := ⟨ds, r, h, hbuild⟩
  obtain ⟨rfl, -⟩ := Registry.checked_of_build hbuild
  refine ⟨fun l => Or.inl ?_, fun t ht => Or.inl ht,
    fun t name p hp => Or.inl (hbuilds.target Registry.builtin_reached.1 hp),
    fun f sig t hf hreturns => ?_, fun h => h.elim, fun h => h.elim⟩
  · exact (Registry.declareAll_reaches h).isRegistered_literal l
  · refine (Registry.supports_or_declared h hf).imp (fun hs => ?_)
      fun hd => ⟨f, sig, hd, hreturns⟩
    refine hs.types t (List.mem_append_right _ ?_)
    rw [hreturns]
    exact List.mem_cons_self

variable {κ : Type} [DecidableEq κ] [PathKey κ] [NameDigest]

/-- A build checks what types refer to, and of functions nothing: only
those that were declared may mention what is not there, and only they
make statements fail, or have sets of a type, that the schema knows
nothing of. -/
theorem Registry.build_checks_types {ds : List Declaration} {r : Registry}
    {s : Schema} (h : builtin.declareAll ds = .ok r)
    (hbuild : r.build = .ok s) :
    s.Resolves
      ∧ (∀ f sig, s.function? f = some sig →
          s.Supports sig ∨ .function f sig ∈ ds)
      ∧ ∀ o q,
        (∀ e, compileWith κ s o q = .error e → e.kind = .internal →
          ∃ f sig n, .function f sig ∈ ds ∧ sig.returns = .sameAs n
            ∧ sig.params.length ≤ n)
        ∧ ∀ c, compileWith κ s o q = .ok c →
          ∀ id node, c.set? id = some node → s.Returned ds node.type := by
  have hsuits := Regime.returned_suits h hbuild
  obtain ⟨rfl, -⟩ := checked_of_build hbuild
  refine ⟨Declared.resolves (builtin_reached.1.trans (declareAll_reaches h))
    hbuild, fun f sig hf => supports_or_declared h hf, fun o q => ?_⟩
  have hout := CompileM.Upholds.statement (o := o) (q := q)
    (Env.ready_new (κ := κ) ⟨r.schema, o.frame⟩ hsuits rfl rfl)
  unfold compileWith
  revert hout
  generalize (CompileM.statement o q).run ⟨r.schema, o.frame⟩
    (Store.new (κ := κ)) = out
  intro hout
  obtain ⟨e | stmt, st⟩ := out
  · refine ⟨fun e' he hkind => ?_, fun c hc => by cases hc⟩
    cases he
    -- some function lacks the argument whose type it returns
    have hmissing := hout.fault e rfl hkind
    unfold Schema.ReturnsArguments at hmissing
    push Not at hmissing
    obtain ⟨f, sig, n, hf, hreturns, hn⟩ := hmissing
    rcases supports_or_declared h hf with hs | hd
    · exact absurd (hs.argument n hreturns) (Nat.not_lt.2 hn)
    · exact ⟨f, sig, n, hd, hreturns, hn⟩
  · refine ⟨fun e he => (by cases he), fun c hc => ?_⟩
    cases hc
    exact hout.ready.sound.known

end

-- ============================================================ examples

open scoped Xxh64

/-- A call without arguments. -/
def callOf (function : String) : Ast.Select := Ast.Build.run do
  Ast.Build.select (← Ast.Build.call function [])

/-- A function that returns people. -/
def withEveryone : List Declaration :=
  people ++ [.function (.within "default" "everyone")
    ⟨[], .concrete (TypeId.ofName "default::Person"), .many⟩]

theorem build_checks_types_everyone : ∃ r s c,
    Registry.builtin.declareAll withEveryone = .ok r ∧ r.build = .ok s
      ∧ s.Resolves ∧ compile s {} (callOf "default::everyone") = .ok c
      ∧ ∀ id node, c.set? id = some node → s.Returned withEveryone node.type := by
  obtain ⟨r, hr, hchecks⟩ := exists_ok_of_map
    (x := Registry.builtin.declareAll withEveryone)
    (f := fun r => (r.build.isOk,
      (compile r.schema {} (callOf "default::everyone")).isOk))
    (b := (true, true)) (by decide +kernel)
  obtain ⟨hbuild, hcompile⟩ := Prod.mk.inj hchecks
  obtain ⟨s, hs⟩ := exists_ok_of_isOk hbuild
  obtain ⟨c, hc⟩ := exists_ok_of_isOk hcompile
  have hall := Registry.build_checks_types (κ := PathId) hr hs
  obtain ⟨rfl, -⟩ := Registry.checked_of_build hs
  exact ⟨r, r.schema, c, hr, hs, hall.1, hc,
    (hall.2.2 {} (callOf "default::everyone")).2 c hc⟩

/-- A function that returns a type that is nowhere declared, and one that
returns the type of an argument that it does not have. -/
def strays : List Declaration :=
  [.function (.within "default" "stray")
    ⟨[], .concrete (TypeId.ofName "default::Missing"), .one⟩,
   .function (.within "default" "echo") ⟨[], .sameAs 0, .one⟩]

/-- A build accepts both, and calls find out. -/
theorem strays_built : ∃ r s c node e,
    Registry.builtin.declareAll strays = .ok r ∧ r.build = .ok s
      ∧ compile s {} (callOf "default::stray") = .ok c ∧ c.set? 0 = some node
      ∧ s.isRegistered node.type = false
      ∧ compile s {} (callOf "default::echo") = .error e
      ∧ e.kind = .internal := by
  obtain ⟨r, hr, hchecks⟩ := exists_ok_of_map
    (x := Registry.builtin.declareAll strays)
    (f := fun r => (r.build.isOk,
      (compile r.schema {} (callOf "default::stray")).map fun c =>
        (c.set? 0).map fun node => r.schema.isRegistered node.type,
      (compile r.schema {} (callOf "default::echo")).map fun _ => ()))
    (b := (true, .ok (some false), .error (.internal (.missingArgument
      "default::echo" 0)))) (by decide +kernel)
  obtain ⟨hbuild, hrest⟩ := Prod.mk.inj hchecks
  obtain ⟨hstray, hecho⟩ := Prod.mk.inj hrest
  obtain ⟨s, hs⟩ := exists_ok_of_isOk hbuild
  obtain ⟨rfl, -⟩ := Registry.checked_of_build hs
  obtain ⟨c, hc, hnode⟩ := exists_ok_of_map hstray
  obtain ⟨node, hn, hreg⟩ := Option.map_eq_some_iff.1 hnode
  refine ⟨r, r.schema, c, node,
    .internal (.missingArgument "default::echo" 0), hr, hs, hc, hn, hreg, ?_,
    rfl⟩
  cases hcompile : compile r.schema {} (callOf "default::echo") with
  | error e =>
      rw [hcompile] at hecho
      cases hecho
      rfl
  | ok c' =>
      rw [hcompile] at hecho
      cases hecho

end PathQuery
