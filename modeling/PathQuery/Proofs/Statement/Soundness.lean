/-
What is known of a compiled statement.

A statement is compiled from the empty store, which is sound, so
everything that compiling upholds is known of its sets. In a schema that
suits typing, each set has a type of the schema and is well typed
(`compile_wellTyped`); in any schema, each set and the statement itself
have the cardinality that the rules of multiplicity give
(`compile_counted`). A set is judged from its own node there, so the
second is about the store, of which a compiled statement keeps the
arena.
-/
import PathQuery.Ast.Builder
import PathQuery.Compile.Statement
import PathQuery.Proofs.Compile.Syntax
import PathQuery.Proofs.Schema.Build

namespace PathQuery

open Ir

variable {κ : Type}

section

-- =============================================================== rules

/-- A set is well typed, given the types of the sets it refers to. -/
inductive WellTyped [NameDigest] (s : Schema) (a : Arena κ) (node : SetNode κ) :
    Prop where
  | root (ho : node.origin = .root) (hobj : s.isObject node.type = true)
  | step {source : Nat} {name : String} {per : Cardinality} {t : TypeId}
      {p : Pointer}
      (ho : node.origin = .step source name per)
      (hsource : a.type? source = some t) (hobj : s.isObject t = true)
      (hp : s.findPointer t name = some p) (htype : node.type = p.target)
      (hper : per = p.cardinality)
  | computed {op : Operation} (ho : node.origin = .computed op)
      (ht : HasType s a op node.type)

/-- The cardinality that the rules of multiplicity give a set, judged
from its own node. -/
def Store.multiplicity? (s : Schema) (st : Store κ) (node : SetNode κ) :
    Option Cardinality :=
  match node.origin with
  | .root => some .many
  | .step source _ per => (st.judge? node.scope source).map (·.mul per)
  | .computed op => st.counted? s node.scope op

variable [PathKey κ] [NameDigest]

/-- A sound set is counted by the rules, unless it may have no type. -/
theorem Store.SetSound.multiplicity?_eq {R : Regime} {s : Schema} {st : Store κ}
    {node : SetNode κ} (h : st.SetSound R s node) (hempty : ¬ R.known .empty) :
    st.multiplicity? s node = some node.cardinality := by
  unfold multiplicity?
  cases h with
  | root ho hkey hcard =>
      rw [ho, hcard]
  | step ho hsrc hseen hobj hp hper htype hkey hcard =>
      rw [ho]
      exact hcard
  | computed ho hkey hfits =>
      rw [ho]
      rcases hfits.counted with hc | ⟨-, hknown⟩
      · exact hc
      · exact absurd hknown hempty

/-- A sound set is well typed, where operations obey the typing rules. -/
theorem Store.SetSound.wellTyped {R : Regime} {s : Schema} {st : Store κ}
    {node : SetNode κ} (h : st.SetSound R s node) (ht : R.typed) :
    WellTyped s st.arena node := by
  cases h with
  | root ho hkey hcard hobj => exact .root ho (hobj ht)
  | step ho hsrc hseen hobj hp hper htype hkey hcard =>
      have hsource := Arena.type?_eq_some_iff.2 ⟨_, hsrc, rfl⟩
      exact .step ho hsource hobj hp htype hper
  | computed ho hkey hfits => exact .computed ho (hfits.typed ht)

variable [DecidableEq κ]

-- ========================================================== statements

namespace CompileM.Upholds

variable {R : Regime} {env : Env} {st : Store κ} {span : Span}

/-- Modules that are checked change nothing. -/
theorem checkModules {modules : List String} :
    Upholds R env st
      (modules.forM fun module => CompileM.checkModule module span)
      fun st' _ => st' = st := by
  induction modules with
  | nil => exact pure rfl
  | cons module modules ih =>
      refine bind (f := fun _ => modules.forM _) checkModule ?_
      intro _ st' _ h
      obtain rfl := h
      exact ih

/-- The implicit limit leaves a statement as it is, or limits it by a set
of the node that it is compiled in. -/
theorem limitImplicitly {P : Store κ → Statement → Prop} {stmt : Statement}
    {limit : Int} (ha : st.Arranged R env.schema env.frame.scope stmt)
    (hwritten : st.Sound R env.schema → P st stmt)
    (hlimited : ∀ st' id node, st'.Sound R env.schema →
      st'.Arranged R env.schema env.frame.scope stmt → stmt.limit = none →
      st'.arena.get? id = some node → node.scope = env.frame.scope →
      P st' { stmt with
        limit := some id
        cardinality := if st'.isUnitLimit id then stmt.cardinality.capped.optional
          else stmt.cardinality }) :
    Upholds R env st (CompileM.limitImplicitly stmt limit) P := by
  refine intro fun hready => ?_
  unfold CompileM.limitImplicitly
  cases hl : stmt.limit with
  | some id => exact pure (hwritten hready.sound)
  | none =>
      refine bind (newComputed ⟨hready.suits.literal (.int limit), Or.inl rfl,
        trivial, fun _ => .constant (.int limit)⟩) ?_
      intro id st₁ hext hid
      refine intro fun hready₁ => read (run_limited hid) (pure ?_)
      exact hlimited st₁ id _ hready₁.sound (ha.mono hext) hl hid rfl

/-- A whole statement has what every statement has that is arranged in
the node it is compiled in, if a set of that node may limit it. -/
theorem statement_of {P : Store κ → Statement → Prop} {o : CompileOptions}
    {q : Ast.Select}
    (harranged : ∀ st stmt, st.Sound R env.schema →
      st.Arranged R env.schema env.frame.scope stmt → P st stmt)
    (hlimited : ∀ st stmt id node, st.Sound R env.schema →
      st.Arranged R env.schema env.frame.scope stmt → stmt.limit = none →
      st.arena.get? id = some node → node.scope = env.frame.scope →
      P st { stmt with
        limit := some id
        cardinality := if st.isUnitLimit id then stmt.cardinality.capped.optional
          else stmt.cardinality }) :
    Upholds R env st (CompileM.statement o q) P := by
  unfold CompileM.statement CompileM.checkOptions
  refine bind checkModules ?_
  intro _ st' _ h
  obtain rfl := h
  refine bind (select q env _) ?_
  intro stmt st₁ _ ha
  cases o.implicitLimit with
  | none => exact intro fun hready => pure (harranged st₁ stmt hready.sound ha)
  | some limit =>
      exact limitImplicitly ha (harranged st₁ stmt · ha) fun st' id node =>
        hlimited st' stmt id node

/-- A whole statement has the cardinality that the rules give it. -/
theorem statement {o : CompileOptions} {q : Ast.Select} :
    Upholds R env st (CompileM.statement o q) fun st' s =>
      st'.statementCount? s = some s.cardinality := by
  refine statement_of (fun _ _ _ ha => ha.count) ?_
  intro st' stmt id node _ ha hl hn _
  have hcount := ha.count
  unfold Store.statementCount? at hcount ⊢
  rw [hl] at hcount
  obtain ⟨c, hc, heq⟩ := Option.map_eq_some_iff.1 hcount
  rw [hc, ← heq]
  rfl

end CompileM.Upholds

-- ========================================================= compilation

/-- What is compiled is what the steps of compilation leave. -/
theorem exists_run_of_compileWith {s : Schema} {o : CompileOptions}
    {q : Ast.Select} {c : Compiled κ} (h : compileWith κ s o q = .ok c) :
    ∃ scopes : ScopeTree κ,
      (CompileM.statement o q).run ⟨s, o.frame⟩ (Store.new (κ := κ))
        = (.ok c.statement, ⟨c.arena, scopes⟩) := by
  unfold compileWith at h
  revert h
  generalize (CompileM.statement o q).run ⟨s, o.frame⟩ (Store.new (κ := κ))
    = out
  intro h
  obtain ⟨_ | stmt, store⟩ := out
  · cases h
  · cases h
    exact ⟨store.scopes, rfl⟩

/-- What is compiled obeys the rules of a regime. -/
theorem exists_sound_of_compileWith {R : Regime} {s : Schema} (hR : R.Suits s)
    {o : CompileOptions} {q : Ast.Select} {c : Compiled κ}
    (h : compileWith κ s o q = .ok c) :
    ∃ scopes : ScopeTree κ,
      (CompileM.statement o q).run ⟨s, o.frame⟩ (Store.new (κ := κ))
        = (.ok c.statement, ⟨c.arena, scopes⟩)
      ∧ Store.Sound R s ⟨c.arena, scopes⟩
      ∧ Store.statementCount? ⟨c.arena, scopes⟩ c.statement
        = some c.statement.cardinality := by
  obtain ⟨scopes, hrun⟩ := exists_run_of_compileWith h
  have hout := CompileM.Upholds.statement (o := o) (q := q)
    (Env.ready_new (κ := κ) ⟨s, o.frame⟩ hR rfl rfl)
  rw [hrun] at hout
  exact ⟨scopes, hrun, hout.ready.sound, hout.value _ rfl⟩

/-- Every set that is compiled is well typed and of a type of the schema,
if the schema has `std` and its types have identities of their own. -/
theorem compile_wellTyped {s : Schema} (hs : Registry.builtin.Builds s)
    (ha : s.Apart) (hp : s.Proper) (hr : s.ReturnsRegistered)
    {o : CompileOptions} {q : Ast.Select} {c : Compiled κ}
    (h : compileWith κ s o q = .ok c) :
    ∀ id node, c.set? id = some node →
      node.type ≠ .empty ∧ s.isRegistered node.type = true
        ∧ WellTyped s c.arena node := by
  intro id node hn
  obtain ⟨scopes, -, hsound, -⟩ :=
    exists_sound_of_compileWith (Regime.typing_suits hs ha hp hr) h
  obtain ⟨hreg, hne⟩ := hsound.known id node hn
  exact ⟨hne, hreg, (hsound.sets id node hn).wellTyped trivial⟩

end

-- ============================================================= programs

open scoped Xxh64

/-- One person who has friends, with the names of both. -/
def oneWithFriends : Ast.Select := Ast.Build.run do
  let name ← Ast.Build.pointer "name" []
  let names ← Ast.Build.pointer "name" []
  let friends ← Ast.Build.pointer "friends" [names]
  let q ← Ast.Build.select (.path (← Ast.Build.path "default::Person" []))
  let some ← Ast.Build.unary .exists
    (.path (← Ast.Build.partialPath ["friends"]))
  let one ← Ast.Build.constant (.int 1)
  return { q with shape := [name, friends], filter := some, limit := one }

theorem compile_wellTyped_people : ∃ c,
    compile (Registry.builtin.schemaOf people) {} oneWithFriends = .ok c
      ∧ ∀ id node, c.set? id = some node →
        node.type ≠ .empty
          ∧ (Registry.builtin.schemaOf people).isRegistered node.type = true
          ∧ WellTyped (Registry.builtin.schemaOf people) c.arena node := by
  obtain ⟨c, hc⟩ := exists_ok_of_isOk
    (x := compile (Registry.builtin.schemaOf people) {} oneWithFriends)
    (by decide +kernel)
  refine ⟨c, hc, ?_⟩
  exact compile_wellTyped (Registry.builds_schemaOf (by decide +kernel))
    (Schema.apart_of_nodup (by decide +kernel))
    (Schema.proper_of_forall (by decide +kernel))
    (Schema.returnsRegistered_of_check (by decide +kernel)) hc

/-- Every set that is compiled has the cardinality that the rules of
multiplicity give it, and so has the statement. -/
theorem compile_counted [DecidableEq κ] [PathKey κ] {s : Schema}
    (hs : Registry.empty.Builds s ∨ Registry.builtin.Builds s) (hp : s.Proper)
    (hr : s.ReturnsProper) {o : CompileOptions} {q : Ast.Select}
    {c : Compiled κ} (h : compileWith κ s o q = .ok c) :
    ∃ scopes : ScopeTree κ,
      (CompileM.statement o q).run ⟨s, o.frame⟩ (Store.new (κ := κ))
        = (.ok c.statement, ⟨c.arena, scopes⟩)
      ∧ (∀ id node, c.set? id = some node →
          Store.multiplicity? s ⟨c.arena, scopes⟩ node = some node.cardinality)
      ∧ Store.statementCount? ⟨c.arena, scopes⟩ c.statement
        = some c.cardinality := by
  have hliteral : ∀ l : Literal, l.type ≠ .empty := by
    intro l
    cases l with
    | int n =>
        show TypeId.int ≠ .empty
        decide +kernel
    | float x =>
        show TypeId.float ≠ .empty
        decide +kernel
    | str s =>
        show TypeId.str ≠ .empty
        decide +kernel
    | bool b =>
        show TypeId.bool ≠ .empty
        decide +kernel
  have hsuits : Regime.counting.Suits s := by
    rcases hs with hs | hs
    · exact Regime.counting_suits hs .refl hliteral hp hr
    · exact Regime.counting_suits hs Registry.builtin_reached.1 hliteral hp hr
  obtain ⟨scopes, hrun, hsound, hcount⟩ := exists_sound_of_compileWith hsuits h
  refine ⟨scopes, hrun, fun id node hn => ?_, hcount⟩
  exact (hsound.sets id node hn).multiplicity?_eq fun hempty => hempty rfl

theorem compile_counted_people : ∃ c,
    compile (Registry.builtin.schemaOf people) {} oneWithFriends = .ok c
      ∧ ∃ scopes : ScopeTree PathId,
        (CompileM.statement {} oneWithFriends).run
            ⟨Registry.builtin.schemaOf people, CompileOptions.frame {}⟩ .new
          = (.ok c.statement, ⟨c.arena, scopes⟩)
        ∧ (∀ id node, c.set? id = some node →
            Store.multiplicity? (Registry.builtin.schemaOf people)
              ⟨c.arena, scopes⟩ node = some node.cardinality)
        ∧ Store.statementCount? ⟨c.arena, scopes⟩ c.statement
          = some c.cardinality := by
  have hs : Registry.builtin.Builds (Registry.builtin.schemaOf people) :=
    Registry.builds_schemaOf (by decide +kernel)
  have hp : (Registry.builtin.schemaOf people).Proper :=
    Schema.proper_of_forall (by decide +kernel)
  have hr : (Registry.builtin.schemaOf people).ReturnsRegistered :=
    Schema.returnsRegistered_of_check (by decide +kernel)
  obtain ⟨c, hc⟩ := exists_ok_of_isOk
    (x := compile (Registry.builtin.schemaOf people) {} oneWithFriends)
    (by decide +kernel)
  refine ⟨c, hc, ?_⟩
  exact compile_counted (Or.inr hs) hp
    (fun f sig t hf ht =>
      hs.ne_empty Registry.builtin_reached.1 hp (hr f sig t hf ht)) hc

end PathQuery
