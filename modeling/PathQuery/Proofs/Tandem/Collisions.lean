/-
What collisions of keys come to.

A query is compiled with keys that may collide, and with keys that never
do. As long as no two paths of the first compilation have one key,
nothing tells the two apart but the keys.

If two paths collide then one of them is no longer shared, and each use
of it is a set of its own. So an outer node does not make it single for
an inner one, and what is counted from there may be too much: a clause
that takes one value may be refused though there is only one. That is
all that can happen. A query that compiles compiles to the same
statement, in which no part counts less; a query that fails fails for
the same cause, or because it counted too much (`compile_of_distinct`).
-/
import PathQuery.Proofs.Statement.Soundness
import PathQuery.Proofs.Tandem.Syntax

namespace PathQuery

open Ir
open Ast (Select)

section

variable {κ κ' : Type} [DecidableEq κ] [PathKey κ] [DecidableEq κ'] [PathKey κ']
  [NameDigest]

-- ========================================================== statements

namespace CompileM.Follows

variable {T : Tandem κ κ'} {env : Env} {subject : Option SetId} {span : Span}
  {o : CompileOptions} {q : Select}

omit [DecidableEq κ'] [PathKey κ'] [NameDigest] in
/-- Modules that are checked change nothing on either side. -/
theorem checkModules {modules : List String} :
    Follows T env subject
      (modules.forM fun module => CompileM.checkModule module span)
      (modules.forM fun module => CompileM.checkModule module span)
      fun T' _ _ => T' = T := by
  induction modules with
  | nil => exact pure rfl
  | cons module modules ih =>
      show Follows T env subject
        (CompileM.checkModule module span >>= fun _ => modules.forM _)
        (CompileM.checkModule module span >>= fun _ => modules.forM _) _
      refine bind checkModule ?_
      intro T' _ _ _ h
      subst h
      exact ih

omit [DecidableEq κ'] [PathKey κ'] in
/-- The implicit limit does the same on both sides. -/
theorem limitImplicitly {stmt stmt' : Statement} {limit : Int}
    (hroot : env.frame.scope = ScopeTree.root)
    (hs : env.frame.scope < T.left.scopes.size)
    (h : T.StatementsAgree stmt stmt') :
    Follows T env subject (CompileM.limitImplicitly stmt limit)
      (CompileM.limitImplicitly stmt' limit) fun T' => T'.StatementsAgree := by
  have hsome := isSome_of_optionRel h.refines.limit
  unfold CompileM.limitImplicitly
  rw [← hsome]
  by_cases hlimit : stmt.limit.isSome = true
  · rw [if_pos hlimit, if_pos hlimit]
    exact pure h
  rw [if_neg hlimit, if_neg hlimit]
  refine bind (newComputed_agree hs (le_refl _) rfl
    fun _ => ⟨rfl, rfl, h.refines.span.symm⟩) ?_
  intro T₁ x y h₁ hxy
  have hrefines := h.refines.mono h₁.left h₁.right h.active h.active'
  have hexact : T₁.left.arena.Faithful → stmt = stmt' :=
    fun hf => h.exact (hf.of_extends h₁.left.arena)
  refine bind (limited hxy h.refines.count fun hf => by rw [hexact hf]) ?_
  intro T₂ c d h₂ hcount
  have h₀₂ := h₁.trans h₂
  have hlater := h.refines.mono h₀₂.left h₀₂.right h.active h.active'
  have hxy := hxy.mono h₂
  rw [hroot] at hxy
  refine pure ⟨Nat.lt_of_lt_of_le h.active h₀₂.left.size_le,
    Nat.lt_of_lt_of_le h.active' h₀₂.right.size_le,
    { hlater with count := hcount.1, limit := .some (Or.inr hxy.refines) },
    fun hf => ?_⟩
  rw [hexact (hf.of_extends h₂.left.arena), hcount.2 hf, hxy.exact hf]

/-- A whole statement agrees with itself. -/
theorem statement (hκ : Distinct κ') (hroot : env.frame.scope = ScopeTree.root)
    (hr : T.Ready env subject) :
    Follows T env subject (CompileM.statement o q) (CompileM.statement o q)
      fun T' => T'.StatementsAgree := by
  unfold CompileM.statement CompileM.checkOptions
  refine bind checkModules ?_
  intro T' _ _ _ h
  subst h
  refine bind (select hκ q _ env subject hr) ?_
  intro T₁ stmt stmt' h₁ hstmt
  cases o.implicitLimit with
  | none => exact pure hstmt
  | some limit =>
      exact limitImplicitly hroot (hr.active h₁) hstmt

end CompileM.Follows

-- ======================================================== compilations

variable {s : Schema} {o : CompileOptions} {q : Select}

/-- A whole compilation, with all that it leaves in the store. -/
def compileRun (κ : Type) [DecidableEq κ] [PathKey κ] (s : Schema)
    (o : CompileOptions) (q : Select) :
    Except CompileError Statement × Store κ :=
  (CompileM.statement o q).run ⟨s, o.frame⟩ (Store.new (κ := κ))

omit [DecidableEq κ'] [PathKey κ'] in
/-- What is compiled is the statement and the sets of the store. -/
theorem compileWith_eq : compileWith κ s o q
    = (compileRun κ s o q).1.map (⟨(compileRun κ s o q).2.arena, ·⟩) := by
  unfold compileWith
  rw [← compileRun]
  rcases compileRun κ s o q with ⟨e | stmt, st⟩
  · rfl
  · rfl

/-- A query is compiled with keys of two kinds, of which the second tell
all paths apart. If those of the first tell the paths of the compilation
apart, then both give the same statement and the same sets, or the same
error. In any case, what compiles on the first side compiles on the
second, to a statement of which no part counts more; and what fails on
the first side fails on the second for the same cause, unless it counted
too much. -/
theorem compile_of_distinct (hκ : Distinct κ') (s : Schema)
    (o : CompileOptions) (q : Select) :
    ((compileRun κ s o q).2.arena.Faithful →
        (∀ c, compileWith κ s o q = .ok c →
          ∃ c', compileWith κ' s o q = .ok c' ∧ c'.statement = c.statement
            ∧ c.arena.SameSets c'.arena)
          ∧ ∀ e, compileWith κ s o q = .error e →
            compileWith κ' s o q = .error e)
      ∧ (∀ c, compileWith κ s o q = .ok c →
          ∃ c', compileWith κ' s o q = .ok c'
            ∧ (compileRun κ s o q).2.StatementRefines (compileRun κ' s o q).2
              c.statement c'.statement)
      ∧ ∀ e, compileWith κ s o q = .error e →
          e.kind = .cardinalityViolation
            ∨ ∃ e', compileWith κ' s o q = .error e' ∧ e'.cause = e.cause := by
  let T : Tandem κ κ' := ⟨.new, .new, fun _ _ => False⟩
  have hready : T.Ready ⟨s, o.frame⟩ none :=
    ⟨Env.ready_new _ (Regime.tracking_suits True s) rfl rfl,
      Env.ready_new _ (Regime.tracking_suits True s) rfl rfl, .none⟩
  have hout : T.Outcomes (compileRun κ s o q) (compileRun κ' s o q)
      fun T' => T'.StatementsAgree :=
    CompileM.Follows.statement hκ rfl hready Tandem.mirrored_new
  rw [compileWith_eq, compileWith_eq]
  revert hout
  rcases compileRun κ s o q with ⟨e | stmt, st⟩
  · rcases compileRun κ' s o q with ⟨out', st'⟩
    intro hout
    obtain ⟨hcause, hexact⟩ := hout.fault e rfl
    refine ⟨fun hf => ⟨fun c hc => (by cases hc), fun x hx => ?_⟩,
      fun c hc => (by cases hc), fun x hx => ?_⟩
    · cases hx
      rw [show out' = .error e from hexact hf]
      rfl
    · cases hx
      refine hcause.imp_right fun hother => ?_
      obtain ⟨e', he', hsame⟩ := hother
      rw [show out' = .error e' from he']
      exact ⟨e', rfl, hsame⟩
  · rcases compileRun κ' s o q with ⟨out', st'⟩
    intro hout
    obtain ⟨stmt', mates, hok, -, hmirrored, hagree⟩ := hout.value stmt rfl
    rw [show out' = .ok stmt' from hok]
    refine ⟨fun hf => ⟨fun c hc => ?_, fun x hx => (by cases hx)⟩,
      fun c hc => ?_, fun x hx => (by cases hx)⟩
    · cases hc
      exact ⟨⟨st'.arena, stmt'⟩, rfl, (hagree.exact hf).symm,
        (hmirrored.exact hf).1⟩
    · cases hc
      exact ⟨⟨st'.arena, stmt'⟩, rfl, hagree.refines⟩

end

-- ============================================================ examples

/-- Paths are keys that tell all paths apart. -/
theorem distinct_canonicalPath : Distinct CanonicalPath := by
  intro p p' h
  rw [CanonicalPath.key_self, CanonicalPath.key_self] at h
  exact h

open scoped Xxh64

theorem compile_of_distinct_people : Distinct CanonicalPath ∧ ∃ c c',
    compile (Registry.builtin.schemaOf people) {} oneWithFriends = .ok c
      ∧ (compileRun PathId (Registry.builtin.schemaOf people) {}
          oneWithFriends).2.arena.Faithful
      ∧ compileWith CanonicalPath (Registry.builtin.schemaOf people) {}
          oneWithFriends = .ok c'
      ∧ c'.statement = c.statement ∧ c.arena.SameSets c'.arena := by
  have hall := compile_of_distinct (κ := PathId) distinct_canonicalPath
    (Registry.builtin.schemaOf people) {} oneWithFriends
  obtain ⟨c, hc⟩ := exists_ok_of_isOk
    (x := compile (Registry.builtin.schemaOf people) {} oneWithFriends)
    (by decide +kernel)
  have hf : (compileRun PathId (Registry.builtin.schemaOf people) {}
      oneWithFriends).2.arena.Faithful :=
    Arena.faithful_of_forall_lt (by decide +kernel)
  obtain ⟨c', hc', hsame⟩ := (hall.1 hf).1 c hc
  exact ⟨distinct_canonicalPath, c, c', hc, hf, hc', hsame⟩

/-- Two objects with pointers for which the paths have one
fingerprint. -/
def lookalikes : List Declaration :=
  [.object "test::User" [] [.property "w28269" "std::str" { multi := true }],
   .object "test::Other" [] [.property "Jj8CR3hC" "std::str" { multi := true }]]

/-- Both paths together, sorted by the second, which is one value for
each element. -/
def sortedLookalikes : Select := Ast.Build.run do
  let user ← Ast.Build.path "test::User" ["w28269"]
  let other ← Ast.Build.path "test::Other" ["Jj8CR3hC"]
  let both ← Ast.Build.set [.path user, .path other]
  let q ← Ast.Build.select both
  let again ← Ast.Build.path "test::Other" ["Jj8CR3hC"]
  let key ← Ast.Build.sortKey (.path again) .ascending none
  return { q with orderBy := [key] }

/-- A query may fail because two fingerprints collide. -/
theorem collision_refused :
    (∃ e, compile (Registry.builtin.schemaOf lookalikes) {} sortedLookalikes
        = .error e ∧ e.kind = .cardinalityViolation)
      ∧ Distinct CanonicalPath
      ∧ ∃ c, compileWith CanonicalPath (Registry.builtin.schemaOf lookalikes) {}
          sortedLookalikes = .ok c := by
  refine ⟨?_, distinct_canonicalPath, exists_ok_of_isOk (by decide +kernel)⟩
  have hrun : (compile (Registry.builtin.schemaOf lookalikes) {}
      sortedLookalikes).map (fun _ => ())
      = .error (.notSingleton (some .orderBy) ⟨1, 11, 1⟩) := by
    decide +kernel
  generalize compile (Registry.builtin.schemaOf lookalikes) {} sortedLookalikes
    = out at hrun ⊢
  cases out with
  | ok c => cases hrun
  | error e =>
      cases hrun
      exact ⟨_, rfl, rfl⟩

end PathQuery
