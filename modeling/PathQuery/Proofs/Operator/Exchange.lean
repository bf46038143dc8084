/-
The order of the operands of a binary operator.

The operands are compiled one after the other, so what the second one
comes to might depend on the first. Its type does not. It is accepted and
counted as it is by itself, unless the two cross: unless one of them
makes a set for a path in the active node, and the other makes one for
the same path in a node below (`Session.Cross`). After the first operand
the second one finds that path above, and there it counts as one element.

So in a session where sets are used only where they are seen, operands
that do not cross may be written in either order
(`Session.Reachable.binary_swap`).
-/
import PathQuery.Proofs.Correspondence.Beside
import PathQuery.Proofs.Lead.Syntax
import PathQuery.Proofs.Operator.Operands

namespace PathQuery

open Ast (Expr)
open Ir

section

variable {κ : Type} [DecidableEq κ] [PathKey κ] [NameDigest]

-- =========================================================== the start

namespace Correspondence

variable {S : Lead κ} {st : Store κ}

/-- What a lead has in common with the store that it grew from. -/
def common (S : Lead κ) (st : Store κ) : Correspondence κ :=
  (itself st).grown st S.store

/-- Where a step begins that was begun in the lead as well. -/
theorem Ahead.start {R : Regime} (hr : S.env.Ready R st) (hbase : S.base = st.arena.size)
    (hgrows : st.Grows S.node S.store) : (common S st).Ahead S := by
  have hext := hgrows.toExtends hr.sound.rooted S.ready.sound.rooted
  have hindexed := Store.Indexed.of_sound hr.sound
  have hindexed' := Store.Indexed.of_sound S.ready.sound
  have hrefl := Store.Extends.refl hr.sound.rooted
  have hf := S.faithful.of_extends hgrows.arena
  have hkept : ∀ (n : Nat) (key : κ) y, st.scopes.binding? n key = some y →
      S.store.scopes.binding? n key = some y := by
    intro n key y hy
    by_cases hn : n = S.node
    · subst hn
      exact hgrows.scopes.binding_kept key y hy
    · exact (hgrows.scopes.binding_old n (ScopeTree.lt_size_of_binding? hy) hn key).trans hy
  exact
    { bare := (consistent_itself hr.sound).bare.grown hrefl.bare hext.bare hindexed.bare
        hindexed'.bare (fun _ _ _ _ => rfl) fun a b key _ => by
          show S.store.scopes.bare.binding? b key = st.scopes.bare.binding? b key
          rw [ScopeTree.binding?_bare, ScopeTree.binding?_bare]
      rooted := hr.sound.rooted
      indexed := hindexed
      indexed' := hindexed'
      node := ⟨rfl, hr.active⟩
      later := .refl S.ready.sound.rooted
      kept := fun _ _ _ => id
      unshadowed := S.ready.unshadowed
      base_le := Nat.le_of_eq hbase
      anchors := fun x y hxy _ _ => hxy.1
      bound := fun a b key x hab hx => by
        obtain ⟨rfl, -⟩ := hab
        obtain ⟨m, hm, -⟩ := hindexed.bound a key x hx
        exact ⟨x, key, ⟨rfl, Arena.lt_size_of_get? hm⟩, hkept a key x hx⟩
      bound' := fun a b key y hab hy => by
        obtain ⟨rfl, ha⟩ := hab
        obtain ⟨m, hm, hscope, hmkey⟩ := S.ready.sound.binding a key y hy
        by_cases hold : y < st.arena.size
        -- an old set has its path bound from the start, a new one is the lead's
        · obtain ⟨m', hm'⟩ := Arena.exists_get?_of_lt hold
          obtain rfl : m' = m := Option.some.inj ((hgrows.arena y m' hm').symm.trans hm)
          refine Or.inl ⟨y, key, ⟨rfl, hold⟩, ?_⟩
          rw [← hscope]
          exact hr.sound.bound hf y m' key hm' hmkey
        · refine Or.inr ⟨⟨?_, hy, hbase ▸ Nat.le_of_not_lt hold⟩, fun x hx => ?_⟩
          · by_contra hne
            have hy' := (hgrows.scopes.binding_old a ha hne key).symm.trans hy
            obtain ⟨m', hm', -⟩ := hr.sound.binding a key y hy'
            exact hold (Arena.lt_size_of_get? hm')
          · obtain ⟨rfl, hx⟩ := hx
            exact hold hx }

theorem Tied.start {R : Regime} (hr : S.env.Ready R st)
    (hgrows : st.Grows S.node S.store) : (common S st).Tied S S.env S.env where
  framed := by
    refine ⟨rfl, rfl, rfl, rfl, ⟨rfl, hr.active⟩, ?_⟩
    cases hx : S.env.frame.subject with
    | none => exact .none
    | some x =>
        obtain ⟨t, ht⟩ := hr.subject x hx
        exact .some ⟨rfl, ht.lt_size⟩
  schema := rfl
  place := Or.inl rfl
  subject := fun _ => rfl
  aligned := fun x y hx hy => by
    rw [hx] at hy
    cases hy
    obtain ⟨t, ht⟩ := hr.subject x hx
    obtain ⟨n, hn⟩ := ht.exists_get?
    exact ⟨n, n, hn, hgrows.arena x n hn, fun _ => rfl⟩

variable {C C' : Correspondence κ} {v w : Value}

/-- Values that echo are counted alike. -/
theorem Echoes.counted (h : C.Echoes v w) (hahead : C.Ahead S) :
    ∃ c, C.left.valueCount? S.node v = some c ∧ C.right.valueCount? S.node w = some c := by
  cases h with
  | set hxy => exact (hahead.agree hahead.node hxy).exists_judge?
  | pending hpq => exact ⟨_, rfl, congrArg some hpq.count.eq.symm⟩

end Correspondence

-- ============================================================== operands

omit [DecidableEq κ] [PathKey κ] in
/-- The type of a binary expression is a matter of both operands alike. -/
theorem Ast.Expr.type?_binary_comm (a b : Expr) (op : BinaryOp) (span span' : Span)
    (x : Lexicon) (subject : Option TypeId) :
    (Expr.binary a op b span).type? x subject
      = (Expr.binary b op a span').type? x subject := by
  unfold Expr.type?
  cases a.type? x subject with
  | none => cases b.type? x subject <;> rfl
  | some t =>
      cases b.type? x subject with
      | none => rfl
      | some u => exact congrArg some (Schema.binaryType_comm ..)

namespace CompileM

variable {R : Regime} {env : Env} {st sa sb : Store κ} {a b : Expr} {v w : Value}

/-- From a store, one step makes a set of the active node for a path for
which the other step makes a set of another node. -/
def Crosses {α β : Type} (m : CompileM κ α) (m' : CompileM κ β) (env : Env)
    (st : Store κ) : Prop :=
  Arena.Crosses st.arena.size env.frame.scope (m.run env st).2.arena (m'.run env st).2.arena

/-- The store that an operand leaves is a lead for the other operand. -/
def leadAfter (hr : env.Ready R st) (hlex : R.lexical)
    (h : (expr a).run env st = (.ok v, sa)) (hf : sa.arena.Faithful) : Lead κ :=
  ⟨R, env, sa, st.arena.size, hlex, ((Upholds.expr a env st).kept hr h).1, hf⟩

/-- An operand does the same after another operand as by itself. -/
theorem tracked_after (hr : env.Ready R st) (hlex : R.lexical)
    (ha : (expr a).run env st = (.ok v, sa)) (hf : sa.arena.Faithful)
    (hfb : ((expr b).run env st).2.arena.Faithful)
    (hfb' : ((expr b).run env sa).2.arena.Faithful)
    (hcross : ¬ Crosses (expr a) (expr b) env st) :
    (Correspondence.common (leadAfter hr hlex ha hf) st).Tracked (leadAfter hr hlex ha hf)
      (fun C => C.Echoes) ((expr b).run env st) ((expr b).run env sa) := by
  have hgrows := ((Composed.expr (κ := κ) a Growing.all_true).spreads env st).grows
  rw [ha] at hgrows
  unfold Crosses at hcross
  rw [ha] at hcross
  exact Tracks.expr (leadAfter hr hlex ha hf) b _ env env (.start hr rfl hgrows)
    (.start hr hgrows) ⟨hfb, hfb', hcross⟩

omit [PathKey κ] [NameDigest] [DecidableEq κ] in
theorem valueCount?_mono {scope : ScopeId} (h : sa.Extends sb)
    (hactive : scope < sa.scopes.size) {c : Cardinality}
    (hc : sa.valueCount? scope v = some c) : sb.valueCount? scope v = some c := by
  cases v with
  | set id => exact h.judge?_eq hactive hc
  | pending p => exact hc

/-- An operand compiles by itself and after another operand, and is counted
alike; or it does neither. -/
theorem run_after_cases (hr : env.Ready R st) (hlex : R.lexical)
    (ha : (expr a).run env st = (.ok v, sa)) (hf : sa.arena.Faithful)
    (hfb : ((expr b).run env st).2.arena.Faithful)
    (hfb' : ((expr b).run env sa).2.arena.Faithful)
    (hcross : ¬ Crosses (expr a) (expr b) env st) :
    (∃ w sb w' sab c, (expr b).run env st = (.ok w, sb)
      ∧ (expr b).run env sa = (.ok w', sab)
      ∧ sb.valueCount? env.frame.scope w = some c
      ∧ sab.valueCount? env.frame.scope w' = some c)
    ∨ ∃ e sb e' sab, (expr b).run env st = (.error e, sb)
      ∧ (expr b).run env sa = (.error e', sab) := by
  have hout := tracked_after hr hlex ha hf hfb hfb' hcross
  generalize (expr b).run env st = out at hout
  generalize (expr b).run env sa = out' at hout
  cases hout with
  | error => exact Or.inr ⟨_, _, _, _, rfl, rfl⟩
  | ok _ hahead hvw =>
      obtain ⟨c, hc, hd⟩ := hvw.counted hahead
      exact Or.inl ⟨_, _, _, _, c, rfl, rfl, hc, hd⟩

/-- What two operands that do not cross combine to, they combine to in the
other order. -/
theorem exists_run_swapped {op : BinaryOp} {span span' : Span} {x : Value} {st' : Store κ}
    (hr : env.Ready R st) (hlex : R.lexical)
    (hf : ((expr (.binary a op b span)).run env st).2.arena.Faithful)
    (hf' : ((expr (.binary b op a span')).run env st).2.arena.Faithful)
    (hcross : ¬ Crosses (expr a) (expr b) env st)
    (hcross' : ¬ Crosses (expr b) (expr a) env st)
    (h : (expr (.binary a op b span)).run env st = (.ok x, st')) :
    ∃ p q st'', x = .pending p
      ∧ (expr (.binary b op a span')).run env st = (.ok (.pending q), st'')
      ∧ p.type = q.type ∧ p.cardinality = q.cardinality := by
  unfold expr at h hf hf' ⊢
  obtain ⟨v, sa, ha, h⟩ := ok_of_bind h
  obtain ⟨w', sab, hb', h⟩ := ok_of_bind h
  -- the second operand by itself, and then the first one after it
  rw [run_bind_ok ha] at hf
  have hfb' := hf.of_extends (Growing.extends_of_bind (m := expr b) env sa)
  have hfa := hfb'.of_extends (Growing.grows (m := expr b) env sa)
  have hfb := hf'.of_extends (Growing.extends_of_bind (m := expr b) env st)
  rcases run_after_cases hr hlex ha hfa hfb hfb' hcross with
    ⟨w, sb, _, _, d, hb, hafter, hd, hd'⟩ | ⟨_, _, _, _, -, hfails⟩
  case inr => cases hb'.symm.trans hfails
  cases hb'.symm.trans hafter
  rw [run_bind_ok hb] at hf'
  rw [hb] at hfb
  have hfa' := hf'.of_extends (Growing.extends_of_bind (m := expr a) env sb)
  rcases run_after_cases hr hlex hb hfb (by rw [ha]; exact hfa) hfa' hcross' with
    ⟨_, _, v', sba, c, halone, ha', hc, hc'⟩ | ⟨_, _, _, _, hfails, -⟩
  case inr => cases ha.symm.trans hfails
  cases ha.symm.trans halone
  -- each operand has one type in both orders
  obtain ⟨t, ht, hv, hra, hexta⟩ := (Infers.expr a).offers hr ha
  obtain ⟨u, hu, hw, hrb, hextb⟩ := (Infers.expr b).offers hr hb
  obtain ⟨u', hu', hw', hrab, hextab⟩ := (Infers.expr b).offers hra hb'
  obtain ⟨t', ht', hv', hrba, hextba⟩ := (Infers.expr a).offers hrb ha'
  rw [hr.subjectType?_eq hexta rfl, hu] at hu'
  rw [hr.subjectType?_eq hextb rfl, ht] at ht'
  cases hu'
  cases ht'
  obtain ⟨p, q, st'', hx, hq, hsame⟩ := exists_run_binary_swapped hrab hrba
    (hv.mono hextab hra.active) hw' hv' (hw.mono hextba hrb.active)
    (valueCount?_mono hextab hra.active hc) hd' hc' (valueCount?_mono hextba hrb.active hd) h
  refine ⟨p, q, st'', hx, ?_, hsame⟩
  rw [run_bind_ok hb, run_bind_ok ha']
  exact hq

end CompileM

-- ============================================================== sessions

namespace Session

open CompileM

variable {lexical : Prop} {s : Session κ} {a b : Expr} {op : BinaryOp} {span span' : Span}

/-- Two expressions cross: each compiled by itself, one of them makes a
set of the active node for a path for which the other makes a set of
another node. -/
def Cross (s : Session κ) (a b : Expr) : Prop :=
  Crosses (expr a) (expr b) s.env s.store ∨ Crosses (expr b) (expr a) s.env s.store

/-- What two operands that do not cross combine to in a session, they
combine to in the other order. -/
theorem exists_step_swapped {R : Regime} (hr : s.env.Ready R s.store) (hlex : R.lexical)
    (hf : (s.step (expr (.binary a op b span))).2.store.arena.Faithful)
    (hf' : (s.step (expr (.binary b op a span'))).2.store.arena.Faithful)
    (hab : ¬ Crosses (expr a) (expr b) s.env s.store)
    (hba : ¬ Crosses (expr b) (expr a) s.env s.store) {v : Value} {s₁ : Session κ}
    (h : s.step (expr (.binary a op b span)) = (.ok v, s₁)) :
    ∃ p q s₂, v = .pending p
      ∧ s.step (expr (.binary b op a span')) = (.ok (.pending q), s₂)
      ∧ p.type = q.type ∧ p.cardinality = q.cardinality := by
  obtain ⟨p, q, st, hp, hrun, hsame⟩ :=
    exists_run_swapped hr hlex hf hf' hab hba (run_of_step h).1
  refine ⟨p, q, { s with store := st }, hp, ?_, hsame⟩
  unfold step
  rw [hrun]

/-- Operands that are accepted in both orders have one type in both.
Where sets are used only where they are seen, operands that do not cross
are accepted in both orders or in none, and are counted alike. -/
theorem Reachable.binary_swap (hs : Reachable lexical s) (a b : Expr) (op : BinaryOp)
    (span span' : Span) :
    (∀ v v' s₁ s₂, s.step (expr (.binary a op b span)) = (.ok v, s₁) →
      s.step (expr (.binary b op a span')) = (.ok v', s₂) →
        ∃ t, s₁.store.valueType? v = some t ∧ s₂.store.valueType? v' = some t)
    ∧ (lexical → (s.step (expr (.binary a op b span))).2.store.arena.Faithful →
      (s.step (expr (.binary b op a span'))).2.store.arena.Faithful → ¬ s.Cross a b →
        ((∃ v s₁, s.step (expr (.binary a op b span)) = (.ok v, s₁))
          ↔ ∃ v s₂, s.step (expr (.binary b op a span')) = (.ok v, s₂))
        ∧ ∀ v v' s₁ s₂, s.step (expr (.binary a op b span)) = (.ok v, s₁) →
          s.step (expr (.binary b op a span')) = (.ok v', s₂) →
            ∃ p q, v = .pending p ∧ v' = .pending q ∧ p.type = q.type
              ∧ p.cardinality = q.cardinality) := by
  have hready := hs.ready.active
  refine ⟨fun v v' s₁ s₂ h h' => ?_, fun hlex hf hf' hcross => ?_⟩
  · obtain ⟨t, ht, hv⟩ := type?_of_expr hready (run_of_step h).1
    obtain ⟨u, hu, hv'⟩ := type?_of_expr hready (run_of_step h').1
    rw [Expr.type?_binary_comm a b op span span', hu] at ht
    cases ht
    exact ⟨t, hv, hv'⟩
  · obtain ⟨hab, hba⟩ := not_or.1 hcross
    refine ⟨⟨fun h => ?_, fun h => ?_⟩, fun v v' s₁ s₂ h h' => ?_⟩
    · obtain ⟨v, s₁, h⟩ := h
      obtain ⟨_, q, s₂, -, h', -⟩ := exists_step_swapped hready hlex hf hf' hab hba h
      exact ⟨_, s₂, h'⟩
    · obtain ⟨v, s₂, h⟩ := h
      obtain ⟨_, q, s₁, -, h', -⟩ := exists_step_swapped hready hlex hf' hf hba hab h
      exact ⟨_, s₁, h'⟩
    · obtain ⟨p, q, s₃, hp, h'', hsame⟩ :=
        exists_step_swapped hready hlex hf hf' hab hba h
      rw [h'] at h''
      cases h''
      exact ⟨p, q, hp, rfl, hsame⟩

/-- The cardinality of the value that a step gives. -/
def countOf? (s : Session κ) (m : CompileM κ Value) : Option Cardinality :=
  (s.step m).1.toOption.bind ((s.step m).2.store.valueCount? s.frame.scope)

end Session

-- ============================================================= crossing

omit [DecidableEq κ] [PathKey κ] [NameDigest] in
/-- Whether two arenas cross, set by set. -/
theorem Ir.Arena.crosses_iff {base : Nat} {scope : ScopeId} {a a' : Arena κ} :
    a.Crosses base scope a' ↔ ∃ x < a.size, ∃ y < a'.size, base ≤ x ∧ base ≤ y
      ∧ (a.get? x).any (fun n => n.key.isSome && n.scope == scope) = true
      ∧ (a'.get? y).any (fun m => m.key.isSome && m.scope != scope) = true
      ∧ a.canonical x = a'.canonical y := by
  have hkey : ∀ {n : SetNode κ}, n.key ≠ none ↔ n.key.isSome = true :=
    Option.isSome_iff_ne_none.symm
  simp only [Option.any_eq_true, Bool.and_eq_true, beq_iff_eq, bne_iff_ne]
  constructor
  · intro h
    obtain ⟨x, y, n, m, hx, hy, hn, hm, hnk, hmk, hns, hms, heq⟩ := h
    exact ⟨x, lt_size_of_get? hn, y, lt_size_of_get? hm, hx, hy,
      ⟨n, hn, hkey.1 hnk, hns⟩, ⟨m, hm, hkey.1 hmk, hms⟩, heq⟩
  · intro h
    obtain ⟨x, -, y, -, hx, hy, ⟨n, hn, hnk, hns⟩, ⟨m, hm, hmk, hms⟩, heq⟩ := h
    exact ⟨x, y, n, m, hx, hy, hn, hm, hkey.2 hnk, hkey.2 hmk, hns, hms, heq⟩

omit [DecidableEq κ] [PathKey κ] [NameDigest] in
instance {base : Nat} {scope : ScopeId} {a a' : Arena κ} :
    Decidable (a.Crosses base scope a') :=
  decidable_of_iff _ Arena.crosses_iff.symm

instance {s : Session κ} {a b : Expr} : Decidable (s.Cross a b) :=
  inferInstanceAs (Decidable (Arena.Crosses _ _ _ _ ∨ Arena.Crosses _ _ _ _))

end

-- ============================================================= examples

open scoped Xxh64

/-- The names of all people. -/
def everyName : Expr := Ast.Build.run do
  return .path (← Ast.Build.path "default::Person" ["name"])

/-- The names of the friends of all people. -/
def everyFriendName : Expr := Ast.Build.run do
  return .path (← Ast.Build.path "default::Person" ["friends", "name"])

theorem binary_swap_names : ∃ p q s s',
    beforeFriends.step (CompileM.expr (.binary everyName .eq everyFriendName .unknown))
        = (.ok (.pending p), s)
      ∧ beforeFriends.step (CompileM.expr (.binary everyFriendName .eq everyName .unknown))
        = (.ok (.pending q), s')
      ∧ p.type = q.type ∧ p.cardinality = q.cardinality := by
  obtain ⟨-, hswap⟩ := Session.Reachable.binary_swap (reachable_beforeFriends True) everyName
    everyFriendName .eq .unknown .unknown
  obtain ⟨hiff, hsame⟩ := hswap trivial (Arena.faithful_of_forall_lt (by decide +kernel))
    (Arena.faithful_of_forall_lt (by decide +kernel)) (by decide +kernel)
  obtain ⟨v, s, h⟩ := Session.exists_step_of_isOk
    (show (beforeFriends.step (CompileM.expr
      (.binary everyName .eq everyFriendName .unknown))).1.isOk = true by decide +kernel)
  obtain ⟨v', s', h'⟩ := hiff.1 ⟨v, s, h⟩
  obtain ⟨p, q, rfl, rfl, htype, hcount⟩ := hsame v v' s s' h h'
  exact ⟨p, q, s, s', h, h', htype, hcount⟩

/-- Whether a person has some name. -/
def someName : Expr := Ast.Build.run do
  let name ← Ast.Build.path "default::Person" ["name"]
  let some ← Ast.Build.constant (.str "x")
  Ast.Build.binary (.path name) .eq some

/-- Whether there is a number, in the order of the name of a person. -/
def numberByName : Expr := Ast.Build.run do
  let number ← Ast.Build.select (← Ast.Build.constant (.int 1))
  let name ← Ast.Build.path "default::Person" ["name"]
  let byName ← Ast.Build.sortKey (.path name) .ascending none
  Ast.Build.unary .exists (.select { number with orderBy := [byName] })

/-- A session in a node below the one where all people were met, with
people as the subject that were met in another node. -/
def outOfSight : Session PathId :=
  let people := CompileM.path (Ast.Build.run (Ast.Build.path "default::Person" []))
  let s := ((beforeFriends.enterScope.step people).2.leave.step people).2
  s.enterScope.setSubject (some 0)

theorem reachable_outOfSight : Session.Reachable False outOfSight := by
  refine ⟨Registry.builtin.schemaOf people, {}, ?_⟩
  unfold outOfSight
  refine ((((Relation.ReflTransGen.single .enterScope).tail (.path _)).tail .leave).tail
    (.path _)).tail .enterScope |>.tail (.setSubject ?_)
  obtain ⟨node, hn⟩ := Option.isSome_iff_exists.1
    (show (outOfSight.store.arena.get? 0).isSome = true by decide +kernel)
  exact ⟨node, hn, False.elim⟩

/-- The names of the subject. -/
def ownNames : Expr := Ast.Build.run do
  return .path (← Ast.Build.partialPath ["name"])

/-- Operands that cross may be accepted in one order alone. Where sets are
used out of sight, operands that do not cross may be counted differently
in the two orders. -/
theorem binary_order_matters :
    (Session.Reachable True beforeFriends
      ∧ (beforeFriends.step (CompileM.expr
          (.binary someName .and numberByName .unknown))).2.store.arena.Faithful
      ∧ (beforeFriends.step (CompileM.expr
          (.binary numberByName .and someName .unknown))).2.store.arena.Faithful
      ∧ (beforeFriends.step (CompileM.expr
          (.binary someName .and numberByName .unknown))).1.isOk = true
      ∧ (beforeFriends.step (CompileM.expr
          (.binary numberByName .and someName .unknown))).1.isOk = false)
    ∧ Session.Reachable False outOfSight
      ∧ (outOfSight.step (CompileM.expr
          (.binary ownNames .eq everyName .unknown))).2.store.arena.Faithful
      ∧ (outOfSight.step (CompileM.expr
          (.binary everyName .eq ownNames .unknown))).2.store.arena.Faithful
      ∧ ¬ outOfSight.Cross ownNames everyName
      ∧ outOfSight.countOf? (CompileM.expr (.binary ownNames .eq everyName .unknown))
        = some .many
      ∧ outOfSight.countOf? (CompileM.expr (.binary everyName .eq ownNames .unknown))
        = some .one := by
  refine ⟨⟨reachable_beforeFriends True, Arena.faithful_of_forall_lt ?_,
    Arena.faithful_of_forall_lt ?_, ?_, ?_⟩, reachable_outOfSight,
    Arena.faithful_of_forall_lt ?_, Arena.faithful_of_forall_lt ?_, ?_, ?_, ?_⟩
  all_goals decide +kernel

end PathQuery
