/-
What spans are for.

A span tells where something was written, and should tell nothing else.
Two queries that differ in their spans at most are accepted alike: both
compile, or both fail for one cause. And they compile to statements whose
parts have the same types and the same upper bounds, as seen from the
nodes where they were compiled; where no limit is the subject they have
the same cardinalities (`compile_of_alike`).

A limit that is the subject, and nothing else, is where a span counts.
If the limit has the span of the result then it is the result, and a
constant that limits itself is seen to be a constant; with another span
it refers to the result, and a reference is not seen to be one. So of
two queries that differ in a span, one may be at most one element and
the other exactly one (`cardinality_of_span`).
-/
import PathQuery.Proofs.Correspondence.Syntax
import PathQuery.Proofs.Tandem.Collisions

namespace PathQuery

open Ast (Likeness Select)
open Ir

/-- Errors of one cause are of one kind. -/
theorem CompileError.kind_eq_of_cause {e e' : CompileError}
    (h : e.cause = e'.cause) : e.kind = e'.kind := by
  have hkind : ∀ e : CompileError, e.cause.kind = e.kind := fun e => by
    cases e <;> rfl
  rw [← hkind e, h, hkind]

section

variable {κ : Type}

namespace Store

-- ============================================================= tallies

/-- Seen from a node each, two sets have one type and are counted
alike. -/
def Tallies (μ : Likeness) (st st' : Store κ) (v w : ScopeId) (x y : SetId) :
    Prop :=
  (∃ t, st.arena.type? x = some t ∧ st'.arena.type? y = some t)
    ∧ ∃ c d, st.judge? v x = some c ∧ st'.judge? w y = some d ∧ μ.Tally c d

/-- The same, seen from any nodes right below, of which there are some. -/
structure TalliesBelow (μ : Likeness) (st st' : Store κ) (scope scope' : ScopeId)
    (x y : SetId) : Prop where
  left : ∃ v, st.scopes.parent? v = some scope
  right : ∃ w, st'.scopes.parent? w = some scope'
  tallies : ∀ v w, st.scopes.parent? v = some scope →
    st'.scopes.parent? w = some scope' → st.Tallies μ st' v w x y

variable [DecidableEq κ] [PathKey κ] [NameDigest]

/-- Two shapes have the same elements, and their sets tally, each seen
from the node of its element. -/
inductive ShapeTallies (μ : Likeness) (s : Schema) (st st' : Store κ) :
    ScopeId → ScopeId → List ShapeNode → List ShapeNode → Prop where
  | nil {scope scope' : ScopeId} : ShapeTallies μ s st st' scope scope' [] []
  | cons {scope scope' v w : ScopeId} {x y : SetId} {name : String}
      {computed : Bool} {elements elements' rest rest' : List ShapeNode}
      (hleft : st.Element s scope v (.mk name x computed elements))
      (hright : st'.Element s scope' w (.mk name y computed elements'))
      (hset : st.Tallies μ st' v w x y)
      (helements : ShapeTallies μ s st st' v w elements elements')
      (hrest : ShapeTallies μ s st st' scope scope' rest rest') :
      ShapeTallies μ s st st' scope scope' (.mk name x computed elements :: rest)
        (.mk name y computed elements' :: rest')

/-- Two statements have the same parts, and the parts tally: the result
seen from the node of the statement, an element of a shape from its own
node, and any other part from the nodes right below the statement's. A
limit may be one of the options; that is seen from the root. -/
structure StatementTallies (μ : Likeness) (s : Schema) (st st' : Store κ)
    (stmt stmt' : Statement) : Prop where
  count : μ.Tally stmt.cardinality stmt'.cardinality
  result : st.Tallies μ st' stmt.scope stmt'.scope stmt.result stmt'.result
  shape : st.ShapeTallies μ s st' stmt.scope stmt'.scope stmt.shape stmt'.shape
  filter : Option.Rel (st.TalliesBelow μ st' stmt.scope stmt'.scope) stmt.filter
    stmt'.filter
  groupBy : List.Forall₂ (st.TalliesBelow μ st' stmt.scope stmt'.scope)
    stmt.groupBy stmt'.groupBy
  orderBy : List.Forall₂ (fun k k' =>
    st.TalliesBelow μ st' stmt.scope stmt'.scope k.key k'.key
      ∧ k.direction = k'.direction ∧ k.empties = k'.empties)
    stmt.orderBy stmt'.orderBy
  offset : Option.Rel (st.TalliesBelow μ st' stmt.scope stmt'.scope) stmt.offset
    stmt'.offset
  limit : Option.Rel (fun x y => st.TalliesBelow μ st' stmt.scope stmt'.scope x y
    ∨ st.Tallies μ st' ScopeTree.root ScopeTree.root x y) stmt.limit stmt'.limit

end Store

variable [DecidableEq κ] [PathKey κ]

theorem Store.indexed_new : (Store.new : Store κ).Indexed where
  key_eq := fun id node hn => by cases hn
  bound := fun n key id hb => by
    change (ScopeTree.new : ScopeTree κ).binding? n key = some id at hb
    rw [ScopeTree.binding?_new] at hb
    cases hb

namespace Correspondence

variable {C : Correspondence κ} {μ : Likeness} {s : Schema}
  {scope scope' : ScopeId}

omit [DecidableEq κ] [PathKey κ] in
theorem Agree.tallies {v w : ScopeId} {x y : SetId} (h : C.Agree μ v w x y) :
    C.left.Tallies μ C.right v w x y :=
  ⟨h.type, h.count⟩

theorem Consistent.talliesBelow (h : C.Consistent μ) {x y : SetId}
    (hxy : C.AgreeBelow μ scope scope' x y) :
    C.left.TalliesBelow μ C.right scope scope' x y := by
  obtain ⟨v, w, hv, hw, -⟩ := id hxy
  exact ⟨⟨v, hv⟩, ⟨w, hw⟩, fun _ _ hv hw => (h.agree_of_below hxy hv hw).tallies⟩

variable [NameDigest]

theorem Consistent.shapeTallies (h : C.Consistent μ)
    {nodes nodes' : List ShapeNode}
    (hn : C.ShapesMatch s scope scope' nodes nodes') :
    C.left.ShapeTallies μ s C.right scope scope' nodes nodes' := by
  induction hn with
  | nil => exact .nil
  | cons hleft hright hnodes hset _ _ ihe ihr =>
      exact .cons hleft hright (h.agree hset hnodes).tallies ihe ihr

/-- Statements that match tally, part by part. -/
theorem Consistent.statementTallies (h : C.Consistent μ) {stmt stmt' : Statement}
    (hs : C.StatementsMatch μ s stmt stmt') :
    C.left.StatementTallies μ s C.right stmt stmt' where
  count := hs.count
  result := (h.agree hs.result hs.scope).tallies
  shape := h.shapeTallies hs.shape
  filter := optionRel_imp (fun _ _ => h.talliesBelow) hs.filter
  groupBy := hs.groupBy.imp fun _ _ => h.talliesBelow
  orderBy := hs.orderBy.imp fun _ _ hk =>
    ⟨h.talliesBelow hk.key, hk.direction, hk.empties⟩
  offset := optionRel_imp (fun _ _ => h.talliesBelow) hs.offset
  limit := optionRel_imp (fun _ _ hxy => hxy.imp h.talliesBelow Agree.tallies)
    hs.limit

/-- Two empty stores, and their root nodes. -/
def start (κ : Type) : Correspondence κ :=
  ⟨.new, .new, fun _ _ => False, fun a b => a = ScopeTree.root ∧ b = ScopeTree.root⟩

omit [NameDigest] in
theorem consistent_start : (start κ).Consistent μ where
  rooted := ScopeTree.rooted_new
  rooted' := ScopeTree.rooted_new
  indexed := Store.indexed_new
  indexed' := Store.indexed_new
  active := fun a b hab => by
    obtain ⟨rfl, rfl⟩ := hab
    exact ⟨Nat.one_pos, Nat.one_pos⟩
  nodes_unique :=
    ⟨fun _ _ _ h h' => h.1.trans h'.1.symm, fun _ _ _ h h' => h.2.trans h'.2.symm⟩
  parents := fun a b hab => by
    obtain ⟨rfl, rfl⟩ := hab
    exact .none
  sets_unique := ⟨fun _ _ _ h => h.elim, fun _ _ _ h => h.elim⟩
  matched := fun _ _ h => h.elim
  bound := fun a b key x _ hx => by
    change (ScopeTree.new : ScopeTree κ).binding? a key = some x at hx
    rw [ScopeTree.binding?_new] at hx
    cases hx
  bound' := fun a b key y _ hy => by
    change (ScopeTree.new : ScopeTree κ).binding? b key = some y at hy
    rw [ScopeTree.binding?_new] at hy
    cases hy

end Correspondence

-- ========================================================== statements

namespace CompileM.Growing

instance (modules : List String) (span : Span) : Growing
    (modules.forM fun module => checkModule module span : CompileM κ Unit) := by
  induction modules with
  | nil => exact inferInstanceAs (Growing (pure ()))
  | cons module modules ih =>
      exact of_bind (m := checkModule module span) inferInstance fun _ => ih

variable [NameDigest]

instance (c : Cardinality) (limit : SetId) :
    Growing (limited c limit : CompileM κ _) :=
  of_composed .limited

instance (q : Select) : Growing (select q : CompileM κ _) :=
  of_composed (.select q all_true)

instance (stmt : Statement) (limit : Int) :
    Growing (limitImplicitly stmt limit : CompileM κ _) :=
  of_composed .limitImplicitly

end CompileM.Growing

namespace CompileM.Corresponds

variable [NameDigest] {C : Correspondence κ} {μ : Likeness} {env env' : Env}
  {o : CompileOptions} {span span' : Span}

omit [NameDigest] in
/-- Modules that are checked change nothing on either side. -/
theorem checkModules {modules : List String} :
    Corresponds μ C env env'
      (modules.forM fun module => CompileM.checkModule module span)
      (modules.forM fun module => CompileM.checkModule module span')
      fun C' _ _ => C' = C := by
  induction modules with
  | nil => exact pure rfl
  | cons module modules ih =>
      show Corresponds μ C env env'
        (CompileM.checkModule module span >>= fun _ => modules.forM _)
        (CompileM.checkModule module span' >>= fun _ => modules.forM _) _
      refine bind checkModule fun C' _ _ _ h => ?_
      subst h
      exact ih

/-- The implicit limit does the same on both sides. -/
theorem limitImplicitly {stmt stmt' : Statement} {limit : Int}
    (hroot : env.frame.scope = ScopeTree.root)
    (hroot' : env'.frame.scope = ScopeTree.root)
    (h : C.StatementsMatch μ env.schema stmt stmt') :
    Corresponds μ C env env' (CompileM.limitImplicitly stmt limit)
      (CompileM.limitImplicitly stmt' limit) fun C' =>
        C'.StatementsMatch μ env.schema := by
  unfold CompileM.limitImplicitly
  rw [← isSome_of_optionRel h.limit]
  by_cases hlimit : stmt.limit.isSome = true
  · rw [if_pos hlimit, if_pos hlimit]
    exact pure h
  rw [if_neg hlimit, if_neg hlimit]
  refine bind (newComputed (.refl _ _) rfl h.span (fun _ _ => rfl)
    fun _ => .constant _) fun C₁ x y h₁ hxy => ?_
  refine intro fun hc hframe => ?_
  have hagree := hc.agree hxy hframe.scope
  rw [hroot, hroot'] at hagree
  refine bind (limited ⟨_, _, hagree⟩ h.count (Or.inl (hc.sameConstant hxy)))
    fun C₂ c d h₂ hcount => pure ?_
  exact { h.mono (h₁.trans h₂) with
    count := hcount
    limit := .some (Or.inr (hagree.mono h₂)) }

/-- Whole statements that are alike match. -/
theorem statement {q q' : Select} (hq : q.Alike μ q')
    (hroot : env.frame.scope = ScopeTree.root)
    (hroot' : env'.frame.scope = ScopeTree.root) :
    Corresponds μ C env env' (CompileM.statement o q) (CompileM.statement o q')
      fun C' => C'.StatementsMatch μ env.schema := by
  unfold CompileM.statement CompileM.checkOptions
  cases o.implicitLimit with
  | none =>
      refine bind checkModules fun C' _ _ _ h => ?_
      subst h
      exact bind (select q q' hq _ env env') fun _ _ _ _ hstmt => pure hstmt
  | some limit =>
      refine bind checkModules fun C' _ _ _ h => ?_
      subst h
      exact bind (select q q' hq _ env env') fun _ _ _ _ hstmt =>
        limitImplicitly hroot hroot' hstmt

end CompileM.Corresponds

-- ======================================================== compilations

variable [NameDigest]

/-- Two queries that differ in their spans at most, compiled under the
same options with keys that tell the paths of both apart, are both
accepted or both refused. If they are accepted then their statements have
the same parts, of the same types and with the same upper bounds, and
unless a limit is the subject, with the same cardinalities. If they are
refused then for one cause. -/
theorem compile_of_alike {μ : Likeness} (s : Schema) (o : CompileOptions)
    {q q' : Select} (h : q.Alike μ q')
    (hf : (compileRun κ s o q).2.arena.Faithful)
    (hf' : (compileRun κ s o q').2.arena.Faithful) :
    ((∃ c, compileWith κ s o q = .ok c) ↔ ∃ c', compileWith κ s o q' = .ok c')
      ∧ (∀ c c', compileWith κ s o q = .ok c → compileWith κ s o q' = .ok c' →
          (compileRun κ s o q).2.StatementTallies μ s (compileRun κ s o q').2
            c.statement c'.statement)
      ∧ ∀ e e', compileWith κ s o q = .error e → compileWith κ s o q' = .error e' →
          e.cause = e'.cause ∧ e.kind = e'.kind := by
  have hframe : (Correspondence.start κ).Framed ⟨s, o.frame⟩ ⟨s, o.frame⟩ :=
    ⟨rfl, rfl, rfl, rfl, ⟨rfl, rfl⟩, .none⟩
  have hout : (Correspondence.start κ).Outcomes μ
      (fun C stmt stmt' => C.StatementsMatch μ s stmt stmt')
      (compileRun κ s o q) (compileRun κ s o q') :=
    CompileM.Corresponds.statement h rfl rfl Correspondence.consistent_start hframe
      hf hf'
  rw [compileWith_eq, compileWith_eq]
  generalize compileRun κ s o q = out at hout ⊢
  generalize compileRun κ s o q' = out' at hout ⊢
  cases hout with
  | error hcause =>
      refine ⟨⟨fun ⟨c, hc⟩ => (by cases hc), fun ⟨c, hc⟩ => (by cases hc)⟩,
        fun c c' hc => (by cases hc), fun e e' he he' => ?_⟩
      cases he
      cases he'
      exact ⟨hcause, CompileError.kind_eq_of_cause hcause⟩
  | ok _ hconsistent hmatch =>
      refine ⟨⟨fun _ => ⟨_, rfl⟩, fun _ => ⟨_, rfl⟩⟩, fun c c' hc hc' => ?_,
        fun e e' he => (by cases he)⟩
      cases hc
      cases hc'
      exact hconsistent.statementTallies hmatch

end

-- ============================================================ examples

open scoped Xxh64

/-- A person who has friends, by name, with the first span in some
column. -/
def befriended (column : Nat) : Select :=
  let build : Ast.Build Select := do
    let name ← Ast.Build.pointer "name" []
    let q ← Ast.Build.select (.path (← Ast.Build.path "default::Person" []))
    let friends ← Ast.Build.unary .exists
      (.path (← Ast.Build.partialPath ["friends"]))
    let byName ← Ast.Build.sortKey (.path (← Ast.Build.partialPath ["name"]))
      .ascending none
    let one ← Ast.Build.constant (.int 1)
    return { q with
      shape := [name], filter := friends, orderBy := [byName], limit := one }
  (StateT.run build column).1

/-- It is plain that the column does not matter. -/
theorem befriended_alike (column column' : Nat) :
    (befriended column).Alike .plain (befriended column') := by
  have hspans : ∀ span span' : Span, Likeness.plain.Spans span span' :=
    fun _ _ h => by cases h
  refine ⟨.nil, ⟨_, rfl, .some ⟨rfl, hspans _ _⟩, .nil, hspans _ _⟩, ?_, ?_, rfl, ?_,
    rfl, ⟨_, rfl, _, rfl, hspans _ _⟩, hspans _ _, fun _ => rfl⟩
  · exact ⟨_, _, rfl, ⟨_, _, _, rfl, rfl, rfl, hspans _ _⟩, rfl⟩
  · exact ⟨_, rfl, _, _, rfl,
      ⟨_, rfl, .none, .cons ⟨rfl, hspans _ _⟩ .nil, hspans _ _⟩, hspans _ _⟩
  · exact ⟨_, _, _, rfl,
      ⟨_, rfl, .none, .cons ⟨rfl, hspans _ _⟩ .nil, hspans _ _⟩, hspans _ _, rfl⟩

theorem compile_of_alike_people :
    (befriended 1).Alike .plain (befriended 9) ∧ ∃ c c',
      compile (Registry.builtin.schemaOf people) {} (befriended 1) = .ok c
        ∧ compile (Registry.builtin.schemaOf people) {} (befriended 9) = .ok c'
        ∧ (compileRun PathId (Registry.builtin.schemaOf people) {}
            (befriended 1)).2.arena.Faithful
        ∧ (compileRun PathId (Registry.builtin.schemaOf people) {}
            (befriended 9)).2.arena.Faithful
        ∧ c.statement.cardinality = c'.statement.cardinality := by
  have halike := befriended_alike 1 9
  obtain ⟨c, hc⟩ := exists_ok_of_isOk
    (x := compile (Registry.builtin.schemaOf people) {} (befriended 1))
    (by decide +kernel)
  have hf : (compileRun PathId (Registry.builtin.schemaOf people) {}
      (befriended 1)).2.arena.Faithful :=
    Arena.faithful_of_forall_lt (by decide +kernel)
  have hf' : (compileRun PathId (Registry.builtin.schemaOf people) {}
      (befriended 9)).2.arena.Faithful :=
    Arena.faithful_of_forall_lt (by decide +kernel)
  obtain ⟨hiff, htallies, -⟩ :=
    compile_of_alike (Registry.builtin.schemaOf people) {} halike hf hf'
  obtain ⟨c', hc'⟩ := hiff.1 ⟨c, hc⟩
  exact ⟨halike, c, c', hc, hc', hf, hf',
    (htallies c c' hc hc').count.2 (by decide)⟩

/-- A number that limits itself, with the limit written at `span`. -/
def selfLimited (span : Span) : Select where
  modules := []
  result := .constant (.int 0) ⟨1, 1, 1⟩
  shape := []
  filter := none
  groupBy := []
  orderBy := []
  offset := none
  limit := some (.path ⟨none, [], span⟩)
  span := ⟨1, 2, 1⟩

/-- Where the limit is written decides how many elements there are. -/
theorem cardinality_of_span :
    (selfLimited ⟨1, 1, 1⟩).Alike .loose (selfLimited ⟨1, 3, 1⟩)
      ∧ (compileRun PathId (Registry.builtin.schemaOf people) {}
          (selfLimited ⟨1, 1, 1⟩)).2.arena.Faithful
      ∧ (compileRun PathId (Registry.builtin.schemaOf people) {}
          (selfLimited ⟨1, 3, 1⟩)).2.arena.Faithful
      ∧ (compile (Registry.builtin.schemaOf people) {}
          (selfLimited ⟨1, 1, 1⟩)).map Compiled.cardinality = .ok .atMostOne
      ∧ (compile (Registry.builtin.schemaOf people) {}
          (selfLimited ⟨1, 3, 1⟩)).map Compiled.cardinality = .ok .one := by
  have hspans : ∀ span span' : Span, Likeness.loose.Spans span span' :=
    fun _ _ h => by cases h
  refine ⟨⟨.nil, ⟨_, rfl, hspans _ _⟩, rfl, rfl, rfl, rfl, rfl,
    ⟨_, rfl, _, rfl, .none, .nil, hspans _ _⟩, hspans _ _, fun h => by cases h⟩,
    Arena.faithful_of_forall_lt (by decide +kernel),
    Arena.faithful_of_forall_lt (by decide +kernel), by decide +kernel,
    by decide +kernel⟩

end PathQuery
