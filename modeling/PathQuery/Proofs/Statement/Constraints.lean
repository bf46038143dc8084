/-
Every statement meets the demands of its clauses.

Each clause is compiled in a scope node of its own, and what it demands
is checked there, so a statement that was compiled meets its query
because each check has passed (`answers_of_select`). Every statement of
the output comes from a query that occurs in the one compiled: a store
only ever gets a subquery from a statement that was compiled on the way
there (`Composed.onlyAnswers`). Together they are `compile_constrained`.
The implicit limit goes around the clauses: it is a constant of the root
node, and judged from there.
-/
import PathQuery.Proofs.Compile.Success
import PathQuery.Proofs.Statement.Demands
import PathQuery.Proofs.Statement.Parts
import PathQuery.Proofs.Statement.Soundness

namespace PathQuery

open Ast (Expr Select)
open Ir (Value Statement Arena SetNode)

variable {κ α : Type}

-- =============================================================== runs

namespace CompileM

variable [DecidableEq κ] [PathKey κ] [NameDigest]

variable {env : Env} {st st' : Store κ} {operand : CompileM κ Value}
  {span : Span} {hint : Option TypeId} {id : SetId}

/-- What a step makes in a node of its own is made below the active
node, in the first node that was free. -/
theorem parent?_of_inScope {m : CompileM κ α} {a : α}
    {asked : Select → Prop} {post : α → Prop} (hm : Composed asked post m)
    (h : (inScope m).run env st = (.ok a, st'))
    (hseat : st.Seats env.frame.scope) :
    st'.scopes.parent? st.scopes.size = some env.frame.scope
      ∧ st'.scopes.Rooted := by
  rw [run_inScope] at h
  obtain ⟨hseat', hext⟩ := hm.seats h hseat.opened
  exact ⟨hext.parent? (ScopeTree.parent?_attach_self _ _), hseat'.rooted⟩

theorem takes_of_filterBy
    (ho : Composed (fun _ => True) Value.IsPlain operand)
    (h : (filterBy operand span).run env st = (.ok id, st'))
    (hseat : st.Seats env.frame.scope) :
    st'.Takes env.schema env.frame.scope (filterBy operand span)
      (fun t => env.schema.isSubtype t TypeId.bool = true) st.scopes.size id := by
  have hrun := h
  unfold filterBy at h
  obtain ⟨hparent, hrooted⟩ :=
    parent?_of_inScope (.inClause (.clauseOperand ho)) h hseat
  refine ⟨⟨env, st, st', rfl, rfl, rfl, hrun, .refl hrooted⟩, hparent, ?_⟩
  rw [run_inScope] at h
  obtain ⟨v, mid, hattach⟩ := exists_attach_of_clauseOperand h
  have htyped := isSubtype_of_attach hattach
  exact htyped

/-- A clause that takes one value has attached it, in a node of its own,
and judged it from there. -/
theorem oneFrom_of_inScope
    (ho : Composed (fun _ => True) Value.IsPlain operand)
    (h : (inScope do
        let id ← clauseOperand operand span hint
        requireSingleton id
        return id).run env st = (.ok id, st'))
    (hseat : st.Seats env.frame.scope) :
    st'.scopes.parent? st.scopes.size = some env.frame.scope
      ∧ st'.scopes.Rooted ∧ st'.OneFrom st.scopes.size id
      ∧ ∃ (env' : Env) (v : Value) (mid : Store κ), env'.schema = env.schema
        ∧ (attach v hint).run env' mid = (.ok id, st') := by
  obtain ⟨hparent, hrooted⟩ := parent?_of_inScope
    (.bind (.clauseOperand ho) fun _ _ => .bind .requireSingleton fun _ _ =>
      .pure trivial) h hseat
  rw [run_inScope] at h
  obtain ⟨x, mid, hoperand, hrest⟩ := ok_of_bind h
  obtain ⟨_, mid', hcheck, hpure⟩ := ok_of_bind hrest
  obtain ⟨rfl, rfl⟩ := ok_of_pure hpure
  obtain ⟨rfl, c, hc, hone⟩ := ok_of_requireSingleton hcheck
  obtain ⟨v, before, hattach⟩ := exists_attach_of_clauseOperand hoperand
  exact ⟨hparent, hrooted, ⟨c, hc, hone⟩, env.within st.scopes.size, v, before,
    rfl, hattach⟩

theorem takes_of_bound (ho : Composed (fun _ => True) Value.IsPlain operand)
    (h : (bound operand span).run env st = (.ok id, st'))
    (hseat : st.Seats env.frame.scope) :
    st'.Takes env.schema env.frame.scope (bound operand span)
        (fun t => env.schema.isSubtype t TypeId.int = true) st.scopes.size id
      ∧ st'.OneFrom st.scopes.size id := by
  have hrun := h
  unfold bound at h
  obtain ⟨hparent, hrooted, hone, env', v, mid, hschema, hattach⟩ :=
    oneFrom_of_inScope ho h hseat
  refine ⟨⟨⟨env, st, st', rfl, rfl, rfl, hrun, .refl hrooted⟩, hparent, ?_⟩,
    hone⟩
  rw [← hschema]
  exact isSubtype_of_attach hattach

theorem takes_of_key (ho : Composed (fun _ => True) Value.IsPlain operand)
    (h : (key operand span).run env st = (.ok id, st'))
    (hseat : st.Seats env.frame.scope) :
    st'.Takes env.schema env.frame.scope (key operand span)
        (fun t => t ≠ .empty) st.scopes.size id
      ∧ st'.OneFrom st.scopes.size id := by
  have hrun := h
  unfold key at h
  obtain ⟨hparent, hrooted, hone, _, v, mid, -, hattach⟩ :=
    oneFrom_of_inScope ho h hseat
  exact ⟨⟨⟨env, st, st', rfl, rfl, rfl, hrun, .refl hrooted⟩, hparent,
    ne_empty_of_attach hattach⟩, hone⟩

-- ============================================================= clauses

theorem filtered_of_filterClause {f : Option Expr} {r : Option SetId}
    (h : (filterClause f).run env st = (.ok r, st'))
    (hseat : st.Seats env.frame.scope) :
    Option.Rel (st'.Filtered env.schema env.frame.scope) f r := by
  cases f with
  | none =>
      obtain ⟨rfl, rfl⟩ := ok_of_pure h
      exact .none
  | some e =>
      unfold filterClause at h
      obtain ⟨id, mid, hrun, hpure⟩ := ok_of_bind h
      obtain ⟨rfl, rfl⟩ := ok_of_pure hpure
      exact .some ⟨_, takes_of_filterBy (composed_expr e) hrun hseat⟩

theorem numbered_of_boundClause {n : Option Expr} {r : Option SetId}
    (h : (boundClause n).run env st = (.ok r, st'))
    (hseat : st.Seats env.frame.scope) :
    Option.Rel (st'.Numbered env.schema env.frame.scope) n r := by
  cases n with
  | none =>
      obtain ⟨rfl, rfl⟩ := ok_of_pure h
      exact .none
  | some e =>
      unfold boundClause at h
      obtain ⟨id, mid, hrun, hpure⟩ := ok_of_bind h
      obtain ⟨rfl, rfl⟩ := ok_of_pure hpure
      exact .some ⟨_, takes_of_bound (composed_expr e) hrun hseat⟩

theorem keyed_of_groupKeys {keys : List Expr} {ids : List SetId}
    (h : (groupKeys keys).run env st = (.ok ids, st'))
    (hseat : st.Seats env.frame.scope) :
    List.Forall₂ (st'.Keyed env.schema env.frame.scope) keys ids := by
  induction keys generalizing st ids with
  | nil =>
      obtain ⟨rfl, rfl⟩ := ok_of_pure h
      exact .nil
  | cons e es ih =>
      unfold groupKeys at h
      have hcomposed := composed_expr (κ := κ) e
      obtain ⟨id, mid, hkey, hrest, hseat', -⟩ := hcomposed.key.ok_bind h hseat
      obtain ⟨ids, mid', hkeys, hpure, -, hext⟩ :=
        (Composed.groupKeys es fun _ _ => trivial).ok_bind hrest hseat'
      obtain ⟨rfl, rfl⟩ := ok_of_pure hpure
      have hkeyed := takes_of_key hcomposed hkey hseat
      exact .cons (Store.Keyed.mono hext ⟨_, hkeyed⟩) (ih hkeys hseat')

theorem sorted_of_sortKeys {keys : List Ast.SortKey} {rs : List Ir.SortKey}
    (h : (sortKeys keys).run env st = (.ok rs, st'))
    (hseat : st.Seats env.frame.scope) :
    List.Forall₂ (st'.Sorted env.schema env.frame.scope) keys rs := by
  induction keys generalizing st rs with
  | nil =>
      obtain ⟨rfl, rfl⟩ := ok_of_pure h
      exact .nil
  | cons k ks ih =>
      obtain ⟨e, direction, empties, span⟩ := k
      unfold sortKeys at h
      have hcomposed := composed_expr (κ := κ) e
      obtain ⟨id, mid, hkey, hrest, hseat', -⟩ := hcomposed.key.ok_bind h hseat
      obtain ⟨ids, mid', hkeys, hpure, -, hext⟩ :=
        (Composed.sortKeys ks fun _ _ => trivial).ok_bind hrest hseat'
      obtain ⟨rfl, rfl⟩ := ok_of_pure hpure
      have hkeyed := takes_of_key hcomposed hkey hseat
      exact .cons ⟨Store.Keyed.mono hext ⟨_, hkeyed⟩, rfl, rfl, rfl⟩
        (ih hkeys hseat')

-- ========================================================== statements

/-- A limit that was written leaves the implicit one out. -/
theorem limited_of_numbered {s : Schema} {scope : ScopeId}
    {limit : Option Expr} {id : Option SetId}
    (h : Option.Rel (st.Numbered s scope) limit id) :
    st.Limited s scope limit none id := by
  cases h with
  | some h => exact .written h
  | none => exact .absent

/-- A statement that was compiled meets its query. -/
theorem answers_of_select {q : Select} {stmt : Statement}
    (h : (select q).run env st = (.ok stmt, st'))
    (hseat : st.Seats env.frame.scope) : st'.Answers env.schema q stmt := by
  have hrun := h
  obtain ⟨result, st₂, hresult, hfrom⟩ := ok_of_select h
  have hscope := Env.scope_inside env st.scopes.size q
  obtain ⟨hseat₂, h₂⟩ :=
    (Composed.selectResult q).seats hresult (hscope.symm ▸ hseat.opened)
  unfold CompileM.selectFrom underSubject at hfrom
  rw [run_underFrame] at hfrom
  have hasked : ∀ qs : List Select, ∀ q ∈ qs, (fun _ => True) q :=
    fun _ _ _ => trivial
  -- part by part, each from where the one before has left the store
  obtain ⟨shape, st₃, -, hrun₃, hseat₃, h₃⟩ := (Composed.withShape
    (.shapeElements q.shape (hasked _) result [])).ok_bind hfrom hseat₂
  obtain ⟨rfilter, st₄, hfilter, hrun₄, hseat₄, h₄⟩ :=
    (Composed.filterClause q.filter (hasked _)).ok_bind hrun₃ hseat₃
  obtain ⟨rgroup, st₅, hgroup, hrun₅, hseat₅, h₅⟩ := (Composed.inClause
    (.groupKeys q.groupBy (hasked _))).ok_bind hrun₄ hseat₄
  obtain ⟨rorder, st₆, horder, hrun₆, hseat₆, h₆⟩ := (Composed.inClause
    (.sortKeys q.orderBy (hasked _))).ok_bind hrun₅ hseat₅
  obtain ⟨roffset, st₇, hoffset, hrun₇, hseat₇, h₇⟩ := (Composed.inClause
    (.boundClause q.offset (hasked _))).ok_bind hrun₆ hseat₆
  obtain ⟨rlimit, st₈, hlimit, hrun₈, hseat₈, h₈⟩ := (Composed.inClause
    (.boundClause q.limit (hasked _))).ok_bind hrun₇ hseat₇
  obtain ⟨c, st₉, -, hrun₉, hseat₉, h₉⟩ :=
    (show Composes (fun _ => True) (statementCardinality result rfilter rlimit) from
      .statementCardinality).ok_bind hrun₈ hseat₈
  rw [run_bind_ok run_frame] at hrun₉
  obtain ⟨rfl, rfl⟩ := ok_of_pure hrun₉
  unfold inClause at hgroup horder hoffset hlimit
  rw [run_underFrame] at hgroup horder hoffset hlimit
  -- what a part has left is kept by all that come after it
  have h₈ := h₈.trans h₉
  have h₇ := h₇.trans h₈
  have h₆ := h₆.trans h₇
  have h₅ := h₅.trans h₆
  have hparent := (h₂.trans (h₃.trans (h₄.trans h₅))).parent?
    (ScopeTree.parent?_attach_self st.scopes env.frame.scope)
  refine ⟨⟨env.frame.scope, ?_, env, st, _, rfl, rfl, hscope.symm, hrun,
    .refl hseat₉.rooted⟩, ?_⟩
  · exact hscope.symm ▸ hparent
  refine ⟨rfl, ?_, ?_, ?_, ?_, ?_⟩
  · exact optionRel_imp (fun _ _ hf => hf.mono h₅)
      (filtered_of_filterClause hfilter hseat₃)
  · exact (keyed_of_groupKeys hgroup hseat₄).imp fun _ _ hk => hk.mono h₆
  · exact (sorted_of_sortKeys horder hseat₅).imp fun _ _ hk => hk.mono h₇
  · exact optionRel_imp (fun _ _ hn => hn.mono h₈)
      (numbered_of_boundClause hoffset hseat₆)
  · exact limited_of_numbered (optionRel_imp (fun _ _ hn => hn.mono h₉)
      (numbered_of_boundClause hlimit hseat₇))

end CompileM

-- ========================================================== subqueries

section Subqueries

variable [DecidableEq κ] [PathKey κ] [NameDigest]

/-- The subqueries by which a store differs from the one before answer
queries that were asked for. -/
def Store.OnlyAnswers (s : Schema) (asked : Select → Prop)
    (st st' : Store κ) : Prop :=
  ∀ id node stmt, st'.arena.get? id = some node →
    node.origin = .computed (.subquery stmt) →
    st.arena.get? id = some node ∨ ∃ q, asked q ∧ st'.Answers s q stmt

namespace Store.OnlyAnswers

variable {s : Schema} {asked : Select → Prop} {st st' st'' : Store κ}

/-- What answers a query goes on to do so. -/
theorem trans (h : st.OnlyAnswers s asked st')
    (h' : st'.OnlyAnswers s asked st'') (hext : st'.Extends st'') :
    st.OnlyAnswers s asked st'' := by
  intro id node stmt hn ho
  rcases h' id node stmt hn ho with hold | hnew
  · rcases h id node stmt hold ho with hold | ⟨q, hq, hans⟩
    · exact Or.inl hold
    · exact Or.inr ⟨q, hq, hans.mono hext⟩
  · exact Or.inr hnew

/-- A set that is no statement is no subquery. -/
theorem of_push {new : SetNode κ} {hnew : _} {scopes : ScopeTree κ}
    (hplain : new.origin.IsPlain) :
    st.OnlyAnswers s asked ⟨st.arena.push new hnew, scopes⟩ := by
  intro id node stmt hn ho
  rcases Arena.get?_push_cases hnew hn with ⟨-, rfl⟩ | hn
  · rw [ho] at hplain
    exact hplain.elim
  · exact Or.inl hn

theorem of_adds {active : ScopeId} (h : st.Adds active st') :
    st.OnlyAnswers s asked st' := by
  cases h with
  | nothing => exact fun _ _ _ hn _ => Or.inl hn
  | set _ hplain => exact of_push hplain
  | path _ hplain _ => exact of_push hplain

/-- A statement that becomes a set is the only new subquery. -/
theorem of_subquery {made : Statement} {q : Select} {env : Env}
    (hq : asked q) (hans : st.Answers s q made)
    (hext : st.Extends ((CompileM.subquery made).run env st).2) :
    st.OnlyAnswers s asked ((CompileM.subquery made).run env st).2 := by
  intro id node stmt hn ho
  rcases CompileM.run_subquery_cases made env st with ⟨e, hrun⟩
    | ⟨new, hnew, horigin, hrun⟩
  · rw [hrun] at hn
    exact Or.inl hn
  · rw [hrun] at hn hext ⊢
    rcases Arena.get?_push_cases hnew hn with ⟨-, rfl⟩ | hn
    · rw [horigin] at ho
      cases ho
      exact Or.inr ⟨q, hq, hans.mono hext⟩
    · exact Or.inl hn

end Store.OnlyAnswers

namespace CompileM

/-- Every subquery that a step leaves was there before, or answers a query
that was asked for. -/
theorem Composed.onlyAnswers {asked : Select → Prop} {post : α → Prop}
    {m : CompileM κ α} (h : Composed asked post m) (env : Env) (st : Store κ)
    (hseat : st.Seats env.frame.scope) :
    st.OnlyAnswers env.schema asked (m.run env st).2 := by
  induction h generalizing env st with
  | own hadds _ => exact .of_adds (hadds env st)
  | @bind _ _ _ _ m f hm hf ihm ihf =>
      have hanswers := ihm env st hseat
      rcases run_bind_cases m f env st with ⟨e, st', hrunm, hrun⟩
        | ⟨a, st', hrunm, hrun⟩
      · rw [hrunm] at hanswers
        rw [hrun]
        exact hanswers
      · have hmid := hm.value env st a (by rw [hrunm])
        obtain ⟨hseat', -⟩ := hm.seats hrunm hseat
        obtain ⟨-, hext⟩ := (hf a hmid).seats rfl hseat'
        rw [hrunm] at hanswers
        rw [hrun]
        exact hanswers.trans (ihf a hmid env st' hseat') hext
  | @underFrame _ _ _ change hscope _ ih =>
      have hsame : (change env.frame).scope = env.frame.scope := hscope _
      exact ih { env with frame := change env.frame } st (hsame ▸ hseat)
  | inScope _ ih =>
      exact ih (env.within st.scopes.size) (st.opened env.frame.scope)
        hseat.opened
  | @subquery q _ hq hm ih =>
      have hanswers := ih env st hseat
      rcases run_bind_cases (CompileM.select q) CompileM.subquery env st with
        ⟨e, st', hrunm, hrun⟩ | ⟨made, st', hrunm, hrun⟩
      · rw [hrunm] at hanswers
        rw [hrun]
        exact hanswers
      · obtain ⟨hseat', -⟩ := hm.seats hrunm hseat
        have hext := (spreads_subquery made env st').toExtends hseat'.rooted
          hseat'.active
        rw [hrunm] at hanswers
        rw [hrun]
        exact hanswers.trans
          (.of_subquery hq (answers_of_select hrunm hseat) hext) hext

end CompileM

end Subqueries

-- =========================================================== the whole

namespace CompileM

variable [DecidableEq κ] [PathKey κ] [NameDigest]

variable {env : Env} {st st' : Store κ}

/-- The implicit limit is a limit where none was written. -/
theorem meets_of_limitImplicitly {q : Select} {stmt made : Statement} {n : Int}
    (hm : st.Meets env.schema none q made)
    (h : (limitImplicitly made n).run env st = (.ok stmt, st'))
    (hseat : st.Seats env.frame.scope)
    (hroot : env.frame.scope = ScopeTree.root) :
    st'.Meets env.schema (some n) q stmt := by
  unfold limitImplicitly at h
  split at h
  · next hsome =>
      obtain ⟨rfl, rfl⟩ := ok_of_pure h
      exact ⟨hm.span, hm.filter, hm.groupBy, hm.orderBy, hm.offset,
        hm.limit.of_isSome hsome _⟩
  · next hnone =>
      have hwritten := hm.limit
      rw [Option.not_isSome_iff_eq_none.1 hnone] at hwritten
      obtain ⟨id, st₁, hnew, hrest, hseat₁, h₁⟩ :=
        (show Composes (fun _ => True) (newComputed (.constant (.int n)) _ _ _)
          from .newComputed trivial).ok_bind h hseat
      obtain ⟨c, st₂, -, hpure, -, h₂⟩ :=
        (show Composes (fun _ => True) (limited made.cardinality id)
          from .limited).ok_bind hrest hseat₁
      obtain ⟨rfl, rfl⟩ := ok_of_pure hpure
      have hm' := hm.mono (h₁.trans h₂)
      refine ⟨hm'.span, hm'.filter, hm'.groupBy, hm'.orderBy, hm'.offset, ?_⟩
      have hid := h₂.arena _ _ (get?_of_newComputed hnew)
      have habove : st'.scopes.isStrictAncestor env.frame.scope ScopeTree.root
          = false := by
        rw [hroot]
        simp [ScopeTree.isStrictAncestor]
      rw [hwritten.eq_none]
      exact .implicit hid rfl (Schema.isSubtype_self _ _)
        ⟨_, Store.judge?_made hid habove rfl, rfl⟩

theorem meets_of_statement {o : CompileOptions} {q : Select} {stmt : Statement}
    (h : (statement o q).run env st = (.ok stmt, st'))
    (hseat : st.Seats env.frame.scope)
    (hroot : env.frame.scope = ScopeTree.root) :
    st'.Meets env.schema o.implicitLimit q stmt := by
  unfold statement at h
  obtain ⟨_, st₁, -, hrest, hseat₁, -⟩ :=
    (show Composes (fun _ => True) (checkOptions o q.span) from
      .checkOptions).ok_bind h hseat
  obtain ⟨made, st₂, hselect, hlast, hseat₂, -⟩ :=
    (show Composes (fun _ => True) (select q) from
      .select q fun _ _ => trivial).ok_bind hrest hseat₁
  have hmeets := (answers_of_select hselect hseat₁).meets
  split at hlast
  · next heq =>
      rw [heq]
      exact meets_of_limitImplicitly hmeets hlast hseat₂ hroot
  · next heq =>
      obtain ⟨rfl, rfl⟩ := ok_of_pure hlast
      rw [heq]
      exact hmeets

end CompileM

section

variable [DecidableEq κ] [PathKey κ] [NameDigest]

/-- A compiled statement meets its query, and so does every statement that
became a set, with a query that occurs in the one compiled. -/
theorem compile_constrained {s : Schema} {o : CompileOptions} {q : Select}
    {c : Compiled κ} (h : compileWith κ s o q = .ok c) :
    ∃ scopes : ScopeTree κ,
      (CompileM.statement o q).run ⟨s, o.frame⟩ (Store.new (κ := κ))
        = (.ok c.statement, ⟨c.arena, scopes⟩)
      ∧ Store.Meets s ⟨c.arena, scopes⟩ o.implicitLimit q c.statement
      ∧ ∀ id node stmt, c.set? id = some node →
          node.origin = .computed (.subquery stmt) →
          ∃ q' ∈ q.nested, Store.Answers s ⟨c.arena, scopes⟩ q' stmt := by
  obtain ⟨scopes, hrun⟩ := exists_run_of_compileWith h
  have hseat : (Store.new (κ := κ)).Seats (Env.mk s o.frame).frame.scope :=
    ⟨ScopeTree.rooted_new, Nat.zero_lt_one⟩
  refine ⟨scopes, hrun, CompileM.meets_of_statement hrun hseat rfl, ?_⟩
  intro id node stmt hn ho
  have hanswers :=
    (CompileM.Composed.statement o q).onlyAnswers _ (Store.new (κ := κ)) hseat
  rw [hrun] at hanswers
  rcases hanswers id node stmt hn ho with hold | hans
  · cases hold
  · exact hans

end

-- ============================================================= example

open scoped Xxh64

/-- The second page of all people, by name, each with the first few
friends in order. -/
def peopleByName : Select := Ast.Build.run do
  let friends ← Ast.Build.select (.path (← Ast.Build.partialPath ["friends"]))
  let byName ← Ast.Build.sortKey (.path (← Ast.Build.partialPath ["name"]))
    .descending (some .last)
  let few ← Ast.Build.constant (.int 3)
  let friends ← Ast.Build.computed "first"
    (.select { friends with orderBy := [byName], limit := few })
  let people ← Ast.Build.select (.path (← Ast.Build.path "default::Person" []))
  let some ← Ast.Build.unary .exists
    (.path (← Ast.Build.partialPath ["friends"]))
  let name ← Ast.Build.partialPath ["name"]
  let byName ← Ast.Build.sortKey (.path (← Ast.Build.partialPath ["name"]))
    .ascending none
  let skipped ← Ast.Build.constant (.int 20)
  return { people with
    shape := [friends], filter := some, groupBy := [.path name],
    orderBy := [byName], offset := skipped }

theorem compile_constrained_people : ∃ c,
    compile (Registry.builtin.schemaOf people) { implicitLimit := some 20 }
        peopleByName = .ok c
      ∧ ∃ scopes : ScopeTree PathId,
        (CompileM.statement { implicitLimit := some 20 } peopleByName).run
            ⟨Registry.builtin.schemaOf people,
              CompileOptions.frame { implicitLimit := some 20 }⟩ .new
          = (.ok c.statement, ⟨c.arena, scopes⟩)
        ∧ Store.Meets (Registry.builtin.schemaOf people) ⟨c.arena, scopes⟩
            (some 20) peopleByName c.statement
        ∧ ∀ id node stmt, c.set? id = some node →
            node.origin = .computed (.subquery stmt) →
            ∃ q ∈ peopleByName.nested, Store.Answers
              (Registry.builtin.schemaOf people) ⟨c.arena, scopes⟩ q stmt := by
  obtain ⟨c, hc⟩ := exists_ok_of_isOk
    (x := compile (Registry.builtin.schemaOf people)
      { implicitLimit := some 20 } peopleByName) (by decide +kernel)
  exact ⟨c, hc, compile_constrained hc⟩

end PathQuery
