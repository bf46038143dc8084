/-
Parts of a statement, each by itself.

What a part of a statement is compiled to does not depend on the other
parts. Each is compiled in a node of its own, right below that of the
statement; what is bound there is seen from no other part, and what the
others bind is not seen from there. So a part does the same in whatever
has grown beside the store that the result was compiled to
(`Stage.outcomes`), and what it adds is beside what was there
(`Stage.beside_of_part`).

From one part this goes on to all of them. On the way through the parts of
a statement each is compiled in a store beside the first one
(`Stage.passes_of_parts`), and parts that compile there compile one after
the other (`Stage.exists_run_parts`). So a statement is accepted exactly
if its parts are, each as the only one, and they are compiled to the same
but for numbers, whichever of them a statement has and in whichever order
(`Session.Reachable.select_parts`).
-/
import PathQuery.Proofs.Correspondence.Beside
import PathQuery.Proofs.Span.Irrelevance
import PathQuery.Proofs.Statement.Traversal

namespace PathQuery

open Ast (Select ShapeElement)
open Ir

variable {κ : Type}

-- =============================================================== parts

/-- Two parts are of one kind, with nodes and sets that are related, and
sort alike. -/
inductive Ir.Part.Related (nodes : ShapeNode → ShapeNode → Prop)
    (sets : SetId → SetId → Prop) : Ir.Part → Ir.Part → Prop where
  | element {node node' : ShapeNode} (h : nodes node node') :
      Related nodes sets (.element node) (.element node')
  | filter {x y : SetId} (h : sets x y) : Related nodes sets (.filter x) (.filter y)
  | groupBy {x y : SetId} (h : sets x y) : Related nodes sets (.groupBy x) (.groupBy y)
  | orderBy {x y : SetId} {direction : SortDirection} {empties : Option EmptyOrder}
      {span : Span} (h : sets x y) :
      Related nodes sets (.orderBy ⟨x, direction, empties, span⟩)
        (.orderBy ⟨y, direction, empties, span⟩)
  | offset {x y : SetId} (h : sets x y) : Related nodes sets (.offset x) (.offset y)
  | limit {x y : SetId} (h : sets x y) : Related nodes sets (.limit x) (.limit y)

theorem Ir.Part.Related.imp {nodes nodes' : ShapeNode → ShapeNode → Prop}
    {sets sets' : SetId → SetId → Prop} {part part' : Ir.Part}
    (hnodes : ∀ node node', nodes node node' → nodes' node node')
    (hsets : ∀ x y, sets x y → sets' x y) (h : part.Related nodes sets part') :
    part.Related nodes' sets' part' := by
  cases h with
  | element h => exact .element (hnodes _ _ h)
  | filter h => exact .filter (hsets _ _ h)
  | groupBy h => exact .groupBy (hsets _ _ h)
  | orderBy h => exact .orderBy (hsets _ _ h)
  | offset h => exact .offset (hsets _ _ h)
  | limit h => exact .limit (hsets _ _ h)

section

variable [DecidableEq κ] [PathKey κ] [NameDigest]

/-- Two parts, each of a statement in a store, tally: an element and its
shape as seen from their own nodes, the set of a clause as seen from the
nodes right below that of the statement. -/
def Store.PartTallies (s : Schema) (st st' : Store κ) (scope scope' : ScopeId) :
    Ir.Part → Ir.Part → Prop :=
  Ir.Part.Related
    (fun node node' => st.ShapeTallies .same s st' scope scope' [node] [node'])
    (st.TalliesBelow .same st' scope scope')

/-- Two parts are alike if they tally and are the same but for the numbers
of sets and nodes, as is all that they refer to. -/
structure Store.PartsAlike (s : Schema) (st st' : Store κ) (scope scope' : ScopeId)
    (part part' : Ir.Part) : Prop where
  tallies : st.PartTallies s st' scope scope' part part'
  renamed : ∃ C : Correspondence κ, C.left = st ∧ C.right = st' ∧ C.Consistent .same
    ∧ part.Related (fun node node' => C.ShapeRenamed [node] [node']) C.sets part'

namespace Correspondence

variable {C C' : Correspondence κ} {s : Schema} {scope scope' : ScopeId}
  {part part' : Ir.Part}

/-- Two parts match, as seen from the nodes that they were compiled in. -/
def PartsMatch (C : Correspondence κ) (s : Schema) (scope scope' : ScopeId) :
    Ir.Part → Ir.Part → Prop :=
  Ir.Part.Related (fun node node' => C.ShapesMatch s scope scope' [node] [node'])
    (C.AgreeBelow .same scope scope')

theorem PartsMatch.mono (h : C.Later C') (hp : C.PartsMatch s scope scope' part part') :
    C'.PartsMatch s scope scope' part part' :=
  hp.imp (fun _ _ hn => hn.mono h) fun _ _ hxy => hxy.mono h

/-- Parts that match are alike. -/
theorem Consistent.partsAlike (h : C.Consistent .same)
    (hp : C.PartsMatch s scope scope' part part') :
    C.left.PartsAlike s C.right scope scope' part part' where
  tallies := hp.imp (fun _ _ hn => h.shapeTallies hn) fun _ _ hxy => h.talliesBelow hxy
  renamed := ⟨C, rfl, rfl, h, hp.imp (fun _ _ hn => hn.renamed) fun _ _ hxy => hxy.sets⟩

end Correspondence

namespace CompileM

/-- One part of a statement does the same on both sides. -/
theorem Corresponds.part {C : Correspondence κ} {env env' : Env} {x y : SetId}
    (hxy : C.sets x y) (p : Ast.Part) :
    Corresponds .same C env env' (CompileM.part x p) (CompileM.part y p) fun C' =>
      C'.PartsMatch env.schema env.frame.scope env'.frame.scope := by
  cases p with
  | element e =>
      unfold CompileM.part
      exact bind (inClause (underSubject hxy (shapeNode (shapeElement e) e.alike_self hxy)))
        fun _ _ _ _ hnode => pure (.element hnode)
  | filter e =>
      unfold CompileM.part
      exact bind (filterBy (expr e e e.alike_self) fun _ => rfl)
        fun _ _ _ _ hid => pure (.filter hid)
  | groupBy e =>
      unfold CompileM.part
      exact bind (inClause (key (expr e e e.alike_self) fun _ => rfl))
        fun _ _ _ _ hid => pure (.groupBy hid)
  | orderBy k =>
      obtain ⟨e, direction, empties, span⟩ := k
      unfold CompileM.part
      exact bind (inClause (key (expr e e e.alike_self) fun _ => rfl))
        fun _ _ _ _ hid => pure (.orderBy hid)
  | offset e =>
      unfold CompileM.part
      exact bind (inClause (bound (expr e) e.alike_self _ _ _))
        fun _ _ _ _ hid => pure (.offset hid.1)
  | limit e =>
      unfold CompileM.part
      exact bind (inClause (bound (expr e) e.alike_self _ _ _))
        fun _ _ _ _ hid => pure (.limit hid.1)

/-- One part of a statement binds nothing outside of its own node. -/
theorem Encloses.part (result : SetId) (p : Ast.Part) :
    Encloses (κ := κ) (CompileM.part result p) := by
  have hexpr : ∀ e : Ast.Expr,
      Composed (κ := κ) (fun _ => True) Value.IsPlain (CompileM.expr e) :=
    fun e => .expr e Growing.all_true
  cases p with
  | element e =>
      unfold CompileM.part
      exact bind_pure (inClause (underSubject (inScope
        (.shapeElement e Growing.all_true result))))
  | filter e =>
      unfold CompileM.part
      exact bind_pure (filterBy (hexpr e))
  | groupBy e =>
      unfold CompileM.part
      exact bind_pure (inClause (key (hexpr e)))
  | orderBy k =>
      obtain ⟨e, direction, empties, span⟩ := k
      unfold CompileM.part
      exact bind_pure (inClause (key (hexpr e)))
  | offset e =>
      unfold CompileM.part
      exact bind_pure (inClause (bound (hexpr e)))
  | limit e =>
      unfold CompileM.part
      exact bind_pure (inClause (bound (hexpr e)))

instance (subject : SetId) (e : ShapeElement) :
    Growing (shapeElement subject e : CompileM κ _) :=
  .of_composed (.shapeElement e Growing.all_true subject)

instance (result : SetId) (p : Ast.Part) :
    Growing (part result p : CompileM κ _) := by
  unfold part
  split <;> infer_instance

instance (result : SetId) (ps : List Ast.Part) :
    Growing (parts result ps : CompileM κ _) := by
  induction ps with
  | nil =>
      unfold parts
      infer_instance
  | cons p ps ih =>
      unfold parts
      infer_instance

end CompileM

-- =============================================================== stage

/-- Where the parts of a statement are compiled: in a store that
corresponds to itself, with the active node and the result in it. -/
structure Stage (env : Env) (st : Store κ) (result : SetId) : Prop where
  consistent : (Correspondence.itself st).Consistent .same
  active : env.frame.scope < st.scopes.size
  subject : env.frame.subject = some result
  there : result < st.arena.size

namespace Stage

open CompileM

variable {env : Env} {mid σ σ' τ τ' st st' : Store κ} {result : SetId}
  {p : Ast.Part} {ps : List Ast.Part} {part part' : Ir.Part}

omit [NameDigest] in
theorem beside (h : Stage env mid result) : mid.Beside mid :=
  .refl h.consistent.rooted h.consistent.indexed

/-- A part does the same in two stores that have grown beside. -/
theorem outcomes (h : Stage env mid result) (hσ : mid.Beside σ) (hτ : mid.Beside τ)
    (hf : ((CompileM.part result p).run env σ).2.arena.Faithful)
    (hf' : ((CompileM.part result p).run env τ).2.arena.Faithful) :
    ((Correspondence.itself mid).grown σ τ).Outcomes .same
      (fun C => C.PartsMatch env.schema env.frame.scope env.frame.scope)
      ((CompileM.part result p).run env σ) ((CompileM.part result p).run env τ) := by
  have hsets : ((Correspondence.itself mid).grown σ τ).sets result result :=
    ⟨rfl, h.there⟩
  have hframed : ((Correspondence.itself mid).grown σ τ).Framed env env := by
    refine ⟨rfl, rfl, rfl, rfl, ⟨rfl, h.active⟩, ?_⟩
    rw [h.subject]
    exact .some hsets
  exact Corresponds.part hsets p (h.consistent.beside hσ hτ) hframed hf hf'

/-- What a part adds is beside what was there. -/
theorem beside_of_part (h : Stage env mid result) (hσ : mid.Beside σ)
    (hrun : (CompileM.part result p).run env σ = (.ok part, σ'))
    (hf : σ'.arena.Faithful) : σ.Beside σ' := by
  have hend : ((CompileM.part result p).run env σ).2.arena.Faithful := by
    rw [hrun]
    exact hf
  have hout := h.outcomes hσ hσ hend hend
  have hbinding := Encloses.part result p env σ
  rw [hrun] at hout hbinding
  obtain ⟨C, _, rfl, -, hlater, hconsistent, -⟩ := hout.of_ok
  exact ⟨hlater.left, hconsistent.indexed, hbinding⟩

/-- A part that compiles in one store compiles in another, and to what is
alike wherever the two stores go from there. -/
theorem alike_of_part (h : Stage env mid result) (hσ : mid.Beside σ)
    (hτ : mid.Beside τ) (hrun : (CompileM.part result p).run env σ = (.ok part, σ'))
    (hf : σ'.arena.Faithful)
    (hf' : ((CompileM.part result p).run env τ).2.arena.Faithful) :
    ∃ part' τ', (CompileM.part result p).run env τ = (.ok part', τ')
      ∧ ∀ st st', σ'.Beside st → τ'.Beside st' →
        st.PartsAlike env.schema st' env.frame.scope env.frame.scope part part' := by
  have hout := h.outcomes hσ hτ (by rw [hrun]; exact hf) hf'
  rw [hrun] at hout
  obtain ⟨C, part', rfl, hrun', -, hconsistent, hmatch⟩ := hout.of_ok
  refine ⟨part', C.right, hrun', fun st st' hst hst' => ?_⟩
  have hlater := Correspondence.later_grown hst.grown hst'.grown
  exact (hconsistent.beside hst hst').partsAlike (hmatch.mono hlater)

-- ============================================================== traces

/-- A part was compiled on the way from one store to another, and the rest
of the way was beside it. -/
def Passes (env : Env) (mid st : Store κ) (result : SetId) (p : Ast.Part)
    (part : Ir.Part) : Prop :=
  ∃ σ σ', mid.Beside σ ∧ (CompileM.part result p).run env σ = (.ok part, σ')
    ∧ σ'.Beside st

/-- On the way through all parts, each is compiled. -/
theorem passes_of_parts (h : Stage env mid result) (hσ : mid.Beside σ)
    {compiled : List Ir.Part}
    (hrun : (parts result ps).run env σ = (.ok compiled, st))
    (hf : st.arena.Faithful) :
    σ.Beside st ∧ List.Forall₂ (Passes env mid st result) ps compiled := by
  induction ps generalizing σ compiled with
  | nil =>
      obtain ⟨rfl, rfl⟩ := ok_of_pure hrun
      exact ⟨.refl hσ.grown.rooted' hσ.indexed, .nil⟩
  | cons p ps ih =>
      unfold parts at hrun
      obtain ⟨part, σ', hpart, hrun⟩ := ok_of_bind hrun
      obtain ⟨rest, τ, hrest, hrun⟩ := ok_of_bind hrun
      obtain ⟨rfl, rfl⟩ := ok_of_pure hrun
      have hps : Growing (parts result ps : CompileM κ _) := inferInstance
      have hgrows := hps.grows env σ'
      rw [hrest] at hgrows
      have hσ' := h.beside_of_part hσ hpart (hf.of_extends hgrows)
      obtain ⟨hst, hpasses⟩ := ih (hσ.trans hσ') hrest
      exact ⟨hσ'.trans hst, .cons ⟨σ, σ', hσ, hpart, hst⟩ hpasses⟩

/-- Parts that compile each by itself compile one after the other. -/
theorem exists_run_parts (h : Stage env mid result) (hσ : mid.Beside σ)
    (hf : ((parts result ps).run env σ).2.arena.Faithful)
    (hps : ∀ p ∈ ps, ∃ part τ τ', mid.Beside τ ∧ τ'.arena.Faithful
      ∧ (CompileM.part result p).run env τ = (.ok part, τ')) :
    ∃ compiled st, (parts result ps).run env σ = (.ok compiled, st) := by
  induction ps generalizing σ with
  | nil => exact ⟨[], σ, rfl⟩
  | cons p ps ih =>
      unfold parts at hf ⊢
      obtain ⟨part, τ, τ', hτ, hfτ, hpart⟩ := hps p List.mem_cons_self
      obtain ⟨part', σ', hrun, -⟩ := h.alike_of_part hτ hσ hpart hfτ
        (hf.of_extends (Growing.extends_of_bind _ _))
      rw [run_bind_ok hrun] at hf ⊢
      have hfrest := hf.of_extends (Growing.extends_of_bind _ _)
      have hgrows : Growing (parts result ps : CompileM κ _) := inferInstance
      have hσ' := h.beside_of_part hσ hrun (hfrest.of_extends (hgrows.grows env σ'))
      obtain ⟨rest, st, hrest⟩ := ih (hσ.trans hσ') hfrest
        fun p hp => hps p (List.mem_cons_of_mem _ hp)
      exact ⟨_, _, run_bind_ok hrest⟩

-- ============================================================ statements

/-- The parts of a statement compile to what is there when the statement
has been compiled, or to less. -/
theorem faithful_parts {q : Select} (hnames : (q.shape.map ShapeElement.name).Nodup)
    (hobjects : q.shape ≠ [] → mid.HasObjects env.schema result)
    (hf : ((selectFrom q result).run env mid).2.arena.Faithful) :
    ((parts result q.parts).run (env.about result) mid).2.arena.Faithful := by
  have hcheck : (checkShape result q.shape).run (env.about result) mid = (.ok (), mid) :=
    run_checkShape_iff.2 ⟨hobjects, rfl⟩
  rw [selectFrom_eq, run_underSubject, run_bind_ok hcheck] at hf
  rw [parts_eq hnames, snd_run_bind_pure]
  exact hf.of_extends (Growing.extends_of_bind _ _)

/-- A part compiles by itself. -/
def Compiles (env : Env) (mid : Store κ) (result : SetId) (p : Ast.Part) : Prop :=
  ∃ part τ τ', mid.Beside τ ∧ τ'.arena.Faithful
    ∧ (CompileM.part result p).run env τ = (.ok part, τ')

theorem Passes.compiles (h : Passes env mid st result p part) (hf : st.arena.Faithful) :
    Compiles env mid result p := by
  obtain ⟨σ, σ', hσ, hrun, hst⟩ := h
  exact ⟨part, σ, σ', hσ, hf.of_extends hst.grown.arena, hrun⟩

/-- One part, on the way to two stores, is compiled to what is alike. -/
theorem alike_of_passes (h : Stage env mid result) (hf : st.arena.Faithful)
    (hf' : st'.arena.Faithful) (hp : Passes env mid st result p part)
    (hp' : Passes env mid st' result p part') :
    st.PartsAlike env.schema st' env.frame.scope env.frame.scope part part' := by
  obtain ⟨σ, σ', hσ, hrun, hst⟩ := hp
  obtain ⟨τ, τ', hτ, hrun', hst'⟩ := hp'
  have hend : ((CompileM.part result p).run env τ).2.arena.Faithful := by
    rw [hrun']
    exact hf'.of_extends hst'.grown.arena
  obtain ⟨_, _, hrun₂, halike⟩ :=
    h.alike_of_part hσ hτ hrun (hf.of_extends hst.grown.arena) hend
  rw [hrun'] at hrun₂
  cases hrun₂
  exact halike st st' hst hst'

/-- A statement that was compiled from its result on has passed its
parts. -/
theorem passes_of_selectFrom {q : Select} {stmt : Statement}
    (h : Stage (env.about result) mid result)
    (hrun : (selectFrom q result).run env mid = (.ok stmt, st))
    (hf : st.arena.Faithful) :
    stmt.scope = env.frame.scope
      ∧ List.Forall₂ (Passes (env.about result) mid st result) q.parts stmt.parts := by
  obtain ⟨-, -, -, hscope, hparts⟩ := ok_of_selectFrom hrun
  exact ⟨hscope, (h.passes_of_parts h.beside hparts hf).2⟩

/-- A statement compiles from its result on exactly if each part does by
itself, the names of the shape are distinct, and there are objects to
show. -/
theorem exists_run_selectFrom_iff {q : Select}
    (h : Stage (env.about result) mid result)
    (hf : ((selectFrom q result).run env mid).2.arena.Faithful) :
    (∃ stmt st, (selectFrom q result).run env mid = (.ok stmt, st))
      ↔ (q.shape.map ShapeElement.name).Nodup
        ∧ (q.shape ≠ [] → mid.HasObjects env.schema result)
        ∧ ∀ p ∈ q.parts, Compiles (env.about result) mid result p := by
  constructor
  · intro hex
    obtain ⟨stmt, st, hrun⟩ := hex
    rw [hrun] at hf
    obtain ⟨hnames, hobjects, -, -, hparts⟩ := ok_of_selectFrom hrun
    refine ⟨hnames, hobjects, fun p hp => ?_⟩
    obtain ⟨-, hpasses⟩ := h.passes_of_parts h.beside hparts hf
    obtain ⟨i, hi, rfl⟩ := List.mem_iff_getElem.1 hp
    exact (hpasses.get hi (hpasses.length_eq ▸ hi)).compiles hf
  · intro hall
    obtain ⟨hnames, hobjects, hcompiles⟩ := hall
    have hfparts := faithful_parts hnames hobjects hf
    obtain ⟨compiled, st, hparts⟩ := h.exists_run_parts h.beside hfparts hcompiles
    rw [hparts] at hfparts
    obtain ⟨hst, hpasses⟩ := h.passes_of_parts h.beside hparts hfparts
    obtain ⟨node, hn⟩ := Arena.exists_get?_of_lt h.there
    have hlimit : ∀ id, Ir.Part.limit id ∈ compiled →
        ∃ node, st.arena.get? id = some node := by
      intro id hid
      obtain ⟨i, hi, hget⟩ := List.mem_iff_getElem.1 hid
      have hpass := hpasses.get (hpasses.length_eq ▸ hi) hi
      rw [List.get_eq_getElem, List.get_eq_getElem, hget] at hpass
      -- as part of a statement that is like itself, a limit has a type
      cases (h.alike_of_passes hfparts hfparts hpass hpass).tallies with
      | limit htallies =>
          obtain ⟨v, hv⟩ := htallies.left
          obtain ⟨⟨t, ht, -⟩, -⟩ := htallies.tallies v v hv hv
          obtain ⟨node, hn, -⟩ := Arena.type?_eq_some_iff.1 ht
          exact ⟨node, hn⟩
    obtain ⟨stmt, hrun⟩ := exists_run_selectFrom hnames hobjects hparts
      ⟨node, hst.grown.arena _ _ hn⟩ hlimit
    exact ⟨stmt, st, hrun⟩

end Stage

-- ============================================================ sessions

/-- The result of a statement is a set that is seen. -/
theorem CompileM.Upholds.selectResult {R : Regime} {env : Env} {st : Store κ}
    (q : Select) : CompileM.Upholds R env st (CompileM.selectResult q) fun st' id =>
      ∃ t, st'.Holds R env.frame.scope id t := by
  unfold CompileM.selectResult
  refine .bind (.expr q.result _ _) ?_
  intro v st₁ _ h
  obtain ⟨t, hv⟩ := h
  exact (CompileM.Upholds.attach hv fun h heq => by cases heq).imp
    fun _ _ _ _ h => ⟨_, h.choose_spec.1⟩

/-- When the result has been compiled, the stage is set. -/
theorem Stage.of_selectResult {R : Regime} {env : Env} {st mid : Store κ} {q : Select}
    {result : SetId} (h : env.Ready R st)
    (hrun : (CompileM.selectResult q).run env st = (.ok result, mid)) :
    Stage (env.about result) mid result := by
  have hout := CompileM.Upholds.selectResult q h
  rw [hrun] at hout
  obtain ⟨t, ht⟩ := hout.value _ rfl
  exact ⟨Correspondence.consistent_itself hout.ready.sound, hout.ready.active, rfl,
    ht.lt_size⟩

namespace Session

/-- A query compiles in a session. -/
def Accepts (s : Session κ) (q : Select) : Prop :=
  ∃ stmt st, (CompileM.select q).run s.env s.store = (.ok stmt, st)

/-- The sets that there are when a query has been compiled, whether it is
accepted or not. -/
def arenaAfter (s : Session κ) (q : Select) : Arena κ :=
  ((CompileM.select q).run s.env s.store).2.arena

/-- Keys tell the paths of these sets apart. -/
def Tells (s : Session κ) (q : Select) : Prop := (s.arenaAfter q).Faithful

/-- In a session, all statements that select the same as `q` go on from
one result in one store. -/
structure Leads (s : Session κ) (q : Select) (env : Env) (mid : Store κ)
    (result : SetId) : Prop where
  schema : env.schema = s.schema
  stage : Stage (env.about result) mid result
  run_eq : ∀ q', q.Akin q' → (CompileM.select q').run s.env s.store
    = (CompileM.selectFrom q' result).run env mid

variable {lexical : Prop} {s : Session κ} {q q' : Select} {bare stmt stmt' : Statement}
  {mid st st' : Store κ}

/-- They do if the result compiles, so that there is a statement without
parts. -/
theorem Reachable.exists_leads (hs : s.Reachable lexical)
    (hbare : (CompileM.select q.bare).run s.env s.store = (.ok bare, mid)) :
    ∃ env, s.Leads q env mid bare.result := by
  obtain ⟨result, mid', hresult, hall⟩ := CompileM.run_select_akin hbare
  have hfrom := hall q.bare ⟨rfl, rfl⟩
  rw [hbare] at hfrom
  obtain ⟨-, -, rfl, -, hparts⟩ := CompileM.ok_of_selectFrom hfrom.symm
  obtain ⟨-, rfl⟩ := CompileM.ok_of_pure hparts
  exact ⟨_, Env.schema_inside _ _ _,
    .of_selectResult (hs.ready.active.inside q.bare) hresult,
    fun q' hq' => hall q' ⟨hq'.modules, hq'.result⟩⟩

theorem Tells.faithful (h : s.Tells q)
    (hrun : (CompileM.select q).run s.env s.store = (.ok stmt, st)) :
    st.arena.Faithful := by
  unfold Tells arenaAfter at h
  rwa [hrun] at h

namespace Leads

variable {env : Env} {result : SetId} {p : Ast.Part}

/-- A statement is accepted exactly if its parts compile. -/
theorem accepts_iff (h : s.Leads q env mid result) (hq : q.Akin q') (ht : s.Tells q') :
    s.Accepts q' ↔ (q'.shape.map ShapeElement.name).Nodup
      ∧ (q'.shape ≠ [] → mid.HasObjects s.schema result)
      ∧ ∀ p ∈ q'.parts, Stage.Compiles (env.about result) mid result p := by
  unfold Tells arenaAfter at ht
  unfold Accepts
  rw [h.run_eq q' hq] at ht ⊢
  rw [← h.schema]
  exact h.stage.exists_run_selectFrom_iff ht

/-- So is one that has one part only. -/
theorem accepts_only_iff (h : s.Leads q env mid result) (hp : p ∈ q'.parts)
    (ht : s.Tells (q.only p))
    (hobjects : q'.shape ≠ [] → mid.HasObjects s.schema result) :
    s.Accepts (q.only p) ↔ Stage.Compiles (env.about result) mid result p := by
  rw [h.accepts_iff (q.akin_only p) ht, Select.parts_only]
  refine ⟨fun hall => hall.2.2 p List.mem_cons_self, fun hcompiles => ?_⟩
  refine ⟨q.nodup_only p, fun hne => hobjects (Select.shape_of_only hp hne), ?_⟩
  intro p' hp'
  rw [List.mem_singleton.1 hp']
  exact hcompiles

/-- A statement is accepted exactly if its parts are, each as the only
one. -/
theorem accepts_iff_only (h : s.Leads q env mid result) (hq : q.Akin q')
    (ht : s.Tells q') (honly : ∀ p ∈ q'.parts, s.Tells (q.only p)) :
    s.Accepts q' ↔ (q'.shape.map ShapeElement.name).Nodup
      ∧ (q'.shape ≠ [] → mid.HasObjects s.schema result)
      ∧ ∀ p ∈ q'.parts, s.Accepts (q.only p) := by
  rw [h.accepts_iff hq ht]
  exact and_congr_right fun _ => and_congr_right fun hobjects =>
    forall₂_congr fun p hp => (h.accepts_only_iff hp (honly p hp) hobjects).symm

/-- A statement that was compiled has passed its parts. -/
theorem passes (h : s.Leads q env mid result) (hq : q.Akin q') (ht : s.Tells q')
    (hrun : (CompileM.select q').run s.env s.store = (.ok stmt, st)) :
    stmt.scope = env.frame.scope
      ∧ List.Forall₂ (Stage.Passes (env.about result) mid st result) q'.parts
        stmt.parts := by
  have hf := ht.faithful hrun
  rw [h.run_eq q' hq] at hrun
  exact h.stage.passes_of_selectFrom hrun hf

/-- A part that two statements have in common is compiled alike. -/
theorem alike {q₁ q₂ : Select} (h : s.Leads q env mid result) (hq₁ : q.Akin q₁)
    (hq₂ : q.Akin q₂) (ht₁ : s.Tells q₁) (ht₂ : s.Tells q₂)
    (hrun₁ : (CompileM.select q₁).run s.env s.store = (.ok stmt, st))
    (hrun₂ : (CompileM.select q₂).run s.env s.store = (.ok stmt', st'))
    {part part' : Ir.Part} (hp : (p, part) ∈ q₁.parts.zip stmt.parts)
    (hp' : (p, part') ∈ q₂.parts.zip stmt'.parts) :
    st.PartsAlike s.schema st' stmt.scope stmt'.scope part part' := by
  obtain ⟨hscope₁, hpasses₁⟩ := h.passes hq₁ ht₁ hrun₁
  obtain ⟨hscope₂, hpasses₂⟩ := h.passes hq₂ ht₂ hrun₂
  rw [hscope₁, hscope₂, ← h.schema]
  exact h.stage.alike_of_passes (ht₁.faithful hrun₁) (ht₂.faithful hrun₂)
    ((List.forall₂_iff_zip.1 hpasses₁).2 hp) ((List.forall₂_iff_zip.1 hpasses₂).2 hp')

/-- A statement has as many parts as were written. -/
theorem length_parts (h : s.Leads q env mid result) (hq : q.Akin q') (ht : s.Tells q')
    (hrun : (CompileM.select q').run s.env s.store = (.ok stmt, st)) :
    q'.parts.length = stmt.parts.length :=
  (h.passes hq ht hrun).2.length_eq

end Leads

/-- The parts of a statement are compiled independently of each other. In
any session, let a statement be given whose result compiles. The statement
is accepted exactly if the elements of its shape have distinct names, the
result is objects if there are any, and each part is accepted as the only
one. Then each part is compiled to what it is compiled to as the only one,
but for numbers. And the same is true of every other statement with that
result whose parts are some of these, in any order: which parts it has
decides if it is accepted, and what it has in common with the first one is
compiled alike. -/
theorem Reachable.select_parts (hs : s.Reachable lexical)
    (hbare : (CompileM.select q.bare).run s.env s.store = (.ok bare, mid))
    (ht : s.Tells q) (honly : ∀ p ∈ q.parts, s.Tells (q.only p)) :
    (s.Accepts q ↔ (q.shape.map ShapeElement.name).Nodup
        ∧ (q.shape ≠ [] → mid.HasObjects s.schema bare.result)
        ∧ ∀ p ∈ q.parts, s.Accepts (q.only p))
      ∧ (∀ stmt st, (CompileM.select q).run s.env s.store = (.ok stmt, st) →
          List.Forall₂ (fun p part => ∃ alone st' part',
            (CompileM.select (q.only p)).run s.env s.store = (.ok alone, st')
              ∧ alone.parts = [part']
              ∧ st.PartsAlike s.schema st' stmt.scope alone.scope part part')
            q.parts stmt.parts)
      ∧ ∀ q', q.Akin q' → (∀ p ∈ q'.parts, p ∈ q.parts) → s.Tells q' →
          (s.Accepts q' ↔ (q'.shape.map ShapeElement.name).Nodup
            ∧ (q'.shape ≠ [] → mid.HasObjects s.schema bare.result)
            ∧ ∀ p ∈ q'.parts, s.Accepts (q.only p))
          ∧ ∀ stmt st stmt' st',
              (CompileM.select q).run s.env s.store = (.ok stmt, st) →
              (CompileM.select q').run s.env s.store = (.ok stmt', st') →
              ∀ p part part', (p, part) ∈ q.parts.zip stmt.parts →
                (p, part') ∈ q'.parts.zip stmt'.parts →
                st.PartsAlike s.schema st' stmt.scope stmt'.scope part part' := by
  obtain ⟨env, h⟩ := hs.exists_leads hbare
  have hself : q.Akin q := ⟨rfl, rfl⟩
  refine ⟨h.accepts_iff_only hself ht honly, fun stmt st hrun => ?_,
    fun q' hq' hsub ht' => ⟨h.accepts_iff_only hq' ht' fun p hp => honly p (hsub p hp),
      fun stmt st stmt' st' hrun hrun' p part part' hp hp' =>
        h.alike hself hq' ht ht' hrun hrun' hp hp'⟩⟩
  refine List.forall₂_iff_zip.2 ⟨h.length_parts hself ht hrun, fun {p part} hp => ?_⟩
  have hmem := (List.of_mem_zip hp).1
  obtain ⟨alone, st', halone⟩ :=
    ((h.accepts_iff_only hself ht honly).1 ⟨stmt, st, hrun⟩).2.2 p hmem
  have hlength := h.length_parts (q.akin_only p) (honly p hmem) halone
  rw [Select.parts_only] at hlength
  obtain ⟨part', hpart'⟩ := List.length_eq_one_iff.1 hlength.symm
  refine ⟨alone, st', part', halone, hpart', ?_⟩
  refine h.alike hself (q.akin_only p) ht (honly p hmem) hrun halone hp ?_
  rw [Select.parts_only, hpart']
  exact List.mem_cons_self

end Session

end

-- ============================================================= example

open scoped Xxh64

/-- The names of people who have friends, sorted by name and by whether
they have friends. -/
def sortedTwice : Select := Ast.Build.run do
  let name ← Ast.Build.pointer "name" []
  let q ← Ast.Build.select (.path (← Ast.Build.path "default::Person" []))
  let friends ← Ast.Build.unary .exists
    (.path (← Ast.Build.partialPath ["friends"]))
  let byName ← Ast.Build.sortKey (.path (← Ast.Build.partialPath ["name"]))
    .ascending none
  let one ← Ast.Build.unary .exists (.path (← Ast.Build.partialPath ["friends"]))
  let byFriends ← Ast.Build.sortKey one .descending none
  return { q with shape := [name], filter := friends, orderBy := [byName, byFriends] }

/-- The same people, not filtered, and sorted the other way around. -/
def sortedBackwards : Select :=
  { sortedTwice with filter := none, orderBy := sortedTwice.orderBy.reverse }

theorem select_parts_people :
    beforeFriends.Accepts sortedTwice ∧ ∃ stmt st stmt' st',
      (CompileM.select sortedTwice).run beforeFriends.env beforeFriends.store
          = (.ok stmt, st)
        ∧ (CompileM.select sortedBackwards).run beforeFriends.env beforeFriends.store
          = (.ok stmt', st')
        ∧ ∀ p part part', (p, part) ∈ sortedTwice.parts.zip stmt.parts →
          (p, part') ∈ sortedBackwards.parts.zip stmt'.parts →
          st.PartsAlike beforeFriends.schema st' stmt.scope stmt'.scope part part' := by
  have hrun : ∀ q : Select,
      ((CompileM.select q).run beforeFriends.env beforeFriends.store).1.isOk = true →
        ∃ stmt st, (CompileM.select q).run beforeFriends.env beforeFriends.store
          = (.ok stmt, st) := by
    intro q h
    obtain ⟨stmt, hstmt⟩ := exists_ok_of_isOk h
    exact ⟨stmt, _, Prod.ext hstmt rfl⟩
  obtain ⟨bare, mid, hbare⟩ := hrun sortedTwice.bare (by decide +kernel)
  obtain ⟨stmt, st, hstmt⟩ := hrun sortedTwice (by decide +kernel)
  obtain ⟨stmt', st', hstmt'⟩ := hrun sortedBackwards (by decide +kernel)
  have ht : beforeFriends.Tells sortedTwice :=
    Arena.faithful_of_forall_lt (by decide +kernel)
  have ht' : beforeFriends.Tells sortedBackwards :=
    Arena.faithful_of_forall_lt (by decide +kernel)
  have honly : ∀ p ∈ sortedTwice.parts, beforeFriends.Tells (sortedTwice.only p) := by
    have hall : ∀ p ∈ sortedTwice.parts,
        let a := beforeFriends.arenaAfter (sortedTwice.only p)
        ∀ x < a.size, ∀ y < a.size, ((a.canonical x).key : PathId) = (a.canonical y).key →
          a.canonical x = a.canonical y := by decide +kernel
    exact fun p hp => Arena.faithful_of_forall_lt (hall p hp)
  have hsub : ∀ q : Select,
      ∀ p ∈ { q with filter := none, orderBy := q.orderBy.reverse }.parts, p ∈ q.parts := by
    intro q p hp
    simp only [Select.parts, List.mem_append, List.mem_map, List.mem_reverse,
      Option.toList_none, List.not_mem_nil, false_and, exists_false, false_or] at hp ⊢
    exact hp.imp_right .inr
  obtain ⟨-, -, hothers⟩ := Session.Reachable.select_parts (reachable_beforeFriends True)
    hbare ht honly
  exact ⟨⟨stmt, st, hstmt⟩, stmt, st, stmt', st', hstmt, hstmt',
    (hothers sortedBackwards ⟨rfl, rfl⟩ (hsub _) ht').2 stmt st stmt' st' hstmt hstmt'⟩

end PathQuery
