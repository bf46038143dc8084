/-
A statement as a list of parts.

Around its result, a statement is compiled part by part (`part`), and
each part takes nothing from the others: what comes after the result is
one traversal of the parts, apart from checks on the shape and from the
count, which reads what is there. So a statement compiles exactly if the
traversal ends well, if elements of the shape have names of their own,
and if the result of a statement with a shape is objects
(`ok_of_selectFrom`, `exists_run_selectFrom`).

All statements that select the same under the same modules come to their
parts in the same store (`run_select_akin`).
-/
import PathQuery.Ast.Part
import PathQuery.Proofs.Compile.Clauses
import PathQuery.Proofs.Statement.Parts

namespace PathQuery

open Ast (Expr Select ShapeElement)
open Ir (Arena Statement ShapeNode)

/-- A part of a statement, compiled. -/
inductive Ir.Part where
  | element (node : ShapeNode)
  | filter (set : SetId)
  | groupBy (set : SetId)
  | orderBy (key : SortKey)
  | offset (set : SetId)
  | limit (set : SetId)

/-- What the shape and the clauses of a statement were compiled to. -/
structure Ir.Clauses where
  shape : List ShapeNode
  filter : Option SetId
  groupBy : List SetId
  orderBy : List SortKey
  offset : Option SetId
  limit : Option SetId

/-- The parts that clauses have, in the order in which they were
compiled. -/
def Ir.Clauses.parts (cs : Ir.Clauses) : List Ir.Part :=
  cs.shape.map .element ++ (cs.filter.toList.map .filter
    ++ (cs.groupBy.map .groupBy ++ (cs.orderBy.map .orderBy
      ++ (cs.offset.toList.map .offset ++ cs.limit.toList.map .limit))))

theorem Ir.Clauses.limit_mem_parts {cs : Ir.Clauses} {id : SetId}
    (h : cs.limit = some id) : Ir.Part.limit id ∈ cs.parts := by
  unfold parts
  rw [h]
  simp

def Ir.Statement.clauses (stmt : Statement) : Ir.Clauses :=
  ⟨stmt.shape, stmt.filter, stmt.groupBy, stmt.orderBy, stmt.offset, stmt.limit⟩

/-- The parts of a compiled statement. -/
def Ir.Statement.parts (stmt : Statement) : List Ir.Part := stmt.clauses.parts

variable {κ α : Type}

/-- An environment where partial paths start from `subject`. -/
def Env.about (env : Env) (subject : SetId) : Env :=
  { env with frame := { env.frame with subject := some subject } }

/-- The elements of a set are objects. -/
def Store.HasObjects (s : Schema) (st : Store κ) (id : SetId) : Prop :=
  ∃ t, st.arena.type? id = some t ∧ s.isObject t = true

namespace CompileM

-- ============================================================== frames

theorem underFrame_bind {β : Type} (change : Frame → Frame) (m : CompileM κ α)
    (f : α → CompileM κ β) :
    underFrame change (m >>= f)
      = underFrame change m >>= fun a => underFrame change (f a) := rfl

theorem underFrame_pure (change : Frame → Frame) (a : α) :
    underFrame change (pure a : CompileM κ α) = pure a := rfl

theorem run_underSubject (subject : SetId) (m : CompileM κ α) (env : Env)
    (st : Store κ) :
    (underSubject subject m).run env st = m.run (env.about subject) st := rfl

theorem require_true (e : CompileError) :
    (require true e : CompileM κ Unit) = pure () := rfl

-- ============================================================= modules

/-- Modules that are accepted once are always accepted. -/
theorem run_withModules_of_ok {β : Type} {modules : List Ast.ModuleDecl}
    {m : CompileM κ α} {env : Env} {st st' : Store κ} {a : α}
    (h : (withModules modules m).run env st = (.ok a, st')) (m' : CompileM κ β) :
    (withModules modules m').run env st = m'.run (env.declareAll modules) st := by
  induction modules generalizing env with
  | nil => rfl
  | cons d modules ih =>
      unfold withModules checkModule at h ⊢
      obtain ⟨_, mid, hcheck, hrest⟩ := ok_of_bind h
      have hcheck' := hcheck
      rw [run_bind_ok run_schema, run_require] at hcheck'
      obtain rfl : st = mid := congrArg Prod.snd hcheck'
      rw [run_bind_ok hcheck]
      exact ih hrest

-- ============================================================== checks

section Checks

variable {result : SetId} {env : Env} {st st' : Store κ}

/-- A shape must be one of objects, unless it is empty. -/
def checkShape (result : SetId) : List ShapeElement → CompileM κ Unit
  | [] => return ()
  | first :: _ => requireObject result first.span

theorem run_checkShape_iff {es : List ShapeElement} :
    (checkShape result es).run env st = (.ok (), st')
      ↔ (es ≠ [] → st.HasObjects env.schema result) ∧ st' = st := by
  cases es with
  | nil =>
      refine ⟨fun h => ⟨fun hne => absurd rfl hne, (ok_of_pure h).2⟩, fun h => ?_⟩
      rw [h.2]
      rfl
  | cons first rest =>
      unfold checkShape requireObject
      rw [run_bind_ok run_schema]
      constructor
      · intro h
        obtain ⟨t, _, htype, hrequire⟩ := ok_of_bind h
        obtain ⟨ht, rfl⟩ := ok_of_typeOf htype
        obtain ⟨hobject, rfl⟩ := ok_of_require hrequire
        exact ⟨fun _ => ⟨t, ht, hobject⟩, rfl⟩
      · intro h
        obtain ⟨t, ht, hobject⟩ := h.1 (List.cons_ne_nil _ _)
        obtain ⟨node, hn, rfl⟩ := Arena.type?_eq_some_iff.1 ht
        rw [run_bind_ok (run_typeOf hn), run_require, hobject, h.2]
        rfl

/-- Counting only reads. -/
theorem keeps_of_statementCardinality {filter limit : Option SetId} {c : Cardinality}
    (h : (statementCardinality result filter limit).run env st = (.ok c, st')) :
    st' = st := by
  unfold statementCardinality limited at h
  obtain ⟨_, _, hjudge, hrest⟩ := ok_of_bind h
  obtain ⟨-, rfl⟩ := ok_of_judge hjudge
  clear h
  cases limit with
  | none => exact (ok_of_pure hrest).2
  | some limit =>
      obtain ⟨node, _, hget, hlimited⟩ := ok_of_bind hrest
      obtain ⟨-, rfl⟩ := ok_of_getSet hget
      split at hlimited <;> exact (ok_of_pure hlimited).2

end Checks

variable [DecidableEq κ] [PathKey κ] [NameDigest]

-- =============================================================== parts

/-- One part of a statement that selects `result`. -/
def part (result : SetId) : Ast.Part → CompileM κ Ir.Part
  | .element e => do
    let node ← inClause .shape (underSubject result (inScope (shapeElement result e)))
    return .element node
  | .filter e => return .filter (← filterBy (expr e) e.span)
  | .groupBy e => return .groupBy (← inClause .groupBy (key (expr e) e.span))
  | .orderBy ⟨e, direction, empties, span⟩ => do
    let id ← inClause .orderBy (key (expr e) e.span)
    return .orderBy ⟨id, direction, empties, span⟩
  | .offset e => return .offset (← inClause .offset (bound (expr e) e.span))
  | .limit e => return .limit (← inClause .limit (bound (expr e) e.span))

/-- Parts one after the other. -/
def parts (result : SetId) : List Ast.Part → CompileM κ (List Ir.Part)
  | [] => return []
  | p :: ps => do
    let compiled ← part result p
    let rest ← parts result ps
    return compiled :: rest

variable {result : SetId}

theorem parts_append (ps qs : List Ast.Part) :
    (parts result (ps ++ qs) : CompileM κ _) = do
      let compiled ← parts result ps
      let rest ← parts result qs
      return compiled ++ rest := by
  induction ps with
  | nil => simp [parts]
  | cons p ps ih => simp [parts, ih]

-- ========================================================= clause by clause

/-- Elements of one shape, whose names are all free, are parts. -/
theorem parts_shape {es : List ShapeElement} {taken : List String}
    (hnames : (es.map ShapeElement.name).Nodup)
    (hfree : ∀ e ∈ es, e.name ∉ taken) :
    (parts result (es.map .element) : CompileM κ _) = do
      let nodes ← inClause .shape
        (underSubject result (shapeElements result taken es))
      return nodes.map .element := by
  induction es generalizing taken with
  | nil => rfl
  | cons e es ih =>
      obtain ⟨he, hes⟩ := List.nodup_cons.1 hnames
      have hrest : ∀ e' ∈ es, e'.name ∉ e.name :: taken := by
        intro e' he' hmem
        rcases List.mem_cons.1 hmem with heq | hmem
        · exact he (heq ▸ List.mem_map_of_mem he')
        · exact hfree e' (List.mem_cons_of_mem _ he') hmem
      have hcheck : (!taken.contains e.name) = true := by
        simpa using hfree e List.mem_cons_self
      rw [List.map_cons, parts, ih hes hrest, shapeElements, hcheck]
      simp only [part, inClause, underSubject, underFrame_bind, underFrame_pure,
        require_true, bind_assoc, pure_bind, List.map_cons]

theorem parts_filter (f : Option Expr) :
    (parts result (f.toList.map .filter) : CompileM κ _) = do
      let filter ← filterClause f
      return filter.toList.map .filter := by
  cases f with
  | none => rfl
  | some e => simp [parts, part, filterClause]

theorem parts_groupBy (keys : List Expr) :
    (parts result (keys.map .groupBy) : CompileM κ _) = do
      let ids ← inClause .groupBy (groupKeys keys)
      return ids.map .groupBy := by
  induction keys with
  | nil => rfl
  | cons e keys ih =>
      rw [List.map_cons, parts, ih, groupKeys]
      simp only [part, inClause, underFrame_bind, underFrame_pure, bind_assoc,
        pure_bind, List.map_cons]

theorem parts_orderBy (keys : List Ast.SortKey) :
    (parts result (keys.map .orderBy) : CompileM κ _) = do
      let sorted ← inClause .orderBy (sortKeys keys)
      return sorted.map .orderBy := by
  induction keys with
  | nil => rfl
  | cons k keys ih =>
      obtain ⟨e, direction, empties, span⟩ := k
      rw [List.map_cons, parts, ih, sortKeys]
      simp only [part, inClause, underFrame_bind, underFrame_pure, bind_assoc,
        pure_bind, List.map_cons]

theorem parts_offset (n : Option Expr) :
    (parts result (n.toList.map .offset) : CompileM κ _) = do
      let offset ← inClause .offset (boundClause n)
      return offset.toList.map .offset := by
  cases n with
  | none => rfl
  | some e =>
      simp only [Option.toList, List.map_cons, List.map_nil, parts, part, boundClause,
        inClause, underFrame_bind, underFrame_pure, bind_assoc, pure_bind]

theorem parts_limit (n : Option Expr) :
    (parts result (n.toList.map .limit) : CompileM κ _) = do
      let limit ← inClause .limit (boundClause n)
      return limit.toList.map .limit := by
  cases n with
  | none => rfl
  | some e =>
      simp only [Option.toList, List.map_cons, List.map_nil, parts, part, boundClause,
        inClause, underFrame_bind, underFrame_pure, bind_assoc, pure_bind]

/-- The shape and the clauses of a statement, without the checks on the
shape as a whole. -/
def clauses (q : Select) (result : SetId) : CompileM κ Ir.Clauses := do
  let shape ← inClause .shape
    (underSubject result (shapeElements result [] q.shape))
  let filter ← filterClause q.filter
  let groupBy ← inClause .groupBy (groupKeys q.groupBy)
  let orderBy ← inClause .orderBy (sortKeys q.orderBy)
  let offset ← inClause .offset (boundClause q.offset)
  let limit ← inClause .limit (boundClause q.limit)
  return ⟨shape, filter, groupBy, orderBy, offset, limit⟩

/-- All parts of a statement, clause by clause. -/
theorem parts_eq {q : Select} (hnames : (q.shape.map ShapeElement.name).Nodup) :
    (parts result q.parts : CompileM κ _) = do
      let cs ← clauses q result
      return cs.parts := by
  unfold Select.parts clauses Ir.Clauses.parts
  simp only [parts_append, parts_shape hnames fun _ _ => List.not_mem_nil,
    parts_filter, parts_groupBy, parts_orderBy, parts_offset, parts_limit, bind_assoc,
    pure_bind]

-- ============================================================ statements

variable {env : Env} {st st' : Store κ}

/-- Elements of a shape that were compiled have names of their own. -/
theorem nodup_of_shapeElements {es : List ShapeElement} {taken : List String}
    {nodes : List ShapeNode}
    (h : (shapeElements result taken es).run env st = (.ok nodes, st')) :
    (es.map ShapeElement.name).Nodup ∧ ∀ e ∈ es, e.name ∉ taken := by
  induction es generalizing taken st st' nodes with
  | nil => exact ⟨List.Pairwise.nil, fun _ he => by cases he⟩
  | cons e es ih =>
      unfold shapeElements at h
      obtain ⟨_, _, hcheck, h⟩ := ok_of_bind h
      obtain ⟨_, _, -, h⟩ := ok_of_bind h
      obtain ⟨_, _, hrest, -⟩ := ok_of_bind h
      obtain ⟨hes, hfree⟩ := ih hrest
      have he : e.name ∉ taken := by simpa using (ok_of_require hcheck).1
      refine ⟨List.nodup_cons.2 ⟨fun hmem => ?_, hes⟩, fun e' he' => ?_⟩
      · obtain ⟨e', he', heq⟩ := List.mem_map.1 hmem
        exact hfree e' he' (heq ▸ List.mem_cons_self)
      · rcases List.mem_cons.1 he' with rfl | he'
        · exact he
        · exact fun hmem => hfree e' he' (List.mem_cons_of_mem _ hmem)

/-- A shape is checked as a whole before its elements are compiled. -/
theorem withShape_eq (subject : SetId) (es : List ShapeElement) :
    (withShape subject es (shapeElements subject [] es) : CompileM κ _)
      = checkShape subject es >>= fun _ =>
          inClause .shape (underSubject subject (shapeElements subject [] es)) := by
  cases es <;> rfl

/-- What comes after the result is to check the shape, to compile the
clauses and to count. -/
theorem selectFrom_eq (q : Select) (result : SetId) :
    (selectFrom q result : CompileM κ Statement) = underSubject result do
      checkShape result q.shape
      let cs ← clauses q result
      let cardinality ← statementCardinality result cs.filter cs.limit
      return ⟨result, cs.shape, cs.filter, cs.groupBy, cs.orderBy, cs.offset, cs.limit,
        cardinality, (← frame).scope, q.span⟩ := by
  unfold selectFrom clauses
  simp only [withShape_eq, bind_assoc, pure_bind]

/-- A statement that goes on to compile from its result has compiled its
clauses. -/
theorem clauses_of_selectFrom {q : Select} {stmt : Statement}
    (h : (selectFrom q result).run env st = (.ok stmt, st')) :
    (q.shape ≠ [] → st.HasObjects env.schema result)
      ∧ stmt.result = result ∧ stmt.scope = env.frame.scope
      ∧ (clauses q result).run (env.about result) st = (.ok stmt.clauses, st') := by
  rw [selectFrom_eq, run_underSubject] at h
  obtain ⟨_, _, hcheck, hcompile⟩ := ok_of_bind h
  obtain ⟨hobjects, rfl⟩ := run_checkShape_iff.1 hcheck
  obtain ⟨cs, _, hclauses, hrest⟩ := ok_of_bind hcompile
  obtain ⟨c, _, hcount, hreturn⟩ := ok_of_bind hrest
  obtain rfl := keeps_of_statementCardinality hcount
  rw [run_bind_ok run_frame] at hreturn
  obtain ⟨rfl, rfl⟩ := ok_of_pure hreturn
  exact ⟨hobjects, rfl, rfl, hclauses⟩

/-- It has compiled its parts. -/
theorem ok_of_selectFrom {q : Select} {stmt : Statement}
    (h : (selectFrom q result).run env st = (.ok stmt, st')) :
    (q.shape.map ShapeElement.name).Nodup
      ∧ (q.shape ≠ [] → st.HasObjects env.schema result)
      ∧ stmt.result = result ∧ stmt.scope = env.frame.scope
      ∧ (parts result q.parts).run (env.about result) st = (.ok stmt.parts, st') := by
  obtain ⟨hobjects, hresult, hscope, hclauses⟩ := clauses_of_selectFrom h
  obtain ⟨_, _, hshape, -⟩ := ok_of_bind hclauses
  obtain ⟨hnames, -⟩ := nodup_of_shapeElements hshape
  refine ⟨hnames, hobjects, hresult, hscope, ?_⟩
  rw [parts_eq hnames, run_bind_ok hclauses]
  rfl

/-- A statement goes on to compile from its result if its parts do, the
names of its shape are distinct, and there are objects to show. -/
theorem exists_run_selectFrom {q : Select} {compiled : List Ir.Part}
    (hnames : (q.shape.map ShapeElement.name).Nodup)
    (hobjects : q.shape ≠ [] → st.HasObjects env.schema result)
    (hparts : (parts result q.parts).run (env.about result) st = (.ok compiled, st'))
    (hresult : ∃ node, st'.arena.get? result = some node)
    (hlimit : ∀ id, Ir.Part.limit id ∈ compiled →
      ∃ node, st'.arena.get? id = some node) :
    ∃ stmt, (selectFrom q result).run env st = (.ok stmt, st') := by
  rw [parts_eq hnames] at hparts
  obtain ⟨cs, _, hclauses, hpure⟩ := ok_of_bind hparts
  obtain ⟨rfl, rfl⟩ := ok_of_pure hpure
  obtain ⟨node, hn⟩ := hresult
  obtain ⟨c, hc⟩ := st'.exists_judge? env.frame.scope hn
  let stmt : Statement :=
    ⟨result, cs.shape, cs.filter, cs.groupBy, cs.orderBy, cs.offset, cs.limit, c,
      env.frame.scope, q.span⟩
  obtain ⟨d, -, hcount⟩ := run_statementCardinality (env.about result) stmt rfl hc
    fun id hid => hlimit id (cs.limit_mem_parts hid)
  have hcheck : (checkShape result q.shape).run (env.about result) st = (.ok (), st) :=
    run_checkShape_iff.2 ⟨hobjects, rfl⟩
  refine ⟨{ stmt with cardinality := d }, ?_⟩
  rw [selectFrom_eq, run_underSubject, run_bind_ok hcheck, run_bind_ok hclauses,
    run_bind_ok hcount]
  rfl

/-- Statements that select the same under the same modules go on from one
result in one store, if there is a statement that does. -/
theorem run_select_akin {q : Select} {stmt : Statement}
    (h : (select q).run env st = (.ok stmt, st')) :
    ∃ (result : SetId) (mid : Store κ),
      (selectResult q).run (env.inside st.scopes.size q)
          (st.opened env.frame.scope) = (.ok result, mid)
        ∧ ∀ q', q.Akin q' → (select q').run env st
            = (selectFrom q' result).run (env.inside st.scopes.size q) mid := by
  obtain ⟨result, mid, hresult, -⟩ := ok_of_select h
  refine ⟨result, mid, hresult, fun q' hq' => ?_⟩
  have hresult' : (selectResult q').run (env.inside st.scopes.size q)
      (st.opened env.frame.scope) = (.ok result, mid) := by
    unfold selectResult
    rw [hq'.result]
    exact hresult
  rw [select_eq, run_inScope] at h
  unfold inClause at h
  rw [run_underFrame] at h
  rw [select_eq, run_inScope]
  unfold inClause
  rw [run_underFrame, hq'.modules, run_withModules_of_ok h]
  exact run_bind_ok hresult'

end CompileM

end PathQuery
