/-
Statements endure.

What a statement compiles to against a schema it compiles to against
whatever the schema grows to, as long as it uses none of the names that
were added (`compileWith_grown`), by induction on the syntax. A schema
that was built grows in this way when more is declared and the whole is
built again, if its functions mention its own types and no two names
have one identity (`Registry.grownBy_of_declareAll`), so declarations
that are added change no query that was accepted before
(`compileWith_extended`).
-/
import PathQuery.Proofs.Evolution.Steps
import PathQuery.Proofs.Names.Qualification

namespace PathQuery

open Ast (Expr Select ShapeElement)
open Ir (Value Statement ShapeNode)

variable {κ : Type}

namespace CompileM.Endures

section

variable [NameDigest] {added : List String} {s s' : Schema}
  (hg : s.GrownBy added s') {id : SetId} {t : TypeId} {span : Span}

include hg

-- ================================================================ paths

section

variable [DecidableEq κ]

omit hg [NameDigest] in
theorem shared {key : κ} {confirm : Ir.Arena κ → SetId → Bool}
    {m m' : CompileM κ SetId} (hm : Endures s s' m m') :
    Endures s s' (CompileM.shared key confirm m)
      (CompileM.shared key confirm m') := by
  unfold CompileM.shared
  refine bind (of_arena fun _ _ => ⟨rfl, rfl⟩) fun found _ => ?_
  cases found with
  | some found =>
      refine store fun st _ => ?_
      split
      · exact pure trivial
      · exact hm
  | none =>
      exact bind hm fun _ _ => bind (of_arena fun _ _ => ⟨rfl, rfl⟩) fun _ _ =>
        pure trivial

variable [PathKey κ]

omit hg [NameDigest] in
theorem rootSet (ht : s.isRegistered t = true) : Endures (κ := κ) s s'
    (CompileM.rootSet t span) (CompileM.rootSet t span) := by
  unfold CompileM.rootSet
  exact shared (newSet ht)

/-- The pointers of a known type are those that it had, and lead to known
types. -/
theorem extendPath {name : String} : Endures (κ := κ) s s'
    (CompileM.extendPath id name span) (CompileM.extendPath id name span) := by
  unfold CompileM.extendPath
  refine bind getSet fun node hn => schema (frame fun frame => ?_)
  rw [hg.isObject_eq hn, hg.findPointer_eq hn]
  refine bind require fun _ _ => bind
    (orFail (P := fun p => s.isRegistered p.target = true) fun p hp => ?_)
    fun p hp => shared (bind judge fun _ _ => newSet hp)
  obtain ⟨owner, entry, hentry, hpointer⟩ := Schema.exists_of_findPointer hp
  exact (hg.resolves owner entry hentry).2 name p hpointer

theorem pathStart {p : Ast.Path}
    (hnames : Avoids added p.root.toList) :
    Endures (κ := κ) s s' (CompileM.pathStart p) (CompileM.pathStart p) := by
  obtain ⟨root, steps, span⟩ := p
  unfold CompileM.pathStart
  cases root with
  | none => exact frame fun _ => orFail fun _ _ => trivial
  | some root =>
      refine bind (resolve hg (hnames root List.mem_cons_self)) fun item hitem => ?_
      cases item with
      | type id entry => exact bind require fun _ _ => rootSet hitem
      | function name sig => exact fail

theorem extendAll {steps : List Ast.PathStep} : Endures (κ := κ) s s'
    (steps.foldlM
      (fun set step => CompileM.extendPath set step.name step.span) id)
    (steps.foldlM
      (fun set step => CompileM.extendPath set step.name step.span) id) := by
  induction steps generalizing id with
  | nil => exact pure trivial
  | cons step steps ih =>
      rw [List.foldlM_cons]
      exact bind (extendPath hg) fun _ _ => ih

theorem path {p : Ast.Path}
    (hnames : Avoids added p.root.toList) :
    Endures (κ := κ) s s' (CompileM.path p) (CompileM.path p) :=
  bind (pathStart hg hnames) fun _ _ => extendAll hg

-- =============================================================== syntax

omit [DecidableEq κ] [PathKey κ] in
theorem withShape {m m' : CompileM κ (List ShapeNode)}
    {elements : List ShapeElement} (hm : Endures s s' m m') :
    Endures s s' (CompileM.withShape id elements m)
      (CompileM.withShape id elements m') := by
  unfold CompileM.withShape
  cases elements with
  | nil => exact pure trivial
  | cons first rest =>
      exact bind (requireObject hg.toExtendedBy) fun _ _ =>
        inClause (underSubject hm)

/-- A statement from its parts. -/
theorem selectOf {modules : List Ast.ModuleDecl} {result : Expr}
    {elements : List ShapeElement} {filter offset limit : Option Expr}
    {groupBy : List Expr} {orderBy : List Ast.SortKey}
    (hresult : Endures (κ := κ) s s' (CompileM.expr result)
      (CompileM.expr result) fun v => v.KnownTo s)
    (helements : ∀ subject, Endures (κ := κ) s s'
      (CompileM.shapeElements subject [] elements)
      (CompileM.shapeElements subject [] elements))
    (hfilter : Endures (κ := κ) s s' (CompileM.filterClause filter)
      (CompileM.filterClause filter))
    (hgroupBy : Endures (κ := κ) s s' (CompileM.groupKeys groupBy)
      (CompileM.groupKeys groupBy))
    (horderBy : Endures (κ := κ) s s' (CompileM.sortKeys orderBy)
      (CompileM.sortKeys orderBy))
    (hoffset : Endures (κ := κ) s s' (CompileM.boundClause offset)
      (CompileM.boundClause offset))
    (hlimit : Endures (κ := κ) s s' (CompileM.boundClause limit)
      (CompileM.boundClause limit)) :
    Endures (κ := κ) s s'
      (CompileM.select ⟨modules, result, elements, filter, groupBy, orderBy,
        offset, limit, span⟩)
      (CompileM.select ⟨modules, result, elements, filter, groupBy, orderBy,
        offset, limit, span⟩) := by
  unfold CompileM.select
  refine inScope (inClause (withModules hg (bind hresult fun v hv =>
    bind (attachAny hg hv) fun id _ => underSubject ?_)))
  exact bind (withShape hg (helements id)) fun _ _ => bind hfilter fun _ _ =>
    bind (inClause hgroupBy) fun _ _ => bind (inClause horderBy) fun _ _ =>
    bind (inClause hoffset) fun _ _ => bind (inClause hlimit) fun _ _ =>
    bind statementCardinality fun _ _ => frame fun _ => pure trivial

-- some of these use the assumption only through the others
set_option linter.unusedSectionVars false in
mutual

theorem expr : (e : Expr) → Avoids added e.names →
    Endures (κ := κ) s s' (CompileM.expr e) (CompileM.expr e)
      fun v => v.KnownTo s
  | .constant value _, _ => pure (Or.inl (hg.literals value))
  | .emptySet _, _ => pure (Or.inr rfl)
  | .path _, h => bind (path hg h) fun _ _ => pure trivial
  | .binary l _ r _, h => by
      obtain ⟨hl, hr⟩ := List.forall_mem_append.1 h
      exact bind (expr l hl) fun _ hv => bind (expr r hr) fun _ hw =>
        binary hg hv hw
  | .unary .not operand _, h => bind (expr operand h) fun _ hv =>
      logicalNot hg hv
  | .unary .neg operand _, h => bind (expr operand h) fun _ hv =>
      arithmeticNeg hg hv
  | .unary .exists operand _, h => existence hg (expr operand h)
  | .call _ args _, h => by
      obtain ⟨hfunction, hargs⟩ := List.forall_mem_cons.1 h
      refine bind (callee hg hfunction) fun out hout => ?_
      refine bind (arguments args hargs fun p hp t ht => ?_) fun _ _ => call hout
      exact hout t (List.mem_append_left _ (List.mem_flatMap.2 ⟨p, hp, ht⟩))
  | .cast _ operand _, h => by
      obtain ⟨htarget, hoperand⟩ := List.forall_mem_cons.1 h
      exact bind (castTarget hg htarget) fun _ ht =>
        bind (expr operand hoperand) fun _ hv => cast hg.toExtendedBy hv ht
  | .set elements _, h => bind (exprs elements h) fun _ hv => setOf hg hv
  | .select query, h => bind (select query h) fun _ _ => subquery
  | .paren inner _, h => expr inner h
termination_by structural e => e

theorem exprs : (es : List Expr) → Avoids added (Expr.namesOf es) →
    Endures (κ := κ) s s' (CompileM.exprs es) (CompileM.exprs es)
      fun values => ∀ e ∈ values, e.1.KnownTo s
  | [], _ => pure nofun
  | e :: es, h => by
      obtain ⟨he, hes⟩ := List.forall_mem_append.1 h
      refine bind (expr e he) fun _ hv => bind (exprs es hes) fun _ hvs =>
        pure ?_
      exact List.forall_mem_cons.2 ⟨hv, hvs⟩
termination_by structural es => es

theorem arguments : (args : List Expr) → Avoids added (Expr.namesOf args) →
    ∀ {function : QualifiedName} {position : Nat} {params : List Parameter}
      {c : Cardinality},
    (∀ p ∈ params, ∀ t ∈ p.type.mentions, s.isRegistered t = true) →
    Endures (κ := κ) s s'
      (CompileM.arguments function position params c args)
      (CompileM.arguments function position params c args)
  | [], _, _, _, [], _, _ => pure trivial
  | [], _, _, _, _ :: _, _, _ => pure trivial
  | _ :: _, _, _, _, [], _, _ => pure trivial
  | arg :: args, h, _, _, _ :: _, _, hp => by
      obtain ⟨harg, hargs⟩ := List.forall_mem_append.1 h
      obtain ⟨hfirst, hrest⟩ := List.forall_mem_cons.1 hp
      exact bind (argument hg (expr arg harg) hfirst) fun _ _ =>
        bind (arguments args hargs hrest) fun _ _ => pure trivial
termination_by structural args => args

theorem filterClause : (e : Option Expr) → Avoids added (Expr.namesIn e) →
    Endures (κ := κ) s s' (CompileM.filterClause e) (CompileM.filterClause e)
  | none, _ => pure trivial
  | some e, h => bind (filterBy hg (expr e h)) fun _ _ => pure trivial
termination_by structural e => e

theorem boundClause : (e : Option Expr) → Avoids added (Expr.namesIn e) →
    Endures (κ := κ) s s' (CompileM.boundClause e) (CompileM.boundClause e)
  | none, _ => pure trivial
  | some e, h => bind (bound hg (expr e h)) fun _ _ => pure trivial
termination_by structural e => e

theorem groupKeys : (keys : List Expr) → Avoids added (Expr.namesOf keys) →
    Endures (κ := κ) s s' (CompileM.groupKeys keys) (CompileM.groupKeys keys)
  | [], _ => pure trivial
  | e :: es, h => by
      obtain ⟨he, hes⟩ := List.forall_mem_append.1 h
      exact bind (key hg (expr e he)) fun _ _ => bind (groupKeys es hes)
        fun _ _ => pure trivial
termination_by structural keys => keys

theorem sortKeys : (keys : List Ast.SortKey) →
    Avoids added (Ast.SortKey.namesOf keys) →
    Endures (κ := κ) s s' (CompileM.sortKeys keys) (CompileM.sortKeys keys)
  | [], _ => pure trivial
  | ⟨e, _, _, _⟩ :: keys, h => by
      obtain ⟨he, hkeys⟩ := List.forall_mem_append.1 h
      exact bind (key hg (expr e he)) fun _ _ => bind (sortKeys keys hkeys)
        fun _ _ => pure trivial
termination_by structural keys => keys

theorem shapeElement : (e : ShapeElement) → Avoids added e.names →
    ∀ {subject : SetId}, Endures (κ := κ) s s'
      (CompileM.shapeElement subject e) (CompileM.shapeElement subject e)
  | .mk _ (some e) _ _, h, _ => bind (expr e h) fun _ hv =>
      bind (attachAny hg hv) fun _ _ => pure trivial
  | .mk _ none elements _, h, _ => bind (extendPath hg) fun _ _ =>
      bind (withShape hg (shapeElements elements h)) fun _ _ => pure trivial
termination_by structural e => e

theorem shapeElements : (es : List ShapeElement) →
    Avoids added (ShapeElement.namesOf es) →
    ∀ {subject : SetId} {taken : List String}, Endures (κ := κ) s s'
      (CompileM.shapeElements subject taken es)
      (CompileM.shapeElements subject taken es)
  | [], _, _, _ => pure trivial
  | e :: es, h, _, _ => by
      obtain ⟨he, hes⟩ := List.forall_mem_append.1 h
      exact bind require fun _ _ => bind (inScope (shapeElement e he))
        fun _ _ => bind (shapeElements es hes) fun _ _ => pure trivial
termination_by structural es => es

/-- A statement that uses none of the names added. -/
theorem select : (q : Select) → Avoids added q.names →
    Endures (κ := κ) s s' (CompileM.select q) (CompileM.select q)
  | ⟨_, result, elements, filter, groupBy, orderBy, offset, limit, _⟩, h => by
      obtain ⟨h, hlimit⟩ := List.forall_mem_append.1 h
      obtain ⟨h, hoffset⟩ := List.forall_mem_append.1 h
      obtain ⟨h, horderBy⟩ := List.forall_mem_append.1 h
      obtain ⟨h, hgroupBy⟩ := List.forall_mem_append.1 h
      obtain ⟨h, hfilter⟩ := List.forall_mem_append.1 h
      obtain ⟨hresult, hshape⟩ := List.forall_mem_append.1 h
      exact selectOf hg (expr result hresult)
        (fun _ => shapeElements elements hshape) (filterClause filter hfilter)
        (groupKeys groupBy hgroupBy) (sortKeys orderBy horderBy)
        (boundClause offset hoffset) (boundClause limit hlimit)
termination_by structural q => q

end

end

-- ============================================================ the whole

theorem checkOptions {o : CompileOptions} : Endures (κ := κ) s s'
    (CompileM.checkOptions o span) (CompileM.checkOptions o span) := by
  unfold CompileM.checkOptions
  induction o.defaultModule.toList ++ o.aliases.values with
  | nil => exact pure trivial
  | cons module modules ih =>
      exact bind (f := fun _ => modules.forM _) (checkModule hg) fun _ _ => ih

theorem limitImplicitly {stmt : Statement} {limit : Int} :
    Endures (κ := κ) s s' (CompileM.limitImplicitly stmt limit)
      (CompileM.limitImplicitly stmt limit) := by
  unfold CompileM.limitImplicitly
  split
  · exact pure trivial
  · exact bind (newComputed (hg.literals (.int 0))) fun _ _ =>
      bind limited fun _ _ => pure trivial

theorem statement [DecidableEq κ] [PathKey κ] (o : CompileOptions) (q : Select)
    (hq : Avoids added q.names) : Endures (κ := κ) s s'
    (CompileM.statement o q) (CompileM.statement o q) := by
  unfold CompileM.statement
  refine bind (checkOptions hg) fun _ _ => bind (select hg q hq) fun stmt _ => ?_
  cases o.implicitLimit with
  | some limit => exact limitImplicitly hg
  | none => exact pure trivial

end

end CompileM.Endures

section

variable [DecidableEq κ] [PathKey κ] [NameDigest]

/-- What is compiled against a schema is compiled against what it has
grown to, if no name in it is one of those added. -/
theorem compileWith_grown {added : List String} {s s' : Schema}
    (hg : s.GrownBy added s') {o : CompileOptions} {q : Select}
    (hq : Avoids added q.names) {c : Compiled κ}
    (h : compileWith κ s o q = .ok c) : compileWith κ s' o q = .ok c := by
  obtain ⟨scopes, hrun⟩ := exists_run_of_compileWith h
  have hnew : (Store.new : Store κ).KnownTo s := fun id node hn => by cases hn
  obtain ⟨hrun', -, -⟩ :=
    CompileM.Endures.statement hg o q hq o.frame _ _ _ hnew hrun
  unfold compileWith
  rw [hrun']

-- =========================================================== registries

namespace Registry

open Declaration (declaredItem?_of_type)

variable {ds more : List Declaration} {r r' : Registry} {s s' : Schema}

omit [DecidableEq κ] [PathKey κ] in
/-- A schema grows by what is declared after it was built. -/
theorem grownBy_of_declareAll (h : builtin.declareAll ds = .ok r)
    (hbuild : r.build = .ok s) (hmore : r.declareAll more = .ok r')
    (hbuild' : r'.build = .ok s') (ha : s'.Apart)
    (hf : ∀ f sig, s.function? f = some sig →
      ∀ t ∈ sig.mentions, s.isRegistered t = true) :
    s.GrownBy (more.filterMap fun d => d.declaredItem?.map (·.name)) s' := by
  have hreaches := declareAll_reaches h
  have hdeclared : Declared r := builtin_reached.1.trans hreaches
  have hresolves := Declared.resolves hdeclared hbuild
  obtain ⟨rfl, -⟩ := checked_of_build hbuild
  obtain ⟨rfl, -⟩ := checked_of_build hbuild'
  have hadds := adds_of_declareAll hmore
  have hext : r.schema.ExtendedBy r'.schema :=
    ⟨fun _ _ hid => Reaches.keeps (declareAll_reaches hmore)
      (Reaches.filed hdeclared filed_empty) ha hid, hresolves⟩
  refine ⟨hext, fun module hmodule => (hadds.modules module).2 (Or.inl hmodule),
    fun name hname => ?_, hreaches.isRegistered_literal, hf⟩
  -- an item of that name would be one of those added
  have hnone : ∀ d ∈ more, d.declaredItem? ≠ some name := by
    intro d hd hitem
    refine hname (List.mem_filterMap.2 ⟨d, hd, ?_⟩)
    rw [hitem]
    rfl
  refine Schema.lookup_congr ?_ (fun id hid => ?_) ?_
  · refine Option.ext fun id => ?_
    rw [hadds.names]
    refine or_iff_left fun hnew => ?_
    obtain ⟨-, d, hd, htype⟩ := hnew
    exact hnone d hd (declaredItem?_of_type htype)
  · exact hext.type?_eq (Declared.leads hdeclared name id hid).2
  · refine Option.ext fun sig => ?_
    rw [hadds.functions]
    exact or_iff_left fun hd => hnone _ hd rfl

end Registry

/-- Declarations that are added to those of a schema, all of them built,
change no statement that was accepted, if it uses no simple name of what
is added, the functions that there were mention types that there were,
and no two names have one identity. -/
theorem compileWith_extended {ds more : List Declaration} {r r' : Registry}
    {s s' : Schema} (h : Registry.builtin.declareAll ds = .ok r)
    (hbuild : r.build = .ok s) (hmore : r.declareAll more = .ok r')
    (hbuild' : r'.build = .ok s') (ha : s'.Apart)
    (hf : ∀ f sig, s.function? f = some sig →
      ∀ t ∈ sig.mentions, s.isRegistered t = true)
    {o : CompileOptions} {q : Select}
    (hq : ∀ ref ∈ q.names, ∀ d ∈ more, ∀ item, d.declaredItem? = some item →
      ref.name.name ≠ item.name)
    {c : Compiled κ} (hc : compileWith κ s o q = .ok c) :
    compileWith κ s' o q = .ok c := by
  refine compileWith_grown
    (Registry.grownBy_of_declareAll h hbuild hmore hbuild' ha hf)
    (fun ref href hadded => ?_) hc
  obtain ⟨d, hd, hname⟩ := List.mem_filterMap.1 hadded
  obtain ⟨item, hitem, heq⟩ := Option.map_eq_some_iff.1 hname
  exact hq ref href d hd item hitem heq.symm

end

-- ============================================================= example

/-- Whether functions mention types that the schema knows. -/
def Schema.mentionsRegistered (s : Schema) : Bool :=
  s.functions.values.all fun sig => sig.mentions.all s.isRegistered

theorem Schema.mentionsRegistered_of_check {s : Schema}
    (h : s.mentionsRegistered = true) (f : QualifiedName) (sig : Signature)
    (hf : s.function? f = some sig) :
    ∀ t ∈ sig.mentions, s.isRegistered t = true :=
  List.all_eq_true.1 (List.all_eq_true.1 h sig (Table.mem_values_of_get? hf))

open scoped Xxh64

/-- People who work somewhere, and a function of their own. -/
def staff : List Declaration :=
  [.scalar "office::Room" "std::int",
   .object "office::Employee" ["default::Person"]
    [.property "room" "office::Room" {},
     .toObjects "boss" "office::Employee" {}],
   .function (.within "office" "headcount") ⟨[], .concrete TypeId.int, .one⟩]

theorem compileWith_extended_staff : ∃ r r' s s' c,
    Registry.builtin.declareAll people = .ok r ∧ r.build = .ok s
      ∧ r.declareAll staff = .ok r' ∧ r'.build = .ok s'
      ∧ compile s peopleFirst friendCounts = .ok c
      ∧ compile s' peopleFirst friendCounts = .ok c := by
  obtain ⟨r, hr, hchecks⟩ := exists_ok_of_map
    (x := Registry.builtin.declareAll people)
    (f := fun r : Registry => (r.build.isOk, r.schema.mentionsRegistered,
      (compile r.schema peopleFirst friendCounts).isOk,
      (r.declareAll staff).map fun r' : Registry => (r'.build.isOk,
        decide (r'.schema.names.entries.map Prod.snd).Nodup)))
    (b := (true, true, true, .ok (true, true))) (by decide +kernel)
  obtain ⟨hbuild, hrest⟩ := Prod.mk.inj hchecks
  obtain ⟨hmentions, hrest⟩ := Prod.mk.inj hrest
  obtain ⟨hcompile, hmore⟩ := Prod.mk.inj hrest
  obtain ⟨r', hr', hchecks'⟩ := exists_ok_of_map hmore
  obtain ⟨hbuild', hnodup⟩ := Prod.mk.inj hchecks'
  obtain ⟨s, hs⟩ := exists_ok_of_isOk hbuild
  obtain ⟨s', hs'⟩ := exists_ok_of_isOk hbuild'
  obtain ⟨rfl, -⟩ := Registry.checked_of_build hs
  obtain ⟨rfl, -⟩ := Registry.checked_of_build hs'
  obtain ⟨c, hc⟩ := exists_ok_of_isOk hcompile
  refine ⟨r, r', r.schema, r'.schema, c, hr, hs, hr', hs', hc, ?_⟩
  refine compileWith_extended hr hs hr' hs'
    (Schema.apart_of_nodup (of_decide_eq_true hnodup))
    (Schema.mentionsRegistered_of_check hmentions) ?_ hc
  decide +kernel

end PathQuery
