/-
A shape is compiled to one that mirrors it.

Level by level, the nodes of a compiled shape have the names of the
elements written, in order and each once (`Store.Mirrors`). A computed
element has a set of some type and nothing below it. A plain element has a
set that is one pointer further from the path of the subject of its level
(`Store.Steps`), and is the subject of the level below. Where a subject was
compiled before, its path may have sets already, so it is by their paths
that a set and the subject are compared, and not by their numbers.

What a shape must not be is said of the written elements and of the type
of the subject alone (`Schema.Misshapes`). A compiled shape that mirrors
the elements shows that they are not so (`Store.Mirrors.not_misshapes`),
whatever the order in which they were looked at, so a statement with such
a shape does not compile (`Session.Reachable.shape_mirrors`).
-/
import PathQuery.Proofs.Statement.Visits

namespace PathQuery

open Ast (Expr Select ShapeElement)
open Ir (Arena ShapeNode Statement)

variable {κ : Type}

-- ====================================================== written shapes

/-- A name stands twice at one level of a shape, at the first one or below
a plain element. -/
inductive Ast.ShapeElement.Repeats : List ShapeElement → Prop where
  | here {es : List ShapeElement} (h : ¬(es.map ShapeElement.name).Nodup) :
      Repeats es
  | under {es : List ShapeElement} {e : ShapeElement} (he : e ∈ es)
      (hplain : e.computed = none) (h : Repeats e.elements) : Repeats es

/-- A shape cannot be one of objects of the type: a name stands twice, the
type is not one of objects, or a plain element names no pointer or has a
shape that cannot be one of what the pointer leads to. -/
inductive Schema.Misshapes (s : Schema) : TypeId → List ShapeElement → Prop where
  | repeated {t : TypeId} {es : List ShapeElement}
      (h : ¬(es.map ShapeElement.name).Nodup) : Misshapes s t es
  | scalar {t : TypeId} {es : List ShapeElement} (hne : es ≠ [])
      (h : s.isObject t = false) : Misshapes s t es
  | unknown {t : TypeId} {es : List ShapeElement} {e : ShapeElement} (he : e ∈ es)
      (hplain : e.computed = none) (h : s.findPointer t e.name = none) :
      Misshapes s t es
  | under {t : TypeId} {es : List ShapeElement} {e : ShapeElement} {p : Pointer}
      (he : e ∈ es) (hplain : e.computed = none)
      (hp : s.findPointer t e.name = some p) (h : Misshapes s p.target e.elements) :
      Misshapes s t es

/-- A repeated name is at fault whatever the type. -/
theorem Ast.ShapeElement.Repeats.misshapes {es : List ShapeElement}
    (h : Repeats es) (s : Schema) (t : TypeId) : s.Misshapes t es := by
  induction h generalizing t with
  | here h => exact .repeated h
  | @under es e he hplain _ ih =>
      cases hp : s.findPointer t e.name with
      | none => exact .unknown he hplain hp
      | some p => exact .under he hplain hp (ih p.target)

-- ===================================================== compiled shapes

namespace Store

variable {st st' : Store κ} {s : Schema} {subject set : SetId} {t : TypeId}
  {name : String} {p : Pointer} {es : List ShapeElement} {nodes : List ShapeNode}

/-- A set is a step along a pointer of the subject, from a set of the same
path. -/
structure Steps (st : Store κ) (s : Schema) (subject : SetId) (name : String)
    (p : Pointer) (set : SetId) : Prop where
  pointer : ∃ t, st.arena.type? subject = some t ∧ s.findPointer t name = some p
  step : ∃ node source, st.arena.get? set = some node
    ∧ node.origin = .step source name p.cardinality
    ∧ st.arena.canonical source = st.arena.canonical subject
    ∧ node.type = p.target

/-- Nodes mirror the elements of a shape of the subject. -/
inductive Mirrors (st : Store κ) (s : Schema) :
    SetId → List ShapeElement → List ShapeNode → Prop where
  | nil {subject : SetId} : Mirrors st s subject [] []
  | computed {subject set : SetId} {name : String} {e : Expr}
      {written : List ShapeElement} {span : Span} {t : TypeId}
      {es : List ShapeElement} {nodes : List ShapeNode}
      (hobjects : st.HasObjects s subject)
      (hfresh : name ∉ es.map ShapeElement.name)
      (htype : st.arena.type? set = some t) (hne : t ≠ .empty)
      (rest : Mirrors st s subject es nodes) :
      Mirrors st s subject (.mk name (some e) written span :: es)
        (.mk name set true [] :: nodes)
  | pointer {subject set : SetId} {name : String} {elements : List ShapeElement}
      {span : Span} {p : Pointer} {nested : List ShapeNode}
      {es : List ShapeElement} {nodes : List ShapeNode}
      (hobjects : st.HasObjects s subject)
      (hfresh : name ∉ es.map ShapeElement.name)
      (hset : st.Steps s subject name p set)
      (below : Mirrors st s set elements nested)
      (rest : Mirrors st s subject es nodes) :
      Mirrors st s subject (.mk name none elements span :: es)
        (.mk name set false nested :: nodes)

theorem HasObjects.mono (h : st.Extends st') (ho : st.HasObjects s subject) :
    st'.HasObjects s subject := by
  obtain ⟨t, ht, hobj⟩ := ho
  exact ⟨t, h.arena.type? ht, hobj⟩

theorem Steps.type? (h : st.Steps s subject name p set) :
    st.arena.type? set = some p.target := by
  obtain ⟨node, _, hn, -, -, htype⟩ := h.step
  exact Arena.type?_eq_some_iff.2 ⟨node, hn, htype⟩

theorem Steps.mono (h : st.Extends st') (hs : st.Steps s subject name p set) :
    st'.Steps s subject name p set := by
  obtain ⟨⟨t, ht, hp⟩, node, source, hn, ho, hpath, htype⟩ := hs
  refine ⟨⟨t, h.arena.type? ht, hp⟩, node, source, h.arena _ _ hn, ho, ?_, htype⟩
  obtain ⟨src, hsrc⟩ := Arena.exists_get?_source hn (by rw [ho]; rfl)
  obtain ⟨sub, hsub, -⟩ := Arena.type?_eq_some_iff.1 ht
  rw [h.arena.canonical_eq hsrc, h.arena.canonical_eq hsub, hpath]

variable [DecidableEq κ] [PathKey κ] [NameDigest]

/-- Where a set is found for one pointer further from the subject, it is a
step along that pointer. -/
theorem Steps.of_finds {R : Regime} {scope : ScopeId} (hst : st.Sound R s)
    (ht : st.arena.type? subject = some t) (hp : s.findPointer t name = some p)
    (hf : st.Finds scope set (.step (st.arena.canonical subject) name)) :
    st.Steps s subject name p set := by
  obtain ⟨node, hn, -, -, hpath⟩ := hf
  obtain ⟨source, per, ho, hsource⟩ := Arena.origin_of_canonical_step hn hpath
  obtain ⟨src, p', hsrc, -, -, hp', rfl, htype, -⟩ := (hst.sets set node hn).of_step ho
  obtain ⟨sub, hsub, rfl⟩ := Arena.type?_eq_some_iff.1 ht
  rw [hst.type_eq hsrc hsub hsource, hp] at hp'
  cases hp'
  exact ⟨⟨_, ht, hp⟩, node, source, hn, ho, hsource, htype⟩

namespace Mirrors

omit [DecidableEq κ] [PathKey κ] [NameDigest]

theorem mono (h : st.Extends st') (hm : st.Mirrors s subject es nodes) :
    st'.Mirrors s subject es nodes := by
  induction hm with
  | nil => exact .nil
  | computed hobjects hfresh htype hne _ ih =>
      exact .computed (hobjects.mono h) hfresh (h.arena.type? htype) hne ih
  | pointer hobjects hfresh hset _ _ ihbelow ih =>
      exact .pointer (hobjects.mono h) hfresh (hset.mono h) ihbelow ih

/-- A level is mirrored element by element. -/
theorem cons {e : ShapeElement} {node : ShapeNode}
    (h : st.Mirrors s subject [e] [node]) (hfresh : e.name ∉ es.map ShapeElement.name)
    (hrest : st.Mirrors s subject es nodes) :
    st.Mirrors s subject (e :: es) (node :: nodes) := by
  cases h with
  | computed hobjects _ htype hne _ =>
      exact .computed hobjects hfresh htype hne hrest
  | pointer hobjects _ hset hbelow _ =>
      exact .pointer hobjects hfresh hset hbelow hrest

theorem nodup (h : st.Mirrors s subject es nodes) :
    (es.map ShapeElement.name).Nodup := by
  induction h with
  | nil => exact .nil
  | computed _ hfresh _ _ _ ih => exact List.nodup_cons.2 ⟨hfresh, ih⟩
  | pointer _ hfresh _ _ _ _ ih => exact List.nodup_cons.2 ⟨hfresh, ih⟩

theorem hasObjects (h : st.Mirrors s subject es nodes) (hne : es ≠ []) :
    st.HasObjects s subject := by
  cases h with
  | nil => exact absurd rfl hne
  | computed hobjects => exact hobjects
  | pointer hobjects => exact hobjects

/-- A plain element has a node, and what is below it mirrors what is
written below it. -/
theorem exists_of_plain (h : st.Mirrors s subject es nodes) {e : ShapeElement}
    (he : e ∈ es) (hplain : e.computed = none) :
    ∃ p set nested, st.Steps s subject e.name p set
      ∧ st.Mirrors s set e.elements nested := by
  induction h with
  | nil => cases he
  | computed _ _ _ _ _ ih =>
      rcases List.mem_cons.1 he with rfl | he
      · cases hplain
      · exact ih he
  | pointer _ _ hset below _ _ ih =>
      rcases List.mem_cons.1 he with rfl | he
      · exact ⟨_, _, _, hset, below⟩
      · exact ih he

/-- A shape that was compiled was one of objects of the type of the
subject. -/
theorem not_misshapes (h : st.Mirrors s subject es nodes)
    (ht : st.arena.type? subject = some t) : ¬s.Misshapes t es := by
  intro hmis
  induction hmis generalizing subject nodes with
  | repeated hrep => exact hrep h.nodup
  | scalar hne hscalar =>
      obtain ⟨u, hu, hobj⟩ := h.hasObjects hne
      cases ht.symm.trans hu
      cases hscalar.symm.trans hobj
  | unknown he hplain hnone =>
      obtain ⟨p, _, _, hset, -⟩ := h.exists_of_plain he hplain
      obtain ⟨u, hu, hp⟩ := hset.pointer
      cases ht.symm.trans hu
      cases hnone.symm.trans hp
  | under he hplain hp _ ih =>
      obtain ⟨p', set, nested, hset, hbelow⟩ := h.exists_of_plain he hplain
      obtain ⟨u, hu, hp'⟩ := hset.pointer
      cases ht.symm.trans hu
      cases hp.symm.trans hp'
      exact ih hbelow hset.type?

end Mirrors

end Store

-- ========================================================= compilation

section

variable [DecidableEq κ] [PathKey κ] [NameDigest] {R : Regime}

namespace CompileM.Upholds

variable {env : Env} {st : Store κ} {span : Span}

/-- A shape that passes the check is empty or one of objects. -/
theorem checkShape {subject : SetId} {t : TypeId} {es : List ShapeElement}
    (hsubject : st.Holds R env.frame.scope subject t) :
    Upholds R env st (CompileM.checkShape subject es) fun st' _ =>
      st' = st ∧ (es ≠ [] → env.schema.isObject t = true) := by
  cases es with
  | nil => exact pure ⟨rfl, fun hne => absurd rfl hne⟩
  | cons first rest =>
      refine (requireObject hsubject).imp ?_
      intro _ _ _ _ h
      exact ⟨h.1, fun _ => h.2⟩

/-- The node of an element mirrors it. -/
def MirrorsOne (κ : Type) [DecidableEq κ] [PathKey κ] (R : Regime)
    (e : ShapeElement) : Prop :=
  ∀ (subject : SetId) (t : TypeId) (env : Env) (st : Store κ),
    st.Holds R env.frame.scope subject t → env.schema.isObject t = true →
    Upholds R env st (CompileM.shapeElement subject e) fun st' node =>
      st'.Mirrors env.schema subject [e] [node]

/-- The nodes of the elements of a shape mirror them. -/
def MirrorsAll (κ : Type) [DecidableEq κ] [PathKey κ] (R : Regime)
    (es : List ShapeElement) : Prop :=
  ∀ (subject : SetId) (t : TypeId) (taken : List String) (env : Env) (st : Store κ),
    st.Holds R env.frame.scope subject t →
    (es ≠ [] → env.schema.isObject t = true) →
    Upholds R env st (CompileM.shapeElements subject taken es) fun st' nodes =>
      st'.Mirrors env.schema subject es nodes ∧ ∀ e ∈ es, e.name ∉ taken

theorem mirrors_computed {name : String} {e : Expr} {written : List ShapeElement} :
    MirrorsOne κ R (.mk name (some e) written span) := by
  intro subject t env st hsubject hobj
  unfold CompileM.shapeElement
  refine bind (expr e env st) ?_
  intro v st₁ h₁ h
  obtain ⟨u, hv⟩ := h
  refine bind (attach hv fun h heq => by cases heq) ?_
  intro set st₂ h₂ h
  obtain ⟨u', hset, -, hown⟩ := h
  obtain ⟨rfl, hne⟩ := hown rfl
  have hobjects : st₂.HasObjects env.schema subject :=
    ⟨t, (hsubject.mono (h₁.trans h₂)).type?, hobj⟩
  exact pure (.computed hobjects List.not_mem_nil hset.type? hne .nil)

/-- One pointer further from a set is a step along it. -/
theorem extendPath_steps {subject : SetId} {t : TypeId} {name : String}
    (hsubject : st.Holds R env.frame.scope subject t) :
    Upholds R env st (CompileM.extendPath subject name span) fun st' set =>
      ∃ p, st'.Holds R env.frame.scope set p.target
        ∧ st'.Steps env.schema subject name p set := by
  refine (extendPath hsubject).imp ?_
  intro st' set hext hready h
  obtain ⟨p, -, hp, hset, hfinds⟩ := h
  obtain ⟨node, hn, -⟩ := id hsubject
  rw [← hext.arena.canonical_eq hn] at hfinds
  exact ⟨p, hset, .of_finds hready.sound (hsubject.mono hext).type? hp hfinds⟩

theorem mirrors_pointer {name : String} {elements : List ShapeElement}
    (helements : MirrorsAll κ R elements) :
    MirrorsOne κ R (.mk name none elements span) := by
  intro subject t env st hsubject hobj
  unfold CompileM.shapeElement
  refine bind (extendPath_steps hsubject) ?_
  intro set st₁ h₁ h
  obtain ⟨p, hset, hsteps⟩ := h
  rw [withShape_eq, bind_assoc]
  refine bind (checkShape hset) ?_
  intro _ st₂ _ h
  obtain ⟨rfl, hobjects⟩ := h
  refine bind (inClause (underSubject hset (helements set _ [] _ _ hset hobjects))) ?_
  intro nested st₃ h₃ h
  obtain ⟨hnested, -⟩ := h
  have hobjects' : st₃.HasObjects env.schema subject :=
    ⟨t, (hsubject.mono (h₁.trans h₃)).type?, hobj⟩
  exact pure (.pointer hobjects' List.not_mem_nil (hsteps.mono h₃) hnested .nil)

/-- An element is compiled in a node of its own, where the subject is seen
as well. -/
theorem mirrors_inScope {e : ShapeElement} (he : MirrorsOne κ R e) {subject : SetId}
    {t : TypeId} (hsubject : st.Holds R env.frame.scope subject t)
    (hobj : env.schema.isObject t = true) :
    Upholds R env st (CompileM.inScope (CompileM.shapeElement subject e))
      fun st' node => st'.Mirrors env.schema subject [e] [node] := by
  refine intro fun hready => inScope
    (fun st' node => st'.Mirrors env.schema subject [e] [node]) (fun _ => ?_)
    fun _ _ _ _ h => h
  exact he subject t _ _ (hready.holds_opened hsubject) hobj

theorem mirrors_cons {e : ShapeElement} {es : List ShapeElement}
    (he : MirrorsOne κ R e) (hes : MirrorsAll κ R es) : MirrorsAll κ R (e :: es) := by
  intro subject t taken env st hsubject hobjects
  have hobj := hobjects (List.cons_ne_nil e es)
  unfold CompileM.shapeElements
  refine require (by simp [CompileError.kind]) fun htaken => ?_
  refine bind (mirrors_inScope he hsubject hobj) ?_
  intro node st₁ h₁ hnode
  refine bind (hes subject t _ env st₁ (hsubject.mono h₁) fun _ => hobj) ?_
  intro nodes st₂ h₂ h
  obtain ⟨hnodes, hfree⟩ := h
  have hfresh : e.name ∉ es.map ShapeElement.name := by
    intro hmem
    obtain ⟨e', he', heq⟩ := List.mem_map.1 hmem
    exact hfree e' he' (heq ▸ List.mem_cons_self)
  refine pure ⟨(hnode.mono h₂).cons hfresh hnodes, fun e' he' => ?_⟩
  rcases List.mem_cons.1 he' with rfl | he'
  · simpa using htaken
  · exact fun hmem => hfree e' he' (List.mem_cons_of_mem _ hmem)

mutual

theorem mirrors_element : (e : ShapeElement) → MirrorsOne κ R e
  | .mk _ (some _) _ _ => mirrors_computed
  | .mk _ none elements _ => mirrors_pointer (mirrors_elements elements)
termination_by structural e => e

theorem mirrors_elements : (es : List ShapeElement) → MirrorsAll κ R es
  | [] => fun _ _ _ _ _ _ _ => pure ⟨.nil, fun _ he => by cases he⟩
  | e :: es => mirrors_cons (mirrors_element e) (mirrors_elements es)
termination_by structural es => es

end

/-- The shape of a statement mirrors the one written. -/
theorem mirrors_clauses {q : Select} {result : SetId} {t : TypeId}
    (hresult : st.Holds R env.frame.scope result t)
    (hobjects : q.shape ≠ [] → env.schema.isObject t = true) :
    Upholds R env st (CompileM.clauses q result) fun st' cs =>
      st'.Mirrors env.schema result q.shape cs.shape := by
  unfold CompileM.clauses
  refine bind (inClause (underSubject hresult
    (mirrors_elements q.shape result t [] _ _ hresult hobjects))) ?_
  intro shape st₁ _ h
  obtain ⟨hshape, -⟩ := h
  refine bind (filterClause q.filter _ _) ?_
  intro _ st₂ h₂ _
  refine bind (inClause (groupKeys q.groupBy _ _)) ?_
  intro _ st₃ h₃ _
  refine bind (inClause (sortKeys q.orderBy _ _)) ?_
  intro _ st₄ h₄ _
  refine bind (inClause (boundClause q.offset _ _)) ?_
  intro _ st₅ h₅ _
  refine bind (inClause (boundClause q.limit _ _)) ?_
  intro _ st₆ h₆ _
  exact pure (hshape.mono ((((h₂.trans h₃).trans h₄).trans h₅).trans h₆))

end CompileM.Upholds

-- ============================================================ sessions

namespace Session

open CompileM

variable {S S' : Session κ} {q : Select} {stmt : Statement} {lexical : Prop}

/-- A statement that compiles has a shape that mirrors the one written, of
what its result was before that. -/
theorem mirrors_of_select (hr : S.env.Ready R S.store)
    (h : S.step (select q) = (.ok stmt, S')) :
    ∃ mid t, (selectResult q).run (S.inside q).env (S.inside q).store
        = (.ok stmt.result, mid)
      ∧ mid.arena.type? stmt.result = some t
      ∧ S'.store.arena.type? stmt.result = some t
      ∧ S'.store.Mirrors S.schema stmt.result q.shape stmt.shape := by
  obtain ⟨hrun, -⟩ := run_of_step h
  obtain ⟨result, mid, hresult, hfrom⟩ := ok_of_select hrun
  obtain ⟨hobjects, rfl, -, hclauses⟩ := clauses_of_selectFrom hfrom
  have hready := hr.inside q
  obtain ⟨hready', -⟩ := (Upholds.selectResult q).kept hready hresult
  obtain ⟨t, ht⟩ := (Upholds.selectResult q).returned hready hresult
  have hobj : q.shape ≠ [] → S.schema.isObject t = true := by
    intro hne
    obtain ⟨u, hu, hobj⟩ := hobjects hne
    cases ht.type?.symm.trans hu
    exact hobj
  have hshape := Upholds.underSubject ht (Upholds.mirrors_clauses ht hobj)
  obtain ⟨-, hext⟩ := hshape.kept hready' hclauses
  exact ⟨mid, t, hresult, ht.type?, hext.arena.type? ht.type?,
    hshape.returned hready' hclauses⟩

omit [DecidableEq κ] [PathKey κ] [NameDigest] in
theorem exists_error_of_not_ok {α : Type} {m : CompileM κ α}
    (h : ∀ a S', S.step m ≠ (.ok a, S')) : ∃ e S', S.step m = (.error e, S') := by
  cases hstep : S.step m with
  | mk out S' =>
      cases out with
      | ok a => exact absurd hstep (h a S')
      | error e => exact ⟨e, S', rfl⟩

/-- In any session, the shape of a statement that compiles mirrors the one
written. A statement does not compile if its shape cannot be one of the
type that its result has, nor if a name stands twice in it, whatever its
result is. -/
theorem Reachable.shape_mirrors (hs : S.Reachable lexical) (q : Select) :
    (∀ stmt S', S.step (select q) = (.ok stmt, S') →
        S'.store.Mirrors S.schema stmt.result q.shape stmt.shape)
      ∧ (∀ result mid t, (S.inside q).step (selectResult q) = (.ok result, mid) →
        mid.store.arena.type? result = some t → S.schema.Misshapes t q.shape →
          ∃ e S', S.step (select q) = (.error e, S'))
      ∧ (ShapeElement.Repeats q.shape →
        ∃ e S', S.step (select q) = (.error e, S')) := by
  refine ⟨fun stmt S' hstep => ?_, fun result mid t hresult ht hmis => ?_,
    fun hrep => ?_⟩
  · obtain ⟨_, _, -, -, -, hmirrors⟩ := mirrors_of_select hs.ready.active hstep
    exact hmirrors
  · refine exists_error_of_not_ok fun stmt S' hstep => ?_
    obtain ⟨mid', u, hrun, hu, hu', hmirrors⟩ :=
      mirrors_of_select hs.ready.active hstep
    -- there is one result, and it has one type
    cases hrun.symm.trans (run_of_step hresult).1
    cases hu.symm.trans ht
    exact hmirrors.not_misshapes hu' hmis
  · refine exists_error_of_not_ok fun stmt S' hstep => ?_
    obtain ⟨_, u, -, -, hu, hmirrors⟩ := mirrors_of_select hs.ready.active hstep
    exact hmirrors.not_misshapes hu (hrep.misshapes S.schema u)

end Session

end

-- ============================================================= examples

open scoped Xxh64

open Declaration (typeNamed)

/-- The friends of each person, shown with some elements. -/
def friendsWith (es : List ShapeElement) : Select :=
  { Select.ofResult (.path friends) ⟨1, 30, 1⟩ with shape := es }

/-- The name of a person. -/
def nameShown : ShapeElement := .mk "name" none [] ⟨1, 40, 1⟩

/-- Friends in turn, shown with some elements. -/
def friendsShown (es : List ShapeElement) : ShapeElement :=
  .mk "friends" none es ⟨1, 50, 1⟩

/-- A number that is computed. -/
def numberShown : ShapeElement :=
  .mk "number" (some (.constant (.int 1) ⟨1, 70, 1⟩)) [] ⟨1, 60, 1⟩

theorem shape_mirrors_friends :
    (∃ stmt S', beforeFriends.step (CompileM.select
          (friendsWith [nameShown, friendsShown [nameShown], numberShown]))
        = (.ok stmt, S')
        ∧ S'.store.Mirrors beforeFriends.schema stmt.result
          [nameShown, friendsShown [nameShown], numberShown] stmt.shape)
      ∧ (∃ e S', beforeFriends.step (CompileM.select
          (friendsWith [.mk "name" none [nameShown] ⟨1, 40, 1⟩])) = (.error e, S'))
      ∧ ∃ e S', beforeFriends.step (CompileM.select
        (friendsWith [friendsShown [nameShown, nameShown]])) = (.error e, S') := by
  have hs := reachable_beforeFriends True
  refine ⟨?_, ?_, ?_⟩
  · obtain ⟨stmt, S', hstep⟩ := Session.exists_step_of_isOk
      (show (beforeFriends.step (CompileM.select (friendsWith
        [nameShown, friendsShown [nameShown], numberShown]))).1.isOk = true by
        decide +kernel)
    exact ⟨stmt, S', hstep, (hs.shape_mirrors _).1 stmt S' hstep⟩
  · -- a name is no object
    let q := friendsWith [.mk "name" none [nameShown] ⟨1, 40, 1⟩]
    have hresult : (beforeFriends.inside q).step (CompileM.selectResult q)
        = (.ok 1, ((beforeFriends.inside q).step (CompileM.selectResult q)).2) :=
      Session.step_of_fst (by decide +kernel)
    have htype : ((beforeFriends.inside q).step
        (CompileM.selectResult q)).2.store.arena.type? 1
          = some (typeNamed "default::Person") := by
      decide +kernel
    have hname : beforeFriends.schema.findPointer (typeNamed "default::Person") "name"
        = some ⟨TypeId.str, { required := true }⟩ := by
      decide +kernel
    have hscalar : beforeFriends.schema.isObject TypeId.str = false := by
      decide +kernel
    exact (hs.shape_mirrors q).2.1 1 _ _ hresult htype
      (.under List.mem_cons_self rfl hname (.scalar (List.cons_ne_nil _ _) hscalar))
  · exact (hs.shape_mirrors _).2.2
      (.under List.mem_cons_self rfl (.here (by decide)))

end PathQuery
