/-
Sessions keep the invariant.

A session goes on by entering, altering and leaving frames and by
compiling, in any order; a compilation that fails leaves its store
behind too (`Next`). Sets that are given to a step must be there, and,
where sessions are `lexical`, be seen from the active node, as they are
wherever the compiler itself hands a set to a part of its own. What is
compiled is not restricted, and neither are schema and keys.

The frames around the active one are of nodes above it, each with a
subject that fits it, so leaving gives back a frame that the store
fits (`Session.Ready`). One step keeps that, hence every run does
(`Reachable.ready`).
-/
import Mathlib.Logic.Relation
import PathQuery.Ast.Builder
import PathQuery.Proofs.Compile.Syntax
import PathQuery.Proofs.Schema.Build
import PathQuery.Session

namespace PathQuery

variable {κ : Type}

/-- Sets are of any types; whether they must be seen where they are used
is left open. -/
def Regime.tracking (lexical : Prop) : Regime := ⟨fun _ => True, lexical, False⟩

theorem Regime.tracking_suits [NameDigest] (lexical : Prop) (s : Schema) :
    (tracking lexical).Suits s :=
  ⟨fun _ => trivial, fun _ _ => trivial, fun _ _ _ _ => trivial,
    fun _ _ _ _ _ => trivial, fun h => h.elim, fun h => h.elim⟩

-- ============================================================== frames

/-- The frames around a frame are of nodes above it, and each has a
subject that fits it. -/
def Store.Encloses (R : Regime) (st : Store κ) : Frame → List Frame → Prop
  | _, [] => True
  | inner, frame :: outer =>
    frame.scope ∈ st.scopes.ancestors inner.scope
      ∧ (∀ id, frame.subject = some id → ∃ t, st.Holds R frame.scope id t)
      ∧ st.Encloses R frame outer

namespace Store.Encloses

variable {R : Regime} {st st' : Store κ} {inner inner' : Frame}
  {outer : List Frame}

theorem mono (h : st.Extends st') (he : st.Encloses R inner outer) :
    st'.Encloses R inner outer := by
  induction outer generalizing inner with
  | nil => trivial
  | cons frame outer ih =>
      obtain ⟨habove, hsubject, hrest⟩ := he
      refine ⟨h.mem_ancestors habove, fun id hid => ?_, ih hrest⟩
      obtain ⟨t, ht⟩ := hsubject id hid
      exact ⟨t, ht.mono h⟩

/-- Only the node of the innermost frame counts. -/
theorem of_scope_eq (h : inner'.scope = inner.scope)
    (he : st.Encloses R inner outer) :
    st.Encloses R inner' outer := by
  cases outer with
  | nil => trivial
  | cons frame outer =>
      obtain ⟨habove, hrest⟩ := he
      exact ⟨h ▸ habove, hrest⟩

end Store.Encloses

-- =============================================================== steps

namespace Session

/-- A set that may be given to a step. -/
def Has (lexical : Prop) (s : Session κ) (id : SetId) : Prop :=
  ∃ node, s.store.arena.get? id = some node
    ∧ (lexical → node.scope ∈ s.store.scopes.ancestors s.frame.scope)

variable [DecidableEq κ] [PathKey κ] [NameDigest]

/-- How a session may go on. -/
inductive Next (lexical : Prop) (s : Session κ) : Session κ → Prop where
  | enter : Next lexical s s.enter
  | enterScope : Next lexical s s.enterScope
  | leave : Next lexical s s.leave
  | setClause (clause : Clause) : Next lexical s (s.setClause clause)
  | setSubject {id : SetId} (h : s.Has lexical id) :
      Next lexical s (s.setSubject (some id))
  | clearSubject : Next lexical s (s.setSubject none)
  | setDefaultModule (module : String) :
      Next lexical s (s.setDefaultModule module)
  | addAlias (shorthand module : String) :
      Next lexical s (s.addAlias shorthand module)
  | expr (e : Ast.Expr) : Next lexical s (s.step (CompileM.expr e)).2
  | path (p : Ast.Path) : Next lexical s (s.step (CompileM.path p)).2
  | select (q : Ast.Select) : Next lexical s (s.step (CompileM.select q)).2
  | filterClause (e : Option Ast.Expr) :
      Next lexical s (s.step (CompileM.filterClause e)).2
  | boundClause (e : Option Ast.Expr) :
      Next lexical s (s.step (CompileM.boundClause e)).2
  | groupKeys (keys : List Ast.Expr) :
      Next lexical s (s.step (CompileM.groupKeys keys)).2
  | sortKeys (keys : List Ast.SortKey) :
      Next lexical s (s.step (CompileM.sortKeys keys)).2
  | shapeElements {subject : SetId} (h : s.Has lexical subject)
      (taken : List String)
      (elements : List Ast.ShapeElement) :
      Next lexical s (s.step (CompileM.shapeElements subject taken elements)).2
  | attachExpr (e : Ast.Expr) (hint : Option TypeId) :
      Next lexical s
        (s.step (CompileM.expr e >>= fun v => CompileM.attach v hint)).2
  | attachSet {id : SetId} (h : s.Has lexical id) (hint : Option TypeId) :
      Next lexical s (s.step (CompileM.attach (.set id) hint)).2
  | coerce {id : SetId} (h : s.Has lexical id) (target : TypeId) :
      Next lexical s (s.step (CompileM.coerce id target)).2
  | castSet {id : SetId} (h : s.Has lexical id) (target : TypeId)
      (conversion : Conversion) :
      Next lexical s (s.step (CompileM.castSet id target conversion)).2
  | referenceAt {id : SetId} (h : s.Has lexical id) (span : Span) :
      Next lexical s (s.step (CompileM.referenceAt id span)).2
  | rootSet (type : TypeId) (span : Span) :
      Next lexical s (s.step (CompileM.rootSet type span)).2
  | extendPath {id : SetId} (h : s.Has lexical id) (name : String)
      (span : Span) :
      Next lexical s (s.step (CompileM.extendPath id name span)).2

/-- Some steps, one after the other. -/
def Steps (lexical : Prop) : Session κ → Session κ → Prop :=
  Relation.ReflTransGen (Next lexical)

/-- A session that was started against a schema and went on. -/
def Reachable (lexical : Prop) (s : Session κ) : Prop :=
  ∃ (schema : Schema) (o : CompileOptions), Steps lexical (start schema o) s

/-- The store is sound, the active frame fits it, and so does each frame
around it. -/
structure Ready (R : Regime) (s : Session κ) : Prop where
  active : s.env.Ready R s.store
  around : s.store.Encloses R s.frame s.outer

namespace Ready

variable {R : Regime} {s : Session κ} {α : Type} {m : CompileM κ α}
  {post : Store κ → α → Prop}

/-- Compiling under the active frame. -/
theorem step (h : s.Ready R) (hm : CompileM.Upholds R s.env s.store m post) :
    (s.step m).2.Ready R ∧ s.store.Extends (s.step m).2.store := by
  have hout := hm h.active
  have hext := hout.extends h.active
  exact ⟨⟨hout.ready, h.around.mono hext⟩, hext⟩

/-- Altering the active frame in its node. -/
theorem alter (h : s.Ready R) {change : Frame → Frame}
    (hscope : (change s.frame).scope = s.frame.scope)
    (hsubject : ∀ id, (change s.frame).subject = some id →
      ∃ t, s.store.Holds R s.frame.scope id t) :
    (s.alter change).Ready R ∧ s.store.Extends (s.alter change).store := by
  have hrooted := h.active.sound.rooted
  refine ⟨⟨⟨h.active.suits, h.active.sound, ?_, ?_, ?_⟩,
    h.around.of_scope_eq hscope⟩, .refl hrooted⟩
  · exact hscope ▸ h.active.active
  · exact hscope ▸ h.active.unshadowed
  · exact hscope ▸ hsubject

theorem enter (h : s.Ready R) : s.enter.Ready R :=
  ⟨h.active, ScopeTree.mem_ancestors_self _ _, h.active.subject, h.around⟩

theorem enterScope (h : s.Ready R) :
    s.enterScope.Ready R ∧ s.store.Extends s.enterScope.store := by
  have hext := h.active.extends_opened
  refine ⟨⟨h.active.opened, ?_, fun id hid => ?_, h.around.mono hext⟩, hext⟩
  · exact h.active.sound.rooted.mem_ancestors_attach h.active.active
  · obtain ⟨t, ht⟩ := h.active.subject id hid
    exact ⟨t, ht.mono hext⟩

theorem leave (h : s.Ready R) :
    s.leave.Ready R ∧ s.store.Extends s.leave.store := by
  obtain ⟨schema, frame, outer, store⟩ := s
  cases outer with
  | nil => exact ⟨h, .refl h.active.sound.rooted⟩
  | cons next outer =>
      obtain ⟨hactive, habove, hsubject, hrest⟩ := h
      have hrooted := hactive.sound.rooted
      refine ⟨⟨⟨hactive.suits, hactive.sound, ?_,
        hactive.unshadowed.of_ancestor hrooted habove, hsubject⟩, hrest⟩,
        .refl hrooted⟩
      exact Nat.lt_of_le_of_lt (hrooted.le_of_mem_ancestors habove)
        hactive.active

/-- Every step keeps the invariant, and the store only grows. -/
theorem next {lexical : Prop} {s' : Session κ} (h : s.Ready (.tracking lexical))
    (hn : Next lexical s s') :
    s'.Ready (.tracking lexical) ∧ s.store.Extends s'.store := by
  have hholds : ∀ id, s.Has lexical id →
      ∃ t, s.store.Holds (.tracking lexical) s.env.frame.scope id t := by
    intro id h
    obtain ⟨node, hn, hseen⟩ := h
    exact ⟨node.type, node, hn, rfl, hseen⟩
  cases hn with
  | enter => exact ⟨h.enter, .refl h.active.sound.rooted⟩
  | enterScope => exact h.enterScope
  | leave => exact h.leave
  | setClause clause => exact h.alter rfl h.active.subject
  | setSubject hid =>
      refine h.alter rfl fun id heq => ?_
      cases heq
      exact hholds _ hid
  | clearSubject => exact h.alter rfl fun id heq => by cases heq
  | setDefaultModule module => exact h.alter rfl h.active.subject
  | addAlias shorthand module => exact h.alter rfl h.active.subject
  | expr e => exact h.step (.expr e _ _)
  | path p => exact h.step .path
  | select q => exact h.step (.select q _ _)
  | filterClause e => exact h.step (.filterClause e _ _)
  | boundClause e => exact h.step (.boundClause e _ _)
  | groupKeys keys => exact h.step (.groupKeys keys _ _)
  | sortKeys keys => exact h.step (.sortKeys keys _ _)
  | shapeElements hid taken elements =>
      obtain ⟨t, ht⟩ := hholds _ hid
      exact h.step (.shapeElements elements _ t taken _ _ ht)
  | attachExpr e hint =>
      have hattach : CompileM.Upholds (.tracking lexical) s.env s.store
          (CompileM.expr e >>= fun v => CompileM.attach v hint)
            fun _ _ => True := by
        refine .bind (.expr e _ _) ?_
        intro v st _ h
        obtain ⟨t, hv⟩ := h
        exact (CompileM.Upholds.attach hv fun _ _ => trivial).imp
          fun _ _ _ _ _ => trivial
      exact h.step hattach
  | attachSet hid hint =>
      obtain ⟨t, ht⟩ := hholds _ hid
      exact h.step (.attach (v := .set _) ht fun _ _ => trivial)
  | coerce hid target =>
      obtain ⟨t, ht⟩ := hholds _ hid
      exact h.step (.coerce ht trivial)
  | castSet hid target conversion =>
      obtain ⟨t, ht⟩ := hholds _ hid
      exact h.step (.castSet ht trivial fun h => h.elim)
  | referenceAt hid span =>
      obtain ⟨t, ht⟩ := hholds _ hid
      exact h.step (.referenceAt ht)
  | rootSet type span => exact h.step (.rootSet trivial fun h => h.elim)
  | extendPath hid name span =>
      obtain ⟨t, ht⟩ := hholds _ hid
      exact h.step (.extendPath ht)

/-- So does every run. -/
theorem steps {lexical : Prop} {s' : Session κ}
    (h : s.Ready (.tracking lexical)) (hs : Steps lexical s s') :
    s'.Ready (.tracking lexical) ∧ s.store.Extends s'.store := by
  induction hs with
  | refl => exact ⟨h, .refl h.active.sound.rooted⟩
  | tail _ hn ih =>
      obtain ⟨hready, hext⟩ := ih
      obtain ⟨hready', hext'⟩ := hready.next hn
      exact ⟨hready', hext.trans hext'⟩

end Ready

theorem Reachable.ready {lexical : Prop} {s : Session κ}
    (h : Reachable lexical s) :
    s.Ready (.tracking lexical) := by
  obtain ⟨schema, o, hs⟩ := h
  have hstart : (start schema o : Session κ).Ready (.tracking lexical) :=
    ⟨Env.ready_new _ (Regime.tracking_suits lexical schema) rfl rfl, trivial⟩
  exact (hstart.steps hs).1

end Session

-- ============================================================= example

open scoped Xxh64

/-- The friends of each person. -/
def friends : Ast.Path :=
  Ast.Build.run (Ast.Build.path "default::Person" ["friends"])

/-- A session that has not begun. -/
def beforeFriends : Session PathId :=
  .start (Registry.builtin.schemaOf people) {}

/-- The same session, in a node below the one where friends were met. -/
def afterFriends : Session PathId :=
  (beforeFriends.step (CompileM.path friends)).2.enterScope

theorem steps_afterFriends (lexical : Prop) :
    Session.Steps lexical (beforeFriends.step (CompileM.path friends)).2
      afterFriends := by
  unfold afterFriends
  exact .single .enterScope

theorem reachable_beforeFriends (lexical : Prop) :
    Session.Reachable lexical beforeFriends := by
  unfold beforeFriends
  exact ⟨_, _, .refl⟩

end PathQuery
