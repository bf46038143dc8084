/-
A partial path is short for a full one.

One way to a set goes through the subject, the other through a name and a
search for each stretch of the path. Where the subject is what a rooted
path was compiled to, they meet: for that path, and so for each of its
stretches, there is a set that is seen (`Store.Trails`), so the full path
finds the subject again and goes on from there like the partial one. This
stays so wherever compilation comes to inside the statement
(`Session.AtResult`), since what is seen from a node is seen from below and
for good.

Nothing is asked of the subjects around the statement. They need not be
seen from it, so a set that is seen may go on from one that is not, and the
stretches are kept track of one by one.

Whether a path can be followed is a matter of the schema and of the names
in it (`Schema.leads`), so what is the same path fails alike.
-/
import PathQuery.Proofs.Path.Correlation
import PathQuery.Proofs.Path.Pointers
import PathQuery.Proofs.Statement.Visits

namespace PathQuery

open Ast (Expr Select)
open Ir (Arena)

variable {κ : Type}

-- ================================================================ names

/-- What pointers with these names lead to from a type, or how the first
one fails that cannot be followed. -/
def Schema.leads (s : Schema) : TypeId → List String → Except ErrorKind TypeId
  | t, [] => .ok t
  | t, name :: names =>
    if s.isObject t then
      match s.findPointer t name with
      | some p => s.leads p.target names
      | none => .error .nameResolution
    else .error .typeMismatch

theorem Schema.leads_of_pointer {s : Schema} {t : TypeId} {name : String} {p : Pointer}
    (h : s.isObject t = true) (hp : s.findPointer t name = some p) (names : List String) :
    s.leads t (name :: names) = s.leads p.target names := by
  rw [leads, h, hp]
  rfl

/-- The names of pointers decide what they lead to. -/
theorem Schema.mapError_along (s : Schema) (t : TypeId) (steps : List Ast.PathStep) :
    (s.along t steps).mapError Prod.fst = s.leads t (steps.map Ast.PathStep.name) := by
  induction steps generalizing t with
  | nil => rfl
  | cons step steps ih =>
      rw [List.map_cons]
      cases hobj : s.isObject t with
      | false =>
          rw [along_of_scalar hobj, leads, hobj]
          rfl
      | true =>
          cases hp : s.findPointer t step.name with
          | none =>
              rw [along_of_missing hobj hp, leads, hobj, hp]
              rfl
          | some p =>
              rw [along_of_pointer hobj hp, leads_of_pointer hobj hp]
              exact ih p.target

/-- Pointers lead on from what those before them lead to. -/
theorem Schema.leads_append {s : Schema} {t u : TypeId} {names : List String}
    (h : s.leads t names = .ok u) (more : List String) :
    s.leads t (names ++ more) = s.leads u more := by
  induction names generalizing t with
  | nil =>
      cases h
      rfl
  | cons name names ih =>
      rw [List.cons_append]
      rw [leads] at h
      split at h
      · next hobj =>
          split at h
          · next p hp =>
              rw [leads_of_pointer hobj hp]
              exact ih h
          · cases h
      · cases h

/-- A path ends in a set of the expected type, or with the expected kind
of error. -/
inductive Ends : Except ErrorKind TypeId → Except CompileError SetId × Store κ → Prop where
  | ok {id : SetId} {u : TypeId} {st : Store κ} (h : st.arena.type? id = some u) :
      Ends (.ok u) (.ok id, st)
  | error {k : ErrorKind} {e : CompileError} {st : Store κ} (h : e.kind = k) :
      Ends (.error k) (.error e, st)

theorem Follows.ends {s : Schema} {start : CanonicalPath} {names : List String}
    {t : TypeId} {steps : List Ast.PathStep} {out : Except CompileError SetId × Store κ}
    (h : Follows start names (s.along t steps) out) :
    Ends (s.leads t (steps.map Ast.PathStep.name)) out := by
  rw [← s.mapError_along]
  generalize s.along t steps = expected at h
  cases h with
  | found hn hc => exact .ok (Arena.type?_eq_some_iff.2 ⟨_, hn, rfl⟩)
  | failed => exact .error rfl

-- =============================================================== trails

namespace Store

variable {st st' : Store κ} {scope lower id x : Nat} {p start : CanonicalPath}
  {name : String} {names more : List String}

theorem Finds.mono (h : st.Extends st') (hid : st.Finds scope id p) :
    st'.Finds scope id p := by
  obtain ⟨node, hn, hseen, hkey, hcan⟩ := hid
  exact ⟨node, h.arena _ _ hn, h.mem_ancestors hseen, hkey,
    (h.arena.canonical_eq hn).trans hcan⟩

theorem Finds.below (hr : st.scopes.Rooted) (h : scope ∈ st.scopes.ancestors lower)
    (hid : st.Finds scope id p) : st.Finds lower id p := by
  obtain ⟨node, hn, hseen, hkey, hcan⟩ := hid
  exact ⟨node, hn, hr.ancestors_trans hseen h, hkey, hcan⟩

/-- A set is found some pointers from a start, and so is one for each
stretch of the way. -/
structure Trails (st : Store κ) (scope : ScopeId) (start : CanonicalPath)
    (names : List String) (id : SetId) : Prop where
  last : st.Finds scope id (start.follow names)
  stretch : ∀ before, before <+: names → ∃ x, st.Finds scope x (start.follow before)

namespace Trails

theorem mono (h : st.Extends st') (ht : st.Trails scope start names id) :
    st'.Trails scope start names id where
  last := ht.last.mono h
  stretch := fun before hb => by
    obtain ⟨x, hx⟩ := ht.stretch before hb
    exact ⟨x, hx.mono h⟩

theorem below (hr : st.scopes.Rooted) (h : scope ∈ st.scopes.ancestors lower)
    (ht : st.Trails scope start names id) : st.Trails lower start names id where
  last := ht.last.below hr h
  stretch := fun before hb => by
    obtain ⟨x, hx⟩ := ht.stretch before hb
    exact ⟨x, hx.below hr h⟩

theorem nil (h : st.Finds scope id start) : st.Trails scope start [] id where
  last := h
  stretch := fun before hb => by
    rw [List.prefix_nil.1 hb]
    exact ⟨id, h⟩

/-- A way that starts one pointer further. -/
theorem cons (hx : st.Finds scope x start)
    (h : st.Trails scope (.step start name) names id) :
    st.Trails scope start (name :: names) id where
  last := h.last
  stretch := fun before hb => by
    rcases List.prefix_cons_iff.1 hb with rfl | ⟨rest, rfl, hrest⟩
    · exact ⟨x, hx⟩
    · exact h.stretch rest hrest

theorem tail (h : st.Trails scope start (name :: names) id) :
    st.Trails scope (.step start name) names id where
  last := h.last
  stretch := fun before hb =>
    h.stretch (name :: before) (List.prefix_cons_iff.2 (Or.inr ⟨before, rfl, hb⟩))

/-- One way goes on from where another one ends. -/
theorem append (h : st.Trails scope start names x)
    (h' : st.Trails scope (start.follow names) more id) :
    st.Trails scope start (names ++ more) id := by
  induction names generalizing start with
  | nil => exact h'
  | cons name names ih =>
      obtain ⟨y, hy⟩ := h.stretch [] (List.nil_prefix)
      exact .cons hy (ih h.tail h')

/-- The rest of a way starts where the first stretch of it ends. -/
theorem drop (h : st.Trails scope start (names ++ more) id) :
    st.Trails scope (start.follow names) more id := by
  induction names generalizing start with
  | nil => exact h
  | cons name names ih => exact ih h.tail

end Trails

end Store

section

variable [DecidableEq κ] [PathKey κ] [NameDigest]

-- ======================================================== found by keys

namespace Env.Ready

variable {R : Regime} {env : Env} {st : Store κ} {x y : Nat} {p : CanonicalPath}

/-- A set that is found is found by the key of its path. -/
theorem lookup_of_finds (hr : env.Ready R st) (hf : st.arena.Faithful)
    (hx : st.Finds env.frame.scope x p) :
    ∃ n, st.scopes.lookup env.frame.scope p.key = some (n, x) := by
  obtain ⟨node, hn, hseen, hkey, rfl⟩ := hx
  obtain ⟨key, hkey⟩ := Option.ne_none_iff_exists'.1 hkey
  have hpath := hr.sound.key_of_path hn hkey
  rw [← hpath]
  exact ⟨node.scope, hr.unshadowed.lookup_eq hseen (hr.sound.bound hf x node key hn hkey)⟩

/-- One set is found for a path. -/
theorem eq_of_finds (hr : env.Ready R st) (hf : st.arena.Faithful)
    (hx : st.Finds env.frame.scope x p) (hy : st.Finds env.frame.scope y p) : x = y := by
  obtain ⟨n, hn⟩ := hr.lookup_of_finds hf hx
  obtain ⟨m, hm⟩ := hr.lookup_of_finds hf hy
  cases hn.symm.trans hm
  rfl

end Env.Ready

namespace CompileM

variable {R : Regime} {env : Env} {st : Store κ} {source id : Nat}
  {start : CanonicalPath}

omit [DecidableEq κ] [PathKey κ] [NameDigest] in
/-- A set that is used at no type in particular is used as it is. -/
theorem of_attach_set {st' : Store κ} {x : SetId}
    (h : (attach (.set x) none).run env st = (.ok id, st')) : id = x ∧ st' = st := by
  unfold attach settle at h
  rw [run_bind_ok (run_pure x env st)] at h
  dsimp only at h
  obtain ⟨node, st₁, hget, hrest⟩ := ok_of_bind h
  obtain ⟨-, rfl⟩ := ok_of_getSet hget
  split at hrest
  · cases hrest
  · exact ok_of_pure hrest

theorem run_rootSet_of_finds (hr : env.Ready R st) (hf : st.arena.Faithful) {type : TypeId}
    (hid : st.Finds env.frame.scope id (.root type)) (span : Span) :
    (rootSet type span).run env st = (.ok id, st) := by
  obtain ⟨n, hn⟩ := hr.lookup_of_finds hf hid
  obtain ⟨_, _, _, _, hcan⟩ := hid
  have hconfirm := Arena.isRootOf_iff.2 hcan
  unfold rootSet
  exact run_shared_of_found hn hconfirm

/-- One pointer further, what is found is used. -/
theorem run_extendPath_of_finds (hr : env.Ready R st) (hf : st.arena.Faithful)
    {name : String} (hsource : st.Finds env.frame.scope source start)
    (hid : st.Finds env.frame.scope id (.step start name)) (span : Span) :
    (extendPath source name span).run env st = (.ok id, st) := by
  obtain ⟨n, hn⟩ := hr.lookup_of_finds hf hid
  obtain ⟨node, hnode, -, -, hcan⟩ := hid
  obtain ⟨src, hsrc, -, -, rfl⟩ := hsource
  -- the set that is there goes on from a set for the same path, whose
  -- type is therefore the same
  obtain ⟨other, o, p, -, ho, hother, -, hobj, hptr, -⟩ :=
    hr.sound.step_cases hnode hcan
  rw [hr.sound.type_eq ho hsrc hother] at hobj hptr
  rw [run_extendPath hsrc hobj hptr, hr.sound.key_eq hsrc]
  have hconfirm := Arena.isStepOf_iff.2 hcan
  exact run_shared_of_found hn hconfirm

/-- Where each stretch of a path has a set, the path is followed along
them. -/
theorem run_extendAll_of_trails (hr : env.Ready R st) (hf : st.arena.Faithful)
    {steps : List Ast.PathStep} (hsource : st.Finds env.frame.scope source start)
    (hid : st.Trails env.frame.scope start (steps.map Ast.PathStep.name) id) :
    (steps.foldlM (fun set step => extendPath set step.name step.span) source).run env st
      = (.ok id, st) := by
  induction steps generalizing source start with
  | nil =>
      obtain rfl := hr.eq_of_finds hf hid.last hsource
      rfl
  | cons step steps ih =>
      rw [List.map_cons] at hid
      obtain ⟨x, hx⟩ := hid.tail.stretch [] List.nil_prefix
      rw [List.foldlM_cons,
        run_bind_ok (run_extendPath_of_finds hr hf hsource hx step.span)]
      exact ih hx hid.tail

/-- A path that names an object type leads on from that type. -/
theorem ends_of_root (hr : env.Ready R st) {p : Ast.Path} {root : Ast.NameRef}
    {type : TypeId} {entry : TypeEntry} (hroot : p.root = some root)
    (hresolve : env.resolve? root.name = some (.type type entry))
    (hobj : entry.isObject = true) :
    Ends (env.schema.leads type p.pointers) ((path p).run env st) := by
  have hstart : env.start? st.arena p = some (.root type) := by
    unfold Env.start?
    simp only [hroot, hresolve, hobj, if_true]
  have htype : env.startType? st.arena p = some type := by
    unfold Env.startType?
    simp only [hroot, hresolve, hobj, if_true]
  exact (run_path_follows hr hstart htype).ends

/-- A partial path leads on from the type of the subject. -/
theorem ends_of_subject (hr : env.Ready R st) {p : Ast.Path} {u : TypeId}
    (hroot : p.root = none) (hsubject : env.frame.subject = some source)
    (hu : st.arena.type? source = some u) :
    Ends (env.schema.leads u p.pointers) ((path p).run env st) := by
  have hstart : env.start? st.arena p = some (st.arena.canonical source) := by
    unfold Env.start?
    rw [hroot, hsubject]
    rfl
  have htype : env.startType? st.arena p = some u := by
    unfold Env.startType?
    rw [hroot, hsubject]
    exact hu
  exact (run_path_follows hr hstart htype).ends

namespace Upholds

/-- Following a path leaves a set for each stretch of it. -/
theorem extendAll_trails {t : TypeId} {steps : List Ast.PathStep}
    (hsource : st.Holds R env.frame.scope source t)
    (hfinds : st.Finds env.frame.scope source start) :
    Upholds R env st
      (steps.foldlM (fun set step => CompileM.extendPath set step.name step.span) source)
      fun st' id =>
        st'.Trails env.frame.scope start (steps.map Ast.PathStep.name) id := by
  induction steps generalizing st source start t with
  | nil => exact pure (.nil hfinds)
  | cons step steps ih =>
      rw [List.foldlM_cons]
      refine bind (extendPath hsource) ?_
      intro id st₁ h₁ h
      obtain ⟨p, -, -, hid, hstep⟩ := h
      have hcan : st.arena.canonical source = start := by
        obtain ⟨_, _, _, _, hcan⟩ := hfinds
        exact hcan
      rw [hcan] at hstep
      refine (ih hid hstep).imp ?_
      intro st₂ last h₂ _ h
      exact .cons (hfinds.mono (h₁.trans h₂)) h

/-- A path leaves a set for each stretch from where it starts. -/
theorem path_trails {p : Ast.Path}
    (hstart : Upholds R env st (CompileM.pathStart p) fun st' id =>
      (∃ t, st'.Holds R env.frame.scope id t) ∧ st'.Finds env.frame.scope id start) :
    Upholds R env st (CompileM.path p) fun st' id =>
      st'.Trails env.frame.scope start p.pointers id := by
  unfold CompileM.path
  refine bind hstart ?_
  intro source st₁ _ h
  obtain ⟨⟨t, hsource⟩, hfinds⟩ := h
  exact extendAll_trails hsource hfinds

/-- A path that names an object type starts from its objects. -/
theorem pathStart_root {p : Ast.Path} {root : Ast.NameRef} {type : TypeId}
    {entry : TypeEntry} (hroot : p.root = some root)
    (hresolve : env.resolve? root.name = some (.type type entry))
    (hobj : entry.isObject = true) :
    Upholds R env st (CompileM.pathStart p) fun st' id =>
      (∃ t, st'.Holds R env.frame.scope id t)
        ∧ st'.Finds env.frame.scope id (.root type) := by
  intro hr
  have htype := Env.type?_of_resolve? hresolve
  have hobj' : env.schema.isObject type = true := by
    unfold Schema.isObject
    rw [htype]
    exact hobj
  rw [run_pathStart_of_root hroot hresolve hobj]
  exact ((rootSet (hr.suits.registered type (Schema.isRegistered_of_type? htype))
    fun _ => hobj').imp fun _ _ _ _ h => ⟨⟨_, h.1⟩, h.2⟩) hr

/-- A partial path starts from the subject. -/
theorem pathStart_subject {p : Ast.Path} (hroot : p.root = none)
    (hsubject : env.frame.subject = some source)
    (hfinds : st.Finds env.frame.scope source start) :
    Upholds R env st (CompileM.pathStart p) fun st' id =>
      (∃ t, st'.Holds R env.frame.scope id t)
        ∧ st'.Finds env.frame.scope id start := by
  intro hr
  exact of_run (run_pathStart_of_subject hroot hsubject) (fun a ha => by
    cases ha
    exact ⟨hr.subject source hsubject, hfinds⟩) (fun e he => by cases he) hr

theorem thenPure {α β : Type} {m : CompileM κ α} {mid : Store κ → α → Prop} (f : α → β)
    (hm : Upholds R env st m mid) :
    Upholds R env st (m >>= fun a => Pure.pure (f a)) fun _ _ => True :=
  bind hm fun _ _ _ _ => pure trivial

/-- A part of a statement keeps the store sound. -/
theorem part {result : SetId} {t : TypeId} (hresult : st.Holds R env.frame.scope result t)
    (p : Ast.Part) : Upholds R env st (CompileM.part result p) fun _ _ => True := by
  cases p with
  | element e =>
      unfold CompileM.part
      exact thenPure _ (inClause (underSubject hresult
        (shapeNode hresult fun env' st' h => shapeElement e result t env' st' h)))
  | filter e =>
      unfold CompileM.part
      exact thenPure _ (filterBy (expr e))
  | groupBy e =>
      unfold CompileM.part
      exact thenPure _ (inClause (key (expr e)))
  | orderBy k =>
      obtain ⟨e, direction, empties, span⟩ := k
      unfold CompileM.part
      exact thenPure _ (inClause (key (expr e)))
  | offset e =>
      unfold CompileM.part
      exact thenPure _ (inClause (bound (expr e)))
  | limit e =>
      unfold CompileM.part
      exact thenPure _ (inClause (bound (expr e)))

theorem parts {result : SetId} {t : TypeId} (hresult : st.Holds R env.frame.scope result t)
    (ps : List Ast.Part) : Upholds R env st (CompileM.parts result ps) fun _ _ => True := by
  induction ps generalizing st with
  | nil => exact pure trivial
  | cons p ps ih =>
      unfold CompileM.parts
      refine bind (part hresult p) ?_
      intro _ st₁ h₁ _
      exact bind (ih (hresult.mono h₁)) fun _ _ _ _ => pure trivial

end Upholds

end CompileM

-- ============================================================== subjects

/-- A path stands for some pointers `more` than those of a rooted path: it
is a partial path of these, or a full path of all of them. -/
inductive Ast.Path.Continues (root : QualifiedName) (names more : List String)
    (p : Ast.Path) : Prop where
  | short (hroot : p.root = none) (hnames : p.pointers = more)
  | full {ref : Ast.NameRef} (hroot : p.root = some ref) (hname : ref.name = root)
      (hnames : p.pointers = names ++ more)

namespace Session

/-- One path after the other, both fail with the same kind of error, or
both are the same set and nothing is made for the second one. -/
inductive Coincide (s : Session κ) (p p' : Ast.Path) : Prop where
  | failed {e e' : CompileError} {t t' : Session κ}
      (h : s.step (CompileM.path p) = (.error e, t))
      (h' : t.step (CompileM.path p') = (.error e', t')) (hkind : e.kind = e'.kind)
  | found {id : SetId} {t : Session κ} (h : s.step (CompileM.path p) = (.ok id, t))
      (h' : t.step (CompileM.path p') = (.ok id, t))

/-- The subject is the result that a rooted path was compiled to, of type
`u`, and each stretch of that path has a set that is seen. -/
structure AtResult (R : Regime) (root : QualifiedName) (names : List String)
    (result : SetId) (type u : TypeId) (s : Session κ) : Prop where
  ready : s.env.Ready R s.store
  subject : s.frame.subject = some result
  resolves : ∃ entry, s.env.resolve? root = some (.type type entry) ∧ entry.isObject = true
  trails : s.store.Trails s.frame.scope (.root type) names result
  typed : s.store.arena.type? result = some u
  leads : s.schema.leads type names = .ok u

namespace AtResult

open CompileM

variable {R : Regime} {root : QualifiedName} {names more : List String} {result : SetId}
  {type u : TypeId} {s t : Session κ} {α : Type} {m : CompileM κ α} {p p' : Ast.Path}
  {e e' : Expr}

/-- Whatever is compiled leaves the subject what it was. -/
theorem step (h : s.AtResult R root names result type u) {post : Store κ → α → Prop}
    (hm : Upholds R s.env s.store m post) {out : Except CompileError α}
    (hstep : s.step m = (out, t)) : t.AtResult R root names result type u := by
  obtain ⟨hrun, -⟩ := run_of_step hstep
  obtain ⟨hready, hext⟩ := hm.kept h.ready hrun
  cases hstep
  exact ⟨hready, h.subject, h.resolves, h.trails.mono hext, hext.arena.type? h.typed,
    h.leads⟩

/-- So does a node of its own. -/
theorem operand (h : s.AtResult R root names result type u) (clause : Option Clause) :
    (s.operand clause).AtResult R root names result type u := by
  have hready := ready_operand h.ready clause
  have hext := h.ready.extends_opened
  have habove : s.frame.scope ∈ (s.operand clause).store.scopes.ancestors
      s.store.scopes.size :=
    hext.rooted.mem_ancestors_attach h.ready.active
  exact ⟨hready, h.subject, h.resolves, (h.trails.mono hext).below hext.rooted' habove,
    hext.arena.type? h.typed, h.leads⟩

theorem enterScope (h : s.AtResult R root names result type u) :
    s.enterScope.AtResult R root names result type u := h.operand s.frame.clause

/-- Inside an expression the subject is what it is outside. -/
theorem visits (h : s.AtResult R root names result type u) (hv : s.Visits e t e') :
    t.AtResult R root names result type u := by
  cases hv with
  | left | not | neg | paren => exact h
  | right hleft => exact h.step (.expr _ _ _) hleft
  | «exists» => exact h.enterScope
  | @argument s₁ t function before after arg span name sig passed rest param r hcallee
      hparams hlength hbefore =>
      have h₁ := h.step Upholds.callee hcallee
      have ht := h₁.step (Upholds.arguments before name 0 passed _ _ _ hlength) hbefore
      unfold passing
      split
      · exact ht.enterScope
      · exact ht
  | cast htarget => exact h.step Upholds.castTarget htarget
  | member hbefore => exact h.step (.exprs _ _ _) hbefore

/-- Whether the pointers can be followed does not depend on how the path
is written. -/
theorem path_ends (h : s.AtResult R root names result type u)
    (hp : p.Continues root names more) :
    Ends (s.schema.leads u more) ((path p).run s.env s.store) := by
  obtain ⟨entry, hresolve, hobj⟩ := h.resolves
  cases hp with
  | short hroot hnames =>
      rw [← hnames]
      exact ends_of_subject h.ready hroot h.subject h.typed
  | full hroot hname hnames =>
      rw [← Schema.leads_append h.leads, ← hnames]
      exact ends_of_root h.ready hroot (hname ▸ hresolve) hobj

/-- Either way, each stretch of the whole path has a set then. -/
theorem path_trails (h : s.AtResult R root names result type u)
    (hp : p.Continues root names more) :
    Upholds R s.env s.store (path p) fun st' id =>
      st'.Trails s.frame.scope (.root type) (names ++ more) id := by
  obtain ⟨entry, hresolve, hobj⟩ := h.resolves
  cases hp with
  | short hroot hnames =>
      have hstart : Upholds R s.env s.store (pathStart p) _ :=
        Upholds.pathStart_subject hroot h.subject h.trails.last
      refine (Upholds.path_trails hstart).imp ?_
      intro st' id hext _ hid
      rw [hnames] at hid
      exact (h.trails.mono hext).append hid
  | full hroot hname hnames =>
      have hstart : Upholds R s.env s.store (pathStart p) _ :=
        Upholds.pathStart_root hroot (hname ▸ hresolve) hobj
      rw [← hnames]
      exact Upholds.path_trails hstart

/-- Either way, the set that there is for the whole path is found. -/
theorem path_found (h : s.AtResult R root names result type u)
    (hp : p.Continues root names more) (hf : s.store.arena.Faithful) {id : SetId}
    (hid : s.store.Trails s.frame.scope (.root type) (names ++ more) id) :
    s.step (path p) = (.ok id, s) := by
  obtain ⟨entry, hresolve, hobj⟩ := h.resolves
  refine step_of_run ?_
  cases hp with
  | short hroot hnames =>
      have hrest := hid.drop
      rw [← hnames] at hrest
      unfold path
      rw [run_bind_ok (run_pathStart_of_subject hroot h.subject)]
      exact run_extendAll_of_trails h.ready hf h.trails.last hrest
  | full hroot hname hnames =>
      obtain ⟨x, hx⟩ := hid.stretch [] List.nil_prefix
      rw [← hnames] at hid
      have hstart : (pathStart p).run s.env s.store = (.ok x, s.store) :=
        (run_pathStart_of_root hroot (hname ▸ hresolve) hobj).trans
          (run_rootSet_of_finds h.ready hf hx _)
      unfold path
      rw [run_bind_ok hstart]
      exact run_extendAll_of_trails h.ready hf hx hid

/-- Two ways to write a path coincide. -/
theorem coincide (h : s.AtResult R root names result type u)
    (hp : p.Continues root names more) (hp' : p'.Continues root names more)
    (hf : (s.step (path p)).2.store.arena.Faithful) : s.Coincide p p' := by
  cases hstep : s.step (path p) with
  | mk out t =>
      have ht := h.step Upholds.path hstep
      obtain ⟨hrun, henv⟩ := run_of_step hstep
      rw [hstep] at hf
      cases out with
      | ok id =>
          have hid := (h.path_trails hp).returned h.ready hrun
          have hscope : t.frame.scope = s.frame.scope := congrArg (·.frame.scope) henv
          rw [← hscope] at hid
          exact .found hstep (ht.path_found hp' hf hid)
      | error e =>
          have hends := h.path_ends hp
          have hends' := ht.path_ends hp'
          rw [show t.schema = s.schema from congrArg Env.schema henv] at hends'
          rw [hrun] at hends
          generalize s.schema.leads u more = expected at hends hends'
          cases hends with
          | error hkind =>
              cases hstep' : t.step (path p') with
              | mk out' t' =>
                  obtain ⟨hrun', -⟩ := run_of_step hstep'
                  rw [hrun'] at hends'
                  cases hends' with
                  | error hkind' =>
                      exact .failed hstep hstep' (hkind.trans hkind'.symm)

end AtResult

open CompileM

variable {R : Regime} {s t mid : Session κ} {q : Select} {P : Ast.Path} {root : Ast.NameRef}
  {result : SetId} {e : Expr}

/-- Right after its result, a statement is at its result. -/
theorem atResult_of_selectResult (hr : s.env.Ready R s.store) (hq : q.result = .path P)
    (hroot : P.root = some root)
    (hresult : (s.inside q).step (selectResult q) = (.ok result, mid)) :
    ∃ type u, (mid.setSubject (some result)).AtResult R root.name P.pointers result type u :=
  by
  obtain ⟨hrun, henv⟩ := run_of_step hresult
  have hready : (s.inside q).env.Ready R (s.inside q).store := hr.inside q
  unfold selectResult at hrun
  rw [hq] at hrun
  obtain ⟨v, st₁, hexpr, hattach⟩ := ok_of_bind hrun
  unfold expr at hexpr
  obtain ⟨x, st₂, hpath, hpure⟩ := ok_of_bind hexpr
  obtain ⟨rfl, rfl⟩ := ok_of_pure hpure
  obtain ⟨rfl, rfl⟩ := of_attach_set hattach
  obtain ⟨hready', -⟩ := Upholds.path.kept hready hpath
  obtain ⟨t, hholds, hdenotes⟩ := Upholds.path.returned hready hpath
  -- the path has been compiled, so there is a type that it starts from
  obtain ⟨start, hstart, -⟩ := Option.map_eq_some_iff.1 hdenotes
  rcases Env.start?_cases hstart with ⟨_, hnone, -⟩
    | ⟨ref, type, entry, href, hresolve, hobj, rfl⟩
  · cases hroot.symm.trans hnone
  cases hroot.symm.trans href
  have htrails := (Upholds.path_trails
    (Upholds.pathStart_root hroot hresolve hobj)).returned hready hpath
  have hends := ends_of_root hready hroot hresolve hobj
  rw [hpath] at hends
  generalize hleads : (s.inside q).env.schema.leads type P.pointers = expected at hends
  rw [← henv] at hready' hholds hresolve htrails hleads
  cases hends with
  | @ok _ u _ htyped =>
      have hsubject : ∀ id, some result = some id →
          ∃ t, mid.store.Holds R mid.frame.scope id t := by
        intro id hid
        cases hid
        exact ⟨t, hholds⟩
      exact ⟨type, u, ⟨hready'.suits, hready'.sound, hready'.active, hready'.unshadowed,
        hsubject⟩, rfl, ⟨entry, hresolve, hobj⟩, htrails, htyped, hleads⟩

/-- Wherever a statement comes to, it is at its result. -/
theorem ComesTo.atResult (hc : s.ComesTo q result t e) (hr : s.env.Ready R s.store)
    (hq : q.result = .path P) (hroot : P.root = some root) :
    ∃ type u, t.AtResult R root.name P.pointers result type u := by
  induction hc with
  | operand hresult hparts hbefore hp =>
      obtain ⟨type, u, hmid⟩ := atResult_of_selectResult hr hq hroot hresult
      obtain ⟨v, hv⟩ := hmid.ready.subject result rfl
      exact ⟨type, u, (hmid.step (Upholds.parts hv _) hbefore).operand _⟩
  | visits _ hv ih =>
      obtain ⟨type, u, ht⟩ := ih
      exact ⟨type, u, ht.visits hv⟩

/-- A partial path is short for a full one. In any session, let a statement
select a rooted path. Wherever compilation comes to inside the statement, in
the operand of a clause or a computed element of the shape and not in a
statement in there, the partial path of some pointers and the full path of
those of the result and these coincide, in either order, if keys tell paths
apart: both fail with the same kind of error, or both are the same set. The
path of no pointers is the result of the statement. -/
theorem Reachable.paths_coincide {lexical : Prop} (hs : s.Reachable lexical)
    (hq : q.result = .path P) (hroot : P.root = some root)
    (hc : s.ComesTo q result t e) {more : List String} {p p' : Ast.Path}
    (hp : p.Continues root.name P.pointers more)
    (hp' : p'.Continues root.name P.pointers more)
    (hf : (t.step (path p)).2.store.arena.Faithful) :
    t.Coincide p p'
      ∧ (more = [] → t.step (path p) = (.ok result, t))
      ∧ ∀ stmt s', s.step (select q) = (.ok stmt, s') → stmt.result = result := by
  obtain ⟨type, u, ht⟩ := hc.atResult hs.ready.active hq hroot
  refine ⟨ht.coincide hp hp' hf, ?_, fun stmt s' hstmt => hc.result_eq hstmt⟩
  rintro rfl
  have hext := (Upholds.path (p := p)).kept ht.ready (run_of_step rfl).1
  refine ht.path_found hp (hf.of_extends hext.2.arena) ?_
  rw [List.append_nil]
  exact ht.trails

end Session

end

-- ============================================================== example

open scoped Xxh64

/-- Friends, from the subject. -/
def theirFriends : Ast.Path := Ast.Build.run (Ast.Build.partialPath ["friends"])

/-- The friends of the friends of each person. -/
def friendsOfFriends : Ast.Path :=
  Ast.Build.run (Ast.Build.path "default::Person" ["friends", "friends"])

/-- The friends of each person that have friends. -/
def friendly : Select :=
  { Select.ofResult (.path friends) ⟨1, 30, 1⟩ with
    filter := some (.unary .exists (.path theirFriends) ⟨1, 40, 1⟩) }

/-- Where these are looked for. -/
def inFriendly : Session PathId :=
  ((((beforeFriends.inside friendly).step (CompileM.selectResult friendly)).2.setSubject
    (some 1)).operand (some .filter)).enterScope

theorem paths_coincide_friends :
    inFriendly.Coincide theirFriends friendsOfFriends
      ∧ inFriendly.Coincide friendsOfFriends theirFriends := by
  have hroot : friends.root = some ⟨.parse "default::Person", ⟨1, 1, 1⟩⟩ := by
    decide +kernel
  have hroot' : friendsOfFriends.root = some ⟨.parse "default::Person", ⟨1, 1, 1⟩⟩ := by
    decide +kernel
  have hresult : (beforeFriends.inside friendly).step (CompileM.selectResult friendly)
      = (.ok 1, ((beforeFriends.inside friendly).step (CompileM.selectResult friendly)).2) :=
    Session.step_of_fst (by decide +kernel)
  have hc : beforeFriends.ComesTo friendly 1 inFriendly (.path theirFriends) := by
    unfold inFriendly
    exact .visits (Session.ComesTo.of_filter hresult rfl rfl) .exists
  have hshort : theirFriends.Continues (.parse "default::Person") friends.pointers
      ["friends"] := .short (by decide +kernel) (by decide +kernel)
  have hfull : friendsOfFriends.Continues (.parse "default::Person") friends.pointers
      ["friends"] :=
    .full hroot' rfl (by decide +kernel)
  have hs := reachable_beforeFriends True
  have hf : (inFriendly.step (CompileM.path theirFriends)).2.store.arena.Faithful :=
    Arena.faithful_of_forall_lt (by decide +kernel)
  have hf' : (inFriendly.step (CompileM.path friendsOfFriends)).2.store.arena.Faithful :=
    Arena.faithful_of_forall_lt (by decide +kernel)
  exact ⟨(hs.paths_coincide rfl hroot hc hshort hfull hf).1,
    (hs.paths_coincide rfl hroot hc hfull hshort hf').1⟩

end PathQuery
