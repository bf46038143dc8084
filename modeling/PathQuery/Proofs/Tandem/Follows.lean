/-
What two compilations of one query do side by side.

`Follows` is said of a step, of the same step on the other side, and of
a tandem: started there, if the step ends well then so does the other,
in a tandem that is mirrored again, and with what the other returns
related as `post` has it. If the step fails then the other fails for the
same cause, or the step found more than one element where one is
allowed. So a query that compiles on the first side compiles on the
second, and collisions of keys can only make the first count too much.

As long as keys tell paths apart, the other fails exactly alike. That is
the form of every fact about the case without collisions: it is said of
the store at hand, and holds of earlier stores because a collision
stays.

There is one rule for each way in which steps are put together. The rules
carry no invariant of a single store; where one is needed, at paths, it
comes from what each side is known to uphold (`upheld`).
-/
import PathQuery.Proofs.Tandem.Mirrored

namespace PathQuery

open Ir

variable {κ κ' α α' β β' : Type}

-- ============================================================== errors

/-- What is wrong, wherever it is. -/
def CompileError.cause : CompileError → CompileError
  | unsupported construct _ => unsupported construct Span.unknown
  | mismatch m _ => mismatch m Span.unknown
  | notSingleton clause _ => notSingleton clause Span.unknown
  | unresolved name _ => unresolved name Span.unknown
  | internal fault => internal fault

/-- The environment with another subject. -/
def Env.onSubject (env : Env) (subject : Option SetId) : Env :=
  { env with frame := { env.frame with subject } }

-- ============================================================ outcomes

variable [DecidableEq κ] [PathKey κ]

/-- The outcomes of a step on both sides. -/
structure Tandem.Outcomes (T : Tandem κ κ')
    (out : Except CompileError α × Store κ)
    (out' : Except CompileError α' × Store κ')
    (post : Tandem κ κ' → α → α' → Prop) : Prop where
  value : ∀ a, out.1 = .ok a → ∃ b mates, out'.1 = .ok b
    ∧ T.Later ⟨out.2, out'.2, mates⟩
    ∧ Tandem.Mirrored ⟨out.2, out'.2, mates⟩ ∧ post ⟨out.2, out'.2, mates⟩ a b
  fault : ∀ e, out.1 = .error e →
    (e.kind = .cardinalityViolation
      ∨ ∃ e', out'.1 = .error e' ∧ e'.cause = e.cause)
    ∧ (out.2.arena.Faithful → out'.1 = .error e)

/-- Both sides end well, in stores that are mirrored again. -/
theorem Tandem.Outcomes.of_ok {T : Tandem κ κ'} {a : α} {b : α'} {st : Store κ}
    {st' : Store κ'} {mates : SetId → SetId → Prop}
    {post : Tandem κ κ' → α → α' → Prop} (hlater : T.Later ⟨st, st', mates⟩)
    (hmirrored : Tandem.Mirrored ⟨st, st', mates⟩) (h : post ⟨st, st', mates⟩ a b) :
    T.Outcomes (.ok a, st) (.ok b, st') post := by
  refine ⟨fun x hx => ?_, fun e he => ?_⟩
  · cases hx
    exact ⟨b, mates, rfl, hlater, hmirrored, h⟩
  · cases he

namespace CompileM

/-- A step and the same step on the other side, where partial paths start
from `subject`. -/
def Follows (T : Tandem κ κ') (env : Env) (subject : Option SetId)
    (m : CompileM κ α) (m' : CompileM κ' α')
    (post : Tandem κ κ' → α → α' → Prop) : Prop :=
  T.Mirrored →
    T.Outcomes (m.run env T.left) (m'.run (env.onSubject subject) T.right) post

namespace Follows

variable {T : Tandem κ κ'} {env : Env} {subject : Option SetId}
  {m : CompileM κ α} {m' : CompileM κ' α'} {f : α → CompileM κ β}
  {f' : α' → CompileM κ' β'} {mid mid' : Tandem κ κ' → α → α' → Prop}
  {post : Tandem κ κ' → β → β' → Prop}

/-- The tandem that a step starts from may be taken to be mirrored. -/
theorem intro (h : T.Mirrored → Follows T env subject m m' mid) :
    Follows T env subject m m' mid :=
  fun hm => h hm hm

-- ============================================================ sequence

/-- Steps that leave both stores alone. -/
theorem of_run {a : α} {b : α'} (hl : m.run env T.left = (.ok a, T.left))
    (hr : m'.run (env.onSubject subject) T.right = (.ok b, T.right))
    (h : mid T a b) : Follows T env subject m m' mid := by
  intro hm
  rw [hl, hr]
  exact .of_ok (.refl hm) hm h

theorem pure {a : α} {b : α'} (h : mid T a b) :
    Follows T env subject (Pure.pure a) (Pure.pure b) mid :=
  of_run (run_pure a _ _) (run_pure b _ _) h

/-- Both sides fail for one cause. -/
theorem fail {e e' : CompileError} (hcause : e'.cause = e.cause)
    (hexact : T.left.arena.Faithful → e' = e) :
    Follows T env subject (CompileM.fail e) (CompileM.fail e') mid := by
  intro _
  refine ⟨fun x hx => ?_, fun x hx => ?_⟩
  · cases hx
  · cases hx
    exact ⟨Or.inr ⟨e', rfl, hcause⟩, fun hf => congrArg Except.error (hexact hf)⟩

/-- Both sides go on from what the first step left them with. -/
theorem bind (hm : Follows T env subject m m' mid)
    (hf : ∀ T' a b, T.Later T' → mid T' a b →
      Follows T' env subject (f a) (f' b) post) :
    Follows T env subject (m >>= f) (m' >>= f') post := by
  intro h
  have hout := hm h
  have hstop : ∀ {e'}, (m'.run (env.onSubject subject) T.right).1 = .error e' →
      ((m' >>= f').run (env.onSubject subject) T.right).1 = .error e' := by
    intro e' he'
    rw [run_bind]
    rcases hr : m'.run (env.onSubject subject) T.right with ⟨e'' | b, st'⟩
    · rw [hr] at he'
      cases he'
      rfl
    · rw [hr] at he'
      cases he'
  rw [run_bind] at hstop ⊢
  rw [run_bind]
  rcases hl : m.run env T.left with ⟨e | a, st⟩
  · -- the first side stops here, and the other one as well
    rw [hl] at hout
    obtain ⟨hcause, hexact⟩ := hout.fault e rfl
    refine ⟨fun b hb => ?_, fun x hx => ?_⟩
    · cases hb
    cases hx
    refine ⟨hcause.imp_right fun hother => ?_, fun hf => hstop (hexact hf)⟩
    obtain ⟨e', he', hsame⟩ := hother
    exact ⟨e', hstop he', hsame⟩
  · rw [hl] at hout
    obtain ⟨b, mates, hb, hlater, hmirrored, hmid⟩ := hout.value a rfl
    rcases hr : m'.run (env.onSubject subject) T.right with ⟨out', st'⟩
    rw [hr] at hb hlater hmirrored hmid
    obtain rfl : out' = .ok b := hb
    have hout' := hf ⟨st, st', mates⟩ a b hlater hmid hmirrored
    refine ⟨fun x hx => ?_, hout'.fault⟩
    obtain ⟨y, mates', hy, hlater', hrest⟩ := hout'.value x hx
    exact ⟨y, mates', hy, hlater.trans hlater', hrest⟩

/-- Steps that only read give what they read. -/
theorem read {a : α} {b : α'} (hl : m.run env T.left = (.ok a, T.left))
    (hr : m'.run (env.onSubject subject) T.right = (.ok b, T.right))
    (hf : Follows T env subject (f a) (f' b) post) :
    Follows T env subject (m >>= f) (m' >>= f') post := by
  intro h
  rw [run_bind_ok hl, run_bind_ok hr]
  exact hf h

theorem readSchema {f : Schema → CompileM κ β} {f' : Schema → CompileM κ' β'}
    (hf : Follows T env subject (f env.schema) (f' env.schema) post) :
    Follows T env subject (schema >>= f) (schema >>= f') post :=
  read run_schema run_schema hf

theorem readFrame {f : Frame → CompileM κ β} {f' : Frame → CompileM κ' β'}
    (hf : Follows T env subject (f env.frame)
      (f' { env.frame with subject }) post) :
    Follows T env subject (frame >>= f) (frame >>= f') post :=
  read run_frame run_frame hf

/-- Nothing comes after a step that fails on both sides. -/
theorem stop {e e' : CompileError} (hcause : e'.cause = e.cause)
    (hexact : T.left.arena.Faithful → e' = e) :
    Follows T env subject (CompileM.fail e >>= f) (CompileM.fail e' >>= f')
      post := by
  have hfail : Follows T env subject (CompileM.fail e) (CompileM.fail e') post :=
    fail hcause hexact
  exact hfail

/-- A condition that both sides require. -/
theorem require {b : Bool} {e e' : CompileError} {f : Unit → CompileM κ β}
    {f' : Unit → CompileM κ' β'} (hcause : e'.cause = e.cause)
    (hexact : T.left.arena.Faithful → e' = e)
    (hf : b = true → Follows T env subject (f ()) (f' ()) post) :
    Follows T env subject (CompileM.require b e >>= f)
      (CompileM.require b e' >>= f') post := by
  cases b with
  | true => exact read (run_require true e _ _) (run_require true e' _ _) (hf rfl)
  | false => exact stop hcause hexact

theorem require_last {b : Bool} {e e' : CompileError}
    {mid : Tandem κ κ' → Unit → Unit → Prop} (hcause : e'.cause = e.cause)
    (hexact : T.left.arena.Faithful → e' = e) (h : mid T () ()) :
    Follows T env subject (CompileM.require b e) (CompileM.require b e') mid := by
  cases b with
  | true => exact pure h
  | false => exact fail hcause hexact

/-- What must be there on both sides. -/
theorem orFail {o : Option α} {e e' : CompileError} {f : α → CompileM κ β}
    {f' : α → CompileM κ' β'} (hcause : e'.cause = e.cause)
    (hexact : T.left.arena.Faithful → e' = e)
    (hf : ∀ a, o = some a → Follows T env subject (f a) (f' a) post) :
    Follows T env subject (CompileM.orFail o e >>= f)
      (CompileM.orFail o e' >>= f') post := by
  cases o with
  | some a =>
      exact read (run_orFail (some a) e _ _) (run_orFail (some a) e' _ _) (hf a rfl)
  | none => exact stop hcause hexact

/-- A weaker relation of what is returned. -/
theorem imp (hm : Follows T env subject m m' mid)
    (h : ∀ T' a b, T.Later T' → mid T' a b → mid' T' a b) :
    Follows T env subject m m' mid' := by
  intro hmirrored
  have hout := hm hmirrored
  refine ⟨fun a ha => ?_, hout.fault⟩
  obtain ⟨b, mates, hb, hlater, hrest, hmid⟩ := hout.value a ha
  exact ⟨b, mates, hb, hlater, hrest, h _ a b hlater hmid⟩

/-- A name stands for the same on both sides. -/
theorem resolve {ref : Ast.NameRef} {f : SchemaItem → CompileM κ β}
    {f' : SchemaItem → CompileM κ' β'}
    (hf : ∀ item, env.resolve? ref.name = some item →
      Follows T env subject (f item) (f' item) post) :
    Follows T env subject (CompileM.resolve ref >>= f)
      (CompileM.resolve ref >>= f') post := by
  intro h
  have hout := orFail (e := .unresolved (env.shownName ref.name) ref.span) rfl
    (fun _ => rfl) hf h
  rw [run_bind] at hout ⊢
  rw [run_bind] at hout ⊢
  exact hout

-- ============================================================== frames

/-- A step in a part of the statement. -/
theorem inClause {clause : Clause}
    (hm : Follows T { env with frame := { env.frame with clause := some clause } }
      subject m m' mid) :
    Follows T env subject (CompileM.inClause clause m)
      (CompileM.inClause clause m') mid :=
  hm

/-- A step where partial paths start from other sets. -/
theorem underSubject {x y : SetId}
    (hm : Follows T { env with frame := { env.frame with subject := some x } }
      (some y) m m' mid) :
    Follows T env subject (CompileM.underSubject x m)
      (CompileM.underSubject y m') mid :=
  hm

/-- A step under a module declaration. -/
theorem underDeclaration {d : Ast.ModuleDecl}
    (hm : Follows T { env with frame := env.frame.declare d } subject m m' mid) :
    Follows T env subject (CompileM.underFrame (·.declare d) m)
      (CompileM.underFrame (·.declare d) m') mid := by
  intro h
  have hout := hm h
  have hdeclare : ({ env with frame := env.frame.declare d } : Env).onSubject
      subject = { env.onSubject subject with
        frame := (env.onSubject subject).frame.declare d } := by
    unfold Env.onSubject Frame.declare
    cases d.shorthand <;> rfl
  rw [hdeclare] at hout
  exact hout

/-- A step in a node of its own, where both sides do as `mid` says. -/
theorem inScope (hs : env.frame.scope < T.left.scopes.size)
    (mid : Tandem κ κ' → α → α' → Prop)
    (hm : T.Later (T.opened env.frame.scope) →
      Follows (T.opened env.frame.scope) (env.within T.left.scopes.size) subject
        m m' mid)
    (hpost : ∀ T' a b, T.Later T' →
      T'.left.scopes.parent? T.left.scopes.size = some env.frame.scope →
      T'.right.scopes.parent? T.left.scopes.size = some env.frame.scope →
      mid T' a b → mid' T' a b) :
    Follows T env subject (CompileM.inScope m) (CompileM.inScope m') mid' := by
  intro h
  have hlater := h.later_opened hs
  have hout := hm hlater (h.opened hs)
  rw [run_inScope, run_inScope]
  have henv : ({ env.onSubject subject with frame :=
        { (env.onSubject subject).frame with scope := T.right.scopes.size } } : Env)
      = (env.within T.left.scopes.size).onSubject subject := by
    rw [h.size_eq]
    rfl
  rw [henv]
  refine ⟨fun a ha => ?_, hout.fault⟩
  obtain ⟨b, mates, hb, hlater', hmirrored, hmid⟩ := hout.value a ha
  have hparent := hlater'.left.parent?
    (ScopeTree.parent?_attach_self T.left.scopes env.frame.scope)
  refine ⟨b, mates, hb, hlater.trans hlater', hmirrored, ?_⟩
  refine hpost _ a b (hlater.trans hlater') hparent ?_ hmid
  exact (hmirrored.parent?_eq _).trans hparent

-- ================================================================ sets

/-- Computed sets of one type. They are mates if they have one span. -/
theorem newComputed {op op' : Operation} {t : TypeId} {c c' : Cardinality}
    {span span' : Span} (hs : env.frame.scope < T.left.scopes.size)
    (hle : c' ≤ c) (hconst : op.constant? = op'.constant?)
    (hexact : T.left.arena.Faithful → op = op' ∧ c = c' ∧ span = span') :
    Follows T env subject (CompileM.newComputed op t c span)
      (CompileM.newComputed op' t c' span') fun T' x y =>
        T'.Agree env.frame.scope x y ∧ (span = span' → T'.mates x y) := by
  intro h
  have hnode : T.left.arena.Faithful →
      (⟨none, t, c, env.frame.scope, span, .computed op⟩ : SetNode κ).unkeyed
        = (⟨none, t, c', env.frame.scope, span', .computed op'⟩ :
          SetNode κ').unkeyed := by
    intro hf
    obtain ⟨rfl, rfl, rfl⟩ := hexact hf
    rfl
  obtain ⟨mates, hlater, hmirrored, hagree, hmates⟩ :=
    h.push (Origin.source_lt_computed op _) (Origin.source_lt_computed op' _)
      rfl rfl hs rfl rfl hle hconst hnode
  rw [run_newComputed, run_newComputed]
  exact .of_ok hlater hmirrored ⟨hagree, hmates⟩

/-- Computed sets of one type agree, whatever their spans. -/
theorem newComputed_agree {op op' : Operation} {t : TypeId} {c c' : Cardinality}
    {span span' : Span} (hs : env.frame.scope < T.left.scopes.size)
    (hle : c' ≤ c) (hconst : op.constant? = op'.constant?)
    (hexact : T.left.arena.Faithful → op = op' ∧ c = c' ∧ span = span') :
    Follows T env subject (CompileM.newComputed op t c span)
      (CompileM.newComputed op' t c' span') fun T' x y =>
        T'.Agree env.frame.scope x y :=
  (newComputed hs hle hconst hexact).imp fun _ _ _ _ h => h.1

end Follows

end CompileM

end PathQuery
