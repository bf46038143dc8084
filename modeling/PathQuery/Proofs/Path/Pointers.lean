/-
Compiling a path follows its pointers.

Which pointers a path follows is a matter of the schema alone
(`Schema.along`): each step goes on from an object type to what its
pointer leads to, and the first step that cannot is the fault of the
path. Compiling gives just that (`path_follows`). It fails where and for
the reason that the pointers do; else it gives a set of the type they
lead to, which stands for the path that was asked for.

Nothing is assumed of keys. Sharing makes a set or finds one
(`exists_run_shared`), so it never fails, and what it gives stands for
the wanted path whatever else has its key.
-/
import PathQuery.Proofs.Session.Reachable

namespace PathQuery

open Ir

variable {κ : Type}

-- ================================================================ spec

/-- What the pointers of a path lead to from a type, or how and where
the first one fails that cannot be followed. -/
def Schema.along (s : Schema) :
    TypeId → List Ast.PathStep → Except (ErrorKind × Span) TypeId
  | t, [] => .ok t
  | t, step :: steps =>
    if s.isObject t then
      match s.findPointer t step.name with
      | some p => s.along p.target steps
      | none => .error (.nameResolution, step.span)
    else .error (.typeMismatch, step.span)

section

variable {s : Schema} {t : TypeId} {step : Ast.PathStep}
  {steps : List Ast.PathStep}

theorem Schema.along_of_scalar (h : s.isObject t = false) :
    s.along t (step :: steps) = .error (.typeMismatch, step.span) := by
  unfold along
  rw [h]
  rfl

theorem Schema.along_of_missing (h : s.isObject t = true)
    (hp : s.findPointer t step.name = none) :
    s.along t (step :: steps) = .error (.nameResolution, step.span) := by
  unfold along
  rw [h, hp]
  rfl

theorem Schema.along_of_pointer {p : Pointer} (h : s.isObject t = true)
    (hp : s.findPointer t step.name = some p) :
    s.along t (step :: steps) = s.along p.target steps := by
  rw [along, h, hp]
  rfl

end

/-- The type that a path starts at: an object type, or that of the
subject. -/
def Env.startType? (env : Env) (a : Arena κ) (p : Ast.Path) : Option TypeId :=
  match p.root with
  | none => env.frame.subject.bind a.type?
  | some root =>
    match env.resolve? root.name with
    | some (.type id entry) => if entry.isObject then some id else none
    | some (.function _ _) | none => none

/-- Compiling a path does what following its pointers does. -/
inductive Follows (start : CanonicalPath) (names : List String) :
    Except (ErrorKind × Span) TypeId → Except CompileError SetId × Store κ →
      Prop where
  /-- A set of the type that the pointers lead to stands for the path
  that they follow. -/
  | found {id : Nat} {node : SetNode κ} {st : Store κ}
      (hn : st.arena.get? id = some node)
      (hc : st.arena.canonical id = start.follow names) :
      Follows start names (.ok node.type) (.ok id, st)
  /-- An error is of the kind and at the place where they fail. -/
  | failed {e : CompileError} {st : Store κ} :
      Follows start names (.error (e.kind, e.span)) (.error e, st)

/-- The first pointer belongs to the path. -/
theorem Follows.cons {start : CanonicalPath} {name : String}
    {names : List String} {expected : Except (ErrorKind × Span) TypeId}
    {out : Except CompileError SetId × Store κ}
    (h : Follows (.step start name) names expected out) :
    Follows start (name :: names) expected out := by
  cases h with
  | found hn hc => exact .found hn hc
  | failed => exact .failed

variable [DecidableEq κ]

namespace CompileM

-- =============================================================== runs

section Runs

variable {env : Env} {st : Store κ}

/-- Sharing does not fail. -/
theorem exists_run_shared {key : κ} {confirm : Arena κ → SetId → Bool}
    {make : CompileM κ SetId} {new : SetId} {st' : Store κ}
    (hmake : make.run env st = (.ok new, st')) :
    ∃ id st'', (shared key confirm make).run env st = (.ok id, st'') := by
  cases hl : st.scopes.lookup env.frame.scope key with
  | none => exact ⟨_, _, run_shared_of_free hl hmake⟩
  | some hit =>
      obtain ⟨a, found⟩ := hit
      cases hc : confirm st.arena found with
      | true => exact ⟨_, _, run_shared_of_found hl hc⟩
      | false => exact ⟨_, _, (run_shared_of_taken hl hc).trans hmake⟩

variable [PathKey κ]

theorem exists_run_rootSet (type : TypeId) (span : Span) :
    ∃ id st', (rootSet type span).run env st = (.ok id, st') := by
  unfold rootSet
  refine exists_run_shared (run_newSet fun source hs => ?_)
  cases hs

variable {source : Nat} {node : SetNode κ} (name : String) (span : Span)

theorem exists_run_extendPath {p : Pointer}
    (hn : st.arena.get? source = some node)
    (hobj : env.schema.isObject node.type = true)
    (hp : env.schema.findPointer node.type name = some p) :
    ∃ id st', (extendPath source name span).run env st = (.ok id, st') := by
  obtain ⟨c, hc⟩ := st.exists_judge? env.frame.scope hn
  rw [run_extendPath hn hobj hp]
  refine exists_run_shared
    ((run_bind_ok (run_judge hc)).trans (run_newSet fun x hx => ?_))
  cases hx
  exact Arena.lt_size_of_get? hn

/-- Scalars have no pointers. -/
theorem run_extendPath_of_scalar (hn : st.arena.get? source = some node)
    (hobj : env.schema.isObject node.type = false) :
    ∃ m, (extendPath source name span).run env st
      = (.error (.mismatch m span), st) := by
  unfold extendPath
  rw [run_bind_ok (run_getSet hn), run_bind_ok run_schema,
    run_bind_ok run_frame, hobj, run_bind, run_require]
  exact ⟨_, rfl⟩

theorem run_extendPath_of_missing (hn : st.arena.get? source = some node)
    (hobj : env.schema.isObject node.type = true)
    (hp : env.schema.findPointer node.type name = none) :
    ∃ shown, (extendPath source name span).run env st
      = (.error (.unresolved shown span), st) := by
  unfold extendPath
  rw [run_bind_ok (run_getSet hn), run_bind_ok run_schema,
    run_bind_ok run_frame, hobj, run_bind_ok (run_require true _ _ _), hp,
    run_bind, run_orFail]
  exact ⟨_, rfl⟩

end Runs

-- =============================================================== paths

variable [PathKey κ] [NameDigest] {R : Regime} {env : Env} {st : Store κ}

/-- Some pointers further from a set. -/
theorem run_extendAll_follows (hr : env.Ready R st) {source : Nat} {t : TypeId}
    {steps : List Ast.PathStep}
    (hsource : st.Holds R env.frame.scope source t) :
    Follows (st.arena.canonical source) (steps.map Ast.PathStep.name)
      (env.schema.along t steps)
      ((steps.foldlM (fun set step => extendPath set step.name step.span)
        source).run env st) := by
  induction steps generalizing st source t with
  | nil =>
      obtain ⟨node, hn, rfl, -⟩ := hsource
      exact .found hn rfl
  | cons step steps ih =>
      have hout : Outcome R env st
          ((extendPath source step.name step.span).run env st) _ :=
        Upholds.extendPath hsource hr
      obtain ⟨node, hn, rfl, -⟩ := hsource
      rw [List.foldlM_cons]
      cases hobj : env.schema.isObject node.type with
      | false =>
          obtain ⟨m, hrun⟩ :=
            run_extendPath_of_scalar step.name step.span hn hobj
          rw [Schema.along_of_scalar hobj, run_bind, hrun]
          exact .failed (e := .mismatch m step.span)
      | true =>
          cases hp : env.schema.findPointer node.type step.name with
          | none =>
              obtain ⟨shown, hrun⟩ :=
                run_extendPath_of_missing step.name step.span hn hobj hp
              rw [Schema.along_of_missing hobj hp, run_bind, hrun]
              exact .failed (e := .unresolved shown step.span)
          | some p =>
              obtain ⟨id, st', hrun⟩ :=
                exists_run_extendPath step.name step.span hn hobj hp
              rw [hrun] at hout
              obtain ⟨p', -, hp', hid, _, _, _, _, hcan⟩ := hout.value id rfl
              rw [hp] at hp'
              cases hp'
              rw [Schema.along_of_pointer hobj hp, run_bind_ok hrun,
                List.map_cons]
              have hfollows := ih hout.ready hid
              rw [hcan] at hfollows
              exact hfollows.cons

/-- A path starts at the type and the path that it should. -/
theorem run_pathStart (hr : env.Ready R st) {p : Ast.Path}
    {start : CanonicalPath} {t : TypeId}
    (hstart : env.start? st.arena p = some start)
    (ht : env.startType? st.arena p = some t) :
    ∃ id st', (pathStart p).run env st = (.ok id, st') ∧ env.Ready R st'
      ∧ st'.Holds R env.frame.scope id t ∧ st'.arena.canonical id = start := by
  unfold Env.startType? at ht
  rcases Env.start?_cases hstart with ⟨subject, hroot, hsubject, rfl⟩
    | ⟨root, type, entry, hroot, hresolve, hobj, rfl⟩
  · obtain ⟨u, hu⟩ := hr.subject subject hsubject
    simp only [hroot, hsubject, Option.bind_some, hu.type?] at ht
    cases ht
    exact ⟨subject, st, run_pathStart_of_subject hroot hsubject, hr, hu, rfl⟩
  · simp only [hroot, hresolve, hobj, if_true] at ht
    cases ht
    have htype := Env.type?_of_resolve? hresolve
    have hobj' : env.schema.isObject t = true := by
      unfold Schema.isObject
      rw [htype]
      exact hobj
    have hout : Outcome R env st ((rootSet t root.span).run env st) _ :=
      Upholds.rootSet
        (hr.suits.registered t (Schema.isRegistered_of_type? htype))
        (fun _ => hobj') hr
    obtain ⟨id, st', hrun⟩ :
        ∃ id st', (rootSet t root.span).run env st = (.ok id, st') :=
      exists_run_rootSet t root.span
    rw [hrun] at hout
    obtain ⟨hid, _, _, _, _, hcan⟩ := hout.value id rfl
    exact ⟨id, st', (run_pathStart_of_root hroot hresolve hobj).trans hrun,
      hout.ready, hid, hcan⟩

theorem run_path_follows (hr : env.Ready R st) {p : Ast.Path}
    {start : CanonicalPath} {t : TypeId}
    (hstart : env.start? st.arena p = some start)
    (ht : env.startType? st.arena p = some t) :
    Follows start p.pointers (env.schema.along t p.steps)
      ((path p).run env st) := by
  obtain ⟨id, st', hrun, hr', hid, rfl⟩ := run_pathStart hr hstart ht
  unfold path
  rw [run_bind_ok hrun]
  exact run_extendAll_follows hr' hid

end CompileM

-- ============================================================ sessions

namespace Session

variable [PathKey κ] [NameDigest]

/-- A path gives what its pointers lead to, in whatever session and with
whatever keys. -/
theorem path_follows {s : Session κ} (hs : Reachable False s) {p : Ast.Path}
    {start : CanonicalPath} {t : TypeId}
    (hstart : s.env.start? s.store.arena p = some start)
    (ht : s.env.startType? s.store.arena p = some t) :
    Follows start p.pointers (s.schema.along t p.steps)
      ((s.step (CompileM.path p)).1, (s.step (CompileM.path p)).2.store) :=
  CompileM.run_path_follows hs.ready.active hstart ht

end Session

open scoped Xxh64

/-- The names of the friends of each person. -/
def namesOfFriends : Ast.Path :=
  Ast.Build.run (Ast.Build.path "default::Person" ["friends", "name"])

theorem path_follows_friends :
    Follows (.root (.ofName "default::Person")) ["friends", "name"]
      (.ok TypeId.str)
      ((afterFriends.step (CompileM.path namesOfFriends)).1,
        (afterFriends.step (CompileM.path namesOfFriends)).2.store) := by
  have hreachable : Session.Reachable False afterFriends := by
    obtain ⟨schema, o, hs⟩ := reachable_beforeFriends False
    exact ⟨schema, o,
      (hs.tail (.path friends)).trans (steps_afterFriends False)⟩
  have hstart : afterFriends.env.start? afterFriends.store.arena namesOfFriends
      = some (.root (.ofName "default::Person")) := by decide +kernel
  have htype : afterFriends.env.startType? afterFriends.store.arena
      namesOfFriends = some (.ofName "default::Person") := by decide +kernel
  have hnames : namesOfFriends.pointers = ["friends", "name"] := by
    decide +kernel
  have halong : afterFriends.schema.along (.ofName "default::Person")
      namesOfFriends.steps = .ok TypeId.str := by decide +kernel
  have hfollows := Session.path_follows hreachable hstart htype
  rw [hnames, halong] at hfollows
  exact hfollows

end PathQuery
