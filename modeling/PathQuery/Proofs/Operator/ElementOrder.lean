/-
The order of the elements of a set literal.

A set literal is accepted exactly where its elements have a common type
and at least one of them has a type: a value that converts to a type is
attached at that type, whatever else the store holds
(`CompileM.exists_run_attach`). Both the type and the acceptance are
thus matters of the types of the elements, and those are read off the
elements, so compiling them in another order gives the same types in
another order. What is left is whether the common type depends on the
order.

Where a type may extend two others that have nothing to do with each
other it does: of two types with the same two bases the nearest common
supertype is the base that the first type lists last
(`typed_by_first_twin`). Where the nearest common supertype is the least
one, it does not (`Session.Reachable.set_perm`).
-/
import PathQuery.Proofs.Compile.Inference
import PathQuery.Proofs.Session.Frames
import PathQuery.Proofs.Session.Reachable

namespace PathQuery

open Ast (Expr)
open Ir (Value Operation)

variable {κ : Type}

-- ============================================================== schemas

namespace Schema

variable {s : Schema} {types types' : List TypeId} {c : TypeId}

theorem NearestLeast.mono (h : s.NearestLeast types)
    (hsub : ∀ t ∈ types', t ∈ types) : s.NearestLeast types' := by
  intro a b c ha hb
  obtain ⟨t, ht, hta⟩ := ha
  obtain ⟨t', ht', htb⟩ := hb
  exact h a b c ⟨t, hsub t ht, hta⟩ ⟨t', hsub t' ht', htb⟩

theorem Comparable.mono (h : s.Comparable types)
    (hsub : ∀ t ∈ types', t ∈ types) : s.Comparable types' :=
  fun a ha b hb c hc => h a (hsub a ha) b (hsub b hb) c (hsub c hc)

instance (a b : TypeId) : Decidable (s.Converts a b) :=
  inferInstanceAs (Decidable (_ = true))

instance : Decidable (s.Comparable types) :=
  inferInstanceAs (Decidable (∀ a ∈ types, ∀ b ∈ types, ∀ c ∈ types, _))

/-- What elements have in common that have types is a type, and they all
convert to it. -/
theorem converts_of_elementsType? (hs : s.Ordered)
    (hne : ∀ t, s.isRegistered t = true → t ≠ .empty)
    (h : s.elementsType? .empty types = some c) :
    (c = .empty → ∀ t ∈ types, t = .empty)
      ∧ ∀ t ∈ types, t = .empty ∨ s.Converts t c := by
  rw [elementsType?_eq_commonOf? hne] at h
  have hmem : ∀ t ∈ types, t = .empty ∨ t ∈ types.filter (· ≠ .empty) := by
    intro t ht
    by_cases hempty : t = .empty
    · exact Or.inl hempty
    · exact Or.inr (List.mem_filter.2 ⟨ht, by simpa using hempty⟩)
  revert hmem h
  cases hfilter : types.filter (· ≠ .empty) with
  | nil =>
      intro h hmem
      have hall : ∀ t ∈ types, t = .empty := fun t ht =>
        (hmem t ht).resolve_right List.not_mem_nil
      exact ⟨fun _ => hall, fun t ht => Or.inl (hall t ht)⟩
  | cons u rest =>
      intro h hmem
      obtain ⟨hbounds, hc⟩ := bounds_of_foldlM hs h
      refine ⟨fun hempty => ?_, fun t ht => (hmem t ht).imp_right (hbounds t)⟩
      have hcne : c ≠ .empty := by
        rcases hc with hc | hobj
        · rw [← hfilter] at hc
          simpa using (List.mem_filter.1 hc).2
        · exact hne c (isRegistered_of_isObject hobj)
      exact absurd hempty hcne

theorem elementsType?_perm (hs : s.Ordered)
    (hne : ∀ t, s.isRegistered t = true → t ≠ .empty)
    (hleast : s.NearestLeast types) (hperm : types.Perm types') {c' : TypeId}
    (h : s.elementsType? .empty types = some c)
    (h' : s.elementsType? .empty types' = some c') : c = c' := by
  rw [elementsType?_eq_commonOf? hne] at h h'
  exact commonOf?_perm hs (hleast.mono fun t ht => (List.mem_filter.1 ht).1)
    (hperm.filter _) h h'

theorem exists_elementsType?_perm (hs : s.Ordered)
    (hne : ∀ t, s.isRegistered t = true → t ≠ .empty)
    (hleast : s.NearestLeast types ∨ s.Topped) (hcomp : s.Comparable types)
    (hperm : types.Perm types') (h : s.elementsType? .empty types = some c) :
    ∃ c', s.elementsType? .empty types' = some c' := by
  have hsub : ∀ t ∈ types.filter (· ≠ .empty), t ∈ types := fun t ht =>
    (List.mem_filter.1 ht).1
  rw [elementsType?_eq_commonOf? hne] at h ⊢
  exact isSome_commonOf?_perm hs (hleast.imp_left fun h => h.mono hsub)
    (hcomp.mono hsub) (hperm.filter _) h

end Schema

-- =========================================================== attachment

namespace CompileM

variable {R : Regime} {env : Env} {st : Store κ} {t target : TypeId}
  {elements : List (Value × Span)} {types : List TypeId} {span : Span}

theorem exists_run_newComputed (env : Env) (st : Store κ) (op : Operation)
    (t : TypeId) (c : Cardinality) (span : Span) :
    ∃ id st', (newComputed op t c span).run env st = (.ok id, st') := by
  exact ⟨_, _, run_newComputed op t span⟩

variable [NameDigest] [DecidableEq κ] [PathKey κ]

omit [DecidableEq κ] [PathKey κ] [NameDigest] in
/-- A set that converts to a type is made to have it. -/
theorem exists_run_coerce {id : SetId}
    (hid : st.Holds R env.frame.scope id t)
    (h : t = .empty ∨ env.schema.Converts t target) :
    ∃ id' st', (coerce id target).run env st = (.ok id', st') := by
  obtain ⟨c, hc⟩ := hid.exists_judge? env.frame.scope
  obtain ⟨node, hn, rfl, -⟩ := hid
  unfold coerce
  rw [run_bind_ok (run_getSet hn), run_bind_ok run_schema]
  split
  · rw [run_bind_ok (run_judge hc)]
    exact exists_run_newComputed _ _ _ _ _ _
  · next hne =>
      obtain ⟨conversion, hconv⟩ := Option.isSome_iff_exists.1
        (h.resolve_left fun hempty => hne (TypeId.isEmpty_iff.2 hempty))
      rw [hconv]
      split
      · exact ⟨_, _, rfl⟩
      · exact ⟨_, _, rfl⟩
      · unfold castSet
        rw [run_bind_ok (run_getSet hn), run_bind_ok (run_judge hc)]
        exact exists_run_newComputed _ _ _ _ _ _
      · next hnone => cases hnone

/-- A value that converts to a type is attached at it. -/
theorem exists_run_attach (hr : env.Ready R st) {v : Value}
    (ho : st.Offers R env.schema env.frame.scope v t)
    (hknown : R.known target)
    (h : t = .empty ∨ env.schema.Converts t target) :
    ∃ id st', (attach v (some target)).run env st = (.ok id, st') := by
  unfold attach
  have hsettled : ∃ id mid,
      (settle v (some target)).run env st = (.ok id, mid) := by
    unfold settle
    cases v with
    | set id => exact ⟨_, _, rfl⟩
    | pending p =>
        dsimp only
        split
        · exact exists_run_newComputed _ _ _ _ _ _
        · exact exists_run_newComputed _ _ _ _ _ _
  obtain ⟨id, mid, hsettle⟩ := hsettled
  rw [run_bind_ok hsettle]
  obtain ⟨t', hheld, -⟩ := (Upholds.settle ho fun type htype =>
    Option.some.inj htype ▸ hknown).returned hr hsettle
  obtain ⟨u, hu, hor⟩ := type?_of_settle hsettle (valueType?_of_offers ho)
  rw [hheld.type?] at hu
  cases hu
  refine exists_run_coerce hheld ?_
  rcases hor with rfl | ⟨-, htype⟩
  · exact h
  · cases htype
    exact Or.inr (Schema.converts_self _ _)

theorem exists_run_attachMembers (hr : env.Ready R st)
    (ho : OfferedAll R env st elements types) (hknown : R.known target)
    (h : ∀ t ∈ types, t = .empty ∨ env.schema.Converts t target) :
    ∃ members st',
      (attachMembers (some target) elements).run env st
        = (.ok members, st') := by
  have hhint : ∀ type, some target = some type → R.known type := by
    intro type htype
    cases htype
    exact hknown
  induction elements generalizing st types with
  | nil => exact ⟨_, _, rfl⟩
  | cons e elements ih =>
      cases ho with
      | @cons _ t _ types ho hall =>
          rw [List.forall_mem_cons] at h
          unfold attachMembers
          obtain ⟨id, st₁, hattach⟩ := exists_run_attach hr ho hknown h.1
          have hkept := (Upholds.attach ho hhint).kept hr hattach
          obtain ⟨hr₁, hext⟩ := hkept
          obtain ⟨u, hid, -⟩ := (Upholds.attach ho hhint).returned hr hattach
          obtain ⟨c, hc⟩ := hid.exists_judge? env.frame.scope
          obtain ⟨members, st₂, hmembers⟩ :=
            ih hr₁ (OfferedAll.mono hext hr.active hall) h.2
          rw [run_bind_ok hattach, run_bind_ok (run_judge hc),
            run_bind_ok hmembers]
          exact ⟨_, _, rfl⟩

-- ======================================================== set literals

omit [NameDigest] [DecidableEq κ] [PathKey κ] in
theorem setOf_eq_unionOf (htwo : 2 ≤ elements.length) :
    (setOf elements span : CompileM κ Value) = unionOf elements span := by
  match elements, htwo with
  | _ :: _ :: _, _ => rfl

/-- Elements that have a common type, not all of them untyped, are attached
at it. -/
theorem exists_run_setOf (hr : env.Ready R st) (hs : env.schema.Ordered)
    (hne : ∀ t, env.schema.isRegistered t = true → t ≠ .empty)
    (htwo : 2 ≤ elements.length) (ho : OfferedAll R env st elements types)
    {c : TypeId} (hc : env.schema.elementsType? .empty types = some c)
    (ht : ∃ t ∈ types, t ≠ .empty) :
    c ≠ .empty ∧ R.known c ∧ ∃ members st',
      (attachMembers (some c) elements).run env st = (.ok members, st')
        ∧ (setOf elements span).run env st
          = (.ok (.pending ⟨.union (members.map Prod.fst), c,
            unionCardinality (members.map Prod.snd), span⟩), st') := by
  obtain ⟨out, hrun, htype⟩ := run_commonElementType .empty ho
  obtain ⟨hempty, hconv⟩ := Schema.converts_of_elementsType? hs hne hc
  obtain ⟨t, ht, htne⟩ := ht
  have hcne : c ≠ .empty := fun h => htne (hempty h t ht)
  rw [hc] at htype
  cases out with
  | error e => cases htype
  | ok d =>
      obtain rfl : d = c := Option.some.inj htype
      have hknown : R.known d :=
        ((Upholds.commonElementType (Or.inr rfl) ho).returned hr
          hrun).resolve_right fun h => hcne h.1
      obtain ⟨members, st', hmembers⟩ :=
        exists_run_attachMembers hr ho hknown hconv
      refine ⟨hcne, hknown, members, st', hmembers, ?_⟩
      rw [setOf_eq_unionOf htwo]
      unfold unionOf
      rw [run_bind_ok hrun, if_neg fun h => hcne (TypeId.isEmpty_iff.1 h),
        run_bind_ok hmembers]
      rfl

/-- A set literal of two or more elements is accepted where the elements
have a common type, and one of them has a type. -/
theorem exists_run_setOf_iff (hr : env.Ready R st)
    (hs : env.schema.Ordered)
    (hne : ∀ t, env.schema.isRegistered t = true → t ≠ .empty)
    (htwo : 2 ≤ elements.length) (ho : OfferedAll R env st elements types) :
    (∃ v st', (setOf elements span).run env st = (.ok v, st'))
      ↔ ∃ c, env.schema.elementsType? .empty types = some c
        ∧ ∃ t ∈ types, t ≠ .empty := by
  constructor
  · intro h
    obtain ⟨v, st', h⟩ := h
    obtain ⟨out, hrun, htype⟩ := run_commonElementType .empty ho
    rw [setOf_eq_unionOf htwo] at h
    unfold unionOf at h
    obtain ⟨c, mid, hc, h⟩ := ok_of_bind h
    rw [hrun] at hc
    cases hc
    refine ⟨c, htype.symm, Classical.byContradiction fun hall => ?_⟩
    -- without a common type the first element is refused
    have hempty : ∀ t ∈ types, t = .empty := fun t ht =>
      Classical.byContradiction fun hte => hall ⟨t, ht, hte⟩
    have hc : c = .empty := by
      rw [Schema.elementsType?_eq_commonOf? hne, List.filter_eq_nil_iff.2 fun t ht =>
        by simpa using hempty t ht] at htype
      exact Option.some.inj htype
    obtain ⟨members, _, hmembers, -⟩ := ok_of_bind h
    rw [if_pos (TypeId.isEmpty_iff.2 hc)] at hmembers
    have hnone := (Upholds.attachMembers (fun _ hhint => by cases hhint)
      ho).returned hr hmembers
    cases ho with
    | nil => cases htwo
    | cons _ _ =>
        exact hnone.2.2 rfl _ List.mem_cons_self (hempty _ List.mem_cons_self)
  · intro h
    obtain ⟨c, hc, ht⟩ := h
    obtain ⟨-, -, members, st', -, hset⟩ := exists_run_setOf hr hs hne htwo ho hc ht
    exact ⟨_, st', hset⟩

omit [DecidableEq κ] [PathKey κ] in
/-- Two set literals whose elements have the same types, in whichever
order, have one type. -/
theorem valueType?_of_setOf_perm (hs : env.schema.Ordered)
    (hne : ∀ t, env.schema.isRegistered t = true → t ≠ .empty)
    {elements' : List (Value × Span)} {types' : List TypeId} {span' : Span}
    {st₁ st₂ st' st'' : Store κ} {v v' : Value} (htwo : 2 ≤ elements.length)
    (ho : OfferedAll R env st₁ elements types)
    (ho' : OfferedAll R env st₂ elements' types') (hperm : types.Perm types')
    (hleast : env.schema.NearestLeast types)
    (h : (setOf elements span).run env st₁ = (.ok v, st'))
    (h' : (setOf elements' span').run env st₂ = (.ok v', st'')) :
    ∃ t, st'.valueType? v = some t ∧ st''.valueType? v' = some t := by
  obtain ⟨t, ht, hv⟩ := valueType?_of_setOf ho h
  obtain ⟨t', ht', hv'⟩ := valueType?_of_setOf ho' h'
  have hlen := ho.length_eq
  have hlen' := hperm.length_eq
  have hset : ∀ types : List TypeId, 2 ≤ types.length →
      env.schema.setType? types = env.schema.elementsType? .empty types := by
    intro types htwo
    match types, htwo with
    | _ :: _ :: _, _ => rfl
  rw [hset types (by omega)] at ht
  rw [hset types' (by omega)] at ht'
  obtain rfl := Schema.elementsType?_perm hs hne hleast hperm ht ht'
  exact ⟨t, hv, hv'⟩

/-- And one is accepted if the other is. -/
theorem exists_run_setOf_perm (hr : env.Ready R st) (hs : env.schema.Ordered)
    (hne : ∀ t, env.schema.isRegistered t = true → t ≠ .empty)
    {elements' : List (Value × Span)} {types' : List TypeId} {span' : Span}
    {st₁ : Store κ} (hr₁ : env.Ready R st₁) (htwo : 2 ≤ elements.length)
    (ho : OfferedAll R env st elements types)
    (ho' : OfferedAll R env st₁ elements' types') (hperm : types.Perm types')
    (hleast : env.schema.NearestLeast types ∨ env.schema.Topped)
    (hcomp : env.schema.Comparable types)
    (h : ∃ v st', (setOf elements span).run env st = (.ok v, st')) :
    ∃ v st', (setOf elements' span').run env st₁ = (.ok v, st') := by
  have hlen := ho.length_eq
  have hlen' := ho'.length_eq
  have hlens := hperm.length_eq
  obtain ⟨c, hc, t, ht, htne⟩ :=
    (exists_run_setOf_iff hr hs hne htwo ho).1 h
  obtain ⟨c', hc'⟩ :=
    Schema.exists_elementsType?_perm hs hne hleast hcomp hperm hc
  exact (exists_run_setOf_iff hr₁ hs hne (by omega) ho').2
    ⟨c', hc', t, hperm.mem_iff.1 ht, htne⟩

end CompileM

-- ======================================================== compiled sets

section

variable [DecidableEq κ] [PathKey κ] [NameDigest]

omit [DecidableEq κ] [PathKey κ] in
/-- Types are read off expressions one by one. -/
theorem Ast.Expr.types?_eq_some {x : Lexicon} {subject : Option TypeId}
    {es : List Expr} {types : List TypeId}
    (h : Expr.types? x subject es = some types) :
    types = es.filterMap (Expr.type? x subject)
      ∧ types.length = es.length := by
  induction es generalizing types with
  | nil =>
      cases h
      exact ⟨rfl, rfl⟩
  | cons e es ih =>
      unfold Expr.types? at h
      obtain ⟨t, ht, hrest⟩ := Option.bind_eq_some_iff.1 h
      obtain ⟨types', htypes', rfl⟩ := Option.map_eq_some_iff.1 hrest
      obtain ⟨heq, hlen⟩ := ih htypes'
      exact ⟨by rw [List.filterMap_cons_some ht, ← heq], by simp [hlen]⟩

namespace Session

open CompileM

variable {lexical : Prop} {s : Session κ}

/-- The type of the value that a step gives. -/
def typeOf? (s : Session κ) (m : CompileM κ Value) : Option TypeId :=
  match s.step m with
  | (.ok v, s') => s'.store.valueType? v
  | (.error _, _) => none

omit [NameDigest] [DecidableEq κ] [PathKey κ] in
@[simp] theorem schema_start (schema : Schema) (o : CompileOptions) :
    (start schema o : Session κ).schema = schema := rfl

omit [NameDigest] [DecidableEq κ] [PathKey κ] in
theorem run_of_step {α : Type} {m : CompileM κ α} {out : Except CompileError α}
    {s' : Session κ} (h : s.step m = (out, s')) :
    m.run s.env s.store = (out, s'.store) ∧ s'.env = s.env := by
  cases h
  exact ⟨rfl, rfl⟩

omit [NameDigest] [DecidableEq κ] [PathKey κ] in
/-- What a step gives decides how it ends. -/
theorem step_of_fst {α : Type} {m : CompileM κ α} {out : Except CompileError α}
    (h : (s.step m).1 = out) : s.step m = (out, (s.step m).2) := Prod.ext h rfl

omit [NameDigest] [DecidableEq κ] [PathKey κ] in
theorem exists_step_of_isOk {α : Type} {m : CompileM κ α} (h : (s.step m).1.isOk = true) :
    ∃ a s', s.step m = (.ok a, s') := by
  obtain ⟨a, ha⟩ := exists_ok_of_isOk h
  exact ⟨a, _, step_of_fst ha⟩

/-- A set literal goes on from what its elements left. -/
theorem step_set {es : List Expr} {values : List (Value × Span)}
    {s₁ : Session κ} (h : s.step (exprs es) = (.ok values, s₁)) (span : Span) :
    s.step (expr (.set es span)) = s₁.step (setOf values span) := by
  have hcases := step_bind_cases s (exprs es) fun values => setOf values span
  rw [h] at hcases
  unfold expr
  rcases hcases with ⟨e, s', hfail, -⟩ | ⟨values', s', hok, hstep⟩
  · cases hfail
  · cases hok
    exact hstep

/-- Where the nearest common supertype of two types is the least, the
order of its elements makes no difference to the type of a set literal.
Where no two scalars extend a third one but not each other it makes none
to whether the literal is accepted, if moreover the schema has `std`, so
that all objects have a type in common. -/
theorem Reachable.set_perm (hs : Reachable lexical s)
    (hb : Registry.empty.Builds s.schema ∨ Registry.builtin.Builds s.schema)
    (ha : s.schema.Apart) (hp : s.schema.Proper) {es es' : List Expr}
    (hperm : es.Perm es') (htwo : 2 ≤ es.length)
    {values values' : List (Value × Span)} {s₁ s₁' : Session κ}
    (h : s.step (exprs es) = (.ok values, s₁))
    (h' : s.step (exprs es') = (.ok values', s₁')) (span span' : Span) :
    ∃ types : List TypeId,
      values.map (fun e => s₁.store.valueType? e.1) = types.map some
      ∧ (s.schema.NearestLeast types →
        ∀ v v' s₂ s₂', s.step (expr (.set es span)) = (.ok v, s₂) →
          s.step (expr (.set es' span')) = (.ok v', s₂') →
            ∃ t, s₂.store.valueType? v = some t
              ∧ s₂'.store.valueType? v' = some t)
      ∧ (s.schema.NearestLeast types ∨ Registry.builtin.Builds s.schema →
        s.schema.Comparable types →
          ((∃ v s₂, s.step (expr (.set es span)) = (.ok v, s₂))
            ↔ ∃ v s₂, s.step (expr (.set es' span')) = (.ok v, s₂))) := by
  have hordered : s.schema.Ordered := by
    rcases hb with hb | hb
    · exact hb.ordered .refl ha
    · exact hb.ordered Registry.builtin_reached.1 ha
  have hne : ∀ t, s.schema.isRegistered t = true → t ≠ .empty := by
    intro t ht
    rcases hb with hb | hb
    · exact hb.ne_empty .refl hp ht
    · exact hb.ne_empty Registry.builtin_reached.1 hp ht
  have hready := hs.ready.active
  obtain ⟨hrun, henv⟩ := run_of_step h
  obtain ⟨hrun', henv'⟩ := run_of_step h'
  -- what is read off the elements is read off them in any order
  obtain ⟨types, htypes, ho⟩ := Infers.exprs es _ _ _ _ hready hrun
  obtain ⟨types', htypes', ho'⟩ := Infers.exprs es' _ _ _ _ hready hrun'
  obtain ⟨heq, hlen⟩ := Expr.types?_eq_some htypes
  obtain ⟨heq', -⟩ := Expr.types?_eq_some htypes'
  have hpermTypes : types.Perm types' := by
    rw [heq, heq']
    exact hperm.filterMap _
  have hready₁ := ((Upholds.exprs es _ _).kept hready hrun).1
  have hready₁' := ((Upholds.exprs es' _ _).kept hready hrun').1
  have hvalues : 2 ≤ values.length := by
    rw [ho.length_eq, hlen]
    exact htwo
  have hvalues' : 2 ≤ values'.length := by
    rw [ho'.length_eq, ← hpermTypes.length_eq, hlen]
    exact htwo
  rw [step_set h, step_set h']
  refine ⟨types, ?_, fun hleast => ?_, fun hleast hcomp => ?_⟩
  · have hsame : List.Forall₂ (· = ·)
        (values.map fun e => s₁.store.valueType? e.1) (types.map some) := by
      rw [List.forall₂_map_left_iff, List.forall₂_map_right_iff]
      exact ho.imp fun _ _ => valueType?_of_offers
    exact List.forall₂_eq_eq_eq ▸ hsame
  · intro v v' s₂ s₂' hv hv'
    obtain ⟨hv, -⟩ := run_of_step hv
    obtain ⟨hv', -⟩ := run_of_step hv'
    rw [henv] at hv
    rw [henv'] at hv'
    exact valueType?_of_setOf_perm hordered hne hvalues ho ho' hpermTypes hleast
      hv hv'
  · -- a step is a run from the store that the elements left
    have hiff : ∀ {s₁ : Session κ} {values : List (Value × Span)} {span : Span},
        s₁.env = s.env →
        ((∃ v s₂, s₁.step (setOf values span) = (.ok v, s₂))
          ↔ ∃ v st, (setOf values span).run s.env s₁.store = (.ok v, st)) := by
      intro s₁ values span henv
      constructor
      · intro hstep
        obtain ⟨v, s₂, hstep⟩ := hstep
        exact ⟨v, _, henv ▸ (run_of_step hstep).1⟩
      · intro hrun
        obtain ⟨v, st, hrun⟩ := hrun
        refine ⟨v, { s₁ with store := st }, ?_⟩
        unfold step
        rw [henv, hrun]
    have hsub : ∀ t ∈ types', t ∈ types := fun t ht => hpermTypes.mem_iff.2 ht
    have hleast : s.schema.NearestLeast types ∨ s.schema.Topped :=
      hleast.imp_right fun hb => hb.topped ha
    rw [hiff henv, hiff henv']
    constructor
    · exact exists_run_setOf_perm hready₁ hordered hne hready₁' hvalues ho ho'
        hpermTypes hleast hcomp
    · exact exists_run_setOf_perm hready₁' hordered hne hready₁ hvalues' ho' ho
        hpermTypes.symm (hleast.imp_left fun h => h.mono hsub)
        (hcomp.mono hsub)

end Session

end

-- ============================================================= examples

open scoped Xxh64

/-- An integer, a float and an empty set. -/
def numbers : List Expr := Ast.Build.run do
  let one ← Ast.Build.constant (.int 1)
  let two ← Ast.Build.constant (.float ⟨0x4000000000000000⟩)
  return [one, two, ← Ast.Build.emptySet]

theorem set_perm_numbers : ∃ v v' s s' t,
    beforeFriends.step (CompileM.expr (.set numbers .unknown)) = (.ok v, s)
      ∧ beforeFriends.step (CompileM.expr (.set numbers.reverse .unknown))
        = (.ok v', s')
      ∧ s.store.valueType? v = some t ∧ s'.store.valueType? v' = some t := by
  have hstep : ∀ {α : Type} {m : CompileM PathId α},
      (beforeFriends.step m).1.isOk = true →
        ∃ a s', beforeFriends.step m = (.ok a, s') := by
    intro α m h
    obtain ⟨a, ha⟩ := exists_ok_of_isOk h
    exact ⟨a, _, Prod.ext ha rfl⟩
  have hb : Registry.builtin.Builds beforeFriends.schema := by
    unfold beforeFriends
    rw [Session.schema_start]
    exact Registry.builds_schemaOf (by decide +kernel)
  obtain ⟨values, s₁, h⟩ :=
    hstep (m := CompileM.exprs numbers) (by decide +kernel)
  obtain ⟨values', s₁', h'⟩ :=
    hstep (m := CompileM.exprs numbers.reverse) (by decide +kernel)
  obtain ⟨types, htypes, htype, haccept⟩ :=
    Session.Reachable.set_perm (reachable_beforeFriends True) (Or.inr hb)
      (Schema.apart_of_nodup (by decide +kernel))
      (Schema.proper_of_forall (by decide +kernel))
      (List.reverse_perm numbers).symm (by decide +kernel) h h' .unknown
      .unknown
  obtain rfl : types = [TypeId.int, TypeId.float, .empty] := by
    have hrun : (beforeFriends.step (CompileM.exprs numbers)).1.map
        (fun values => values.map fun e =>
          (beforeFriends.step (CompileM.exprs numbers)).2.store.valueType? e.1)
        = .ok ([TypeId.int, TypeId.float, .empty].map some) := by
      decide +kernel
    rw [h] at hrun
    have heq := htypes.symm.trans (Except.ok.inj hrun)
    exact List.map_injective_iff.2 (fun _ _ => Option.some.inj) heq
  obtain ⟨v, s, hv⟩ := hstep
    (m := CompileM.expr (.set numbers .unknown)) (by decide +kernel)
  obtain ⟨v', s', hv'⟩ := (haccept (Or.inr hb) (by decide +kernel)).1 ⟨v, s, hv⟩
  obtain ⟨t, ht, ht'⟩ :=
    htype (Schema.nearestLeast_of_single (by decide +kernel)) v v' s s' hv hv'
  exact ⟨v, v', s, s', t, hv, hv', ht, ht'⟩

/-- Two types with the same two bases. -/
def twins : List Declaration :=
  [.object "default::X" [] [], .object "default::Y" [] [],
   .object "default::A" ["default::X", "default::Y"] [],
   .object "default::B" ["default::Y", "default::X"] []]

/-- All objects of the two types. -/
def twinSets : List Expr := Ast.Build.run do
  let a ← Ast.Build.path "default::A" []
  let b ← Ast.Build.path "default::B" []
  return [.path a, .path b]

/-- A session that has not begun. -/
def beforeTwins : Session PathId := .start (Registry.builtin.schemaOf twins) {}

theorem builds_beforeTwins : Registry.builtin.Builds beforeTwins.schema := by
  unfold beforeTwins
  rw [Session.schema_start]
  exact Registry.builds_schemaOf (by decide +kernel)

/-- A set of both has the type that the first of them lists last. -/
theorem typed_by_first_twin :
    Session.Reachable True beforeTwins
      ∧ Registry.builtin.Builds beforeTwins.schema
      ∧ beforeTwins.schema.Apart ∧ beforeTwins.schema.Proper
      ∧ twinSets.Perm twinSets.reverse ∧ 2 ≤ twinSets.length
      ∧ (beforeTwins.step (CompileM.exprs twinSets)).1.isOk = true
      ∧ (beforeTwins.step (CompileM.exprs twinSets.reverse)).1.isOk = true
      ∧ beforeTwins.typeOf? (CompileM.expr (.set twinSets .unknown))
        = some (TypeId.ofQualified (.within "default" "Y"))
      ∧ beforeTwins.typeOf? (CompileM.expr (.set twinSets.reverse .unknown))
        = some (TypeId.ofQualified (.within "default" "X"))
      ∧ TypeId.ofQualified (.within "default" "Y")
        ≠ TypeId.ofQualified (.within "default" "X") := by
  refine ⟨⟨_, _, .refl⟩, builds_beforeTwins,
    Schema.apart_of_nodup (by decide +kernel),
    Schema.proper_of_forall (by decide +kernel),
    (List.reverse_perm twinSets).symm, ?_, ?_, ?_, ?_, ?_, ?_⟩
  all_goals decide +kernel

end PathQuery
