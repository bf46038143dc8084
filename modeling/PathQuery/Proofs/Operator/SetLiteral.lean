/-
What becomes of the elements of a set literal.

Conversion is reflexive and transitive, so what the first elements have
in common still has all of them below it when the last one was looked
at: once there is a common type, each element converts to it, and the
literal is accepted (`Registry.Builds.set_literal`).

Its members are the elements in the order written. One whose type extends
the common type is a member as it is; an integer where the common type is
one of floats is cast to it; and an untyped empty set gives way to one of
that type (`Store.Unites`).
-/
import PathQuery.Proofs.Operator.Comparison

namespace PathQuery

open Ast (Expr)
open Ir

section

variable {κ : Type}

-- ============================================================== members

/-- An empty set that awaits a type, in a scope node or in none yet. -/
def Store.Awaits (st : Store κ) : Value → Prop
  | .set id => st.arena.type? id = some .empty
  | .pending p => p.Untyped

/-- An element whose type is known, or an empty set that awaits one. -/
def Store.Plain (st : Store κ) (s : Schema) (v : Value) : Prop :=
  (∃ t, st.valueType? v = some t ∧ s.isRegistered t = true) ∨ st.Awaits v

/-- The types of the elements that have one. -/
def Store.elementTypes (st : Store κ) (elements : List (Value × Span)) :
    List TypeId :=
  elements.filterMap fun e => (st.valueType? e.1).filter (· ≠ .empty)

/-- A set is a value as it is: that set, or that operation as a set. -/
def Store.Settles (st : Store κ) (v : Value) (id : SetId) : Prop :=
  match v with
  | .set x => x = id
  | .pending p => ∃ scope, st.arena.get? id
      = some ⟨none, p.type, p.cardinality, scope, p.span, .computed p.operation⟩

/-- An element of a set literal of some type becomes a member. -/
inductive Store.Unites (st : Store κ) (s : Schema) (c : TypeId) :
    Value → SetId → Prop where
  /-- As it is, if its type extends that type. -/
  | unchanged {v : Value} {m : SetId} {t : TypeId} :
      st.Settles v m → st.arena.type? m = some t → s.isSubtype t c = true →
        Unites st s c v m
  /-- In a cast that the query does not ask for. -/
  | cast {v : Value} {x m : SetId} {t : TypeId} {node : SetNode κ} :
      st.Settles v x → st.arena.type? x = some t →
        s.conversion? t c = some .implicit → st.arena.get? m = some node →
        node.type = c → node.origin = .computed (.cast x c .implicit) →
        Unites st s c v m
  /-- As an empty set of that type, if it is one of no type yet. -/
  | empty {v : Value} {m : SetId} {node : SetNode κ} :
      st.Awaits v → st.arena.get? m = some node → node.type = c →
        node.origin = .computed .emptySet → Unites st s c v m

namespace Store

variable {st st' : Store κ} {s : Schema} {c : TypeId} {v : Value} {id : SetId}

theorem valueType?_mono {t : TypeId} (h : st.arena.Extends st'.arena)
    (hv : st.valueType? v = some t) : st'.valueType? v = some t := by
  cases v with
  | set x => exact h.type? hv
  | pending p => exact hv

theorem Awaits.mono (h : st.arena.Extends st'.arena) (hv : st.Awaits v) :
    st'.Awaits v := by
  cases v with
  | set x => exact h.type? hv
  | pending p => exact hv

theorem Plain.mono (h : st.arena.Extends st'.arena) (hv : st.Plain s v) :
    st'.Plain s v := by
  rcases hv with ⟨t, ht, hreg⟩ | hawaits
  · exact Or.inl ⟨t, valueType?_mono h ht, hreg⟩
  · exact Or.inr (hawaits.mono h)

theorem Settles.mono (h : st.arena.Extends st'.arena) (hv : st.Settles v id) :
    st'.Settles v id := by
  cases v with
  | set x => exact hv
  | pending p =>
      obtain ⟨scope, hn⟩ := hv
      exact ⟨scope, h id _ hn⟩

/-- Members stay what they are. -/
theorem Unites.mono (h : st.arena.Extends st'.arena)
    (hv : st.Unites s c v id) : st'.Unites s c v id := by
  cases hv with
  | unchanged hsettles ht hsub =>
      exact .unchanged (hsettles.mono h) (h.type? ht) hsub
  | cast hsettles ht hconv hn htype horigin =>
      exact .cast (hsettles.mono h) (h.type? ht) hconv (h id _ hn) htype horigin
  | empty hawaits hn htype horigin =>
      exact .empty (hawaits.mono h) (h id _ hn) htype horigin

end Store

-- =========================================================== attachment

namespace CompileM

variable {env : Env} {st st' : Store κ} {x m : SetId} {t c : TypeId} {v : Value}

/-- A set that has a type is made to have another one by leaving it as it
is, or by a cast. -/
theorem cases_of_coerce (h : (coerce x c).run env st = (.ok m, st'))
    (hx : st.arena.type? x = some t) (hne : t ≠ .empty) :
    (m = x ∧ st' = st ∧ env.schema.isSubtype t c = true)
      ∨ (env.schema.conversion? t c = some .implicit ∧ ∃ node,
        st'.arena.get? m = some node ∧ node.type = c
          ∧ node.origin = .computed (.cast x c .implicit)) := by
  obtain ⟨node, hn, rfl⟩ := Arena.type?_eq_some_iff.1 hx
  unfold coerce at h
  rw [run_bind_ok (run_getSet hn), run_bind_ok run_schema,
    if_neg fun hempty => hne (TypeId.isEmpty_iff.1 hempty)] at h
  have hkept : ∀ conversion, conversion ≠ .implicit →
      env.schema.conversion? node.type c = some conversion →
        env.schema.isSubtype node.type c = true := by
    intro conversion himplicit hconv
    rcases Schema.conversion?_cases hconv with ⟨-, hsub⟩ | ⟨heq, -⟩
    · exact hsub
    · exact absurd heq himplicit
  split at h
  · next hconv =>
      obtain ⟨rfl, rfl⟩ := ok_of_pure h
      exact Or.inl ⟨rfl, rfl, hkept _ (by simp) hconv⟩
  · next hconv =>
      obtain ⟨rfl, rfl⟩ := ok_of_pure h
      exact Or.inl ⟨rfl, rfl, hkept _ (by simp) hconv⟩
  · next conversion hidentity hupcast hconv =>
      obtain rfl : conversion = .implicit := by
        cases conversion with
        | identity => exact absurd rfl hidentity
        | upcast => exact absurd rfl hupcast
        | implicit => rfl
        | explicit => exact absurd hconv (Schema.conversion?_ne_explicit _ _ _)
      unfold castSet at h
      rw [run_bind_ok (run_getSet hn)] at h
      obtain ⟨_, _, -, hnew⟩ := ok_of_bind h
      exact Or.inr ⟨hconv, _, get?_of_newComputed hnew, rfl, rfl⟩
  · rw [run_bind_ok run_frame] at h
    cases h

/-- A set of no type is made to have one by taking an empty set for it. -/
theorem get?_of_coerce_empty (h : (coerce x c).run env st = (.ok m, st'))
    (hx : st.arena.type? x = some .empty) : ∃ node, st'.arena.get? m = some node
      ∧ node.type = c ∧ node.origin = .computed .emptySet := by
  obtain ⟨node, hn, hempty⟩ := Arena.type?_eq_some_iff.1 hx
  unfold coerce at h
  rw [run_bind_ok (run_getSet hn), run_bind_ok run_schema,
    if_pos (TypeId.isEmpty_iff.2 hempty)] at h
  obtain ⟨_, _, -, hnew⟩ := ok_of_bind h
  exact ⟨_, get?_of_newComputed hnew, rfl, rfl⟩

/-- An element is attached as a member. -/
theorem unites_of_attach [NameDigest] [DecidableEq κ] [PathKey κ]
    (hc : c ≠ .empty) (hv : st.valueType? v = some t)
    (hawaits : t = .empty → st.Awaits v)
    (h : (attach v (some c)).run env st = (.ok m, st')) :
    st'.Unites env.schema c v m := by
  unfold attach at h
  obtain ⟨x, mid, hsettle, hcoerce⟩ := ok_of_bind h
  have hext := Growing.grows (m := coerce x c) env mid
  rw [hcoerce] at hext
  by_cases hne : t = .empty
  · -- it takes the type that is wanted
    have hv := hawaits hne
    unfold settle at hsettle
    cases v with
    | set y =>
        obtain ⟨rfl, rfl⟩ := ok_of_pure hsettle
        obtain ⟨node, hn, htype, horigin⟩ := get?_of_coerce_empty hcoerce hv
        exact .empty (hv.mono hext) hn htype horigin
    | pending p =>
        dsimp only at hsettle
        rw [if_pos (TypeId.isEmpty_iff.2 hv.2.1)] at hsettle
        have hn := get?_of_newComputed hsettle
        rcases cases_of_coerce hcoerce (type?_of_newComputed hsettle) hc with
          ⟨rfl, rfl, -⟩ | ⟨hconv, -⟩
        · refine .empty hv hn rfl ?_
          rw [hv.1]
        · rw [Schema.conversion?_self] at hconv
          cases hconv
  · -- it is settled at its own type, and then made to have the other
    have hsettled : mid.Settles v x ∧ mid.arena.type? x = some t := by
      unfold settle at hsettle
      cases v with
      | set y =>
          obtain ⟨rfl, rfl⟩ := ok_of_pure hsettle
          exact ⟨rfl, hv⟩
      | pending p =>
          cases hv
          dsimp only at hsettle
          rw [if_neg fun hempty => hne (TypeId.isEmpty_iff.1 hempty)] at hsettle
          exact ⟨⟨_, get?_of_newComputed hsettle⟩, type?_of_newComputed hsettle⟩
    obtain ⟨hsettles, hx⟩ := hsettled
    rcases cases_of_coerce hcoerce hx hne with ⟨rfl, rfl, hsub⟩
      | ⟨hconv, node, hn, htype, horigin⟩
    · exact .unchanged hsettles hx hsub
    · exact .cast (hsettles.mono hext) (hext.type? hx) hconv hn htype horigin

-- ========================================================= set literals

variable [NameDigest] [DecidableEq κ] [PathKey κ] {R : Regime}
  {elements : List (Value × Span)} {types : List TypeId}

/-- Each element is attached as a member. -/
theorem unites_of_attachMembers {members : List (SetId × Cardinality)}
    (hr : env.Ready R st) (hknown : R.known c) (hc : c ≠ .empty)
    (ho : OfferedAll R env st elements types)
    (hplain : ∀ e ∈ elements, st.Plain env.schema e.1)
    (hreg : ∀ t, env.schema.isRegistered t = true → t ≠ .empty)
    (h : (attachMembers (some c) elements).run env st = (.ok members, st')) :
    List.Forall₂ (fun e m => st'.Unites env.schema c e.1 m) elements
      (members.map Prod.fst) := by
  have hhint : ∀ type, some c = some type → R.known type := by
    intro type htype
    cases htype
    exact hknown
  induction elements generalizing st types members with
  | nil =>
      obtain ⟨rfl, rfl⟩ := ok_of_pure h
      exact .nil
  | cons e elements ih =>
      cases ho with
      | @cons _ t _ types ho hall =>
          rw [List.forall_mem_cons] at hplain
          unfold attachMembers at h
          obtain ⟨m, mid, hattach, h⟩ := ok_of_bind h
          obtain ⟨d, mid', hd, h⟩ := ok_of_bind h
          obtain rfl := (ok_of_judge hd).2.symm
          obtain ⟨rest, _, hrest, h⟩ := ok_of_bind h
          obtain ⟨rfl, rfl⟩ := ok_of_pure h
          obtain ⟨hr', hext⟩ := (Upholds.attach ho hhint).kept hr hattach
          have hgrows := Growing.grows (m := attachMembers (some c) elements) env mid
          rw [hrest] at hgrows
          have hawaits : t = .empty → st.Awaits e.1 := by
            rintro rfl
            refine hplain.1.resolve_left ?_
            rintro ⟨u, hu, hureg⟩
            rw [valueType?_of_offers ho] at hu
            cases hu
            exact hreg _ hureg rfl
          refine .cons ((unites_of_attach hc (valueType?_of_offers ho) hawaits
            hattach).mono hgrows) ?_
          exact ih hr' (OfferedAll.mono hext hr.active hall)
            (fun e' he' => (hplain.2 e' he').mono hext.arena) hrest

omit [DecidableEq κ] [PathKey κ] in
theorem elementTypes_of_offeredAll (ho : OfferedAll R env st elements types) :
    st.elementTypes elements = types.filter (· ≠ .empty) := by
  unfold Store.elementTypes
  induction ho with
  | nil => rfl
  | @cons e t elements types ho _ ih =>
      by_cases ht : t = .empty
      · rw [List.filterMap_cons_none (by simp [valueType?_of_offers ho, ht]), ih,
          List.filter_cons_of_neg (by simp [ht])]
      · rw [List.filterMap_cons_some (b := t) (by simp [valueType?_of_offers ho, ht]),
          ih, List.filter_cons_of_pos (by simp [ht])]

/-- Elements that have a common type are united at it. -/
theorem unites_of_setOf {rest : List TypeId} (hr : env.Ready R st)
    (hs : env.schema.Ordered)
    (hne : ∀ t, env.schema.isRegistered t = true → t ≠ .empty)
    (htwo : 2 ≤ elements.length) (ho : OfferedAll R env st elements types)
    (hplain : ∀ e ∈ elements, st.Plain env.schema e.1)
    (htypes : st.elementTypes elements = t :: rest)
    (hc : rest.foldlM env.schema.commonType? t = some c) (span : Span) :
    ∃ members d st', (setOf elements span).run env st
        = (.ok (.pending ⟨.union members, c, d, span⟩), st')
      ∧ List.Forall₂ (fun e m => st'.Unites env.schema c e.1 m) elements members := by
  rw [elementTypes_of_offeredAll ho] at htypes
  have hcommon : env.schema.elementsType? .empty types = some c := by
    rw [Schema.elementsType?_eq_commonOf? hne, htypes]
    exact hc
  have htyped : t ∈ types ∧ t ≠ .empty := by
    have hmem : t ∈ types.filter (· ≠ .empty) := htypes ▸ List.mem_cons_self
    simpa using List.mem_filter.1 hmem
  obtain ⟨hcne, hknown, members, st', hmembers, hset⟩ :=
    exists_run_setOf hr hs hne htwo ho hcommon ⟨t, htyped⟩
  exact ⟨_, _, st', hset,
    unites_of_attachMembers hr hknown hcne ho hplain hne hmembers⟩

end CompileM

-- ============================================================= sessions

/-- Conversion without a cast is reflexive and transitive, and a set literal
of two or more elements, each of a known type or of none yet, is accepted
if the types fold to a common one. It has that type, and its members are
the elements, each as it is or made to have the type. -/
theorem Registry.Builds.set_literal [NameDigest] [DecidableEq κ] [PathKey κ]
    {schema : Schema} (h : builtin.Builds schema) (ha : schema.Apart)
    (hp : schema.Proper) :
    (∀ a, schema.isRegistered a = true → schema.Converts a a)
      ∧ (∀ a b c, schema.Converts a b → schema.Converts b c → schema.Converts a c)
      ∧ ∀ {lexical : Prop} {s s₁ : Session κ} {es : List Expr}
          {values : List (Value × Span)} {t c : TypeId} {rest : List TypeId}
          (span : Span), s.Reachable lexical → s.schema = schema → 2 ≤ es.length →
        s.step (CompileM.exprs es) = (.ok values, s₁) →
        (∀ e ∈ values, s₁.store.Plain schema e.1) →
        s₁.store.elementTypes values = t :: rest →
        rest.foldlM schema.commonType? t = some c →
          ∃ members d s₂, s.step (CompileM.expr (.set es span))
              = (.ok (.pending ⟨.union members, c, d, span⟩), s₂)
            ∧ List.Forall₂ (fun e m => s₂.store.Unites schema c e.1 m) values
              members := by
  have hordered := h.ordered builtin_reached.1 ha
  refine ⟨fun a _ => Schema.converts_self schema a,
    fun a b c => Schema.converts_trans hordered.families, ?_⟩
  intro lexical s s₁ es values t c rest span hs hschema htwo hstep hplain htypes hc
  subst hschema
  have hready := hs.ready.active
  obtain ⟨hrun, henv⟩ := Session.run_of_step hstep
  obtain ⟨types, htypes', ho⟩ := CompileM.Infers.exprs es _ _ _ _ hready hrun
  have hready₁ := ((CompileM.Upholds.exprs es _ _).kept hready hrun).1
  have hlen : 2 ≤ values.length := by
    rw [ho.length_eq, (Ast.Expr.types?_eq_some htypes').2]
    exact htwo
  obtain ⟨members, d, st, hset, hmembers⟩ := CompileM.unites_of_setOf hready₁
    hordered (fun _ ht => h.ne_empty builtin_reached.1 hp ht) hlen ho hplain htypes
    hc span
  rw [Session.step_set hstep]
  rw [← henv] at hset
  exact ⟨members, d, _, Session.step_of_run hset, hmembers⟩

end

-- ============================================================== example

open scoped Xxh64

/-- What an integer, a float and an empty set compile to. -/
def numberValues : List (Value × Span) :=
  [(.constant (.int 1) ⟨1, 1, 1⟩, ⟨1, 1, 1⟩),
   (.constant (.float ⟨0x4000000000000000⟩) ⟨1, 2, 1⟩, ⟨1, 2, 1⟩),
   (.emptySet ⟨1, 3, 1⟩, ⟨1, 3, 1⟩)]

theorem step_numbers (s : Session PathId) :
    s.step (CompileM.exprs numbers) = (.ok numberValues, s) := rfl

/-- What is computed of them. -/
theorem numbers_checks :
    ((Registry.builtin.declareAll people).bind Registry.build).isOk = true
      ∧ ((Registry.builtin.schemaOf people).names.entries.map Prod.snd).Nodup
      ∧ (∀ e ∈ (Registry.builtin.schemaOf people).names.entries, e.2 ≠ .empty)
      ∧ (Registry.builtin.schemaOf people).isRegistered TypeId.int = true
      ∧ (Registry.builtin.schemaOf people).isRegistered TypeId.float = true
      ∧ beforeFriends.store.elementTypes numberValues = [TypeId.int, TypeId.float]
      ∧ [TypeId.float].foldlM (Registry.builtin.schemaOf people).commonType?
        TypeId.int = some TypeId.float := by
  decide +kernel

theorem set_literal_numbers : ∃ members d s,
    beforeFriends.step (CompileM.expr (.set numbers .unknown))
        = (.ok (.pending ⟨.union members, TypeId.float, d, .unknown⟩), s)
      ∧ List.Forall₂ (fun e m => s.store.Unites (Registry.builtin.schemaOf people)
        TypeId.float e.1 m) numberValues members := by
  obtain ⟨hbuilt, hnodup, hproper, hint, hfloat, htypes, hcommon⟩ := numbers_checks
  obtain ⟨-, -, hset⟩ := Registry.Builds.set_literal (κ := PathId)
    (Registry.builds_schemaOf hbuilt) (Schema.apart_of_nodup hnodup)
    (Schema.proper_of_forall hproper)
  have hschema : beforeFriends.schema = Registry.builtin.schemaOf people := by
    unfold beforeFriends
    rw [Session.schema_start]
  have htwo : 2 ≤ numbers.length := by decide
  refine hset .unknown (reachable_beforeFriends True) hschema htwo
    (step_numbers beforeFriends) ?_
    htypes hcommon
  unfold numberValues
  rw [List.forall_mem_cons, List.forall_mem_cons, List.forall_mem_singleton]
  exact ⟨Or.inl ⟨_, rfl, hint⟩, Or.inl ⟨_, rfl, hfloat⟩,
    Or.inr ⟨rfl, rfl, rfl⟩⟩

end PathQuery
