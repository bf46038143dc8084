/-
Set literals and calls combine any number of operands.

The members of a union are attached at the common type of the elements,
so each is of a subtype; where no element has a type there is none to
attach them at, and the first one fails. The arguments of a call are
attached one by one along the parameters, and the cardinality that is
carried along them is the product over those taken element by element.
Both go by induction on the operands; what was shown of those attached
already survives the growth of the store.
-/
import PathQuery.Proofs.Compile.Operators

namespace PathQuery

open Ir

variable {κ : Type} [DecidableEq κ] [PathKey κ] [NameDigest]

/-- Some values are offered, each at its type. -/
def OfferedAll (R : Regime) (env : Env) (st : Store κ)
    (elements : List (Value × Span)) (types : List TypeId) : Prop :=
  List.Forall₂ (fun e t => st.Offers R env.schema env.frame.scope e.1 t)
    elements types

omit [DecidableEq κ] [PathKey κ] in
theorem OfferedAll.mono {R : Regime} {env : Env} {st st' : Store κ}
    {elements : List (Value × Span)} {types : List TypeId} (h : st.Extends st')
    (hs : env.frame.scope < st.scopes.size)
    (ho : OfferedAll R env st elements types) :
    OfferedAll R env st' elements types :=
  List.Forall₂.imp (fun _ _ ho => ho.mono h hs) ho

/-- The members of a union, as they are attached at the common type. -/
def Members (R : Regime) (env : Env) (hint : Option TypeId) (st : Store κ)
    (members : List (SetId × Cardinality)) : Prop :=
  ∀ m ∈ members, ∃ t, st.Holds R env.frame.scope m.1 t
    ∧ st.judge? env.frame.scope m.1 = some m.2
    ∧ ∀ h, hint = some h → env.schema.isSubtype t h = true

omit [DecidableEq κ] [PathKey κ] [NameDigest] in
/-- The cardinalities found for the members are those they have. -/
theorem Members.judgeAll?_eq {R : Regime} {env : Env} {hint : Option TypeId}
    {st : Store κ} {members : List (SetId × Cardinality)}
    (hm : Members R env hint st members) :
    st.judgeAll? env.frame.scope (members.map Prod.fst)
      = some (members.map Prod.snd) := by
  induction members with
  | nil => rfl
  | cons m members ih =>
      obtain ⟨⟨-, -, hc, -⟩, hrest⟩ := List.forall_mem_cons.1 hm
      rw [List.map_cons, List.map_cons, Store.judgeAll?, hc, Option.bind_some,
        ih hrest, Option.map_some]

/-- An argument is where its parameter takes it, and of a type that it
takes. -/
def Taken (R : Regime) (s : Schema) (scope : Nat) (st : Store κ)
    (param : Parameter) (arg : Nat) : Prop :=
  st.Passed R scope param arg ∧ ∃ t, st.arena.type? arg = some t
    ∧ ParamTakes s param.type t

omit [DecidableEq κ] [PathKey κ] [NameDigest] in
theorem Taken.mono {R : Regime} {s : Schema} {scope : Nat} {st st' : Store κ}
    {param : Parameter} {arg : Nat} (h : st.Extends st')
    (ht : Taken R s scope st param arg) : Taken R s scope st' param arg := by
  obtain ⟨hp, t, htype, htakes⟩ := ht
  exact ⟨hp.mono h, t, h.arena.type? htype, htakes⟩

namespace CompileM.Upholds

variable {R : Regime} {env : Env} {st st' : Store κ} {types : List TypeId}
  {elements : List (Value × Span)} {span : Span} {common : TypeId}
  {hint : Option TypeId}

-- ======================================================== set literals

/-- The common type is known, unless no element has a type. -/
theorem commonElementType (hcommon : R.known common ∨ common = .empty)
    (ho : OfferedAll R env st elements types) :
    Upholds R env st (CompileM.commonElementType common elements) fun _ c =>
      R.known c ∨ (c = .empty ∧ common = .empty ∧ ∀ t ∈ types, t = .empty) := by
  refine intro fun hready => ?_
  induction ho generalizing common with
  | nil =>
      refine pure (hcommon.imp_right fun h => ⟨h, h, ?_⟩)
      simp
  | @cons e t elements types ho _ ih =>
      have ht := ho.known hready.sound
      unfold CompileM.commonElementType
      refine read (run_valueType ho) ?_
      split
      · next hempty =>
          have hempty := TypeId.isEmpty_iff.1 hempty
          refine (ih hcommon).imp ?_
          intro _ c _ _ hc
          rcases hc with hc | ⟨h, h', hall⟩
          · exact Or.inl hc
          · refine Or.inr ⟨h, h', ?_⟩
            rw [List.forall_mem_cons]
            exact ⟨hempty, hall⟩
      · next hne =>
          have hne : t ≠ .empty := fun h => hne (TypeId.isEmpty_iff.2 h)
          split
          · refine (ih ht).imp ?_
            intro _ c _ _ hc
            rcases hc with hc | ⟨-, h, -⟩
            · exact Or.inl hc
            · exact absurd h hne
          · next hsome =>
              have hsome : common ≠ .empty :=
                fun h => hsome (TypeId.isEmpty_iff.2 h)
              refine read run_schema
                (orFail (by simp [CompileError.kind]) fun w hw => ?_)
              have hknown := hready.suits.common (hcommon.resolve_right hsome)
                (ht.resolve_right hne) hw
              refine (ih (Or.inl hknown)).imp ?_
              intro _ c _ _ hc
              rcases hc with hc | ⟨h, h', -⟩
              · exact Or.inl hc
              · rw [h, ← h']
                exact Or.inl hknown

/-- Members are attached one for each element. Without a common type
every element has a type of its own. -/
theorem attachMembers (hhint : ∀ h, hint = some h → R.known h)
    (ho : OfferedAll R env st elements types) :
    Upholds R env st (CompileM.attachMembers hint elements) fun st' members =>
      members.length = elements.length ∧ Members R env hint st' members
        ∧ (hint = none → ∀ t ∈ types, t ≠ .empty) := by
  induction elements generalizing st types with
  | nil =>
      cases ho
      exact pure
        ⟨rfl, fun m hm => absurd hm (by simp),
          fun _ t ht => absurd ht (by simp)⟩
  | cons e elements ih =>
      cases ho with
      | cons ho hall =>
          refine intro fun hready => ?_
          unfold CompileM.attachMembers
          refine bind (attach ho hhint) ?_
          intro x st₁ h₁ h
          obtain ⟨t, hx, hsub, hsame⟩ := h
          obtain ⟨c, hc⟩ := hx.exists_judge? env.frame.scope
          have hactive := Nat.lt_of_lt_of_le hready.active h₁.size_le
          refine read (run_judge hc)
            (bind (ih (OfferedAll.mono h₁ hready.active hall)) ?_)
          intro members st₂ h₂ h
          obtain ⟨hlen, hmembers, hne⟩ := h
          refine pure ⟨by simp [hlen], ?_, fun hnone => ?_⟩
          · unfold Members
            rw [List.forall_mem_cons]
            exact ⟨⟨t, hx.mono h₂, h₂.judge?_eq hactive hc, hsub⟩, hmembers⟩
          · rw [List.forall_mem_cons]
            exact ⟨(hsame hnone).2, hne hnone⟩

/-- A union of two or more elements. -/
theorem unionOf (htwo : 2 ≤ elements.length)
    (ho : OfferedAll R env st elements types) :
    Upholds R env st (CompileM.unionOf elements span) (Offered R env) := by
  refine intro fun hready => ?_
  unfold CompileM.unionOf
  refine bind (commonElementType (Or.inr rfl) ho) ?_
  intro c st₁ h₁ hc
  have hhint : ∀ h, (if c.isEmpty then none else some c) = some h →
      R.known h := by
    intro h heq
    split at heq
    · cases heq
    · next hne =>
        cases heq
        rcases hc with hknown | ⟨hempty, -⟩
        · exact hknown
        · exact absurd (TypeId.isEmpty_iff.2 hempty) hne
  refine bind (attachMembers hhint (ho.mono h₁ hready.active)) ?_
  intro members st₂ _ h
  obtain ⟨hlen, hmembers, hne⟩ := h
  have hknown : R.known c := by
    rcases hc with hknown | ⟨hempty, -, hall⟩
    · exact hknown
    · -- no element has a type, yet each was attached at its own
      cases ho with
      | nil => simp at htwo
      | cons _ _ =>
          have hnone := hne (if_pos (TypeId.isEmpty_iff.2 hempty))
          exact absurd (hall _ List.mem_cons_self) (hnone _ List.mem_cons_self)
  refine intro fun hready₂ =>
    pure ⟨c, Store.Fits.offers ⟨hknown, Or.inl ?_, ?_, ?_⟩ span⟩
  · obtain ⟨m, m', rest, rfl⟩ : ∃ m m' rest, members = m :: m' :: rest := by
      rw [← hlen] at htwo
      rcases members with _ | ⟨m, _ | ⟨m', rest⟩⟩
      · simp at htwo
      · simp at htwo
      · exact ⟨m, m', rest, rfl⟩
    simp only [Store.counted?]
    rw [if_pos (by simp), hmembers.judgeAll?_eq, Option.map_some]
    exact congrArg some (unionCardinality_eq m.2 m'.2 (rest.map Prod.snd)).symm
  · intro x hx
    obtain ⟨m, hm, rfl⟩ := List.mem_map.1 hx
    obtain ⟨t, ht, -⟩ := hmembers m hm
    exact ⟨t, ht⟩
  · intro hty
    refine .union (by simpa [hlen] using htwo) fun x hx => ?_
    obtain ⟨m, hm, rfl⟩ := List.mem_map.1 hx
    obtain ⟨t, ht, -, hsub⟩ := hmembers m hm
    refine ⟨t, ht.type?, hsub c (if_neg fun hempty => ?_)⟩
    exact hready₂.suits.typed hty (TypeId.isEmpty_iff.1 hempty ▸ hknown)

theorem setOf (ho : OfferedAll R env st elements types) :
    Upholds R env st (CompileM.setOf elements span) (Offered R env) := by
  unfold CompileM.setOf
  split
  · exact pure ⟨.empty, rfl, Or.inr ⟨rfl, rfl, rfl⟩⟩
  · cases ho with
    | cons ho _ => exact pure ⟨_, ho⟩
  · next hnil hone =>
      refine unionOf ?_ ho
      cases elements with
      | nil => exact absurd rfl hnil
      | cons e rest =>
          cases rest with
          | nil => exact absurd rfl (hone e.1 e.2)
          | cons e' rest => simp

-- =============================================================== calls

/-- A callee is a function of the schema, with a parameter for each
argument. -/
theorem callee {function : Ast.NameRef} {given : Nat} :
    Upholds R env st (CompileM.callee function given span) fun _ r =>
      env.schema.function? r.1 = some r.2 ∧ given = r.2.params.length := by
  unfold CompileM.callee
  refine resolve fun item hitem => ?_
  cases item with
  | type id entry => exact fail (by simp [CompileError.kind])
  | function name sig =>
      refine require (by simp [CompileError.kind])
        fun hlen => pure ⟨?_, by simpa using hlen⟩
      exact Env.function?_of_resolve? hitem

/-- An argument that passes the check is one that the parameter takes. -/
theorem checkArgument {id position : Nat} {t : TypeId} {type : ParamType}
    {function : QualifiedName} (hid : st.Holds R env.frame.scope id t) :
    Upholds R env st (CompileM.checkArgument id type position function)
      fun st' id => ∃ t,
        st'.Holds R env.frame.scope id t ∧ ParamTakes env.schema type t := by
  refine intro fun hready => ?_
  have hholds := hid
  obtain ⟨node, hn, rfl, -⟩ := hid
  unfold CompileM.checkArgument
  refine read run_schema (read (run_getSet hn) ?_)
  cases type with
  | any => exact pure ⟨_, hholds, trivial⟩
  | numeric =>
      exact require (by simp [CompileError.kind])
        fun hnum => pure ⟨_, hholds, hnum⟩
  | concrete target =>
      dsimp only
      split
      · next hconv =>
          have hfloat : env.schema.scalarKind? target = some .float := by
            rcases Schema.conversion?_cases hconv with ⟨hne, -⟩ | ⟨-, -, hfloat⟩
            · exact absurd rfl hne
            · exact hfloat
          have hknown := hready.suits.registered target
            (Schema.isRegistered_of_scalarKind? hfloat)
          refine (castSet hholds hknown
            fun _ => Schema.cast?_of_conversion? hconv).imp ?_
          exact fun _ _ _ _ h => ⟨target, h, Schema.isSubtype_self _ target⟩
      · next k hk hconv =>
          rcases Schema.conversion?_cases hconv with ⟨-, hsub⟩ | ⟨rfl, -⟩
          · exact pure ⟨_, hholds, hsub⟩
          · exact absurd rfl hk
      · exact fail (by simp [CompileError.kind])

/-- One argument, where its parameter takes it; only an argument taken
element by element counts. -/
theorem argument {operand : CompileM κ Value} {param : Parameter}
    {position : Nat} {function : QualifiedName} {c : Cardinality}
    (ho : Yields R operand) :
    Upholds R env st (CompileM.argument operand param position function c)
      fun st' r =>
        Taken R env.schema env.frame.scope st' param r.1
          ∧ st'.product? env.frame.scope c (elementArgs [param] [r.1])
            = some r.2 := by
  unfold CompileM.argument
  cases hmode : param.mode with
  | wholeSet =>
      dsimp only
      have hscope : Upholds R env st
          (CompileM.inScope do
            CompileM.checkArgument (← CompileM.attach (← operand) none)
              param.type position function)
          (fun st' id => Taken R env.schema env.frame.scope st' param id) := by
        refine inScope (fun st' id => ∃ t, st'.Holds R st.scopes.size id t
          ∧ ParamTakes env.schema param.type t)
          (fun _ => ?_) fun st' id _ hparent => ?_
        · refine bind (ho _ _) ?_
          intro v st₁ _ h
          obtain ⟨t, hv⟩ := h
          refine bind (attach hv fun h heq => by cases heq) ?_
          intro x st₂ _ h
          obtain ⟨t₁, hx, -⟩ := h
          exact checkArgument hx
        · intro h
          obtain ⟨t, hid, htakes⟩ := h
          refine ⟨?_, t, hid.type?, htakes⟩
          unfold Store.Passed
          rw [hmode]
          exact ⟨_, t, hparent, hid, trivial⟩
      refine bind hscope ?_
      intro id st₁ _ htaken
      refine pure ⟨htaken, ?_⟩
      rw [elementArgs_cons, if_neg (by simp [hmode])]
      rfl
  | element =>
      dsimp only
      refine bind (ho _ _) ?_
      intro v st₁ _ h
      obtain ⟨t, hv⟩ := h
      refine bind (attach hv fun h heq => by cases heq) ?_
      intro x st₂ _ h
      obtain ⟨t₁, hx, -⟩ := h
      refine bind (checkArgument hx) ?_
      intro y st₃ _ h
      obtain ⟨t₂, hy, htakes⟩ := h
      obtain ⟨d, hd⟩ := hy.exists_judge? env.frame.scope
      refine read (run_judge hd) (pure ⟨⟨?_, t₂, hy.type?, htakes⟩, ?_⟩)
      · unfold Store.Passed
        rw [hmode]
        exact ⟨t₂, hy⟩
      · rw [elementArgs_cons, if_pos hmode, Store.product?, hd,
          Option.bind_some]
        rfl

omit [DecidableEq κ] [PathKey κ] [NameDigest] in
theorem exists_get?_of_taken {params : List Parameter} {args : List SetId}
    {arg : Nat}
    (hargs : List.Forall₂ (Taken R env.schema env.frame.scope st) params args)
    (harg : arg ∈ args) : ∃ node, st.arena.get? arg = some node := by
  induction hargs with
  | nil => cases harg
  | cons htaken _ ih =>
      rcases List.mem_cons.1 harg with rfl | harg
      · obtain ⟨-, t, ht, -⟩ := htaken
        obtain ⟨node, hn, -⟩ := Arena.type?_eq_some_iff.1 ht
        exact ⟨node, hn⟩
      · exact ih harg

/-- What a call returns. An argument that is missing is the schema's
fault. -/
theorem returnType {function : QualifiedName} {sig : Signature}
    {args : List SetId} (hf : env.schema.function? function = some sig)
    (hargs :
      List.Forall₂ (Taken R env.schema env.frame.scope st) sig.params args) :
    Upholds R env st (CompileM.returnType sig.returns function args)
      fun st' t =>
        R.known t ∧ ReturnsType st'.arena sig.returns args t := by
  refine intro fun hready => ?_
  unfold CompileM.returnType
  cases hret : sig.returns with
  | concrete type => exact pure ⟨hready.suits.returned _ _ _ hf hret, rfl⟩
  | sameAs position =>
      dsimp only
      cases harg : args[position]? with
      | none =>
          have hrun : (CompileM.orFail none
              (.internal (.missingArgument function.text position)) >>=
                CompileM.typeOf : CompileM κ TypeId).run env st
              = (.error (.internal (.missingArgument function.text position)),
                st) := by
            rw [run_bind, run_orFail]
          refine of_run hrun (fun a ha => ?_) fun e _ _ hreturns => ?_
          · cases ha
          · have hlt := hreturns function sig position hf hret
            rw [List.getElem?_eq_none_iff, ← hargs.length_eq] at harg
            omega
      | some arg =>
          obtain ⟨node, hn⟩ :=
            exists_get?_of_taken hargs (List.mem_of_getElem? harg)
          refine read (run_orFail _ _ _ _)
            (of_run (run_typeOf hn) (fun t ht => ?_) fun e he => by cases he)
          cases ht
          exact ⟨hready.sound.known arg node hn, arg, harg,
            Arena.type?_eq_some_iff.2 ⟨node, hn, rfl⟩⟩

/-- A call with its arguments. -/
theorem call {function : QualifiedName} {sig : Signature} {args : List SetId}
    {c : Cardinality} (hf : env.schema.function? function = some sig)
    (hargs :
      List.Forall₂ (Taken R env.schema env.frame.scope st) sig.params args)
    (hc : st.product? env.frame.scope sig.cardinality
      (elementArgs sig.params args) = some c) :
    Upholds R env st (CompileM.call function sig args c span)
      (Offered R env) := by
  refine intro fun hready => ?_
  unfold CompileM.call
  refine bind (returnType hf hargs) ?_
  intro t st₁ h₁ h
  obtain ⟨hknown, hreturns⟩ := h
  have hargs := hargs.imp fun _ _ htaken => htaken.mono h₁
  refine pure ⟨t, Store.Fits.offers ⟨hknown, Or.inl ?_, ?_, fun _ => ?_⟩ span⟩
  · simp only [Store.counted?]
    rw [hf, Option.bind_some, h₁.product?_eq hready.active hc]
  · exact ⟨sig, hf, rfl, hargs.imp fun _ _ htaken => htaken.1⟩
  · exact .call hf (hargs.imp fun _ _ htaken => htaken.2) hreturns

end CompileM.Upholds

end PathQuery
