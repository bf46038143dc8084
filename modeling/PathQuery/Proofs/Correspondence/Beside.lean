/-
Stores that grow side by side.

A sound store corresponds to itself (`Correspondence.itself`): each of its
sets is the same as itself, down to the numbers. When it grows, but only
in nodes that are new, it is still there in what it has grown to
(`Store.Beside`). So two stores that have grown from one in this way
correspond in what they have in common, whatever else either of them has
(`Store.Beside.consistent`).

What is compiled in a node of its own grows a store in this way, since it
binds nothing in the nodes that are there (`Encloses`).
-/
import PathQuery.Proofs.Compile.Composed
import PathQuery.Proofs.Correspondence.Growth

namespace PathQuery

open Ir

variable {κ α β : Type}

-- ============================================================ renaming

namespace Correspondence

variable {C : Correspondence κ}

theorem ShapeRenamed.refl : (nodes : List ShapeNode) →
    (∀ x ∈ ShapeNode.mentionsOf nodes, C.sets x x) → C.ShapeRenamed nodes nodes
  | [], _ => .nil
  | .mk _ _ _ elements :: rest, h =>
      .cons (h _ (List.mem_append_left _ List.mem_cons_self))
        (refl elements fun _ hx =>
          h _ (List.mem_append_left _ (List.mem_cons_of_mem _ hx)))
        (refl rest fun _ hx => h _ (List.mem_append_right _ hx))

/-- A statement is the same as itself if its sets and its node correspond
to themselves. -/
theorem StatementRenamed.refl {stmt : Statement}
    (hsets : ∀ x ∈ stmt.mentions, C.sets x x) (hscope : C.nodes stmt.scope stmt.scope) :
    C.StatementRenamed stmt stmt := by
  have hoption : ∀ {o : Option SetId}, (∀ x, o = some x → x ∈ stmt.mentions) →
      Option.Rel C.sets o o := by
    intro o h
    cases o with
    | none => exact .none
    | some x => exact .some (hsets x (h x rfl))
  have hmem : ∀ x, _ → x ∈ stmt.mentions := fun x => Statement.mem_mentions.2
  exact
    { result := hsets _ (hmem _ (.inl rfl))
      shape := .refl _ fun x hx => hsets x (hmem x (.inr (.inl hx)))
      filter := hoption fun x hx => hmem x (.inr (.inr (.inl hx)))
      groupBy := List.forall₂_same.2 fun x hx =>
        hsets x (hmem x (.inr (.inr (.inr (.inl hx)))))
      orderBy := List.forall₂_same.2 fun k hk =>
        ⟨hsets _ (hmem _ (.inr (.inr (.inr (.inr (.inl ⟨k, hk, rfl⟩)))))), rfl, rfl, rfl⟩
      offset := hoption fun x hx => hmem x (.inr (.inr (.inr (.inr (.inr (.inl hx))))))
      limit := hoption fun x hx => hmem x (.inr (.inr (.inr (.inr (.inr (.inr hx))))))
      cardinality := rfl
      scope := hscope
      span := rfl }

/-- So is an operation. -/
theorem OperationRenamed.refl {op : Operation}
    (hsets : ∀ x ∈ op.mentions, C.sets x x)
    (hscope : ∀ stmt, op = .subquery stmt → C.nodes stmt.scope stmt.scope) :
    C.OperationRenamed op op := by
  cases op with
  | constant value => exact .constant value
  | emptySet => exact .emptySet
  | binary l op r =>
      exact .binary op (hsets l List.mem_cons_self)
        (hsets r (List.mem_cons_of_mem _ List.mem_cons_self))
  | unary op x => exact .unary op (hsets x List.mem_cons_self)
  | call function args aggregate =>
      exact .call function aggregate (List.forall₂_same.2 hsets)
  | cast x target conversion => exact .cast target conversion (hsets x List.mem_cons_self)
  | union members => exact .union (List.forall₂_same.2 hsets)
  | subquery stmt => exact .subquery (.refl hsets (hscope stmt rfl))
  | reference x => exact .reference (hsets x List.mem_cons_self)

-- ============================================================== itself

/-- A store and itself: each set and each node that is there. -/
def itself (st : Store κ) : Correspondence κ :=
  ⟨st, st, fun x y => x = y ∧ x < st.arena.size,
    fun a b => a = b ∧ a < st.scopes.size⟩

variable [DecidableEq κ] [PathKey κ] [NameDigest] {R : Regime} {s : Schema}
  {st : Store κ}

/-- In a sound store, each set is the same as itself. -/
theorem consistent_itself (h : st.Sound R s) : (itself st).Consistent .same where
  rooted := h.rooted
  rooted' := h.rooted
  indexed := .of_sound h
  indexed' := .of_sound h
  active := fun a b hab => ⟨hab.2, hab.1 ▸ hab.2⟩
  nodes_unique :=
    ⟨fun _ _ _ hac hbc => hac.1.trans hbc.1.symm, fun _ _ _ hab hac => hab.1.symm.trans hac.1⟩
  parents := fun a b hab => by
    obtain ⟨rfl, ha⟩ := hab
    show Option.Rel _ (st.scopes.parent? a) (st.scopes.parent? a)
    cases hp : st.scopes.parent? a with
    | none => exact .none
    | some p => exact .some ⟨rfl, Nat.lt_trans (h.rooted.parent_lt a p hp) ha⟩
  sets_unique :=
    ⟨fun _ _ _ hac hbc => hac.1.trans hbc.1.symm, fun _ _ _ hab hac => hab.1.symm.trans hac.1⟩
  matched := fun x y hxy => by
    obtain ⟨rfl, hx⟩ := hxy
    obtain ⟨node, hn⟩ := Arena.exists_get?_of_lt hx
    have hsound := h.sets x node hn
    have hmentions : ∀ y ∈ node.origin.mentions, (itself st).sets y y := fun y hy =>
      ⟨rfl, hsound.mentions_lt y hy⟩
    refine ⟨node, node, hn, hn, rfl, ⟨rfl, h.scope_lt x node hn⟩, fun _ => rfl,
      .refl _ _, ?_, fun h => by cases h⟩
    cases hsound with
    | root ho => exact .root ho ho
    | step ho =>
        rw [ho] at hmentions
        exact .step ho ho (hmentions _ List.mem_cons_self)
    | computed ho _ hfits =>
        rw [ho] at hmentions
        exact .computed ho ho rfl fun _ => .refl hmentions fun stmt hstmt =>
          ⟨rfl, (hfits.placed.of_subquery stmt hstmt).1⟩
  bound := fun a b key x hab hx => by
    obtain ⟨rfl, -⟩ := hab
    obtain ⟨node, hn, -⟩ := h.binding a key x hx
    exact ⟨x, key, ⟨rfl, Arena.lt_size_of_get? hn⟩, hx⟩
  bound' := fun a b key y hab hy => by
    obtain ⟨rfl, -⟩ := hab
    obtain ⟨node, hn, -⟩ := h.binding a key y hy
    exact ⟨y, key, ⟨rfl, Arena.lt_size_of_get? hn⟩, hy⟩

end Correspondence

-- ============================================================== beside

variable [DecidableEq κ] [PathKey κ]

/-- A store has grown, and its nodes bind what they did. -/
structure Store.Beside (st st' : Store κ) : Prop where
  grown : st.Extends st'
  indexed : st'.Indexed
  binding?_eq : ∀ n : Nat, n < st.scopes.size → ∀ key : κ,
    st'.scopes.binding? n key = st.scopes.binding? n key

namespace Store.Beside

variable {st st₁ st₂ : Store κ}

theorem refl (hr : st.scopes.Rooted) (hi : st.Indexed) : st.Beside st :=
  ⟨.refl hr, hi, fun _ _ _ => rfl⟩

theorem trans (h₁ : st.Beside st₁) (h₂ : st₁.Beside st₂) : st.Beside st₂ :=
  ⟨h₁.grown.trans h₂.grown, h₂.indexed, fun n hn key =>
    (h₂.binding?_eq n (Nat.lt_of_lt_of_le hn h₁.grown.size_le) key).trans
      (h₁.binding?_eq n hn key)⟩

end Store.Beside

/-- What corresponds still does in stores that have grown beside. -/
theorem Correspondence.Consistent.beside {C : Correspondence κ} {μ : Ast.Likeness}
    (h : C.Consistent μ) {st₁ st₂ : Store κ} (h₁ : C.left.Beside st₁)
    (h₂ : C.right.Beside st₂) : (C.grown st₁ st₂).Consistent μ :=
  h.grown h₁.grown h₂.grown h₁.indexed h₂.indexed
    (fun a b key hab => h₁.binding?_eq a (h.active a b hab).1 key)
    fun a b key hab => h₂.binding?_eq b (h.active a b hab).2 key

-- ============================================================ enclosing

namespace CompileM

omit [DecidableEq κ] [PathKey κ] in
/-- What is made of a result adds nothing. -/
theorem snd_run_bind_pure (m : CompileM κ α) (f : α → β) (env : Env) (st : Store κ) :
    ((m >>= fun a => pure (f a)).run env st).2 = (m.run env st).2 := by
  rw [run_bind]
  rcases m.run env st with ⟨_ | a, st'⟩ <;> rfl

/-- A step binds nothing in a node that is there. -/
def Encloses (m : CompileM κ α) : Prop :=
  ∀ (env : Env) (st : Store κ) (n : Nat), n < st.scopes.size → ∀ key : κ,
    (m.run env st).2.scopes.binding? n key = st.scopes.binding? n key

namespace Encloses

variable [NameDigest] {m : CompileM κ α}

/-- What is composed binds in its own node and below. -/
theorem inScope {asked : Ast.Select → Prop} {post : α → Prop}
    (hm : Composed asked post m) : Encloses (CompileM.inScope m) := by
  intro env st n hn key
  have hspreads := hm.spreads (env.within st.scopes.size) (st.opened env.frame.scope)
  have hlt : n < (st.scopes.attach env.frame.scope).size := by
    rw [ScopeTree.size_attach]
    exact Nat.lt_succ_of_lt hn
  rw [run_inScope]
  exact (hspreads.grows.scopes.binding_old n hlt (Nat.ne_of_lt hn) key).trans
    (ScopeTree.binding?_attach _ _ _ _)

omit [PathKey κ] [NameDigest] in
theorem underFrame {change : Frame → Frame} (hm : Encloses m) :
    Encloses (CompileM.underFrame change m) :=
  fun _ => hm _

omit [PathKey κ] [NameDigest] in
theorem inClause {clause : Clause} (hm : Encloses m) :
    Encloses (CompileM.inClause clause m) := underFrame hm

omit [PathKey κ] [NameDigest] in
theorem underSubject {subject : SetId} (hm : Encloses m) :
    Encloses (CompileM.underSubject subject m) := underFrame hm

omit [PathKey κ] [NameDigest] in
theorem bind_pure {f : α → β} (hm : Encloses m) :
    Encloses (m >>= fun a => Pure.pure (f a)) := by
  intro env st
  rw [snd_run_bind_pure]
  exact hm env st

section Operands

variable {asked : Ast.Select → Prop} {operand : CompileM κ Value} {span : Span}

theorem filterBy (ho : Composed asked Value.IsPlain operand) :
    Encloses (CompileM.filterBy operand span) := by
  unfold CompileM.filterBy
  exact inScope (.inClause (.clauseOperand ho))

theorem bound (ho : Composed asked Value.IsPlain operand) :
    Encloses (CompileM.bound operand span) := by
  have hone : Composes asked (do
      let id ← clauseOperand operand span (some TypeId.int)
      requireSingleton id
      return id) :=
    .bind (.clauseOperand ho) fun _ _ => .bind .requireSingleton fun _ _ => .pure trivial
  exact inScope hone

theorem key (ho : Composed asked Value.IsPlain operand) :
    Encloses (CompileM.key operand span) := by
  have hone : Composes asked (do
      let id ← clauseOperand operand span none
      requireSingleton id
      return id) :=
    .bind (.clauseOperand ho) fun _ _ => .bind .requireSingleton fun _ _ => .pure trivial
  exact inScope hone

end Operands

end Encloses

end CompileM

end PathQuery
