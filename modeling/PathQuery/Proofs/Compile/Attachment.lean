/-
Values are attached as they were offered.

A value is offered by a store if, as a set, it is seen from the active
node, or as an operation, fits that node; the one operation that need
not fit is the empty set that awaits a type. Attaching an offered value
gives a set that is seen, at the type of the hint or of a subtype, and
where no hint is given at the type that was offered, which then is not
empty.

A value that was offered stays offered while the store grows, so the
operands of an operator may be compiled one after the other.
-/
import PathQuery.Proofs.Compile.Upholds

namespace PathQuery

open Ir

variable {κ : Type}

theorem TypeId.isEmpty_iff {t : TypeId} : t.isEmpty = true ↔ t = .empty := by
  unfold isEmpty
  rw [beq_iff_eq]

-- ============================================================== offers

/-- An empty set that awaits a type. -/
def Ir.Pending.Untyped (p : Pending) : Prop :=
  p.operation = .emptySet ∧ p.type = .empty ∧ p.cardinality = .atMostOne

namespace Store

variable [NameDigest] {R : Regime} {s : Schema} {st st' : Store κ} {scope : Nat}
  {t : TypeId}

/-- A value of a type may be attached to a node. -/
def Offers (R : Regime) (s : Schema) (st : Store κ) (scope : Nat) (v : Value)
    (t : TypeId) :
    Prop :=
  match v with
  | .set id => st.Holds R scope id t
  | .pending p => p.type = t
      ∧ (st.Fits R s scope p.operation p.type p.cardinality ∨ p.Untyped)

theorem Offers.mono (h : st.Extends st') (hs : scope < st.scopes.size)
    {v : Value} (ho : st.Offers R s scope v t) : st'.Offers R s scope v t := by
  cases v with
  | set id => exact Holds.mono h ho
  | pending p =>
      obtain ⟨ht, hf⟩ := ho
      exact ⟨ht, hf.imp_left fun hf => hf.mono h hs⟩

/-- An operation that fits is offered. -/
theorem Fits.offers {op : Operation} {c : Cardinality}
    (hf : st.Fits R s scope op t c) (span : Span) :
    st.Offers R s scope (.pending ⟨op, t, c, span⟩) t :=
  ⟨rfl, Or.inl hf⟩

theorem Holds.known [PathKey κ] [DecidableEq κ] {id : Nat} (hst : st.Sound R s)
    (hid : st.Holds R scope id t) : R.known t := by
  obtain ⟨node, hn, rfl, -⟩ := hid
  exact hst.known id node hn

/-- A type that is offered is known, or empty. -/
theorem Offers.known [PathKey κ] [DecidableEq κ] {v : Value}
    (hst : st.Sound R s) (ho : st.Offers R s scope v t) :
    R.known t ∨ t = .empty := by
  cases v with
  | set id => exact Or.inl (Holds.known hst ho)
  | pending p =>
      obtain ⟨rfl, hf | hu⟩ := ho
      · exact Or.inl hf.known
      · exact Or.inr hu.2.1

/-- An operation offered without a type takes any. -/
theorem Offers.retype (hsuits : R.Suits s) {p : Pending}
    (ho : st.Offers R s scope (.pending p) .empty) (ht : R.known t) :
    st.Fits R s scope p.operation t p.cardinality := by
  obtain ⟨hempty, hf | ⟨hop, -, hcard⟩⟩ := ho
  · exact ⟨ht, hf.counted, hf.placed,
      fun hty => absurd (hempty ▸ hf.known) (hsuits.typed hty)⟩
  · rw [hop, hcard]
    exact ⟨ht, Or.inl rfl, trivial, fun _ => .emptySet t⟩

end Store

-- ============================================================= attaching

variable [DecidableEq κ] [PathKey κ] [NameDigest]

namespace CompileM

omit [DecidableEq κ] [PathKey κ] [NameDigest] in
theorem run_untypedEmptySet {α : Type} {env : Env} {st : Store κ}
    {span : Span} : (untypedEmptySet span : CompileM κ α).run env st
      = (.error (.mismatch (.untypedEmptySet env.frame.clause) span), st) := rfl

omit [DecidableEq κ] [PathKey κ] [NameDigest] in
theorem run_typeOf_of_holds {env : Env} {st : Store κ} {R : Regime}
    {scope id : Nat} {t : TypeId} (hid : st.Holds R scope id t) :
    (typeOf id).run env st = (.ok t, st) := by
  obtain ⟨node, hn, rfl, -⟩ := hid
  exact run_typeOf hn

omit [DecidableEq κ] [PathKey κ] in
theorem run_valueType {env : Env} {st : Store κ} {R : Regime} {v : Value}
    {t : TypeId} (ho : st.Offers R env.schema env.frame.scope v t) :
    (valueType v).run env st = (.ok t, st) := by
  cases v with
  | set id => exact run_typeOf_of_holds ho
  | pending p =>
      obtain ⟨rfl, -⟩ := ho
      rfl

namespace Upholds

variable {R : Regime} {env : Env} {st : Store κ} {id : Nat} {t target : TypeId}

/-- A computed set that fits is seen. -/
theorem newComputed_holds {op : Operation} {c : Cardinality} {span : Span}
    (hf : st.Fits R env.schema env.frame.scope op t c) :
    Upholds R env st (CompileM.newComputed op t c span) fun st' id =>
      st'.Holds R env.frame.scope id t :=
  (newComputed hf).imp fun _ _ _ _ hn =>
    ⟨_, hn, rfl, fun _ => ScopeTree.mem_ancestors_self _ _⟩

theorem castSet {conversion : Conversion}
    (hid : st.Holds R env.frame.scope id t) (hknown : R.known target)
    (hcast : R.typed → env.schema.cast? t target = some conversion) :
    Upholds R env st (CompileM.castSet id target conversion) fun st' id =>
      st'.Holds R env.frame.scope id target := by
  obtain ⟨node, hn⟩ := hid.exists_get?
  obtain ⟨c, hc⟩ := hid.exists_judge? env.frame.scope
  unfold CompileM.castSet
  refine read (run_getSet hn) (read (run_judge hc) (newComputed_holds ?_))
  exact ⟨hknown, Or.inl hc, ⟨t, hid⟩, fun hty => .cast hid.type? (hcast hty)⟩

/-- A set that is coerced has the type wanted, or a subtype. -/
theorem coerce (hid : st.Holds R env.frame.scope id t)
    (hknown : R.known target) :
    Upholds R env st (CompileM.coerce id target) fun st' id =>
      ∃ t', st'.Holds R env.frame.scope id t'
        ∧ env.schema.isSubtype t' target = true := by
  refine intro fun hr => ?_
  obtain ⟨c, hc⟩ := hid.exists_judge? env.frame.scope
  have hself := Schema.isSubtype_self env.schema target
  have hholds := hid
  obtain ⟨node, hn, rfl, -⟩ := hid
  unfold CompileM.coerce
  refine read (run_getSet hn) (read run_schema ?_)
  split
  · next hempty =>
      have hempty := TypeId.isEmpty_iff.1 hempty
      refine read (run_judge hc)
        ((newComputed_holds ?_).imp fun _ _ _ _ h => ⟨_, h, hself⟩)
      exact ⟨hknown, Or.inr ⟨rfl, hempty ▸ hr.sound.known id node hn⟩, trivial,
        fun _ => .emptySet target⟩
  · have hsub : ∀ k, k ≠ .implicit →
      env.schema.conversion? node.type target = some k →
        env.schema.isSubtype node.type target = true := by
      intro k hk hconv
      rcases Schema.conversion?_cases hconv with ⟨-, hsub⟩ | ⟨rfl, -⟩
      · exact hsub
      · exact absurd rfl hk
    split
    · next hconv => exact pure ⟨_, hholds, hsub _ (by simp) hconv⟩
    · next hconv => exact pure ⟨_, hholds, hsub _ (by simp) hconv⟩
    · next hconv =>
        refine (castSet hholds hknown fun _ => ?_).imp
          fun _ _ _ _ h => ⟨_, h, hself⟩
        exact Schema.cast?_of_conversion? hconv
    · exact read run_frame (fail (by simp [CompileError.kind]))

/-- A set and another set that refers to it have one type. -/
theorem referenceAt {span : Span} (hid : st.Holds R env.frame.scope id t) :
    Upholds R env st (CompileM.referenceAt id span) fun st' id =>
      st'.Holds R env.frame.scope id t := by
  refine intro fun hr => ?_
  obtain ⟨c, hc⟩ := hid.exists_judge? env.frame.scope
  have hholds := hid
  obtain ⟨node, hn, rfl, -⟩ := hid
  unfold CompileM.referenceAt
  refine read (run_getSet hn) ?_
  split
  · exact pure hholds
  · refine read (run_judge hc) (newComputed_holds ?_)
    exact ⟨hr.sound.known id node hn, Or.inl hc, ⟨_, hholds⟩,
      fun _ => .reference hholds.type?⟩

-- =============================================================== values

/-- A value is settled at its type, or takes the one of the hint. -/
theorem settle {v : Value} {hint : Option TypeId}
    (ho : st.Offers R env.schema env.frame.scope v t)
    (hknown : ∀ h, hint = some h → R.known h) :
    Upholds R env st (CompileM.settle v hint) fun st' id =>
      ∃ t', st'.Holds R env.frame.scope id t' ∧ (hint = none → t' = t) := by
  refine intro fun hr => ?_
  cases v with
  | set id => exact pure ⟨t, ho, fun _ => rfl⟩
  | pending p =>
      obtain ⟨rfl, hf⟩ := (show _ from ho)
      unfold CompileM.settle
      dsimp only
      split
      · next hempty =>
          cases hint with
          | none => exact fail (by simp [CompileError.kind])
          | some h =>
              rw [TypeId.isEmpty_iff.1 hempty] at ho
              refine (newComputed_holds (ho.retype hr.suits (hknown h rfl))).imp
                ?_
              exact fun _ _ _ _ hid => ⟨h, hid, fun hn => by cases hn⟩
      · next hne =>
          rcases hf with hf | hu
          · exact (newComputed_holds hf).imp
              fun _ _ _ _ hid => ⟨p.type, hid, fun _ => rfl⟩
          · exact absurd (TypeId.isEmpty_iff.2 hu.2.1) hne

/-- A value is attached at the type of the hint, or a subtype; without a
hint at its own type, which is not empty. -/
theorem attach {v : Value} {hint : Option TypeId}
    (ho : st.Offers R env.schema env.frame.scope v t)
    (hknown : ∀ h, hint = some h → R.known h) :
    Upholds R env st (CompileM.attach v hint) fun st' id =>
      ∃ t', st'.Holds R env.frame.scope id t'
        ∧ (∀ h, hint = some h → env.schema.isSubtype t' h = true)
        ∧ (hint = none → t' = t ∧ t ≠ .empty) := by
  unfold CompileM.attach
  refine bind (settle ho hknown) ?_
  intro id st' hext h
  obtain ⟨t', hid, hsame⟩ := h
  cases hint with
  | some h =>
      refine (coerce hid (hknown h rfl)).imp fun _ _ _ _ hr => ?_
      obtain ⟨u, hu, hsub⟩ := hr
      refine ⟨u, hu, fun h' heq => ?_, fun hn => by cases hn⟩
      cases heq
      exact hsub
  | none =>
      obtain rfl := hsame rfl
      have hholds := hid
      obtain ⟨node, hn, rfl, -⟩ := hid
      refine read (run_getSet hn) ?_
      split
      · exact stop run_untypedEmptySet (by simp [CompileError.kind])
      · next hne =>
          refine pure ⟨_, hholds, fun h heq => ?_, fun _ => ⟨rfl, fun he => ?_⟩⟩
          · cases heq
          · exact hne (TypeId.isEmpty_iff.2 he)

end Upholds

end CompileM

end PathQuery
