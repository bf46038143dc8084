/-
Paths are found on both sides or on neither.

A path that is bound where one side looks is bound where the other side
looks, if what is found by its key stands for it. In a store where keys
tell the paths apart, it does (`canonical_of_bound`): the path gets a set
in any case, the one that is found or a new one, and no other set shares
its key. So either both sides find the path, in sets that correspond, or
both make and bind a set for it, and the two correspond from then on
(`shared`).
-/
import PathQuery.Proofs.Correspondence.Operands

namespace PathQuery

open Ast (Likeness)
open Ir

variable {κ : Type} [DecidableEq κ] [PathKey κ]

-- ================================================================ keys

namespace Store

variable {st : Store κ} {node : SetNode κ}

/-- A store with one more set, bound to a key in the node where it
lives. -/
def made (st : Store κ) (node : SetNode κ)
    (h : ∀ source, node.origin.source? = some source → source < st.arena.size)
    (key : κ) : Store κ :=
  ⟨st.arena.push node h, st.scopes.bind node.scope key st.arena.size⟩

omit [PathKey κ] in
theorem extends_made (hr : st.scopes.Rooted) (h) (key : κ) :
    st.Extends (st.made node h key) where
  arena := Arena.extends_push _ _ h
  rooted := hr
  rooted' := hr.bind _ _ _
  size_le := Nat.le_of_eq (ScopeTree.size_bind ..).symm
  parent_old := fun _ _ => ScopeTree.parent?_bind ..

omit [PathKey κ] in
/-- What is bound is the new set, or was bound before. -/
theorem binding?_made (hs : node.scope < st.scopes.size) (h) {key key' : κ}
    {n z : Nat} (hz : (st.made node h key).scopes.binding? n key' = some z) :
    st.scopes.binding? n key' = some z
      ∨ (n = node.scope ∧ key' = key ∧ z = st.arena.size) := by
  unfold made at hz
  rw [ScopeTree.binding?_bind hs] at hz
  split at hz
  · next heq =>
      cases hz
      exact Or.inr ⟨heq.1, heq.2, rfl⟩
  · exact Or.inl hz

omit [PathKey κ] in
theorem binding?_made_self (hs : node.scope < st.scopes.size) (h) (key : κ) :
    (st.made node h key).scopes.binding? node.scope key = some st.arena.size := by
  unfold made
  rw [ScopeTree.binding?_bind hs, if_pos ⟨rfl, rfl⟩]

omit [PathKey κ] in
/-- If the key was free, then all that was bound still is. -/
theorem binding?_made_old {key : κ}
    (hfree : st.scopes.binding? node.scope key = none) (h) {n z : Nat} {key' : κ}
    (hz : st.scopes.binding? n key' = some z) :
    (st.made node h key).scopes.binding? n key' = some z := by
  have hgrows : st.scopes.GrowsFrom node.scope (st.made node h key).scopes :=
    ScopeTree.growsFrom_bind hfree
  by_cases hn : n = node.scope
  · subst hn
    exact hgrows.binding_kept key' z hz
  · exact (hgrows.binding_old n (ScopeTree.lt_size_of_binding? hz) hn key').trans hz

end Store

namespace Store.Indexed

variable {st : Store κ} {node : SetNode κ} {p : CanonicalPath}
  {confirm : Arena κ → SetId → Bool} {make : CompileM κ SetId} {env : Env}

theorem made (h : st.Indexed) (hs) (hkey : node.key = some p.key)
    (hpath : (st.arena.push node hs).canonical st.arena.size = p)
    (hactive : node.scope < st.scopes.size) :
    (st.made node hs p.key).Indexed := by
  refine h.grown hs ?_ fun n key z hz => ?_
  · rw [hpath, hkey]
    rfl
  · rcases binding?_made hactive hs hz with hz | ⟨rfl, rfl, rfl⟩
    · exact Or.inl hz
    · exact Or.inr ⟨rfl, rfl, hkey⟩

/-- What is bound under the key of a path stands for the path, if keys
tell the paths apart once the path has its set. -/
theorem canonical_of_bound (h : st.Indexed) (hs)
    (hkey : node.key = some p.key)
    (hpath : (st.arena.push node hs).canonical st.arena.size = p)
    (hconfirm : ∀ found, confirm st.arena found = true ↔
      st.arena.canonical found = p)
    (hmake : make.run env st
      = (.ok st.arena.size, ⟨st.arena.push node hs, st.scopes⟩))
    (hfaith : ((CompileM.shared p.key confirm make).run env st).2.arena.Faithful)
    {a x : Nat} (hx : st.scopes.binding? a p.key = some x) :
    st.arena.canonical x = p := by
  obtain ⟨n, hn, -, hkeyx⟩ := h.bound a _ x hx
  have hkeyx' := h.key_of_bound hx
  have hext := Arena.extends_push st.arena node hs
  -- a new set for the path would have the key that the bound one has
  have hmade : (st.arena.push node hs).Faithful → st.arena.canonical x = p := by
    intro hfaith
    rw [← hext.canonical_eq hn, ← hpath]
    refine hfaith x st.arena.size n node (hext x n hn)
      (Arena.get?_push_self _ _ hs) (by rw [hkeyx]; simp) (by rw [hkey]; simp) ?_
    rw [hpath, hext.canonical_eq hn, ← hkeyx']
  cases hl : st.scopes.lookup env.frame.scope p.key with
  | none =>
      rw [CompileM.run_shared_of_free hl hmake] at hfaith
      exact hmade hfaith
  | some hit =>
      obtain ⟨b, found⟩ := hit
      cases hc : confirm st.arena found with
      | false =>
          rw [CompileM.run_shared_of_taken hl hc, hmake] at hfaith
          exact hmade hfaith
      | true =>
          rw [CompileM.run_shared_of_found hl hc] at hfaith
          obtain ⟨m, hm, -, hkeym⟩ := h.bound b _ found
            (ScopeTree.binding?_of_lookup hl).2
          rw [← (hconfirm found).1 hc]
          refine hfaith x found n m hn hm (by rw [hkeyx]; simp)
            (by rw [hkeym]; simp) ?_
          rw [(hconfirm found).1 hc, ← hkeyx']

end Store.Indexed

namespace CompileM.Corresponds

variable {μ : Likeness} {C : Correspondence κ} {env env' : Env} {x y : SetId}
  {span span' : Span} {node node' : SetNode κ} {p p' : CanonicalPath}

-- ============================================================= sharing

/-- What both sides want a set for, `p` on the one and `p'` on the other,
and the sets that they make for it. -/
structure Wants (μ : Likeness) (C : Correspondence κ) (env env' : Env)
    (node node' : SetNode κ) (p p' : CanonicalPath) : Prop where
  matched : C.Matched μ node node'
  paths : C.Paths p p'
  key : node.key = some p.key
  key' : node'.key = some p'.key
  scope : node.scope = env.frame.scope
  scope' : node'.scope = env'.frame.scope

/-- Both sides make a set and bind it. -/
theorem Wants.made (hw : Wants μ C env env' node node' p p') (hc : C.Consistent μ)
    (hframe : C.Framed env env') (hs hs')
    (hpath : (C.left.arena.push node hs).canonical C.left.arena.size = p)
    (hpath' : (C.right.arena.push node' hs').canonical C.right.arena.size = p')
    (hfree : C.left.scopes.binding? env.frame.scope (p.key : κ) = none)
    (hfree' : C.right.scopes.binding? env'.frame.scope (p'.key : κ) = none) :
    let C' := C.adding (C.left.made node hs p.key) (C.right.made node' hs' p'.key)
      C.left.arena.size C.right.arena.size
    C.Later C' ∧ C'.Consistent μ := by
  obtain ⟨hactive, hactive'⟩ := hc.active _ _ hframe.scope
  rw [← hw.scope] at hactive hfree
  rw [← hw.scope'] at hactive' hfree'
  have hnodes : C.nodes node.scope node'.scope := hw.matched.scope
  have hl := Store.extends_made hc.rooted hs (p.key : κ)
  have hr := Store.extends_made hc.rooted' hs' (p'.key : κ)
  have hlater := Correspondence.later_adding (x := C.left.arena.size)
    (y := C.right.arena.size) hl hr
  refine ⟨hlater, hc.adding hl hr (hc.indexed.made hs hw.key hpath hactive)
    (hc.indexed'.made hs' hw.key' hpath' hactive') hc.not_sets_left hc.not_sets_right ?_
    (fun _ _ _ => Store.binding?_made_old hfree hs)
    (fun _ _ _ => Store.binding?_made_old hfree' hs') ?_ ?_⟩
  · exact ⟨node, node', Arena.get?_push_self _ _ hs,
      Arena.get?_push_self _ _ hs', hw.matched.mono hlater⟩
  · intro a b key z hab hz
    refine (Store.binding?_made hactive hs hz).imp_right fun hnew => ?_
    obtain ⟨rfl, -, rfl⟩ := hnew
    obtain rfl := hc.nodes_unique.2 hab hnodes
    exact ⟨rfl, _, Store.binding?_made_self hactive' hs' _⟩
  · intro a b key z hab hz
    refine (Store.binding?_made hactive' hs' hz).imp_right fun hnew => ?_
    obtain ⟨rfl, -, rfl⟩ := hnew
    obtain rfl := hc.nodes_unique.1 hab hnodes
    exact ⟨rfl, _, Store.binding?_made_self hactive hs _⟩

/-- Both sides share what they find, or share what they make. -/
theorem shared (hw : Wants μ C env env' node node' p p') {key key' : κ}
    (hkey : key = p.key) (hkey' : key' = p'.key)
    {confirm confirm' : Arena κ → SetId → Bool} {make make' : CompileM κ SetId}
    (hs hs') (hpath : (C.left.arena.push node hs).canonical C.left.arena.size = p)
    (hpath' : (C.right.arena.push node' hs').canonical C.right.arena.size = p')
    (hconfirm : ∀ found, confirm C.left.arena found = true ↔
      C.left.arena.canonical found = p)
    (hconfirm' : ∀ found, confirm' C.right.arena found = true ↔
      C.right.arena.canonical found = p')
    (hmake : make.run env C.left
      = (.ok C.left.arena.size, ⟨C.left.arena.push node hs, C.left.scopes⟩))
    (hmake' : make'.run env' C.right
      = (.ok C.right.arena.size, ⟨C.right.arena.push node' hs', C.right.scopes⟩)) :
    Corresponds μ C env env' (CompileM.shared key confirm make)
      (CompileM.shared key' confirm' make') fun C' x y => C'.sets x y := by
  subst hkey hkey'
  intro hc hframe hfaith hfaith'
  have hbound : ∀ a x, C.left.scopes.binding? a p.key = some x →
      C.left.arena.canonical x = p := fun a x =>
    hc.indexed.canonical_of_bound hs hw.key hpath hconfirm hmake hfaith
  have hbound' : ∀ b y, C.right.scopes.binding? b p'.key = some y →
      C.right.arena.canonical y = p' := fun b y =>
    hc.indexed'.canonical_of_bound hs' hw.key' hpath' hconfirm' hmake' hfaith'
  have hrel := hc.lookup_rel hframe.scope hw.paths hbound hbound'
  generalize hl : C.left.scopes.lookup env.frame.scope p.key = hit at hrel
  generalize hl' : C.right.scopes.lookup env'.frame.scope p'.key = hit' at hrel
  cases hrel with
  | @some hit hit' hfound =>
      obtain ⟨a, found⟩ := hit
      obtain ⟨b, found'⟩ := hit'
      have hc₁ := (hconfirm found).2
        (hbound a found (ScopeTree.binding?_of_lookup hl).2)
      have hc₂ := (hconfirm' found').2
        (hbound' b found' (ScopeTree.binding?_of_lookup hl').2)
      rw [run_shared_of_found hl hc₁, run_shared_of_found hl' hc₂]
      exact .ok (.refl hc) hc hfound.2
  | none =>
      have hfree := ScopeTree.lookup_eq_none_iff.1 hl _
        (ScopeTree.mem_ancestors_self _ _)
      have hfree' := ScopeTree.lookup_eq_none_iff.1 hl' _
        (ScopeTree.mem_ancestors_self _ _)
      obtain ⟨hlater, hc'⟩ := hw.made hc hframe hs hs' hpath hpath' hfree hfree'
      rw [run_shared_of_free hl hmake, run_shared_of_free hl' hmake', ← hw.scope,
        ← hw.scope']
      exact .ok hlater hc' (Or.inr ⟨rfl, rfl⟩)

-- =============================================================== paths

/-- The set of all objects of a type. -/
theorem rootSet {t : TypeId} (hspan : μ.Spans span span') :
    Corresponds μ C env env' (CompileM.rootSet t span) (CompileM.rootSet t span')
      fun C' x y => C'.sets x y := by
  refine intro fun _ hframe => ?_
  have hw : Wants μ C env env' (rootNode t env.frame.scope span)
      (rootNode t env'.frame.scope span') (.root t) (.root t) :=
    ⟨⟨rfl, hframe.scope, hspan, .refl _ _, .root rfl rfl,
      fun _ h => absurd rfl h⟩, .root t, rfl, rfl, rfl, rfl⟩
  unfold CompileM.rootSet
  exact shared hw rfl rfl (Origin.source_lt_root _) (Origin.source_lt_root _)
    (canonical_push_root ..) (canonical_push_root ..) (fun _ => Arena.isRootOf_iff)
    (fun _ => Arena.isRootOf_iff) (run_newSet (Origin.source_lt_root _))
    (run_newSet (Origin.source_lt_root _))

/-- One pointer further from sets that correspond. -/
theorem extendPath {name : String} (hxy : C.sets x y)
    (hspan : μ.Spans span span') :
    Corresponds μ C env env' (CompileM.extendPath x name span)
      (CompileM.extendPath y name span') fun C' x y => C'.sets x y := by
  refine intro fun hc hframe => ?_
  obtain ⟨n, m, hn, hm, hnm⟩ := hc.matched x y hxy
  obtain ⟨c, d, hx, hy, htally⟩ := (hc.agree hxy hframe.scope).count
  have hlt := Arena.lt_size_of_get? hn
  have hlt' := Arena.lt_size_of_get? hm
  unfold CompileM.extendPath
  refine read (run_getSet hn) (run_getSet hm) (readSchema (readFrame ?_))
  rw [← hnm.type]
  refine require ?_ fun _ => orFail rfl fun p _ => ?_
  · rw [hframe.clause]
    rfl
  have hw : Wants μ C env env' (stepNode n x name p c env.frame.scope span)
      (stepNode m y name p d env'.frame.scope span')
      (.step (C.left.arena.canonical x) name)
      (.step (C.right.arena.canonical y) name) := by
    refine ⟨⟨rfl, hframe.scope, hspan, htally.mul (.refl _ _),
      .step rfl rfl hxy, fun _ h => absurd rfl h⟩, .step name (hc.paths hxy), ?_, ?_,
      rfl, rfl⟩
    · rw [stepNode, hc.indexed.key_eq x n hn]
      rfl
    · rw [stepNode, hc.indexed'.key_eq y m hm]
      rfl
  refine shared hw ?_ ?_ (Origin.source_lt_step hlt name _)
    (Origin.source_lt_step hlt' name _) (canonical_push_step hn ..)
    (canonical_push_step hm ..)
    (fun _ => Arena.isStepOf_iff) (fun _ => Arena.isStepOf_iff) ?_ ?_
  · rw [hc.indexed.key_eq x n hn]
    rfl
  · rw [hc.indexed'.key_eq y m hm]
    rfl
  · rw [run_bind_ok (run_judge hx)]
    exact run_newSet (Origin.source_lt_step hlt name _)
  · rw [run_bind_ok (run_judge hy)]
    exact run_newSet (Origin.source_lt_step hlt' name _)

variable [NameDigest]

instance (source : SetId) (steps : List Ast.PathStep) :
    Growing (steps.foldlM (fun set step =>
      CompileM.extendPath set step.name step.span) source : CompileM κ _) :=
  .of_composed .extendAll

/-- Some pointers further from sets that correspond. -/
theorem extendAll {steps steps' : List Ast.PathStep} (hxy : C.sets x y)
    (hsteps : List.Forall₂ (Ast.PathStep.Alike μ) steps steps') :
    Corresponds μ C env env'
      (steps.foldlM
        (fun set step => CompileM.extendPath set step.name step.span) x)
      (steps'.foldlM
        (fun set step => CompileM.extendPath set step.name step.span) y)
      fun C' x y => C'.sets x y := by
  induction hsteps generalizing C x y with
  | nil => exact pure hxy
  | cons hstep _ ih =>
      rw [List.foldlM_cons, List.foldlM_cons, ← hstep.name]
      refine bind (extendPath hxy hstep.span) ?_
      exact fun C₁ z w _ hzw => ih hzw

omit [NameDigest] in
/-- Paths start from sets that correspond. -/
theorem pathStart {p p' : Ast.Path} (hp : p.Alike μ p') :
    Corresponds μ C env env' (CompileM.pathStart p) (CompileM.pathStart p')
      fun C' x y => C'.sets x y := by
  obtain ⟨root, steps, span⟩ := p
  obtain ⟨root', steps', span'⟩ := p'
  have hroot := hp.root
  unfold CompileM.pathStart
  cases hroot with
  | none =>
      refine intro fun _ hframe => readFrame ?_
      have hsubject := hframe.subject
      dsimp only
      generalize env.frame.subject = start at hsubject ⊢
      generalize env'.frame.subject = start' at hsubject ⊢
      cases hsubject with
      | none => exact fail rfl
      | some hxy =>
          exact of_run (run_orFail _ _ _ _) (run_orFail _ _ _ _) hxy
  | some href =>
      refine resolve href.name fun item => ?_
      cases item with
      | function name sig => exact fail rfl
      | type id entry => exact require rfl fun _ => rootSet href.span

/-- Paths that are alike lead to sets that correspond. -/
theorem path {p p' : Ast.Path} (hp : p.Alike μ p') :
    Corresponds μ C env env' (CompileM.path p) (CompileM.path p')
      fun C' x y => C'.sets x y := by
  unfold CompileM.path
  exact bind (pathStart hp) fun C₁ x y _ hxy => extendAll hxy hp.steps

end CompileM.Corresponds

end PathQuery
