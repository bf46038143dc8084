/-
Paths that a lead has met.

A path is found on both sides, or on neither, or in the lead alone. In
the first two cases all is as it is elsewhere. In the third the left side
makes a set, and must do so in the active node (`Lead.Spares`): then the
set of the lead is adopted for it. The two are sets of one node for one
path, and they go on from sets that correspond, because one set at most
is reached by the path that they go on from (`Store.Reaches`). So they
are of one type and counted alike.
-/
import PathQuery.Proofs.Correspondence.Paths
import PathQuery.Proofs.Lead.Tracks

namespace PathQuery

open Ir

variable {κ : Type} [DecidableEq κ] [PathKey κ] [NameDigest]

namespace Correspondence.Ahead

open CompileM (rootNode stepNode)
open CompileM.Corresponds (Wants)

variable {C : Correspondence κ} {S : Lead κ} {env env' : Env} {node node' : SetNode κ}
  {p p' : CanonicalPath} {z : SetId}

/-- Both sides make a set and bind it. -/
theorem made (h : C.Ahead S) (ht : C.Tied S env env')
    (hw : Wants .plain C.bare env env' node node' p p') (hs hs')
    (hpath : (C.left.arena.push node hs).canonical C.left.arena.size = p)
    (hpath' : (C.right.arena.push node' hs').canonical C.right.arena.size = p')
    (hfree : C.left.scopes.binding? env.frame.scope (p.key : κ) = none)
    (hfree' : C.right.scopes.lookup env'.frame.scope (p'.key : κ) = none) :
    let C' := C.adding (C.left.made node hs p.key) (C.right.made node' hs' p'.key)
      C.left.arena.size C.right.arena.size
    C.Later C' ∧ C'.Ahead S := by
  obtain ⟨hactive, hactive'⟩ := h.active ht.framed.scope
  have hnodes := ht.framed.scope
  have hplace := ht.place
  rw [← hw.scope] at hactive hfree hnodes
  rw [← hw.scope'] at hactive' hfree' hnodes hplace
  have hunbound := ScopeTree.lookup_eq_none_iff.1 hfree' _
    (ScopeTree.mem_ancestors_self _ _)
  have hl := Store.extends_made h.rooted hs (p.key : κ)
  have hr := Store.extends_made h.later.rooted' hs' (p'.key : κ)
  refine ⟨later_adding hl hr, h.adding hl hr (h.indexed.made hs hw.key hpath hactive)
    (h.indexed'.made hs' hw.key' hpath' hactive') h.bare.not_sets_left h.bare.not_sets_right
    ⟨node, node', Arena.get?_push_self _ _ hs, Arena.get?_push_self _ _ hs',
      hw.matched.mono (later_adding hl.bare hr.bare)⟩
    (fun hlt => absurd h.later.arena.size_le (Nat.not_le_of_lt hlt))
    (fun _ _ _ => Store.binding?_made_old hfree hs)
    (fun _ _ _ => Store.binding?_made_old hunbound hs') ?_ ?_ ?_⟩
  · intro a b key z hab hz
    refine (Store.binding?_made hactive hs hz).imp_right fun hnew => ?_
    obtain ⟨rfl, -, rfl⟩ := hnew
    obtain rfl := h.bare.nodes_unique.2 hab hnodes
    exact ⟨rfl, _, Store.binding?_made_self hactive' hs' _⟩
  · intro a b key z hab hz
    refine (Store.binding?_made hactive' hs' hz).imp (fun hold => ?_) fun hnew => ?_
    · obtain ⟨m, hm, -⟩ := h.indexed'.bound b key z hold
      exact ⟨Nat.ne_of_lt (Arena.lt_size_of_get? hm), hold⟩
    · obtain ⟨rfl, -, rfl⟩ := hnew
      obtain rfl := h.bare.nodes_unique.1 hab hnodes
      exact ⟨rfl, _, Store.binding?_made_self hactive hs _⟩
  · -- the path is bound in the node of the lead, or in a node apart
    rcases hplace with hhere | hbelow
    · rw [hhere] at hfree' hactive'
      rw [← hhere]
      exact (hhere ▸ h.unshadowed).bind h.later.rooted' (hhere ▸ hactive') (hhere ▸ hfree')
    · refine h.unshadowed.congr (hr.ancestors_eq (h.active h.node).2) fun a ha key => ?_
      have hle := h.later.rooted'.le_of_mem_ancestors ha
      have hlt : S.node < S.store.scopes.size := S.ready.active
      have hne : a ≠ node'.scope := Nat.ne_of_lt
        (Nat.lt_of_le_of_lt hle (Nat.lt_of_lt_of_le hlt hbelow))
      exact (ScopeTree.binding?_bind hactive' a key).trans
        (if_neg fun heq => hne heq.1)

/-- The set of all objects of a type is the same set in the lead. -/
theorem matched_root (h : C.Ahead S) (ht : C.Tied S env env')
    (hhere : env'.frame.scope = S.node) {m : SetNode κ} {t : TypeId} {span : Span}
    (hm : S.store.arena.get? z = some m) (hscope : m.scope = S.node)
    (hcan : C.right.arena.canonical z = .root t) :
    C.bare.Matched .plain (rootNode t env.frame.scope span) m := by
  have hnodes := ht.framed.scope
  rw [hhere, ← hscope] at hnodes
  rw [h.later.arena.canonical_eq hm] at hcan
  obtain ⟨ho, htype⟩ := Arena.origin_of_canonical_root hm hcan
  cases S.ready.sound.sets z m hm with
  | root _ _ hcard => exact .of_plain htype.symm hnodes hcard.symm (.root rfl ho)
  | step ho' =>
      rw [ho] at ho'
      cases ho'
  | computed ho' =>
      rw [ho] at ho'
      cases ho'

/-- The set of one pointer further is the same set in the lead: it goes on
from the set that the right side goes on from. -/
theorem matched_step (h : C.Ahead S) (ht : C.Tied S env env')
    (hhere : env'.frame.scope = S.node) {x y : SetId} {n m k : SetNode κ} {name : String}
    {p : Pointer} {c : Cardinality} {span : Span} (hxy : C.sets x y)
    (hreach : C.right.Reaches S.node y) (hm : C.right.arena.get? y = some m)
    (htypes : n.type = m.type) (hcount : C.right.judge? env'.frame.scope y = some c)
    (hp : env.schema.findPointer n.type name = some p)
    (hk : S.store.arena.get? z = some k) (hscope : k.scope = S.node)
    (hcan : C.right.arena.canonical z = .step (C.right.arena.canonical y) name) :
    C.bare.Matched .plain (stepNode n x name p c env.frame.scope span) k := by
  have hnodes := ht.framed.scope
  rw [hhere, ← hscope] at hnodes
  rw [hhere] at hcount
  have hext := h.later.arena
  rw [hext.canonical_eq hk] at hcan
  obtain ⟨source, per, ho, hsame⟩ := Arena.origin_of_canonical_step hk hcan
  obtain ⟨src, q, hsrc, hseen, -, hq, hper, htype, hcard⟩ :=
    (S.ready.sound.sets z k hk).of_step ho
  rw [hscope] at hseen hcard
  have hheld : S.store.Holds S.regime S.node source src.type :=
    ⟨src, hsrc, rfl, hseen⟩
  have hsources : source = y := by
    refine (h.reaches hheld).eq hreach ?_
    rw [hext.canonical_eq hsrc, hsame]
  subst hsources
  obtain rfl : src = m := Option.some.inj ((hext _ _ hsrc).symm.trans hm)
  rw [← ht.schema, ht.framed.schema, ← htypes, hp] at hq
  cases hq
  obtain ⟨e, he, hmul⟩ := Option.map_eq_some_iff.1 hcard
  have hjudged := h.later.judge?_eq S.ready.active he
  obtain rfl : c = e := Option.some.inj (hcount.symm.trans hjudged)
  rw [hper] at hmul ho
  exact .of_plain htype.symm hnodes hmul (.step rfl ho hxy)

/-- A set that the left side makes elsewhere, for a path that the lead
binds, crosses the lead. -/
theorem crosses (h : C.Ahead S) (ht : C.Tied S env env')
    (hw : Wants .plain C.bare env env' node node' p p') (hs)
    (hpath : (C.left.arena.push node hs).canonical C.left.arena.size = p)
    (helse : env'.frame.scope ≠ S.node) (hbinds : S.Binds S.node p'.key z)
    (hcan : C.right.arena.canonical z = p') :
    S.store.arena.Crosses S.base S.node (C.left.arena.push node hs) := by
  obtain ⟨m, hm, hscope, hkey⟩ := S.ready.sound.binding _ _ z hbinds.bound
  have hne : node.scope ≠ S.node := by
    intro heq
    have hnodes := ht.framed.scope
    rw [← hw.scope, heq] at hnodes
    exact helse (h.bare.nodes_unique.2 hnodes h.node)
  refine ⟨z, C.left.arena.size, m, node, hbinds.new, h.base_le, hm,
    Arena.get?_push_self _ _ hs, by rw [hkey]; simp, by rw [hw.key]; simp, hscope, hne, ?_⟩
  rw [← h.later.arena.canonical_eq hm, hcan, hpath]
  exact (h.eq_of_paths hw.paths (Arena.lt_size_of_get? hm) hcan).symm

/-- The left side makes a set in the node of the lead, for a path that
the lead has met there. -/
theorem adopted (h : C.Ahead S) (ht : C.Tied S env env')
    (hw : Wants .plain C.bare env env' node node' p p') (hs)
    (hhere : env'.frame.scope = S.node)
    (hpath : (C.left.arena.push node hs).canonical C.left.arena.size = p)
    (hfree : C.left.scopes.binding? env.frame.scope (p.key : κ) = none)
    (hbinds : S.Binds S.node p'.key z) (hnone : ∀ x, ¬ C.sets x z)
    {m : SetNode κ} (hm : C.right.arena.get? z = some m)
    (hmatched : C.bare.Matched .plain node m)
    (hanchor : C.right.arena.canonical z ≠ .anchor z) :
    let C' := C.adding (C.left.made node hs p.key) C.right C.left.arena.size z
    C.Later C' ∧ C'.Ahead S := by
  obtain ⟨hactive, -⟩ := h.active ht.framed.scope
  have hnodes := ht.framed.scope
  rw [← hw.scope] at hactive hfree hnodes
  rw [hhere] at hnodes
  have hbound := h.kept _ _ _ hbinds.bound
  have hl := Store.extends_made h.rooted hs (p.key : κ)
  have hr := Store.Extends.refl h.later.rooted'
  refine ⟨later_adding hl hr, h.adding hl hr (h.indexed.made hs hw.key hpath hactive)
    h.indexed' h.bare.not_sets_left hnone ⟨node, m, Arena.get?_push_self _ _ hs, hm,
      hmatched.mono (later_adding hl.bare hr.bare)⟩ (fun _ => hanchor)
    (fun _ _ _ => Store.binding?_made_old hfree hs) (fun _ _ _ => id) ?_ ?_ h.unshadowed⟩
  · intro a b key w hab hz
    refine (Store.binding?_made hactive hs hz).imp_right fun hnew => ?_
    obtain ⟨rfl, -, rfl⟩ := hnew
    obtain rfl := h.bare.nodes_unique.2 hab hnodes
    exact ⟨rfl, _, hbound⟩
  · intro a b key w hab hz
    by_cases hwz : w = z
    · subst hwz
      obtain ⟨m', hm', hscope, -⟩ := h.indexed'.bound b key w hz
      obtain ⟨m'', hm'', hscope', -⟩ := h.indexed'.bound _ _ w hbound
      rw [hm'] at hm''
      cases hm''
      obtain rfl : b = S.node := hscope.symm.trans hscope'
      obtain rfl := h.bare.nodes_unique.1 hab hnodes
      exact Or.inr ⟨rfl, _, Store.binding?_made_self hactive hs _⟩
    · exact Or.inl ⟨hwz, hz⟩

end Correspondence.Ahead

-- ============================================================= sharing

namespace CompileM.Tracks

open CompileM.Corresponds (Wants)

variable {C : Correspondence κ} {S : Lead κ} {env env' : Env} {node node' : SetNode κ}
  {p p' : CanonicalPath} {x y : SetId} {span : Span}

/-- Sets that correspond, of which the right one is reached from the node
of the lead if that is the active one. -/
def Met (S : Lead κ) (env' : Env) (C : Correspondence κ) (x y : SetId) : Prop :=
  C.sets x y ∧ (env'.frame.scope = S.node → C.right.Reaches S.node y)

/-- Both sides share what they find, or share what they make. What the
lead alone has met is adopted. -/
theorem shared (hw : Wants .plain C.bare env env' node node' p p') {key key' : κ}
    (hkey : key = p.key) (hkey' : key' = p'.key)
    {confirm confirm' : Arena κ → SetId → Bool} {make make' : CompileM κ SetId}
    (hs hs') (hpath : (C.left.arena.push node hs).canonical C.left.arena.size = p)
    (hpath' : (C.right.arena.push node' hs').canonical C.right.arena.size = p')
    (hconfirm : ∀ found, confirm C.left.arena found = true ↔
      C.left.arena.canonical found = p)
    (hconfirm' : ∀ found, confirm' C.right.arena found = true ↔
      C.right.arena.canonical found = p')
    (hmake : make.run env C.left
      = (.ok C.left.arena.size, ⟨C.left.arena.push node hs, C.left.scopes⟩))
    (hmake' : make'.run env' C.right
      = (.ok C.right.arena.size, ⟨C.right.arena.push node' hs', C.right.scopes⟩))
    (hadopt : ∀ z m, env'.frame.scope = S.node → S.store.arena.get? z = some m →
      m.scope = S.node → C.right.arena.canonical z = p' →
        C.bare.Matched .plain node m)
    (hanchor : ∀ z, p' ≠ .anchor z) :
    Tracks S C env env' (CompileM.shared key confirm make)
      (CompileM.shared key' confirm' make') (Met S env') := by
  subst hkey hkey'
  intro hahead htied hspares
  have hbound : ∀ a x, C.left.scopes.binding? a p.key = some x →
      C.left.arena.canonical x = p := fun a x =>
    hahead.indexed.canonical_of_bound hs hw.key hpath hconfirm hmake hspares.faithful
  have hbound' : ∀ b y, C.right.scopes.binding? b p'.key = some y →
      C.right.arena.canonical y = p' := fun b y =>
    hahead.indexed'.canonical_of_bound hs' hw.key' hpath' hconfirm' hmake'
      hspares.faithful'
  rcases hahead.lookup_rel htied.framed.scope hw.paths hbound hbound' with hrel
    | ⟨hl, z, hl', hbinds, hnone⟩
  -- both sides have met the path, or neither has
  · generalize hl : C.left.scopes.lookup env.frame.scope p.key = hit at hrel
    generalize hl' : C.right.scopes.lookup env'.frame.scope p'.key = hit' at hrel
    cases hrel with
    | @some hit hit' hfound =>
        obtain ⟨a, found⟩ := hit
        obtain ⟨b, found'⟩ := hit'
        have hpathl := hbound a found (ScopeTree.binding?_of_lookup hl).2
        have hpathr := hbound' b found' (ScopeTree.binding?_of_lookup hl').2
        rw [run_shared_of_found hl ((hconfirm found).2 hpathl),
          run_shared_of_found hl' ((hconfirm' found').2 hpathr)]
        refine .ok hahead.later_refl hahead ⟨hfound, fun hhere => Or.inr ⟨b, ?_⟩⟩
        rw [hpathr, ← hhere]
        exact hl'
    | none =>
        have hfree := ScopeTree.lookup_eq_none_iff.1 hl _
          (ScopeTree.mem_ancestors_self _ _)
        obtain ⟨hlater, hahead'⟩ :=
          hahead.made htied hw hs hs' hpath hpath' hfree hl'
        rw [run_shared_of_free hl hmake, run_shared_of_free hl' hmake', ← hw.scope,
          ← hw.scope']
        refine .ok hlater hahead' ⟨Or.inr ⟨rfl, rfl⟩, fun hhere => Or.inr ⟨S.node, ?_⟩⟩
        have hactive' := (hahead.active htied.framed.scope).2
        rw [← hw.scope'] at hactive' hhere
        have hself := Store.binding?_made_self hactive' hs' (p'.key : κ)
        show (C.right.made node' hs' p'.key).scopes.lookup S.node
          ((C.right.arena.push node' hs').canonical C.right.arena.size).key = _
        rw [hpath']
        rw [hhere] at hself
        exact hahead'.unshadowed.lookup_eq (ScopeTree.mem_ancestors_self _ _) hself
  -- the lead alone has met it
  · have hfree := ScopeTree.lookup_eq_none_iff.1 hl _ (ScopeTree.mem_ancestors_self _ _)
    have hpathz := hbound' S.node z (ScopeTree.binding?_of_lookup hl').2
    by_cases hhere : env'.frame.scope = S.node
    · obtain ⟨m, hm, hscope, -⟩ := S.ready.sound.binding _ _ z hbinds.bound
      have hmright := hahead.later.arena z m hm
      obtain ⟨hlater, hahead'⟩ := hahead.adopted htied hw hs hhere hpath hfree hbinds
        hnone hmright (hadopt z m hhere hm hscope hpathz) (hpathz ▸ hanchor z)
      rw [run_shared_of_free hl hmake, run_shared_of_found hl' ((hconfirm' z).2 hpathz),
        ← hw.scope]
      refine .ok hlater hahead' ⟨Or.inr ⟨rfl, rfl⟩, fun _ => Or.inr ⟨S.node, ?_⟩⟩
      show C.right.scopes.lookup S.node (C.right.arena.canonical z).key = _
      rw [hhere] at hl'
      rw [hpathz]
      exact hl'
    · -- the left side would meet below what the lead binds
      refine absurd ?_ hspares.apart
      rw [run_shared_of_free hl hmake]
      exact hahead.crosses htied hw hs hpath hhere hbinds hpathz

-- =============================================================== paths

/-- The set of all objects of a type. -/
theorem rootSet {t : TypeId} :
    Tracks S C env env' (CompileM.rootSet t span) (CompileM.rootSet t span)
      (Met S env') := by
  refine intro fun hahead htied => ?_
  have hw : Wants .plain C.bare env env' (rootNode t env.frame.scope span)
      (rootNode t env'.frame.scope span) (.root t) (.root t) :=
    ⟨.of_plain rfl htied.framed.scope rfl (.root rfl rfl), .root t, rfl, rfl, rfl, rfl⟩
  unfold CompileM.rootSet
  refine shared hw rfl rfl (Origin.source_lt_root _) (Origin.source_lt_root _)
    (canonical_push_root ..) (canonical_push_root ..) (fun _ => Arena.isRootOf_iff)
    (fun _ => Arena.isRootOf_iff) (run_newSet (Origin.source_lt_root _))
    (run_newSet (Origin.source_lt_root _))
    (fun _ _ hhere => hahead.matched_root htied hhere) fun z h => by cases h

/-- One pointer further from sets that correspond. -/
theorem extendPath {name : String} (hxy : Met S env' C x y) :
    Tracks S C env env' (CompileM.extendPath x name span)
      (CompileM.extendPath y name span) (Met S env') := by
  refine intro fun hahead htied => ?_
  obtain ⟨hsets, hreach⟩ := hxy
  obtain ⟨n, m, hn, hm, hnm⟩ := hahead.exists_get? hsets
  obtain ⟨c, hx, hy⟩ := (hahead.agree htied.framed.scope hsets).exists_judge?
  have hlt := Arena.lt_size_of_get? hn
  have hlt' := Arena.lt_size_of_get? hm
  unfold CompileM.extendPath
  refine read (run_getSet hn) (run_getSet hm)
    (read run_schema run_schema (read run_frame run_frame ?_))
  rw [← hnm.type, htied.framed.schema]
  refine require fun hobj => orFail fun p hp => ?_
  have hw : Wants .plain C.bare env env' (stepNode n x name p c env.frame.scope span)
      (stepNode m y name p c env'.frame.scope span)
      (.step (C.left.arena.canonical x) name)
      (.step (C.right.arena.canonical y) name) := by
    refine ⟨.of_plain rfl htied.framed.scope rfl (.step rfl rfl hsets),
      .step name (hahead.bare.paths hsets), ?_, ?_, rfl, rfl⟩
    · rw [stepNode, hahead.indexed.key_eq x n hn]
      rfl
    · rw [stepNode, hahead.indexed'.key_eq y m hm]
      rfl
  refine shared hw ?_ ?_ (Origin.source_lt_step hlt name _)
    (Origin.source_lt_step hlt' name _) (canonical_push_step hn ..)
    (canonical_push_step hm ..)
    (fun _ => Arena.isStepOf_iff) (fun _ => Arena.isStepOf_iff) ?_ ?_
    (fun _ _ hhere => hahead.matched_step htied hhere hsets (hreach hhere) hm hnm.type hy hp)
    fun z h => by cases h
  · rw [hahead.indexed.key_eq x n hn]
    rfl
  · rw [hahead.indexed'.key_eq y m hm]
    rfl
  · rw [run_bind_ok (run_judge hx)]
    exact run_newSet (Origin.source_lt_step hlt name _)
  · rw [run_bind_ok (run_judge hy)]
    exact run_newSet (Origin.source_lt_step hlt' name _)

instance (source : SetId) (steps : List Ast.PathStep) :
    Growing (steps.foldlM (fun set step =>
      CompileM.extendPath set step.name step.span) source : CompileM κ _) :=
  .of_composed .extendAll

/-- Some pointers further from sets that correspond. -/
theorem extendAll {steps : List Ast.PathStep} (hxy : Met S env' C x y) :
    Tracks S C env env'
      (steps.foldlM
        (fun set step => CompileM.extendPath set step.name step.span) x)
      (steps.foldlM
        (fun set step => CompileM.extendPath set step.name step.span) y)
      (Met S env') := by
  induction steps generalizing C x y with
  | nil => exact pure hxy
  | cons step steps ih =>
      rw [List.foldlM_cons, List.foldlM_cons]
      exact bind (extendPath hxy) fun C₁ z w _ hzw => ih hzw

/-- Paths start from sets that correspond. -/
theorem pathStart {p : Ast.Path} :
    Tracks S C env env' (CompileM.pathStart p) (CompileM.pathStart p)
      (Met S env') := by
  obtain ⟨root, steps, span⟩ := p
  unfold CompileM.pathStart
  cases root with
  | none =>
      refine intro fun hahead htied => read run_frame run_frame ?_
      have hsubject := htied.framed.subject
      dsimp only
      cases hx : env.frame.subject with
      | none =>
          cases hy : env'.frame.subject with
          | none => exact fail
          | some y =>
              rw [hx, hy] at hsubject
              cases hsubject
      | some x =>
          cases hy : env'.frame.subject with
          | none =>
              rw [hx, hy] at hsubject
              cases hsubject
          | some y =>
              rw [hx, hy] at hsubject
              cases hsubject with
              | some hxy =>
                  refine of_run (run_orFail _ _ _ _) (run_orFail _ _ _ _)
                    ⟨hxy, fun hhere => ?_⟩
                  -- in the node of the lead, the subject is that of the operand
                  obtain ⟨t, ht⟩ := S.ready.subject y ((htied.subject hhere).symm.trans hy)
                  exact hahead.reaches ht
  | some ref =>
      refine resolve fun item => ?_
      cases item with
      | function name sig => exact fail
      | type id entry => exact require fun _ => rootSet

/-- Paths lead to sets that correspond. -/
theorem path {p : Ast.Path} :
    Tracks S C env env' (CompileM.path p) (CompileM.path p) (Met S env') := by
  unfold CompileM.path
  exact bind pathStart fun C₁ x y _ hxy => extendAll hxy

end CompileM.Tracks

end PathQuery
