/-
Paths on the two sides.

Keys matter at paths only. Suppose the keys of the second side never
collide. A path that is shared on the first side is shared on the second
one, with the mate of the set. A path that is not shared on the first
side, because its key is free or taken by another, may well be shared on
the second: then the new set gets the old one for its mate, and keys have
collided on the first side, since otherwise it would have found the path
as well (`shared`).

What a path needs from its store, each side has upheld; so what it leads
to is followed together with what both sides uphold (`extendAll`).
-/
import PathQuery.Proofs.Compile.Syntax
import PathQuery.Proofs.Tandem.Statements

namespace PathQuery

open Ir

variable {κ κ' : Type} [DecidableEq κ] [PathKey κ] [DecidableEq κ'] [PathKey κ']
  [NameDigest]

/-- Keys tell all paths apart. -/
def Distinct (κ : Type) [PathKey κ] : Prop :=
  Function.Injective (CanonicalPath.key : CanonicalPath → κ)

omit [NameDigest] in
theorem Distinct.faithful {κ : Type} [PathKey κ] (h : Distinct κ) (a : Arena κ) :
    a.Faithful :=
  fun _ _ _ _ _ _ _ _ heq => h heq

/-- Where keys tell paths apart, a set that is seen and stands for one
pointer further from another that is seen goes on from that one. -/
theorem Env.Ready.exists_step {R : Regime} {env : Env} {st : Store κ}
    (hr : env.Ready R st) (hl : R.lexical) (hf : st.arena.Faithful) {y z : Nat}
    {u v : TypeId} {name : String} (hy : st.Holds R env.frame.scope y u)
    (hz : st.Holds R env.frame.scope z v)
    (hcan : st.arena.canonical z = .step (st.arena.canonical y) name) :
    ∃ node p, st.arena.get? z = some node
      ∧ node.scope ∈ st.scopes.ancestors env.frame.scope
      ∧ env.schema.findPointer u name = some p ∧ node.type = p.target
      ∧ node.origin = .step y name p.cardinality := by
  obtain ⟨node, hn, -, hseen⟩ := hz
  obtain ⟨source, per, ho, hsource⟩ := Arena.origin_of_canonical_step hn hcan
  obtain ⟨src, p, hsrc, habove, -, hp, hper, htype, -⟩ :=
    (hr.sound.sets z node hn).of_step ho
  have hheld : st.Holds R env.frame.scope source src.type :=
    ⟨src, hsrc, rfl, fun _ =>
      hr.sound.rooted.ancestors_trans (habove hl) (hseen hl)⟩
  obtain rfl := hr.eq_of_canonical_eq hl hf hheld hy hsource
  obtain ⟨node', hn', rfl, -⟩ := hy
  rw [hsrc] at hn'
  cases hn'
  exact ⟨node, p, hn, hseen hl, hp, htype, hper ▸ ho⟩

namespace Tandem

variable {T : Tandem κ κ'} {env : Env} {subject : Option SetId}

/-- What the first side finds has a mate that the second side sees. -/
theorem Ready.exists_mate (hr : T.Ready env subject) (h : T.Mirrored) {key : κ}
    {a found : Nat}
    (hl : T.left.scopes.lookup env.frame.scope key = some (a, found)) :
    ∃ y t, T.mates found y
      ∧ T.right.Holds (.tracking True) env.frame.scope y t := by
  obtain ⟨ha, hb⟩ := ScopeTree.binding?_of_lookup hl
  obtain ⟨y, hxy⟩ := h.bound a key found hb
  obtain ⟨n, m, hn, hm, hnm⟩ := h.mated found y hxy
  obtain ⟨n', hn', rfl, -⟩ := hr.left.sound.binding a key found hb
  rw [hn] at hn'
  cases hn'
  exact ⟨y, m.type, hxy, m, hm, rfl, fun _ =>
    h.rooted'.ancestors_trans hnm.scope (h.ancestors_eq _ ▸ ha)⟩

omit [DecidableEq κ'] [PathKey κ'] [NameDigest] in
/-- Where keys tell the paths of the first side apart, it sees whatever
the second side sees. -/
theorem Mirrored.holds_left (h : T.Mirrored) (hf : T.left.arena.Faithful)
    {R : Regime} {scope y : Nat} {t : TypeId} (hy : T.right.Holds R scope y t) :
    T.left.Holds R scope y t := by
  obtain ⟨m, hm, rfl, hseen⟩ := hy
  obtain ⟨n, hn, heq⟩ := (h.exact hf).1.symm.exists_get? hm
  obtain ⟨-, htype, -, hscope, -, -⟩ := SetNode.mk.injEq .. ▸ heq
  refine ⟨n, hn, htype.symm, fun hl => ?_⟩
  rw [← hscope, ← h.ancestors_eq]
  exact hseen hl

end Tandem

namespace CompileM

-- ============================================================= sharing

omit [PathKey κ] [NameDigest] in
/-- Either a set is found and confirmed, and nothing happens; or a set is
made, and the scope nodes stay what they were but for its binding. -/
theorem run_shared_cases {env : Env} {st : Store κ} {node : SetNode κ} (key : κ)
    (confirm : Arena κ → SetId → Bool) {make : CompileM κ SetId}
    (hrooted : st.scopes.Rooted) (hactive : env.frame.scope < st.scopes.size) {hs}
    (hmake : make.run env st
      = (.ok st.arena.size, ⟨st.arena.push node hs, st.scopes⟩)) :
    (∃ a found, st.scopes.lookup env.frame.scope key = some (a, found)
        ∧ confirm st.arena found = true
        ∧ (shared key confirm make).run env st = (.ok found, st))
      ∨ ∃ scopes, (shared key confirm make).run env st
            = (.ok st.arena.size, ⟨st.arena.push node hs, scopes⟩)
          ∧ st.Extends ⟨st.arena.push node hs, scopes⟩
          ∧ scopes.size = st.scopes.size
          ∧ (∀ id : Nat, scopes.parent? id = st.scopes.parent? id)
          ∧ ∀ (id : Nat) key' z, scopes.binding? id key' = some z →
            st.scopes.binding? id key' = some z ∨ z = st.arena.size := by
  cases hl : st.scopes.lookup env.frame.scope key with
  | none =>
      refine Or.inr ⟨_, run_shared_of_free hl hmake, ?_, ScopeTree.size_bind .., ?_,
        ?_⟩
      · exact ⟨Arena.extends_push _ _ hs, hrooted, hrooted.bind _ _ _,
          Nat.le_of_eq (ScopeTree.size_bind ..).symm,
          fun id _ => ScopeTree.parent?_bind ..⟩
      · exact fun id => ScopeTree.parent?_bind ..
      · intro id key' z hz
        rw [ScopeTree.binding?_bind hactive] at hz
        split at hz
        · cases hz
          exact Or.inr rfl
        · exact Or.inl hz
  | some hit =>
      obtain ⟨a, found⟩ := hit
      cases hc : confirm st.arena found with
      | true => exact Or.inl ⟨a, found, rfl, hc, run_shared_of_found hl hc⟩
      | false =>
          refine Or.inr ⟨st.scopes, ?_, .push hrooted hs, rfl, fun _ => rfl,
            fun _ _ _ => Or.inl⟩
          rw [run_shared_of_taken hl hc, hmake]

namespace Follows

variable {T : Tandem κ κ'} {env : Env} {subject : Option SetId} {x y : SetId}
  {span : Span}

/-- A path that both sides want, `p` on the first and `p'` on the second,
and the sets that they make for it unless it is shared. -/
structure Wants (T : Tandem κ κ') (scope : ScopeId) (node : SetNode κ)
    (node' : SetNode κ') (p p' : CanonicalPath) : Prop where
  mated : T.Mated node node'
  path : ∀ z, p' ≠ .anchor z
  /-- The mate of a set for the path is a set for the path. -/
  mate : ∀ x y, T.mates x y → T.left.arena.canonical x = p →
    T.right.arena.canonical y = p'
  /-- Any set for the path that is seen may be the mate of a new one. -/
  seen : ∀ y t, T.right.Holds (.tracking True) scope y t →
    T.right.arena.canonical y = p' →
    ∃ m, T.right.arena.get? y = some m ∧ T.Mated node m
  exact : T.left.arena.Faithful → p = p' ∧ node.unkeyed = node'.unkeyed

/-- What comes of a path on the first side, shared or not, has what comes
of it on the second for its mate. -/
theorem shared (hκ : Distinct κ') (hr : T.Ready env subject)
    {node : SetNode κ} {node' : SetNode κ'} {p p' : CanonicalPath}
    (hw : Wants T env.frame.scope node node' p p')
    {key : κ} {confirm : Arena κ → SetId → Bool} {make : CompileM κ SetId}
    {key' : κ'} {confirm' : Arena κ' → SetId → Bool} {make' : CompileM κ' SetId}
    (hs hs') (hkey : key' = p'.key)
    (hconfirm : ∀ found, confirm T.left.arena found = true ↔
      T.left.arena.canonical found = p)
    (hconfirm' : ∀ found, confirm' T.right.arena found = true ↔
      T.right.arena.canonical found = p')
    (hmake : make.run env T.left
      = (.ok T.left.arena.size, ⟨T.left.arena.push node hs, T.left.scopes⟩))
    (hmake' : make'.run (env.onSubject subject) T.right
      = (.ok T.right.arena.size, ⟨T.right.arena.push node' hs', T.right.scopes⟩))
    (hagain : T.left.arena.Faithful → ∀ y t,
      T.left.Holds (.tracking True) env.frame.scope y t →
      T.left.arena.canonical y = p →
      (CompileM.shared key confirm make).run env T.left = (.ok y, T.left)) :
    Follows T env subject (CompileM.shared key confirm make)
      (CompileM.shared key' confirm' make') fun T' x y => T'.mates x y := by
  subst hkey
  intro h
  -- what is seen on the second side is shared there
  have hshare : ∀ y t, T.right.Holds (.tracking True) env.frame.scope y t →
      T.right.arena.canonical y = p' →
      (CompileM.shared p'.key confirm' make').run (env.onSubject subject) T.right
        = (.ok y, T.right) := by
    intro y t hy hcan
    exact run_shared_of_holds hr.right trivial (hκ.faithful _) hy hcan hw.path
      ((hconfirm' y).2 hcan)
  rcases run_shared_cases key confirm h.rooted hr.left.active hmake with
    ⟨a, found, hlookup, hfound, hrun⟩
      | ⟨scopes, hrun, hext, hsize, hparent, hbound⟩
  · -- the set that is found has a mate, and that is shared
    obtain ⟨y, t, hxy, hy⟩ := hr.exists_mate h hlookup
    have hcan := hw.mate found y hxy ((hconfirm found).1 hfound)
    rw [hrun, hshare y t hy hcan]
    exact .of_ok (.refl h) h hxy
  -- otherwise a set is made on the first side
  have hself := Arena.get?_push_self T.left.arena node hs
  by_cases hholds : ∃ y t, T.right.Holds (.tracking True) env.frame.scope y t
      ∧ T.right.arena.canonical y = p'
  · obtain ⟨y, t, hy, hcan⟩ := hholds
    obtain ⟨m, hm, hmated⟩ := hw.seen y t hy hcan
    -- the first side would have found what the second one sees
    have hnot : ¬ T.left.arena.Faithful := by
      intro hf
      have hy' := h.holds_left hf hy
      have hcan' : T.left.arena.canonical y = p := by
        rw [(h.exact hf).1.canonical_eq, hcan, (hw.exact hf).1]
      have hagain' := hagain hf y t hy' hcan'
      rw [hrun] at hagain'
      have hnew : T.left.arena.size = y := Except.ok.inj (congrArg Prod.fst hagain')
      exact Nat.lt_irrefl _ (hnew ▸ hy'.lt_size)
    rw [hrun, hshare y t hy hcan]
    have hext' := Store.Extends.refl h.rooted'
    have hlater : T.Later (T.adding _ T.right T.left.arena.size y True) :=
      Tandem.Mirrored.later_adding hext hext'
    refine .of_ok hlater ?_ (Or.inr ⟨trivial, rfl, rfl⟩)
    exact h.adding hext hext' (h.size_eq.trans hsize.symm)
      (fun id => (h.parent?_eq id).trans (hparent id).symm)
      (fun _ => ⟨rfl, node, m, hself, hm, hmated.mono hlater⟩)
      (fun id key' z hz => (hbound id key' z hz).imp_right fun hz => ⟨trivial, hz⟩)
      fun hf _ => absurd (hf.of_extends hext.arena) hnot
  · -- and one on the second side, where none was seen
    have hself' := Arena.get?_push_self T.right.arena node' hs'
    rcases run_shared_cases p'.key confirm' h.rooted' hr.right.active hmake' with
      ⟨a, found, hlookup, hfound, -⟩
        | ⟨scopes', hrun', hext', hsize', hparent', -⟩
    · obtain ⟨ha, hb⟩ := ScopeTree.binding?_of_lookup hlookup
      obtain ⟨m, hm, rfl, -⟩ := hr.right.sound.binding a _ found hb
      exact absurd ⟨found, m.type, ⟨m, hm, rfl, fun _ => ha⟩,
        (hconfirm' found).1 hfound⟩ hholds
    · rw [hrun, hrun']
      have hlater : T.Later (T.adding _ _ T.left.arena.size T.right.arena.size
          True) :=
        Tandem.Mirrored.later_adding hext hext'
      refine .of_ok hlater ?_ (Or.inr ⟨trivial, rfl, rfl⟩)
      exact h.adding hext hext' (hsize'.trans (h.size_eq.trans hsize.symm))
        (fun id => (hparent' id).trans ((h.parent?_eq id).trans (hparent id).symm))
        (fun _ => ⟨rfl, node, node', hself, hself', hw.mated.mono hlater⟩)
        (fun id key' z hz =>
          (hbound id key' z hz).imp_right fun hz => ⟨trivial, hz⟩)
        fun hf hsame => ⟨hsame.push hs hs' (hw.exact (hf.of_extends hext.arena)).2,
          fun _ => hsame.size_eq⟩

-- =============================================================== paths

/-- The set of all objects of a type. -/
theorem rootSet {t : TypeId} (hκ : Distinct κ') (hr : T.Ready env subject) :
    Follows T env subject (CompileM.rootSet t span) (CompileM.rootSet t span)
      fun T' x y => T'.mates x y := by
  refine intro fun h => ?_
  have hw : Wants T env.frame.scope (rootNode t env.frame.scope span)
      (rootNode t env.frame.scope span) (.root t) (.root t) := by
    refine ⟨⟨rfl, ScopeTree.mem_ancestors_self _ _, fun _ => le_refl _,
      .root rfl rfl⟩, fun z hz => (by cases hz), fun x y hxy => h.canonical_root hxy,
      fun y u hy hcan => ?_, fun _ => ⟨rfl, rfl⟩⟩
    obtain ⟨m, hm, -, hseen⟩ := hy
    obtain ⟨ho, htype⟩ := Arena.origin_of_canonical_root hm hcan
    exact ⟨m, hm, htype.symm, hseen trivial, fun _ => Cardinality.le_many _,
      .root rfl ho⟩
  unfold CompileM.rootSet
  refine shared hκ hr hw (Origin.source_lt_root _) (Origin.source_lt_root _) rfl
    (fun found => Arena.isRootOf_iff) (fun found => Arena.isRootOf_iff) ?_ ?_
    fun hf y u hy hcan => ?_
  · exact run_newSet (Origin.source_lt_root _)
  · exact run_newSet (Origin.source_lt_root _)
  · exact run_rootSet_of_holds hr.left trivial hf hy hcan

/-- One pointer further from mates. -/
theorem extendPath {name : String} {t u : TypeId} (hκ : Distinct κ')
    (hr : T.Ready env subject) (hxy : T.mates x y)
    (hx : T.left.Holds (.tracking True) env.frame.scope x t)
    (hy : T.right.Holds (.tracking True) env.frame.scope y u) :
    Follows T env subject (CompileM.extendPath x name span)
      (CompileM.extendPath y name span) fun T' x y => T'.mates x y := by
  refine intro fun h => ?_
  obtain ⟨n, m, c, d, hn, hm, htype, hc, hd, -, hsame⟩ :=
    h.exists_of_agree (h.agree hxy hr.left.active)
  -- a pointer that is followed from both leads to new sets that are mates
  have hw : ∀ p, env.schema.findPointer n.type name = some p →
      Wants T env.frame.scope (stepNode n x name p c env.frame.scope span)
        (stepNode m y name p d env.frame.scope span)
        (.step (T.left.arena.canonical x) name)
        (.step (T.right.arena.canonical y) name) := by
    intro p hp
    refine ⟨⟨rfl, ScopeTree.mem_ancestors_self _ _, fun ho => (by cases ho),
      .step rfl rfl hxy⟩, fun z hz => (by cases hz),
      fun z w hzw => h.canonical_step hzw hxy, fun z v hz hcan => ?_, fun hf => ?_⟩
    · obtain ⟨k, p', hk, hseen, hp', hktype, ho⟩ :=
        hr.right.exists_step trivial (hκ.faithful _) hy hz hcan
      obtain ⟨m', hm', rfl, -⟩ := id hy
      rw [hm] at hm'
      cases hm'
      rw [← htype, show (env.onSubject subject).schema = env.schema from rfl, hp]
        at hp'
      cases hp'
      exact ⟨k, hk, hktype.symm, hseen, fun hno => (by cases hno),
        .step rfl ho hxy⟩
    · obtain ⟨rfl, -, rfl⟩ := hsame hf
      rw [(h.exact hf).1.canonical_eq]
      exact ⟨rfl, rfl⟩
  have hlt := Arena.lt_size_of_get? hn
  have hlt' := Arena.lt_size_of_get? hm
  unfold CompileM.extendPath
  refine read (run_getSet hn) (run_getSet hm) (readSchema (readFrame ?_))
  rw [← htype]
  refine require rfl (fun _ => rfl) fun hobj => ?_
  refine orFail rfl (fun _ => rfl) fun p hp => ?_
  refine shared hκ hr (hw p hp) (Origin.source_lt_step hlt name _)
    (Origin.source_lt_step hlt' name _) ?_ (fun found => Arena.isStepOf_iff)
    (fun found => Arena.isStepOf_iff) ?_ ?_ fun hf z v hz hcan => ?_
  · rw [hr.right.sound.key_eq hm]
    rfl
  · rw [run_bind_ok (run_judge hc)]
    exact run_newSet (Origin.source_lt_step hlt name _)
  · have hjudge : (CompileM.judge y).run (env.onSubject subject) T.right
        = (.ok d, T.right) := run_judge hd
    rw [run_bind_ok hjudge]
    exact run_newSet (Origin.source_lt_step hlt' name _)
  · rw [← run_extendPath hn hobj hp]
    exact run_extendPath_of_holds hr.left trivial hf hx hz hcan

/-- Some pointers further from mates. -/
theorem extendAll {steps : List Ast.PathStep} {t u : TypeId} (hκ : Distinct κ')
    (hr : T.Ready env subject) (hxy : T.mates x y)
    (hx : T.left.Holds (.tracking True) env.frame.scope x t)
    (hy : T.right.Holds (.tracking True) env.frame.scope y u) :
    Follows T env subject
      (steps.foldlM
        (fun set step => CompileM.extendPath set step.name step.span) x)
      (steps.foldlM
        (fun set step => CompileM.extendPath set step.name step.span) y)
      fun T' x y => T'.mates x y := by
  induction steps generalizing T x y t u with
  | nil => exact pure hxy
  | cons step steps ih =>
      rw [List.foldlM_cons, List.foldlM_cons]
      refine bind (upheld hr (Upholds.extendPath hx) (Upholds.extendPath hy)
        (extendPath hκ hr hxy hx hy)) ?_
      intro T₁ z w _ h
      obtain ⟨hzw, hr₁, ⟨p, -, -, hz, -⟩, ⟨p', -, -, hw, -⟩⟩ := h
      exact ih hr₁ hzw hz hw

/-- Paths start from mates. -/
theorem pathStart {p : Ast.Path} (hκ : Distinct κ') (hr : T.Ready env subject) :
    Follows T env subject (CompileM.pathStart p) (CompileM.pathStart p)
      fun T' x y => T'.mates x y := by
  unfold CompileM.pathStart
  cases p.root with
  | none =>
      refine readFrame ?_
      have hmates := hr.mates
      dsimp only
      generalize env.frame.subject = start at hmates ⊢
      cases hmates with
      | none => exact fail rfl fun _ => rfl
      | some hxy =>
          exact of_run (run_orFail _ _ _ _) (run_orFail _ _ _ _) hxy
  | some root =>
      refine resolve fun item _ => ?_
      cases item with
      | function name sig => exact fail rfl fun _ => rfl
      | type id entry =>
          exact require rfl (fun _ => rfl) fun _ => rootSet hκ hr

/-- A path that compiles on both sides leads to mates. -/
theorem path {p : Ast.Path} (hκ : Distinct κ') (hr : T.Ready env subject) :
    Follows T env subject (CompileM.path p) (CompileM.path p)
      fun T' x y => T'.mates x y := by
  unfold CompileM.path
  refine bind (upheld hr Upholds.pathStart Upholds.pathStart
    (pathStart hκ hr)) ?_
  intro T₁ x y _ h
  obtain ⟨hxy, hr₁, ⟨t, hx, -⟩, ⟨u, hy, -⟩⟩ := h
  exact extendAll hκ hr₁ hxy hx hy

end Follows

end CompileM

end PathQuery
