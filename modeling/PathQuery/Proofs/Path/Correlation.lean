/-
A path that was met is met again.

Where keys tell paths apart, a path has at most one set among those seen
from the active node (`eq_of_canonical_eq`), and it is found by its key
(`run_shared_of_holds`). If a set is seen, then so is one for each
stretch of its path (`exists_stretch`): a pointer goes on from a set that
is seen where it lives. So compiling a path for which some set is seen
finds one set after the other, ends with that very set, and leaves the
store alone (`run_path_of_holds`).

What is seen from a node is seen from below and for good, whatever is
compiled meanwhile and whether it fails; that is how paths correlate
over a whole session (`path_correlates`). Paths that meet within one
step do so as well: whichever part of compiling makes a set for a path,
there is no earlier one in the node of the set or above.
-/
import Mathlib.Data.List.Induction
import PathQuery.Proofs.Session.Reachable

namespace PathQuery

open Ir

section

variable {κ : Type} [DecidableEq κ] [PathKey κ] [NameDigest]

-- ============================================================== stores

namespace Store.Sound

variable {R : Regime} {s : Schema} {st : Store κ} {scope id : Nat} {t : TypeId}
  {node : SetNode κ}

/-- A set that is no anchor has the key of its path. -/
theorem key_of_canonical (hst : st.Sound R s)
    (hn : st.arena.get? id = some node)
    (hp : ∀ z, st.arena.canonical id ≠ .anchor z) :
    node.key = some (st.arena.canonical id).key := by
  cases hk : node.key with
  | none =>
      obtain ⟨op, ho⟩ := (hst.sets id node hn).exists_op hk
      refine absurd ?_ (hp id)
      rw [Arena.canonical_eq hn, ho]
  | some key => rw [hst.key_of_path hn hk]

/-- Each stretch of the path of a set that is seen has a set that is
seen. -/
theorem exists_stretch (hst : st.Sound R s) (hl : R.lexical) {p : CanonicalPath}
    {names : List String} (hid : st.Holds R scope id t)
    (hc : st.arena.canonical id = p.follow names) :
    ∃ mid u, st.Holds R scope mid u ∧ st.arena.canonical mid = p := by
  induction names using List.reverseRecOn generalizing id t with
  | nil => exact ⟨id, t, hid, hc⟩
  | append_singleton names name ih =>
      obtain ⟨node, hn, -, hseen⟩ := hid
      unfold CanonicalPath.follow at hc
      rw [List.foldl_append] at hc
      obtain ⟨source, src, -, -, hsrc, hsource, habove, -, -, -⟩ :=
        hst.step_cases hn hc
      exact ih
        ⟨src, hsrc, rfl,
          fun _ => hst.rooted.ancestors_trans (habove hl) (hseen hl)⟩ hsource

end Store.Sound

-- ========================================================= the one set

namespace Env.Ready

variable {R : Regime} {env : Env} {st : Store κ} {x y : Nat} {t u : TypeId}

/-- A path set that is seen is found by the key of its path. -/
theorem lookup_of_holds (hr : env.Ready R st) (hl : R.lexical)
    (hf : st.arena.Faithful) (hx : st.Holds R env.frame.scope x t)
    (hp : ∀ z, st.arena.canonical x ≠ .anchor z) :
    ∃ n, st.scopes.lookup env.frame.scope (st.arena.canonical x).key
      = some (n, x) := by
  obtain ⟨node, hn, -, hseen⟩ := hx
  have hkey := hr.sound.key_of_canonical hn hp
  exact ⟨node.scope,
    hr.unshadowed.lookup_eq (hseen hl) (hr.sound.bound hf x node _ hn hkey)⟩

/-- Among the sets that are seen, one stands for a path. -/
theorem eq_of_canonical_eq (hr : env.Ready R st) (hl : R.lexical)
    (hf : st.arena.Faithful) (hx : st.Holds R env.frame.scope x t)
    (hy : st.Holds R env.frame.scope y u)
    (heq : st.arena.canonical x = st.arena.canonical y) : x = y := by
  by_cases hp : ∀ z, st.arena.canonical x ≠ .anchor z
  · obtain ⟨n, hn⟩ := hr.lookup_of_holds hl hf hx hp
    obtain ⟨m, hm⟩ := hr.lookup_of_holds hl hf hy (heq ▸ hp)
    rw [heq, hm] at hn
    cases hn
    rfl
  · simp only [ne_eq, not_forall, not_not] at hp
    obtain ⟨z, hz⟩ := hp
    have hxz := Arena.eq_of_canonical_anchor hz
    rw [heq] at hz
    exact hxz.trans (Arena.eq_of_canonical_anchor hz).symm

end Env.Ready

-- =============================================================== again

namespace CompileM

variable {R : Regime} {env : Env} {st : Store κ} {id : Nat} {t : TypeId}

/-- What stands for the wanted path is shared. -/
theorem run_shared_of_holds (hr : env.Ready R st) (hl : R.lexical)
    (hf : st.arena.Faithful) {p : CanonicalPath}
    {confirm : Arena κ → SetId → Bool} {make : CompileM κ SetId}
    (hid : st.Holds R env.frame.scope id t) (hp : st.arena.canonical id = p)
    (hanchor : ∀ z, p ≠ .anchor z) (hconfirm : confirm st.arena id = true) :
    (shared p.key confirm make).run env st = (.ok id, st) := by
  subst hp
  obtain ⟨n, hn⟩ := hr.lookup_of_holds hl hf hid hanchor
  exact run_shared_of_found hn hconfirm

theorem run_rootSet_of_holds (hr : env.Ready R st) (hl : R.lexical)
    (hf : st.arena.Faithful) {type : TypeId} {span : Span}
    (hid : st.Holds R env.frame.scope id t)
    (hp : st.arena.canonical id = .root type) :
    (rootSet type span).run env st = (.ok id, st) := by
  have hconfirm := Arena.isRootOf_iff.2 hp
  unfold rootSet
  refine run_shared_of_holds (p := .root type) hr hl hf hid hp ?_ hconfirm
  intro z h
  cases h

theorem run_extendPath_of_holds (hr : env.Ready R st) (hl : R.lexical)
    (hf : st.arena.Faithful) {source : Nat} {u : TypeId} {name : String}
    {span : Span} (hsource : st.Holds R env.frame.scope source u)
    (hid : st.Holds R env.frame.scope id t)
    (hp : st.arena.canonical id = .step (st.arena.canonical source) name) :
    (extendPath source name span).run env st = (.ok id, st) := by
  obtain ⟨src, hsrc, rfl, -⟩ := hsource
  obtain ⟨node, hn⟩ := hid.exists_get?
  -- the set that is there goes on from a set for the same path, whose
  -- type is therefore the same
  obtain ⟨other, o, p, -, ho, hother, -, hobj, hptr, -⟩ :=
    hr.sound.step_cases hn hp
  rw [hr.sound.type_eq ho hsrc hother] at hobj hptr
  rw [run_extendPath hsrc hobj hptr, hr.sound.key_eq hsrc]
  have hconfirm := Arena.isStepOf_iff.2 hp
  refine run_shared_of_holds (p := .step (st.arena.canonical source) name) hr hl
    hf hid hp ?_ hconfirm
  intro z h
  cases h

theorem run_extendAll_of_holds (hr : env.Ready R st) (hl : R.lexical)
    (hf : st.arena.Faithful) {source : Nat} {u : TypeId}
    {steps : List Ast.PathStep} (hsource : st.Holds R env.frame.scope source u)
    (hid : st.Holds R env.frame.scope id t)
    (hp : st.arena.canonical id
      = (st.arena.canonical source).follow (steps.map Ast.PathStep.name)) :
    (steps.foldlM (fun set step => extendPath set step.name step.span)
      source).run env st
      = (.ok id, st) := by
  induction steps generalizing source u with
  | nil =>
      obtain rfl := hr.eq_of_canonical_eq hl hf hid hsource hp
      rfl
  | cons step steps ih =>
      rw [List.map_cons, CanonicalPath.follow_cons] at hp
      obtain ⟨mid, v, hmid, hcan⟩ := hr.sound.exists_stretch hl hid hp
      rw [List.foldlM_cons,
        run_bind_ok (run_extendPath_of_holds hr hl hf hsource hmid hcan)]
      exact ih hmid (by rw [hcan, hp])

/-- A path for which a set is seen is that set, and nothing happens. -/
theorem run_path_of_holds (hr : env.Ready R st) (hl : R.lexical)
    (hf : st.arena.Faithful) {p : Ast.Path}
    (hid : st.Holds R env.frame.scope id t)
    (hp : env.denotes? st.arena p = some (st.arena.canonical id)) :
    (path p).run env st = (.ok id, st) := by
  unfold Env.denotes? at hp
  obtain ⟨start, hstart, hp⟩ := Option.map_eq_some_iff.1 hp
  obtain ⟨source, u, hsource, hcan, hrun⟩ : ∃ source u,
      st.Holds R env.frame.scope source u
      ∧ st.arena.canonical source = start
      ∧ (pathStart p).run env st = (.ok source, st) := by
    rcases Env.start?_cases hstart with ⟨subject, hroot, hsubject, rfl⟩
      | ⟨root, type, entry, hroot, hresolve, hobj, rfl⟩
    · obtain ⟨u, hu⟩ := hr.subject subject hsubject
      exact ⟨subject, u, hu, rfl, run_pathStart_of_subject hroot hsubject⟩
    · obtain ⟨source, u, hsource, hcan⟩ :=
        hr.sound.exists_stretch hl hid hp.symm
      refine ⟨source, u, hsource, hcan, ?_⟩
      rw [run_pathStart_of_root hroot hresolve hobj]
      exact run_rootSet_of_holds hr hl hf hsource hcan
  unfold path
  rw [run_bind_ok hrun]
  refine run_extendAll_of_holds hr hl hf hsource hid ?_
  rw [hcan]
  exact hp.symm

end CompileM

-- ============================================================ sessions

namespace Session

/-- What the set `id` of the path `p₁`, compiled in `s₁`, is to a later
session `s₂`. -/
structure Correlates (s₁ : Session κ) (p₁ : Ast.Path) (id : SetId)
    (s₂ : Session κ) : Prop where
  /-- It belongs to the node that was active or to one above. -/
  seen : ∃ node, s₂.store.arena.get? id = some node
    ∧ node.scope ∈ s₂.store.scopes.ancestors s₁.frame.scope
  /-- In that node and below, each path for the same canonical path is
  that set, and nothing is made for it. -/
  again : s₂.store.arena.Faithful → ∀ p₂ : Ast.Path,
    s₁.frame.scope ∈ s₂.store.scopes.ancestors s₂.frame.scope →
    s₂.env.denotes? s₂.store.arena p₂ = s₁.env.denotes? s₁.store.arena p₁ →
    s₂.step (CompileM.path p₂) = (.ok id, s₂)
  /-- Of two nodes neither of which is above the other, neither binds a
  set that paths share across them. -/
  apart : ∀ p₂ : Ast.Path, (s₂.step (CompileM.path p₂)).1 = .ok id →
    s₁.frame.scope ∉ s₂.store.scopes.ancestors s₂.frame.scope →
    s₂.frame.scope ∉ s₂.store.scopes.ancestors s₁.frame.scope →
    ∀ key,
      (s₂.step (CompileM.path p₂)).2.store.scopes.binding? s₁.frame.scope key
        ≠ some id
      ∧ (s₂.step (CompileM.path p₂)).2.store.scopes.binding? s₂.frame.scope key
        ≠ some id
  /-- By whatever part of a compilation, no set was ever made for a path
  for which there was one in the node or above. -/
  first : s₂.store.arena.Faithful → ∀ (x y : Nat) n m,
    s₂.store.arena.get? x = some n → s₂.store.arena.get? y = some m →
    n.key ≠ none →
    s₂.store.arena.canonical x = s₂.store.arena.canonical y →
    n.scope ∈ s₂.store.scopes.ancestors m.scope → ¬ x < y

/-- A binding of a node is a set of that node. -/
theorem Ready.scope_of_binding? {R : Regime} {s : Session κ} (h : s.Ready R)
    {n id : Nat} {key : κ} {node : SetNode κ}
    (hb : s.store.scopes.binding? n key = some id)
    (hn : s.store.arena.get? id = some node) : node.scope = n := by
  obtain ⟨m, hm, hscope, -⟩ := h.active.sound.binding n key id hb
  rw [hn] at hm
  cases hm
  exact hscope

/-- What compiling a path gives. -/
theorem Ready.path {R : Regime} {s : Session κ} (h : s.Ready R) {p : Ast.Path}
    {id : SetId} (hid : (s.step (CompileM.path p)).1 = .ok id) :
    ∃ t, (s.step (CompileM.path p)).2.store.Holds R s.frame.scope id t
      ∧ s.env.denotes? s.store.arena p
        = some ((s.step (CompileM.path p)).2.store.arena.canonical id) := by
  have hout := CompileM.Upholds.path (p := p) h.active
  obtain ⟨t, ht, hp⟩ := hout.value id hid
  have hext := hout.extends h.active
  have hsame := CompileM.Upholds.denotes?_mono hext h.active p
  exact ⟨t, ht, hsame.symm.trans hp⟩

/-- Paths correlate over a whole session. -/
theorem path_correlates {s₁ s₂ : Session κ} {p₁ : Ast.Path} {id : SetId}
    (h₁ : Reachable True s₁) (hid : (s₁.step (CompileM.path p₁)).1 = .ok id)
    (h₂ : Steps True (s₁.step (CompileM.path p₁)).2 s₂) :
    s₁.Correlates p₁ id s₂ := by
  obtain ⟨t, ht, hp₁⟩ := h₁.ready.path hid
  obtain ⟨hready, hext⟩ := (h₁.ready.step CompileM.Upholds.path).1.steps h₂
  have hholds := ht.mono hext
  obtain ⟨node₁, hn₁, -, hseen₁⟩ := ht
  have hn := hext.arena id node₁ hn₁
  have hseen := hext.mem_ancestors (hseen₁ trivial)
  refine ⟨⟨node₁, hn, hseen⟩, fun hf p₂ habove hsame => ?_,
    fun p₂ hid₂ hnot hnot' key => ?_, fun hf x y n m hx hy hk heq hin => ?_⟩
  · have hrooted := hready.active.sound.rooted
    have hp₂ : s₂.env.denotes? s₂.store.arena p₂
        = some (s₂.store.arena.canonical id) := by
      rw [hsame, hp₁, hext.arena.canonical_eq hn₁]
    have hrun := CompileM.run_path_of_holds hready.active trivial hf
      (hholds.below hrooted habove) hp₂
    unfold step
    rw [hrun]
  · obtain ⟨hready', hext'⟩ := hready.step (CompileM.Upholds.path (p := p₂))
    obtain ⟨t₂, ⟨node₂, hn₂, -, hseen₂⟩, -⟩ := hready.path hid₂
    have hactive : s₂.frame.scope < s₂.store.scopes.size := hready.active.active
    have hseen₂ := hseen₂ trivial
    rw [hext'.ancestors_eq hactive] at hseen₂
    cases (hext'.arena id node₁ hn).symm.trans hn₂
    refine ⟨fun hb => hnot ?_, fun hb => hnot' ?_⟩
    · exact hready'.scope_of_binding? hb hn₂ ▸ hseen₂
    · exact hready'.scope_of_binding? hb hn₂ ▸ hseen
  · exact Nat.not_lt_of_le
      (hready.active.sound.first hf x y n m hx hy hk heq hin)

end Session

end

open scoped Xxh64

theorem path_correlates_friends :
    beforeFriends.Correlates friends 1 afterFriends
      ∧ afterFriends.step (CompileM.path friends) = (.ok 1, afterFriends) := by
  have h : beforeFriends.Correlates friends 1 afterFriends :=
    Session.path_correlates (reachable_beforeFriends True) (by decide +kernel)
      (steps_afterFriends True)
  refine ⟨h, h.again (Arena.faithful_of_forall_lt ?_) friends ?_ ?_⟩
  · decide +kernel
  · decide +kernel
  · decide +kernel

end PathQuery
