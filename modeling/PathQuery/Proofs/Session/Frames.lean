/-
Compiling leaves the frames alone, and adds to the store.

A part that is compiled under another frame is compiled in a session in
which that frame was entered, and the session is then restored to the
depth it had before (`Session.guard`). Restoring drops whatever frames
are there above that depth, so it does not matter how the part ended.
Handing the frame down, as the compiler does, comes to the same
(`step_underFrame`, `step_inScope`), and so it does with guards inside
guards, whichever of them a failure leaves through (`Runs.step_eq`).

The store is another matter: what a part has added stays when the part
fails. What may have been added is what a composed step may add: sets,
scope nodes below the active one, and bindings in the active node and in
those new nodes. This is so in every session and for everything that the
compiler is called for (`Session.call_keeps`).
-/
import PathQuery.Proofs.Compile.Composed
import PathQuery.Session

namespace PathQuery

variable {κ α β : Type}

namespace Session

-- ============================================================== guards

/-- Drop the frames that were entered since the session was this deep. -/
def restore (s : Session κ) (depth : Nat) : Session κ :=
  if depth < s.depth then
    match s.outer.drop (s.depth - (depth + 1)) with
    | [] => s
    | frame :: outer => { s with frame, outer }
  else s

/-- However many frames were entered since, the one that was active at a
depth is active again. -/
theorem restore_of_outer (s : Session κ) (above : List Frame) (frame : Frame)
    (outer : List Frame) (h : s.outer = above ++ frame :: outer) :
    s.restore outer.length = { s with frame, outer } := by
  have hdepth : s.depth = above.length + (outer.length + 1) := by
    unfold depth
    rw [h, List.length_append, List.length_cons]
  unfold restore
  rw [if_pos (by omega), hdepth, Nat.add_sub_cancel, h, List.drop_left]

/-- Restoring to the depth that a session had gives it its frames back. -/
theorem restore_depth (s s' : Session κ)
    (h : s'.outer = s.frame :: s.outer) :
    s'.restore s.depth = { s' with frame := s.frame, outer := s.outer } :=
  restore_of_outer s' [] s.frame s.outer h

/-- Compile a part in a frame that is entered for it, and restore the
session, whether the part fails or not. -/
def guard (s : Session κ) (into : Session κ → Session κ) (m : CompileM κ α) :
    Except CompileError α × Session κ :=
  let (result, s') := (into s).step m
  (result, s'.restore s.depth)

/-- A frame that is handed down in the active node. -/
theorem step_underFrame (s : Session κ) (change : Frame → Frame)
    (m : CompileM κ α) :
    s.step (CompileM.underFrame change m)
      = s.guard (fun s => s.enter.alter change) m := by
  have hrestore := restore_depth s ((s.enter.alter change).step m).2 rfl
  exact Prod.ext rfl hrestore.symm

/-- A frame that is handed down with a node of its own. -/
theorem step_inScope (s : Session κ) (m : CompileM κ α) :
    s.step (CompileM.inScope m) = s.guard enterScope m := by
  have hrestore := restore_depth s (s.enterScope.step m).2 rfl
  exact Prod.ext rfl hrestore.symm

/-- Two steps fail with the first one, or the session goes on from it with
the second. -/
theorem step_bind_cases (s : Session κ) (m : CompileM κ α)
    (f : α → CompileM κ β) :
    (∃ e s', s.step m = (.error e, s') ∧ s.step (m >>= f) = (.error e, s'))
      ∨ ∃ a s', s.step m = (.ok a, s') ∧ s.step (m >>= f) = s'.step (f a) := by
  unfold step
  rcases CompileM.run_bind_cases m f s.env s.store with ⟨e, st', hm, hrun⟩
    | ⟨a, st', hm, hrun⟩
  · rw [hm, hrun]
    exact Or.inl ⟨_, _, rfl, rfl⟩
  · rw [hm, hrun]
    exact Or.inr ⟨_, _, rfl, rfl⟩

-- ================================================================ runs

section Runs

variable [DecidableEq κ]

/-- How a composed step goes where frames are kept by the session: a part
in a frame of its own goes from where that frame was entered, and the
session is restored whatever the part came to. A failure is handed on. -/
inductive Runs : Session κ → {α : Type} → CompileM κ α →
    Except CompileError α → Session κ → Prop where
  | own {s : Session κ} {α : Type} {m : CompileM κ α}
      (h : s.store.Adds s.frame.scope (m.run s.env s.store).2) :
      Runs s m (s.step m).1 (s.step m).2
  | subquery {s : Session κ} (stmt : Ir.Statement) :
      Runs s (CompileM.subquery stmt) (s.step (CompileM.subquery stmt)).1
        (s.step (CompileM.subquery stmt)).2
  | failed {s s' : Session κ} {α β : Type} {m : CompileM κ α}
      {f : α → CompileM κ β} {e : CompileError}
      (hm : Runs s m (.error e) s') : Runs s (m >>= f) (.error e) s'
  | bind {s s' s'' : Session κ} {α β : Type} {m : CompileM κ α}
      {f : α → CompileM κ β} {a : α} {out : Except CompileError β}
      (hm : Runs s m (.ok a) s') (hf : Runs s' (f a) out s'') :
      Runs s (m >>= f) out s''
  | underFrame {s s' : Session κ} {α : Type} {m : CompileM κ α}
      {out : Except CompileError α} {change : Frame → Frame}
      (hm : Runs (s.enter.alter change) m out s') :
      Runs s (CompileM.underFrame change m) out (s'.restore s.depth)
  | inScope {s s' : Session κ} {α : Type} {m : CompileM κ α}
      {out : Except CompileError α} (hm : Runs s.enterScope m out s') :
      Runs s (CompileM.inScope m) out (s'.restore s.depth)

namespace Runs

variable {s s' : Session κ} {m : CompileM κ α} {out : Except CompileError α}

/-- If the first of two steps runs, and the second one wherever the first
one ends, then the two run. -/
theorem of_bind {f : α → CompileM κ β} (s : Session κ)
    (hm : s.Runs m (s.step m).1 (s.step m).2)
    (hf : ∀ a s', s.step m = (.ok a, s') →
      s'.Runs (f a) (s'.step (f a)).1 (s'.step (f a)).2) :
    s.Runs (m >>= f) (s.step (m >>= f)).1 (s.step (m >>= f)).2 := by
  rcases step_bind_cases s m f with ⟨e, s', hfail, hstep⟩
    | ⟨a, s', hok, hstep⟩
  · rw [hfail] at hm
    rw [hstep]
    exact .failed hm
  · rw [hok] at hm
    rw [hstep]
    exact .bind hm (hf a s' hok)

/-- The frames that a run leaves are those that it found. -/
theorem frames (h : s.Runs m out s') :
    s'.schema = s.schema ∧ s'.frame = s.frame ∧ s'.outer = s.outer := by
  induction h with
  | own _ => exact ⟨rfl, rfl, rfl⟩
  | subquery _ => exact ⟨rfl, rfl, rfl⟩
  | failed _ ih => exact ih
  | bind _ _ ihm ihf =>
      exact ⟨ihf.1.trans ihm.1, ihf.2.1.trans ihm.2.1, ihf.2.2.trans ihm.2.2⟩
  -- a part has put the frames back that were there when its own was entered
  | underFrame _ ih | inScope _ ih =>
      obtain ⟨hschema, -, houter⟩ := ih
      rw [restore_depth _ _ houter]
      exact ⟨hschema, rfl, rfl⟩

/-- A run comes to what the step comes to. -/
theorem step_eq (h : s.Runs m out s') : s.step m = (out, s') := by
  induction h with
  | own _ => rfl
  | subquery _ => rfl
  | @failed s _ _ _ m f _ _ ih =>
      rcases step_bind_cases s m f with ⟨e, s', hm, hstep⟩ | ⟨a, s', hm, -⟩
      · cases hm.symm.trans ih
        exact hstep
      · cases hm.symm.trans ih
  | @bind s _ _ _ _ m f _ _ _ _ ihm ihf =>
      rcases step_bind_cases s m f with ⟨e, s', hm, -⟩ | ⟨a, s', hm, hstep⟩
      · cases hm.symm.trans ihm
      · cases hm.symm.trans ihm
        exact hstep.trans ihf
  | underFrame _ ih =>
      rw [step_underFrame, guard, ih]
  | inScope _ ih =>
      rw [step_inScope, guard, ih]

end Runs

end Runs

-- =============================================================== calls

/-- What the compiler is called for, by what it returns. -/
inductive Call : Type → Type where
  | expr (e : Ast.Expr) : Call Ir.Value
  | select (q : Ast.Select) : Call Ir.Statement
  | filterClause (f : Option Ast.Expr) : Call (Option SetId)
  | groupByClause (keys : List Ast.Expr) : Call (List SetId)
  | orderByClause (keys : List Ast.SortKey) : Call (List Ir.SortKey)
  | boundClause (n : Option Ast.Expr) : Call (Option SetId)

variable [DecidableEq κ]

/-- The session that a call leaves is the one that it found, but for what
was added to the store. -/
structure Keeps (s s' : Session κ) : Prop where
  schema : s'.schema = s.schema
  frame : s'.frame = s.frame
  /-- The frames around the active one, and so their number. -/
  outer : s'.outer = s.outer
  sets : ∀ id node, s.store.arena.get? id = some node →
    s'.store.arena.get? id = some node
  parents : ∀ n : Nat, n < s.store.scopes.size → n < s'.store.scopes.size
    ∧ s'.store.scopes.parent? n = s.store.scopes.parent? n
  bindings : ∀ n key id, s.store.scopes.binding? n key = some id →
    s'.store.scopes.binding? n key = some id
  /-- A binding that was not there is of the active node or of a new
  one. -/
  bound : ∀ (n : Nat) key id, s'.store.scopes.binding? n key = some id →
    s.store.scopes.binding? n key = some id
      ∨ n = s.frame.scope ∨ s.store.scopes.size ≤ n
  /-- A new node is below the active one or below a new one. -/
  opened : ∀ n : Nat, s.store.scopes.size ≤ n → n < s'.store.scopes.size →
    ∃ parent : Nat, s'.store.scopes.parent? n = some parent
      ∧ (parent = s.frame.scope ∨ s.store.scopes.size ≤ parent)

/-- A run from which the store grows keeps the session. -/
theorem Runs.keeps {s s' : Session κ} {m : CompileM κ α}
    {out : Except CompileError α} (hrun : s.Runs m out s')
    (h : s.store.Grows s.frame.scope s'.store) : s.Keeps s' where
  schema := hrun.frames.1
  frame := hrun.frames.2.1
  outer := hrun.frames.2.2
  sets := h.arena
  parents := fun n hn =>
    ⟨Nat.lt_of_lt_of_le hn h.scopes.size_le, h.scopes.parent_old n hn⟩
  bindings := by
    intro n key id hb
    by_cases hn : n = s.frame.scope
    · subst hn
      exact h.scopes.binding_kept key id hb
    · have hlt := ScopeTree.lt_size_of_binding? hb
      exact (h.scopes.binding_old n hlt hn key).trans hb
  bound := by
    intro n key id hb
    by_cases hn : n = s.frame.scope
    · exact Or.inr (Or.inl hn)
    · by_cases hlt : n < s.store.scopes.size
      · exact Or.inl ((h.scopes.binding_old n hlt hn key).symm.trans hb)
      · exact Or.inr (Or.inr (Nat.le_of_not_lt hlt))
  opened := h.scopes.parent_new

variable [PathKey κ] [NameDigest]

/-- The step that a call stands for. -/
def Call.compile : Call α → CompileM κ α
  | .expr e => CompileM.expr e
  | .select q => CompileM.select q
  | .filterClause f => CompileM.filterClause f
  | .groupByClause keys => CompileM.groupByClause keys
  | .orderByClause keys => CompileM.orderByClause keys
  | .boundClause n => CompileM.boundClause n

theorem Call.exists_composed (c : Call α) :
    ∃ (post : α → Prop), CompileM.Composed (κ := κ) (fun _ => True) post
      c.compile := by
  cases c with
  | expr e => exact ⟨_, .expr e fun _ _ => trivial⟩
  | select q => exact ⟨_, .select q fun _ _ => trivial⟩
  | filterClause f => exact ⟨_, .filterClause f fun _ _ => trivial⟩
  | groupByClause keys =>
      exact ⟨_, .inClause (.groupKeys keys fun _ _ => trivial)⟩
  | orderByClause keys =>
      exact ⟨_, .inClause (.sortKeys keys fun _ _ => trivial)⟩
  | boundClause n => exact ⟨_, .boundClause n fun _ _ => trivial⟩

/-- A composed step runs in every session. -/
theorem runs_of_composed {asked : Ast.Select → Prop} {post : α → Prop}
    {m : CompileM κ α} (h : CompileM.Composed asked post m) (s : Session κ) :
    s.Runs m (s.step m).1 (s.step m).2 := by
  induction h generalizing s with
  | own hadds _ => exact .own (hadds s.env s.store)
  | bind hm _ ihm ihf =>
      refine .of_bind s (ihm s) fun a s' hok => ihf a ?_ s'
      exact hm.value s.env s.store a (congrArg Prod.fst hok)
  | underFrame _ _ ih =>
      rw [step_underFrame]
      exact .underFrame (ih _)
  | inScope _ ih =>
      rw [step_inScope]
      exact .inScope (ih _)
  | subquery _ _ ih =>
      exact .of_bind s (ih s) fun stmt _ _ => .subquery stmt

/-- A call keeps the session, whatever session that is and whether the
call fails or not, also where the session keeps the frames. -/
theorem call_keeps (s : Session κ) (c : Call α) :
    s.Runs (c.compile (κ := κ)) (s.step c.compile).1 (s.step c.compile).2
      ∧ s.Keeps (s.step (c.compile (κ := κ))).2 := by
  obtain ⟨post, hc⟩ := c.exists_composed (κ := κ)
  have hrun := runs_of_composed hc s
  exact ⟨hrun, hrun.keeps (hc.spreads s.env s.store).grows⟩

end Session

end PathQuery
