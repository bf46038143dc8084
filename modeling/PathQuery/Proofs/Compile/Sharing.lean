/-
Paths are shared and never confused.

`shared` is all that paths do with keys: it looks a key up, confirms
what it found, and else makes a set. Its spec says nothing of keys. What
it returns stands for the wanted path and is seen from the active node
(`Finds`), whichever of the three ways it went: the path was found; it
was not, and the new set is bound; or its key is taken by another path,
and the new set is bound nowhere. The last way is shut where keys tell
paths apart.

The specs of roots, steps and whole paths follow from that one, with the
rule that sets of one path have one type.
-/
import PathQuery.Proofs.Compile.Upholds

namespace PathQuery

open Ir

variable {κ : Type}

/-- A path set that is seen from a node stands for a path. -/
def Store.Finds (st : Store κ) (scope id : Nat) (p : CanonicalPath) : Prop :=
  ∃ node, st.arena.get? id = some node ∧ node.scope ∈ st.scopes.ancestors scope
    ∧ node.key ≠ none ∧ st.arena.canonical id = p

-- ========================================================== denotation

/-- The names of the pointers of a path. -/
def Ast.Path.pointers (p : Ast.Path) : List String :=
  p.steps.map Ast.PathStep.name

/-- What a path starts from: the objects of a type, or what the subject
stands for. -/
def Env.start? (env : Env) (a : Arena κ) (p : Ast.Path) :
    Option CanonicalPath :=
  match p.root with
  | none => env.frame.subject.map a.canonical
  | some root =>
    match env.resolve? root.name with
    | some (.type id entry) => if entry.isObject then some (.root id) else none
    | some (.function _ _) | none => none

/-- The canonical path that a path denotes, if it starts anywhere. -/
def Env.denotes? (env : Env) (a : Arena κ) (p : Ast.Path) :
    Option CanonicalPath :=
  (env.start? a p).map fun start => start.follow p.pointers

/-- A path starts from an object type or from the subject. -/
theorem Env.start?_cases {env : Env} {a : Arena κ} {p : Ast.Path}
    {start : CanonicalPath} (h : env.start? a p = some start) :
    (∃ id, p.root = none ∧ env.frame.subject = some id ∧ start = a.canonical id)
      ∨ ∃ root id entry, p.root = some root
          ∧ env.resolve? root.name = some (.type id entry)
          ∧ entry.isObject = true ∧ start = .root id := by
  unfold start? at h
  split at h
  · next hroot =>
      obtain ⟨id, hid, heq⟩ := Option.map_eq_some_iff.1 h
      exact Or.inl ⟨id, hroot, hid, heq.symm⟩
  · next root hroot =>
      split at h
      · next id entry hresolve =>
          split at h
          · next hobj =>
              cases h
              exact Or.inr ⟨root, id, entry, hroot, hresolve, hobj, rfl⟩
          · cases h
      · cases h
      · cases h

variable [DecidableEq κ]

namespace CompileM

-- =============================================================== runs

section Runs

variable {env : Env} {st : Store κ} {key : κ} {confirm : Arena κ → SetId → Bool}
  {make : CompileM κ SetId} {a found : Nat}

theorem run_lookupPath : (lookupPath key).run env st
    = (.ok ((st.scopes.lookup env.frame.scope key).map Prod.snd), st) := rfl

theorem run_bindPath {id : Nat} : (bindPath key id).run env st
    = (.ok (), { st with scopes := st.scopes.bind env.frame.scope key id }) :=
  rfl

/-- What is found and confirmed is returned, and nothing happens. -/
theorem run_shared_of_found
    (hl : st.scopes.lookup env.frame.scope key = some (a, found))
    (hc : confirm st.arena found = true) :
    (shared key confirm make).run env st = (.ok found, st) := by
  unfold shared
  rw [run_bind_ok run_lookupPath, hl]
  show (store >>= fun s => if confirm s.arena found = true then _ else _).run
    env st = _
  rw [run_bind_ok run_store, if_pos hc, run_pure]

/-- What is found and not confirmed is of no use. -/
theorem run_shared_of_taken
    (hl : st.scopes.lookup env.frame.scope key = some (a, found))
    (hc : confirm st.arena found = false) :
    (shared key confirm make).run env st = make.run env st := by
  unfold shared
  rw [run_bind_ok run_lookupPath, hl]
  show (store >>= fun s => if confirm s.arena found = true then _ else _).run
    env st = _
  rw [run_bind_ok run_store, if_neg (by simp [hc])]

/-- What is not found is made and bound. -/
theorem run_shared_of_free (hl : st.scopes.lookup env.frame.scope key = none)
    {id : Nat} {st' : Store κ} (hmake : make.run env st = (.ok id, st')) :
    (shared key confirm make).run env st
      = (.ok id,
        { st' with scopes := st'.scopes.bind env.frame.scope key id }) := by
  unfold shared
  rw [run_bind_ok run_lookupPath, hl]
  show (make >>= fun id => bindPath key id >>= fun _ => pure id).run env st = _
  rw [run_bind_ok hmake, run_bind_ok run_bindPath, run_pure]

end Runs

-- ============================================================== sharing

variable [PathKey κ]

/-- The set of all objects of a type, as it is made. -/
def rootNode (t : TypeId) (scope : ScopeId) (span : Span) : SetNode κ :=
  ⟨some (PathKey.root t), t, .many, scope, span, .root⟩

/-- The set of one pointer further from a set, as it is made. -/
def stepNode (src : SetNode κ) (source : SetId) (name : String) (p : Pointer)
    (c : Cardinality) (scope : ScopeId) (span : Span) : SetNode κ :=
  ⟨some (PathKey.extend (src.key.getD (PathKey.anchored source)) name),
    p.target, c.mul p.cardinality, scope, span, .step source name p.cardinality⟩

/-- One pointer further from an object is shared by the key that the
pointer adds to. -/
theorem run_extendPath {env : Env} {st : Store κ} {source : Nat}
    {src : SetNode κ} {name : String} {span : Span} {p : Pointer}
    (hn : st.arena.get? source = some src)
    (hobj : env.schema.isObject src.type = true)
    (hp : env.schema.findPointer src.type name = some p) :
    (extendPath source name span).run env st
      = (shared (PathKey.extend (src.key.getD (PathKey.anchored source)) name)
          (fun arena found => arena.isStepOf found source name) do
            let cardinality := (← judge source).mul p.cardinality
            newSet (.step source name p.cardinality) p.target cardinality span
              (some (PathKey.extend (src.key.getD (PathKey.anchored source))
                name))).run env st := by
  unfold extendPath
  rw [run_bind_ok (run_getSet hn), run_bind_ok run_schema,
    run_bind_ok run_frame, hobj, run_bind_ok (run_require true _ _ _), hp,
    run_bind_ok (run_orFail (some p) _ _ _)]

theorem run_pathStart_of_subject {env : Env} {st : Store κ} {p : Ast.Path}
    {id : SetId} (hroot : p.root = none) (hid : env.frame.subject = some id) :
    (pathStart p).run env st = (.ok id, st) := by
  unfold pathStart
  rw [hroot]
  dsimp only
  rw [run_bind_ok run_frame, hid]
  rfl

theorem run_pathStart_of_root {env : Env} {st : Store κ} {p : Ast.Path}
    {root : Ast.NameRef} {id : TypeId} {entry : TypeEntry}
    (hroot : p.root = some root)
    (hresolve : env.resolve? root.name = some (.type id entry))
    (hobj : entry.isObject = true) :
    (pathStart p).run env st = (rootSet id root.span).run env st := by
  unfold pathStart
  rw [hroot]
  dsimp only
  rw [run_bind, run_resolve, hresolve, run_orFail]
  dsimp only
  rw [hobj, run_bind_ok (run_require true _ _ _)]

omit [DecidableEq κ] in
theorem canonical_push_root (a : Arena κ) (t : TypeId) (scope : ScopeId)
    (span : Span) (h) :
    (a.push (rootNode t scope span) h).canonical a.size = .root t := by
  rw [Arena.canonical_eq (Arena.get?_push_self a _ h)]
  rfl

omit [DecidableEq κ] in
theorem canonical_push_step {a : Arena κ} {src : SetNode κ} {source : Nat}
    (hsrc : a.get? source = some src) (name : String) (p : Pointer)
    (c : Cardinality) (scope : ScopeId) (span : Span) (h) :
    (a.push (stepNode src source name p c scope span) h).canonical a.size
      = .step (a.canonical source) name := by
  rw [Arena.canonical_eq (Arena.get?_push_self a _ h),
    ← (Arena.extends_push a _ h).canonical_eq hsrc]
  rfl

variable [NameDigest]

namespace Upholds

variable {R : Regime} {env : Env} {st : Store κ}

/-- Whatever is returned stands for the wanted path. -/
theorem shared (node : SetNode κ) (p : CanonicalPath) {key : κ}
    {confirm : Arena κ → SetId → Bool} {make : CompileM κ SetId}
    (hkey : node.key = some key) (hp : key = p.key)
    (hscope : node.scope = env.frame.scope)
    (hconfirm :
      ∀ found, confirm st.arena found = true ↔ st.arena.canonical found = p)
    (hmake : ∀ h, make.run env st
      = (.ok st.arena.size, { st with arena := st.arena.push node h }))
    (hknown : R.known node.type) (hset : st.SetSound R env.schema node)
    (hpath : ∀ h, (st.arena.push node h).canonical st.arena.size = p) :
    Upholds R env st (CompileM.shared key confirm make) fun st' id =>
      st'.Finds env.frame.scope id p := by
  intro hr
  have hlt := hset.source_lt
  have hactive : node.scope < st.scopes.size := hscope ▸ hr.active
  have hnew : ∀ scopes : ScopeTree κ,
      Store.Finds ⟨st.arena.push node hlt, scopes⟩ env.frame.scope
        st.arena.size p := fun scopes =>
    ⟨node, Arena.get?_push_self _ _ hlt,
      hscope ▸ ScopeTree.mem_ancestors_self _ _, by rw [hkey]; simp, hpath hlt⟩
  cases hl : st.scopes.lookup env.frame.scope key with
  | some hit =>
      obtain ⟨a, found⟩ := hit
      obtain ⟨ha, hb⟩ := ScopeTree.binding?_of_lookup hl
      obtain ⟨n, hn, hns, hnk⟩ := hr.sound.binding a key found hb
      cases hc : confirm st.arena found with
      | true =>
          rw [run_shared_of_found hl hc]
          refine ⟨.refl _ _, hr, fun id hid => ?_, fun e he => by cases he⟩
          cases hid
          exact ⟨n, hn, hns ▸ ha, by rw [hnk]; simp, (hconfirm found).1 hc⟩
      | false =>
          -- the key is taken, so keys do not tell this path from another
          have hsound := hr.sound.push hlt hactive hknown hset fun _ hf => by
            have hext := Arena.extends_push st.arena node hlt
            have hself := Arena.get?_push_self st.arena node hlt
            have hsame := hf found st.arena.size n node (hext found n hn) hself
              (by rw [hnk]; simp) (by rw [hkey]; simp)
              (by rw [hpath hlt, hext.canonical_eq hn,
                ← hr.sound.key_of_path hn hnk, hp])
            rw [hpath hlt, hext.canonical_eq hn, ← hconfirm found, hc] at hsame
            cases hsame
          have hext := hr.sound.extends_push hlt
          rw [run_shared_of_taken hl hc, hmake hlt]
          refine ⟨⟨hext.arena, .refl _ _⟩, hr.grown hext hsound hr.unshadowed,
            fun id hid => ?_, fun e he => by cases he⟩
          cases hid
          exact hnew _
  | none =>
      have hfree : st.scopes.binding? env.frame.scope key = none :=
        ScopeTree.lookup_eq_none_iff.1 hl _ (ScopeTree.mem_ancestors_self _ _)
      have hsound := hr.sound.push_bound hlt hactive hknown hset hkey
        (hpath hlt ▸ hp) (hscope ▸ hl)
      rw [hscope] at hsound
      have hgrows : st.Grows env.frame.scope
          ⟨st.arena.push node hlt,
            st.scopes.bind env.frame.scope key st.arena.size⟩ :=
        ⟨Arena.extends_push _ _ hlt, ScopeTree.growsFrom_bind hfree⟩
      rw [run_shared_of_free hl (hmake hlt)]
      refine ⟨hgrows,
        hr.grown (hgrows.toExtends hr.sound.rooted hsound.rooted) hsound
        (hr.unshadowed.bind hr.sound.rooted hr.active hl), fun id hid => ?_,
        fun e he => by cases he⟩
      cases hid
      exact hnew _

-- ================================================================ paths

/-- The set of all objects of a type. -/
theorem rootSet {t : TypeId} {span : Span} (hknown : R.known t)
    (hobj : R.typed → env.schema.isObject t = true) :
    Upholds R env st (CompileM.rootSet t span) fun st' id =>
      st'.Holds R env.frame.scope id t
        ∧ st'.Finds env.frame.scope id (.root t) := by
  unfold CompileM.rootSet
  refine imp (shared (rootNode t env.frame.scope span) (.root t) rfl rfl rfl
    (fun found => Arena.isRootOf_iff) (fun h => ?_) hknown
    (.root rfl rfl rfl hobj)
    (canonical_push_root st.arena t env.frame.scope span)) ?_
  · exact run_newSet h
  intro st' id _ _ hf
  refine ⟨?_, hf⟩
  obtain ⟨node, hn, hseen, -, hcan⟩ := hf
  exact ⟨node, hn, (Arena.origin_of_canonical_root hn hcan).2, fun _ => hseen⟩

/-- One pointer further from a set. -/
theorem extendPath {source : Nat} {t : TypeId} {name : String} {span : Span}
    (hsource : st.Holds R env.frame.scope source t) :
    Upholds R env st (CompileM.extendPath source name span) fun st' id =>
      ∃ p, env.schema.isObject t = true ∧ env.schema.findPointer t name = some p
        ∧ st'.Holds R env.frame.scope id p.target
        ∧ st'.Finds env.frame.scope id
          (.step (st.arena.canonical source) name) := by
  refine intro fun hr => ?_
  obtain ⟨src, hsrc, rfl, hseen⟩ := id hsource
  obtain ⟨c, hc⟩ := hsource.exists_judge? env.frame.scope
  unfold CompileM.extendPath
  refine read (run_getSet hsrc) (read run_schema (read run_frame ?_))
  refine require (by simp [CompileError.kind]) fun hobj => ?_
  refine orFail (by simp [CompileError.kind]) fun p hp => ?_
  have hset : st.SetSound R env.schema
      (stepNode src source name p c env.frame.scope span) := by
    refine .step rfl hsrc hseen hobj hp rfl rfl rfl ?_
    show (st.judge? env.frame.scope source).map _ = _
    rw [hc]
    rfl
  refine imp (shared (stepNode src source name p c env.frame.scope span)
    (.step (st.arena.canonical source) name) rfl
    (by rw [hr.sound.key_eq hsrc]; rfl) rfl (fun found => Arena.isStepOf_iff)
    (fun h => ?_) (hr.suits.target _ _ _ hp) hset
    (canonical_push_step hsrc name p c env.frame.scope span)) ?_
  · rw [run_bind_ok (run_judge hc)]
    exact run_newSet h
  intro st' id hext hr' hf
  refine ⟨p, hobj, hp, ?_, hf⟩
  obtain ⟨node, hn, hin, -, hcan⟩ := hf
  rw [← hext.arena.canonical_eq hsrc] at hcan
  obtain ⟨i, n, p', -, hi, hip, -, -, hp', ht⟩ := hr'.sound.step_cases hn hcan
  rw [hr'.sound.type_eq hi (hext.arena _ _ hsrc) hip, hp] at hp'
  cases hp'
  exact ⟨node, hn, ht, fun _ => hin⟩

/-- Some pointers further from a set. -/
theorem extendAll {source : Nat} {t : TypeId} {steps : List Ast.PathStep}
    (hsource : st.Holds R env.frame.scope source t) :
    Upholds R env st
      (steps.foldlM
        (fun set step => CompileM.extendPath set step.name step.span) source)
      fun st' id => ∃ t', st'.Holds R env.frame.scope id t'
        ∧ st'.arena.canonical id
          = (st.arena.canonical source).follow
            (steps.map Ast.PathStep.name) := by
  induction steps generalizing st source t with
  | nil => exact pure ⟨t, hsource, rfl⟩
  | cons step steps ih =>
      rw [List.foldlM_cons]
      refine bind (extendPath hsource) ?_
      intro id st₁ hext h
      obtain ⟨p, -, -, hid, hfinds⟩ := h
      refine (ih hid).imp ?_
      intro st₂ id₂ _ _ h
      obtain ⟨t', ht', hcan⟩ := h
      refine ⟨t', ht', ?_⟩
      obtain ⟨_, _, _, _, hstep⟩ := hfinds
      rw [hcan, hstep, List.map_cons, CanonicalPath.follow_cons]

/-- Where a path starts. -/
theorem pathStart {p : Ast.Path} :
    Upholds R env st (CompileM.pathStart p) fun st' id =>
      ∃ t, st'.Holds R env.frame.scope id t
        ∧ env.start? st'.arena p = some (st'.arena.canonical id) := by
  refine intro fun hr => ?_
  unfold CompileM.pathStart Env.start?
  cases p.root with
  | none =>
      refine read run_frame
        (orFail_last (by simp [CompileError.kind]) fun id hid => ?_)
      obtain ⟨t, ht⟩ := hr.subject id hid
      exact ⟨t, ht, by rw [hid]; rfl⟩
  | some root =>
      refine resolve fun item hitem => ?_
      cases item with
      | function name sig => exact fail (by simp [CompileError.kind])
      | type id entry =>
          have htype := Env.type?_of_resolve? hitem
          refine require (by simp [CompileError.kind]) fun hobj => ?_
          have hobj' : env.schema.isObject id = true := by
            unfold Schema.isObject
            rw [htype]
            exact hobj
          refine (rootSet
            (hr.suits.registered id (Schema.isRegistered_of_type? htype))
              fun _ => hobj').imp fun st' set _ _ hset => ?_
          obtain ⟨hholds, _, _, _, _, hcan⟩ := hset
          refine ⟨id, hholds, ?_⟩
          simp only [hitem, hcan, hobj, if_true]

/-- What a path starts from stays what it was. -/
theorem start?_mono {st' : Store κ} (h : st.Extends st') (hr : env.Ready R st)
    (p : Ast.Path) : env.start? st'.arena p = env.start? st.arena p := by
  unfold Env.start?
  cases p.root with
  | some root => rfl
  | none =>
      cases hs : env.frame.subject with
      | none => rfl
      | some id =>
          obtain ⟨t, node, hn, -⟩ := hr.subject id hs
          exact congrArg some (h.arena.canonical_eq hn)

/-- What a path denotes stays what it was. -/
theorem denotes?_mono {st' : Store κ} (h : st.Extends st') (hr : env.Ready R st)
    (p : Ast.Path) : env.denotes? st'.arena p = env.denotes? st.arena p := by
  unfold Env.denotes?
  rw [start?_mono h hr]

/-- A path is the set of the canonical path that it denotes. -/
theorem path {p : Ast.Path} :
    Upholds R env st (CompileM.path p) fun st' id =>
      ∃ t, st'.Holds R env.frame.scope id t
        ∧ env.denotes? st'.arena p = some (st'.arena.canonical id) := by
  unfold CompileM.path
  refine bind pathStart ?_
  intro source st₁ _ h
  obtain ⟨t, hsource, hstart⟩ := h
  refine intro fun hr => (extendAll hsource).imp ?_
  intro st₂ id hext _ h
  obtain ⟨t', ht', hcan⟩ := h
  refine ⟨t', ht', ?_⟩
  unfold Env.denotes?
  rw [start?_mono hext hr, hstart, hcan]
  rfl

end Upholds

end CompileM

end PathQuery
