/-
The invariant of compilation.

A store is *sound* if each of its sets obeys the rules that it was made
by. A path set has the key of its path, the type and the cardinality
that the schema gives it, and goes on from a set that is seen where it
lives; a computed set has an operation that fits its type and
cardinality (`Fits`). What is bound in a scope node is a path set of
that very node, under its own key.

Keys may coincide, and then a path set may be bound nowhere. Where they
do not, every path set is bound in its own node (`Sound.bound`), so a
path that was met is met again, and no path set repeats one that was
there before it in a node above (`Sound.first`). These are the clauses
about an assumption on keys; the others hold for all keys.

`Ready` is soundness as the active frame sees it. The lemmas below say
what adding a set, a scope node or a binding takes to keep a store
sound; the compiler does nothing else to a store.
-/
import PathQuery.Proofs.Store.CanonicalPath
import PathQuery.Proofs.Store.Placement
import PathQuery.Proofs.Store.Typing

namespace PathQuery

open Ir

variable {κ : Type}

-- ============================================================= schemas

/-- A schema that lets the demands of a regime be met. -/
structure Regime.Suits [NameDigest] (R : Regime) (s : Schema) : Prop where
  literal : ∀ l : Literal, R.known l.type
  registered : ∀ t, s.isRegistered t = true → R.known t
  target : ∀ t name p, s.findPointer t name = some p → R.known p.target
  returned : ∀ f sig t, s.function? f = some sig → sig.returns = .concrete t →
    R.known t
  coherent : R.typed → s.Coherent
  typed : R.typed → ¬ R.known .empty

/-- A type that two known types have in common is known. -/
theorem Regime.Suits.common [NameDigest] {R : Regime} {s : Schema}
    (h : R.Suits s) {a b c : TypeId} (ha : R.known a) (hb : R.known b)
    (hc : s.commonType? a b = some c) :
    R.known c := by
  rcases Schema.commonType?_cases hc with ⟨rfl, -⟩ | ⟨rfl, -⟩ | ⟨-, -, hmem, -⟩
  · exact hb
  · exact ha
  · exact h.registered c (Schema.isRegistered_of_mem_ancestors hmem)

namespace Store

variable {R : Regime} {s : Schema} {st st' : Store κ} {scope id : Nat}
  {t : TypeId} {op : Operation} {c : Cardinality} {node : SetNode κ} {key : κ}

-- ============================================================== fitting

section Fitting

variable [NameDigest]

/-- An operation fits a node, a type and a cardinality. The cardinality
of an empty set of no type may be any, where such sets are allowed. -/
structure Fits (R : Regime) (s : Schema) (st : Store κ) (scope : Nat)
    (op : Operation) (t : TypeId) (c : Cardinality) : Prop where
  known : R.known t
  counted : st.counted? s scope op = some c ∨ (op = .emptySet ∧ R.known .empty)
  placed : st.Placed R s scope op
  typed : R.typed → HasType s st.arena op t

theorem Fits.mono (h : st.Extends st') (hs : scope < st.scopes.size)
    (hf : st.Fits R s scope op t c) : st'.Fits R s scope op t c where
  known := hf.known
  counted :=
    hf.counted.imp_left fun hc => h.counted?_eq hs hf.placed.of_subquery hc
  placed := hf.placed.mono h
  typed := fun ht => (hf.typed ht).mono h.arena

end Fitting

-- ================================================================ sets

variable [PathKey κ] [NameDigest]

/-- A set obeys the rules that it was made by. -/
inductive SetSound (R : Regime) (s : Schema) (st : Store κ) (node : SetNode κ) :
    Prop where
  | root (ho : node.origin = .root)
      (hkey : node.key = some (PathKey.root node.type))
      (hcard : node.cardinality = .many)
      (hobj : R.typed → s.isObject node.type = true)
  | step {source : Nat} {name : String} {per : Cardinality} {src : SetNode κ}
      {p : Pointer}
      (ho : node.origin = .step source name per)
      (hsrc : st.arena.get? source = some src)
      (hseen : R.lexical → src.scope ∈ st.scopes.ancestors node.scope)
      (hobj : s.isObject src.type = true)
      (hp : s.findPointer src.type name = some p) (hper : per = p.cardinality)
      (htype : node.type = p.target)
      (hkey : node.key
        = some (PathKey.extend (src.key.getD (PathKey.anchored source)) name))
      (hcard : (st.judge? node.scope source).map (·.mul per)
        = some node.cardinality)
  | computed {op : Operation} (ho : node.origin = .computed op)
      (hkey : node.key = none)
      (hfits : st.Fits R s node.scope op node.type node.cardinality)

theorem SetSound.mono (h : st.Extends st') (hs : node.scope < st.scopes.size)
    (hn : st.SetSound R s node) : st'.SetSound R s node := by
  cases hn with
  | root ho hkey hcard hobj => exact .root ho hkey hcard hobj
  | step ho hsrc hseen hobj hp hper htype hkey hcard =>
      refine .step ho (h.arena _ _ hsrc) (fun hl => h.mem_ancestors (hseen hl))
        hobj hp hper htype hkey ?_
      obtain ⟨d, hd, heq⟩ := Option.map_eq_some_iff.1 hcard
      rw [h.judge?_eq hs hd, Option.map_some, heq]
  | computed ho hkey hfits => exact .computed ho hkey (hfits.mono h hs)

/-- A step goes along a pointer of a set that is there. -/
theorem SetSound.of_step {source : Nat} {name : String} {per : Cardinality}
    (hn : st.SetSound R s node) (ho : node.origin = .step source name per) :
    ∃ src p, st.arena.get? source = some src
      ∧ (R.lexical → src.scope ∈ st.scopes.ancestors node.scope)
      ∧ s.isObject src.type = true ∧ s.findPointer src.type name = some p
      ∧ per = p.cardinality ∧ node.type = p.target
      ∧ (st.judge? node.scope source).map (·.mul per)
        = some node.cardinality := by
  cases hn with
  | root ho' =>
      rw [ho] at ho'
      cases ho'
  | step ho' hsrc hseen hobj hp hper htype _ hcard =>
      rw [ho] at ho'
      cases ho'
      exact ⟨_, _, hsrc, hseen, hobj, hp, hper, htype, hcard⟩
  | computed ho' =>
      rw [ho] at ho'
      cases ho'

/-- A computed set is what its operation makes of it. -/
theorem SetSound.of_computed {op : Operation} (hn : st.SetSound R s node)
    (ho : node.origin = .computed op) :
    st.Fits R s node.scope op node.type node.cardinality := by
  cases hn with
  | root ho' =>
      rw [ho] at ho'
      cases ho'
  | step ho' =>
      rw [ho] at ho'
      cases ho'
  | computed ho' _ hfits =>
      rw [ho] at ho'
      cases ho'
      exact hfits

/-- A set without a key is computed. -/
theorem SetSound.exists_op (hn : st.SetSound R s node)
    (hkey : node.key = none) :
    ∃ op, node.origin = .computed op := by
  cases hn with
  | root ho hk =>
      rw [hkey] at hk
      cases hk
  | step ho _ _ _ _ _ _ hk =>
      rw [hkey] at hk
      cases hk
  | computed ho => exact ⟨_, ho⟩

/-- A set goes on from one that is there. -/
theorem SetSound.source_lt (hn : st.SetSound R s node) (source : Nat)
    (hs : node.origin.source? = some source) : source < st.arena.size := by
  cases hn with
  | root ho =>
      rw [ho] at hs
      cases hs
  | step ho hsrc =>
      rw [ho] at hs
      cases hs
      exact Arena.lt_size_of_get? hsrc
  | computed ho =>
      rw [ho] at hs
      cases hs

-- ============================================================== stores

/-- A set names sets that are there. -/
theorem SetSound.mentions_lt (hn : st.SetSound R s node) :
    ∀ x ∈ node.origin.mentions, x < st.arena.size := by
  intro x hx
  cases hn with
  | root ho =>
      rw [ho] at hx
      cases hx
  | step ho hsrc =>
      rw [ho] at hx
      obtain rfl := List.mem_singleton.1 hx
      exact Arena.lt_size_of_get? hsrc
  | computed ho _ hfits =>
      rw [ho] at hx
      exact hfits.placed.mentions_lt x hx

/-- Every set obeys its rules and names earlier sets only, and a binding
is a path set of its own node. Where keys tell paths apart, every path
set is bound, and no set stands for a path that an earlier one stands
for in a node above. -/
structure Sound [DecidableEq κ] (R : Regime) (s : Schema) (st : Store κ) :
    Prop where
  rooted : st.scopes.Rooted
  scope_lt : ∀ id node, st.arena.get? id = some node →
    node.scope < st.scopes.size
  known : ∀ id node, st.arena.get? id = some node → R.known node.type
  sets : ∀ id node, st.arena.get? id = some node → st.SetSound R s node
  earlier : ∀ id node, st.arena.get? id = some node →
    ∀ x ∈ node.origin.mentions, x < id
  binding : ∀ (n : Nat) (key : κ) (id : Nat),
    st.scopes.binding? n key = some id →
    ∃ node, st.arena.get? id = some node ∧ node.scope = n ∧ node.key = some key
  bound : st.arena.Faithful → ∀ (id : Nat) node key,
    st.arena.get? id = some node →
    node.key = some key → st.scopes.binding? node.scope key = some id
  first : st.arena.Faithful → ∀ (x y : Nat) n m, st.arena.get? x = some n →
    st.arena.get? y = some m → n.key ≠ none →
    st.arena.canonical x = st.arena.canonical y →
    n.scope ∈ st.scopes.ancestors m.scope → y ≤ x

theorem sound_new [DecidableEq κ] (R : Regime) (s : Schema) :
    (Store.new : Store κ).Sound R s where
  rooted := ScopeTree.rooted_new
  scope_lt := fun id node h => by cases h
  known := fun id node h => by cases h
  sets := fun id node h => by cases h
  earlier := fun id node h => by cases h
  binding := fun n key id h => by
    rw [show (Store.new : Store κ).scopes = .new from rfl,
      ScopeTree.binding?_new] at h
    cases h
  bound := fun _ id node key h => by cases h
  first := fun _ x y n m h => by cases h

namespace Sound

variable [DecidableEq κ]

/-- The key of a set is that of the path it stands for; a set that is no
path has none, and is an anchor to the paths that start from it. -/
theorem key_eq (hst : st.Sound R s) (hn : st.arena.get? id = some node) :
    node.key.getD (PathKey.anchored id) = (st.arena.canonical id).key := by
  induction id using Nat.strongRecOn generalizing node with
  | ind id ih =>
      rw [Arena.canonical_eq hn]
      cases hst.sets id node hn with
      | root ho hkey => rw [ho, hkey, Option.getD_some, CanonicalPath.key]
      | step ho hsrc _ _ _ _ _ hkey =>
          have hlt := Arena.lt_of_source hn (by rw [ho]; rfl)
          rw [ho, hkey, Option.getD_some, ih _ hlt hsrc]
          rfl
      | computed ho hkey => rw [ho, hkey, Option.getD_none, CanonicalPath.key]

theorem key_of_path (hst : st.Sound R s) (hn : st.arena.get? id = some node)
    (hkey : node.key = some key) : key = (st.arena.canonical id).key := by
  rw [← hst.key_eq hn, hkey, Option.getD_some]

/-- What stands for one pointer further from the path of a set has the
type that the pointer leads to. -/
theorem step_cases (hst : st.Sound R s) {p : CanonicalPath} {name : String}
    (hn : st.arena.get? id = some node)
    (hc : st.arena.canonical id = .step p name) :
    ∃ (source : Nat) (src : SetNode κ) (pointer : Pointer), source < id
      ∧ st.arena.get? source = some src ∧ st.arena.canonical source = p
      ∧ (R.lexical → src.scope ∈ st.scopes.ancestors node.scope)
      ∧ s.isObject src.type = true ∧ s.findPointer src.type name = some pointer
      ∧ node.type = pointer.target := by
  obtain ⟨source, per, ho, hsource⟩ := Arena.origin_of_canonical_step hn hc
  obtain ⟨src, pointer, hsrc, hseen, hobj, hp, -, htype, -⟩ :=
    (hst.sets id node hn).of_step ho
  exact ⟨source, src, pointer, Arena.lt_of_source hn (by rw [ho]; rfl), hsrc,
    hsource, hseen, hobj, hp, htype⟩

/-- Sets that stand for one path have one type. -/
theorem type_eq (hst : st.Sound R s) {x y : Nat} {n m : SetNode κ}
    (hx : st.arena.get? x = some n) (hy : st.arena.get? y = some m)
    (heq : st.arena.canonical x = st.arena.canonical y) : n.type = m.type := by
  induction x using Nat.strongRecOn generalizing y n m with
  | ind x ih =>
      cases hc : st.arena.canonical x with
      | root t =>
          obtain ⟨-, hn⟩ := Arena.origin_of_canonical_root hx hc
          obtain ⟨-, hm⟩ := Arena.origin_of_canonical_root hy (heq ▸ hc)
          rw [hn, hm]
      | anchor z =>
          obtain rfl := Arena.eq_of_canonical_anchor hc
          obtain rfl := Arena.eq_of_canonical_anchor (heq ▸ hc)
          rw [hx] at hy
          cases hy
          rfl
      | step p name =>
          obtain ⟨i, src, ptr, hlt, hi, hip, -, -, hptr, hn⟩ :=
            hst.step_cases hx hc
          obtain ⟨j, src', ptr', -, hj, hjp, -, -, hptr', hm⟩ :=
            hst.step_cases hy (heq ▸ hc)
          rw [ih i hlt hi hj (hip.trans hjp.symm), hptr'] at hptr
          cases hptr
          rw [hn, hm]

-- ========================================================== operations

/-- What a store extends to keeps its sets sound. -/
theorem sets_mono (hst : st.Sound R s) (h : st.Extends st')
    (hn : st.arena.get? id = some node) : st'.SetSound R s node :=
  (hst.sets id node hn).mono h (hst.scope_lt id node hn)

theorem extends_attach (hst : st.Sound R s) (hs : scope < st.scopes.size) :
    st.Extends { st with scopes := st.scopes.attach scope } :=
  ⟨.refl _, hst.rooted, hst.rooted.attach hs,
    (ScopeTree.growsFrom_attach _ _).size_le,
    (ScopeTree.growsFrom_attach _ _).parent_old⟩

/-- A new scope node. -/
theorem attach (hst : st.Sound R s) (hs : scope < st.scopes.size) :
    Sound R s { st with scopes := st.scopes.attach scope } where
  rooted := hst.rooted.attach hs
  scope_lt := fun id node hn => by
    rw [ScopeTree.size_attach]
    exact Nat.lt_succ_of_lt (hst.scope_lt id node hn)
  known := hst.known
  sets := fun id node hn =>
    hst.sets_mono (hst.extends_attach hs) hn
  earlier := hst.earlier
  binding := fun n key id hb => by
    rw [ScopeTree.binding?_attach] at hb
    exact hst.binding n key id hb
  bound := fun hf id node key hn hkey => by
    rw [ScopeTree.binding?_attach]
    exact hst.bound hf id node key hn hkey
  first := fun hf x y n m hx hy hk heq hin => by
    rw [(hst.extends_attach hs).ancestors_eq (hst.scope_lt y m hy)] at hin
    exact hst.first hf x y n m hx hy hk heq hin

/-- A store with one more set extends the store. -/
theorem extends_push (hst : st.Sound R s) (h) :
    st.Extends { st with arena := st.arena.push node h } :=
  ⟨Arena.extends_push _ _ h, hst.rooted, hst.rooted, Nat.le_refl _,
    fun _ _ => rfl⟩

/-- A new set that is sound names earlier sets only. -/
theorem earlier_push (hst : st.Sound R s) (hn : st.SetSound R s node) (h)
    {n : SetNode κ} (hid : (st.arena.push node h).get? id = some n) :
    ∀ x ∈ n.origin.mentions, x < id := by
  rcases Arena.get?_push_cases _ hid with ⟨rfl, rfl⟩ | hid
  · exact hn.mentions_lt
  · exact hst.earlier id n hid

/-- A new set lives in a node that is there, like the others. -/
theorem scope_lt_push (hst : st.Sound R s) {h} {scopes : ScopeTree κ}
    (hext : st.Extends ⟨st.arena.push node h, scopes⟩)
    (hs : node.scope < st.scopes.size) {n : SetNode κ}
    (hid : (st.arena.push node h).get? id = some n) :
    n.scope < scopes.size := by
  refine Nat.lt_of_lt_of_le ?_ hext.size_le
  rcases Arena.get?_push_cases _ hid with ⟨-, rfl⟩ | hid
  · exact hs
  · exact hst.scope_lt id n hid

theorem known_push (hst : st.Sound R s) (h) (hknown : R.known node.type)
    {n : SetNode κ} (hid : (st.arena.push node h).get? id = some n) :
    R.known n.type := by
  rcases Arena.get?_push_cases _ hid with ⟨-, rfl⟩ | hid
  · exact hknown
  · exact hst.known id n hid

/-- A new set obeys the rules, and the others still do. -/
theorem sets_push (hst : st.Sound R s) {h} {scopes : ScopeTree κ}
    (hext : st.Extends ⟨st.arena.push node h, scopes⟩)
    (hs : node.scope < st.scopes.size) (hn : st.SetSound R s node)
    {n : SetNode κ} (hid : (st.arena.push node h).get? id = some n) :
    SetSound R s ⟨st.arena.push node h, scopes⟩ n := by
  rcases Arena.get?_push_cases _ hid with ⟨-, rfl⟩ | hid
  · exact hn.mono hext hs
  · exact hst.sets_mono hext hid

/-- Only the new set can come after one that stands for its path in a
node above. -/
theorem first_cases (hst : st.Sound R s) {h} {scopes : ScopeTree κ}
    (hext : st.Extends ⟨st.arena.push node h, scopes⟩)
    (hs : node.scope < st.scopes.size) (hf : (st.arena.push node h).Faithful)
    {x y : Nat} {n m : SetNode κ} (hx : (st.arena.push node h).get? x = some n)
    (hy : (st.arena.push node h).get? y = some m) (hk : n.key ≠ none)
    (heq : (st.arena.push node h).canonical x
      = (st.arena.push node h).canonical y)
    (hin : n.scope ∈ scopes.ancestors m.scope) :
    y ≤ x ∨ (st.arena.get? x = some n
      ∧ st.arena.canonical x = (st.arena.push node h).canonical st.arena.size
      ∧ n.scope ∈ st.scopes.ancestors node.scope) := by
  rcases Arena.get?_push_cases _ hy with ⟨rfl, rfl⟩ | hy
  · rcases Arena.get?_push_cases _ hx with ⟨rfl, -⟩ | hx
    · exact Or.inl (Nat.le_refl _)
    · rw [hext.arena.canonical_eq hx] at heq
      rw [hext.ancestors_eq hs] at hin
      exact Or.inr ⟨hx, heq, hin⟩
  · rcases Arena.get?_push_cases _ hx with ⟨rfl, -⟩ | hx
    · exact Or.inl (Nat.le_of_lt (Arena.lt_size_of_get? hy))
    · rw [hext.arena.canonical_eq hx, hext.arena.canonical_eq hy] at heq
      rw [hext.ancestors_eq (hst.scope_lt y m hy)] at hin
      exact Or.inl
        (hst.first (hf.of_extends hext.arena) x y n m hx hy hk heq hin)

/-- A new set, bound nowhere. If it is a path set, then its key must be
one that does not tell paths apart. -/
theorem push (hst : st.Sound R s) (h) (hs : node.scope < st.scopes.size)
    (hknown : R.known node.type) (hn : st.SetSound R s node)
    (hkey : node.key ≠ none → ¬ (st.arena.push node h).Faithful) :
    Sound R s { st with arena := st.arena.push node h } where
  rooted := hst.rooted
  scope_lt := fun _ _ => hst.scope_lt_push (hst.extends_push h) hs
  known := fun _ _ => hst.known_push h hknown
  sets := fun _ _ => hst.sets_push (hst.extends_push h) hs hn
  earlier := fun _ _ => hst.earlier_push hn h
  binding := fun n key id hb => by
    obtain ⟨m, hm, hrest⟩ := hst.binding n key id hb
    exact ⟨m, (hst.extends_push h).arena id m hm, hrest⟩
  bound := fun hf id n key hid hk => by
    rcases Arena.get?_push_cases h hid with ⟨-, rfl⟩ | hid
    · exact absurd hf (hkey (by rw [hk]; simp))
    · exact hst.bound (hf.of_extends (hst.extends_push h).arena) id n key hid hk
  first := fun hf x y n m hx hy hk heq hin => by
    rcases hst.first_cases (hst.extends_push h) hs hf hx hy hk heq hin with hle
      | ⟨hxold, hsame, -⟩
    · exact hle
    · have hpath : node.key = none := by
        by_contra hne
        exact hkey hne hf
      obtain ⟨op, ho⟩ := hn.exists_op hpath
      rw [Arena.canonical_eq (Arena.get?_push_self _ _ h), ho] at hsame
      -- only the new set itself stands for itself
      obtain rfl := Arena.eq_of_canonical_anchor hsame
      exact absurd (Arena.lt_size_of_get? hxold) (Nat.lt_irrefl _)

/-- A store with one more set, and a binding of it, extends the store. -/
theorem extends_push_bound (hst : st.Sound R s) (h) :
    st.Extends
      ⟨st.arena.push node h, st.scopes.bind node.scope key st.arena.size⟩ :=
  ⟨Arena.extends_push _ _ h, hst.rooted, hst.rooted.bind _ _ _,
    Nat.le_of_eq (ScopeTree.size_bind _ _ _ _).symm,
    fun id _ => ScopeTree.parent?_bind _ _ _ _ id⟩

/-- A new path set, bound in its own node, where its key was not
found. -/
theorem push_bound (hst : st.Sound R s) (h) (hs : node.scope < st.scopes.size)
    (hknown : R.known node.type) (hn : st.SetSound R s node)
    (hkey : node.key = some key)
    (hpath : key = ((st.arena.push node h).canonical st.arena.size).key)
    (hl : st.scopes.lookup node.scope key = none) :
    Sound R s
      ⟨st.arena.push node h, st.scopes.bind node.scope key st.arena.size⟩ where
  rooted := hst.rooted.bind _ _ _
  scope_lt := fun _ _ => hst.scope_lt_push (hst.extends_push_bound h) hs
  known := fun _ _ => hst.known_push h hknown
  sets := fun _ _ => hst.sets_push (hst.extends_push_bound h) hs hn
  earlier := fun _ _ => hst.earlier_push hn h
  binding := fun n k id hb => by
    rw [ScopeTree.binding?_bind hs] at hb
    split at hb
    · next heq =>
        cases hb
        exact ⟨node, Arena.get?_push_self _ _ h, heq.1.symm, heq.2 ▸ hkey⟩
    · obtain ⟨m, hm, hrest⟩ := hst.binding n k id hb
      exact ⟨m, Arena.extends_push _ _ h id m hm, hrest⟩
  bound := fun hf id n k hid hk => by
    rw [ScopeTree.binding?_bind hs]
    rcases Arena.get?_push_cases h hid with ⟨rfl, rfl⟩ | hid
    · rw [hkey] at hk
      cases hk
      rw [if_pos ⟨rfl, rfl⟩]
    · have hb := hst.bound (hf.of_extends (Arena.extends_push _ _ h)) id n k hid hk
      rw [if_neg, hb]
      -- the key just bound was free
      intro h
      obtain ⟨heq, rfl⟩ := h
      rw [heq, ScopeTree.lookup_eq_none_iff.1 hl _
        (ScopeTree.mem_ancestors_self _ _)] at hb
      cases hb
  first := fun hf x y n m hx hy hk heq hin => by
    rcases hst.first_cases (hst.extends_push_bound h) hs hf hx hy hk heq hin with
      hle | ⟨hxold, hsame, hseen⟩
    · exact hle
    · obtain ⟨k, hk⟩ := Option.ne_none_iff_exists'.1 hk
      have hb := hst.bound (hf.of_extends (Arena.extends_push _ _ h)) x n k hxold hk
      -- the key of one is the key of the other, and was not found
      rw [hst.key_of_path hxold hk, hsame, ← hpath,
        ScopeTree.lookup_eq_none_iff.1 hl _ hseen] at hb
      cases hb

end Sound

end Store

-- =============================================================== ready

/-- A store is sound, and the active frame fits it. -/
structure Env.Ready [PathKey κ] [NameDigest] [DecidableEq κ] (R : Regime)
    (env : Env) (st : Store κ) : Prop where
  suits : R.Suits env.schema
  sound : st.Sound R env.schema
  active : env.frame.scope < st.scopes.size
  unshadowed : st.scopes.Unshadowed env.frame.scope
  subject : ∀ id, env.frame.subject = some id →
    ∃ t, st.Holds R env.frame.scope id t

/-- A frame of the root node fits the empty store. -/
theorem Env.ready_new [PathKey κ] [NameDigest] [DecidableEq κ] {R : Regime}
    (env : Env) (hs : R.Suits env.schema)
    (hroot : env.frame.scope = ScopeTree.root)
    (hsubject : env.frame.subject = none) :
    env.Ready R (Store.new : Store κ) where
  suits := hs
  sound := Store.sound_new R env.schema
  active := by
    rw [hroot]
    exact Nat.zero_lt_one
  unshadowed := ScopeTree.unshadowed_new _
  subject := fun id hid => by
    rw [hsubject] at hid
    cases hid

/-- What a sound store has grown to fits the frame as well, if no path is
bound twice there. -/
theorem Env.Ready.grown [PathKey κ] [NameDigest] [DecidableEq κ] {R : Regime}
    {env : Env} {st st' : Store κ} (hr : env.Ready R st) (h : st.Extends st')
    (hs : st'.Sound R env.schema) (hu : st'.scopes.Unshadowed env.frame.scope) :
    env.Ready R st' where
  suits := hr.suits
  sound := hs
  active := Nat.lt_of_lt_of_le hr.active h.size_le
  unshadowed := hu
  subject := fun id hid => by
    obtain ⟨t, ht⟩ := hr.subject id hid
    exact ⟨t, ht.mono h⟩

end PathQuery
