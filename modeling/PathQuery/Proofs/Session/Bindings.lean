/-
What is bound in a scope node is a path of that very node.

A binding leads from a key to a set that lives in the node of the
binding, has that key, and is a path set; the key is the one that the
rule for paths makes of the set's origin (`Store.pathKey?`), hence the
key of its canonical path. On the way from the active node to the root
no key is bound twice, so a lookup returns the one binding that is
visible (`Session.bindings_sound`).

The second half is about that way only. A node that was left may bind a
key before a node above it does, and then the two are on one way to the
root; but no session comes back to the node that was left. What carries
the argument through a session is therefore not the tree alone but the
tree with the frames that are still to be left (`Session.Ready`), and it
is carried through steps that fail as well.
-/
import PathQuery.Proofs.Session.Reachable

namespace PathQuery

open Ir

variable {κ : Type}

-- ================================================================ keys

/-- The key of a path set, from where it comes: the key of its type, or
the key of its source with the pointer added. A source without a key is
an anchor of its own. -/
def Store.pathKey? [PathKey κ] (st : Store κ) (node : SetNode κ) : Option κ :=
  match node.origin with
  | .root => some (PathKey.root node.type)
  | .step source name _ => (st.arena.get? source).map fun src =>
      PathKey.extend (src.key.getD (PathKey.anchored source)) name
  | .computed _ => none

/-- A set of a node that is the path of a key. -/
structure Store.Stands [PathKey κ] (st : Store κ) (n : ScopeId) (key : κ)
    (id : SetId) (node : SetNode κ) : Prop where
  there : st.arena.get? id = some node
  own : node.scope = n
  keyed : node.key = some key
  /-- A root or a step: nothing else has such a key. -/
  path : st.pathKey? node = some key
  canonical : (st.arena.canonical id).key = key

section

variable [PathKey κ] [NameDigest] {R : Regime} {s : Schema} {st : Store κ}

/-- A path set has the key that the rule for paths gives it. -/
theorem Store.SetSound.pathKey?_eq {node : SetNode κ} (h : st.SetSound R s node)
    (hkey : node.key ≠ none) : st.pathKey? node = node.key := by
  unfold Store.pathKey?
  cases h with
  | root ho hk => rw [ho, hk]
  | step ho hsrc _ _ _ _ _ hk =>
      rw [ho, hk]
      dsimp only
      rw [hsrc, Option.map_some]
  | computed _ hk => exact absurd hk hkey

/-- What is bound stands for the path of its key. -/
theorem Store.Sound.stands [DecidableEq κ] (h : st.Sound R s) {n : ScopeId} {key : κ}
    {id : SetId} (hb : st.scopes.binding? n key = some id) :
    ∃ node, st.Stands n key id node := by
  obtain ⟨node, hn, hscope, hkey⟩ := h.binding n key id hb
  have hpath := (h.sets id node hn).pathKey?_eq (by rw [hkey]; simp)
  exact ⟨node, hn, hscope, hkey, hpath.trans hkey,
    (h.key_of_path hn hkey).symm⟩

end

-- ============================================================= sessions

namespace Session

variable [DecidableEq κ] [PathKey κ]

/-- The bindings of a session are of paths, and the visible ones are
found. -/
structure BindsPaths (s : Session κ) : Prop where
  active : s.frame.scope < s.store.scopes.size
  parent_lt : ∀ n parent : Nat, s.store.scopes.parent? n = some parent →
    parent < n
  bound : ∀ n key id, s.store.scopes.binding? n key = some id →
    ∃ node, s.store.Stands n key id node
  /-- No key is bound twice on the way to the root. -/
  once : ∀ a ∈ s.store.scopes.ancestors s.frame.scope,
    ∀ b ∈ s.store.scopes.ancestors s.frame.scope, ∀ key x y,
      s.store.scopes.binding? a key = some x →
        s.store.scopes.binding? b key = some y → a = b ∧ x = y
  /-- A lookup returns what is bound on the way to the root. -/
  found : ∀ key id, (s.step (CompileM.lookupPath key)).1 = .ok (some id)
    ↔ ∃ a ∈ s.store.scopes.ancestors s.frame.scope,
        s.store.scopes.binding? a key = some id

variable [NameDigest]

theorem Ready.bindsPaths {R : Regime} {s : Session κ} (h : s.Ready R) :
    s.BindsPaths where
  active := h.active.active
  parent_lt := h.active.sound.rooted.parent_lt
  bound := fun _ _ _ => h.active.sound.stands
  once := by
    intro a ha b hb key x y hx hy
    obtain rfl := h.active.unshadowed a ha b hb key x y hx hy
    exact ⟨rfl, Option.some.inj (hx.symm.trans hy)⟩
  found := by
    intro key id
    have hrun : (s.step (CompileM.lookupPath key)).1
        = .ok ((s.store.scopes.lookup s.frame.scope key).map Prod.snd) := rfl
    rw [hrun]
    constructor
    · intro hl
      obtain ⟨⟨a, set⟩, hfound, rfl⟩ :=
        Option.map_eq_some_iff.1 (Except.ok.inj hl)
      obtain ⟨ha, hb⟩ := ScopeTree.binding?_of_lookup hfound
      exact ⟨a, ha, hb⟩
    · intro hb
      obtain ⟨a, ha, hb⟩ := hb
      have hfound : s.store.scopes.lookup s.frame.scope key = some (a, id) :=
        h.active.unshadowed.lookup_eq ha hb
      rw [hfound, Option.map_some]

/-- However a session came about, its bindings are of paths, and a
lookup returns the only one that is visible. -/
theorem bindings_sound {s : Session κ} (hs : Reachable False s) :
    s.BindsPaths :=
  hs.ready.bindsPaths

end Session

open scoped Xxh64

theorem bindings_sound_friends :
    Session.Reachable False afterFriends ∧ afterFriends.BindsPaths := by
  have hreachable : Session.Reachable False afterFriends := by
    obtain ⟨schema, o, hs⟩ := reachable_beforeFriends False
    exact ⟨schema, o,
      (hs.tail (.path friends)).trans (steps_afterFriends False)⟩
  exact ⟨hreachable, Session.bindings_sound hreachable⟩

end PathQuery
