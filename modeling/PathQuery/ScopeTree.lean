/-
Scope nodes and the paths bound in them.

A path that is bound in a scope node is shared by everything at or below
that node: looking a path up walks from a node to the root. Nodes beside
each other never see each other's paths.

Nodes are added below any number, also one that names no node; the walk
towards the root stops where there is no node. It is cut off after as
many steps as there are nodes, which it takes only if it goes round in
a circle.
-/
import PathQuery.Ir.Basic
import PathQuery.Table

namespace PathQuery

structure ScopeNode (κ : Type) where
  parent : Option ScopeId
  /-- The set bound to each path. -/
  bindings : Table κ SetId
  deriving Inhabited

structure ScopeTree (κ : Type) where
  nodes : Array (ScopeNode κ)
  deriving Inhabited

namespace ScopeTree

variable {κ : Type}

/-- The number of the node that every tree starts with. -/
def root : ScopeId := 0

/-- A root without bindings. -/
def new : ScopeTree κ := ⟨#[⟨none, .empty⟩]⟩

def size (t : ScopeTree κ) : Nat := t.nodes.size

def parent? (t : ScopeTree κ) (id : ScopeId) : Option ScopeId :=
  (t.nodes[id]?).bind ScopeNode.parent

/-- Add a node below `parent`; its number is the size the tree had. -/
def attach (t : ScopeTree κ) (parent : ScopeId) : ScopeTree κ :=
  ⟨t.nodes.push ⟨some parent, .empty⟩⟩

/-- The first `count` numbers on the way from `id` to the root. -/
def walk (t : ScopeTree κ) : (count : Nat) → (id : ScopeId) → List ScopeId
  | 0, _ => []
  | count + 1, id =>
    id :: match t.parent? id with
      | some parent => t.walk count parent
      | none => []

/-- A number, and the numbers above it up to the root. -/
def ancestors (t : ScopeTree κ) (id : ScopeId) : List ScopeId := t.walk (t.size + 1) id

/-- Whether `above` is on the way from `id` to the root, `id` itself
apart. -/
def isStrictAncestor (t : ScopeTree κ) (above id : ScopeId) : Bool :=
  above != id && (t.ancestors id).contains above

variable [DecidableEq κ]

/-- What a path is bound to in this very node. -/
def binding? (t : ScopeTree κ) (id : ScopeId) (key : κ) : Option SetId :=
  (t.nodes[id]?).bind fun node => node.bindings.get? key

/-- The nearest node from `id` on that binds the path, and the set it is
bound to there. -/
def lookup (t : ScopeTree κ) (id : ScopeId) (key : κ) : Option (ScopeId × SetId) :=
  (t.ancestors id).findSome? fun scope => (t.binding? scope key).map (scope, ·)

/-- Bind a path in a node; without that node nothing happens. -/
def bind (t : ScopeTree κ) (id : ScopeId) (key : κ) (set : SetId) : ScopeTree κ :=
  ⟨t.nodes.modify id fun node => { node with bindings := node.bindings.insert key set }⟩

end ScopeTree

end PathQuery
