/-
Two searches of a finite graph, given by the successors of a node.

`levelOrder` lists what can be reached, nearest first: each round
appends, in order, the successors that the list so far lacks. A queue
would visit the nodes in the same order, since the successors of older
nodes are in the list already and those of the last round come in the
order of that round.

`meets` asks whether one node can be reached, a layer at a time and
without a list of what was seen.

Both run for a given number of rounds. With as many rounds as the graph
has nodes nothing is cut off, because a shortest path visits no node
twice.
-/

namespace PathQuery.Search

variable {α : Type} [DecidableEq α]

/-- The successors of the nodes `seen` that are not among them, each
once, in the order they are met. -/
def fresh (next : α → List α) (seen : List α) : List α :=
  ((seen.flatMap next).filter (fun a => a ∉ seen)).eraseDups

/-- The nodes within `rounds` steps of the nodes `seen`, by distance. -/
def levelOrder (next : α → List α) : (rounds : Nat) → (seen : List α) → List α
  | 0, seen => seen
  | rounds + 1, seen =>
    match fresh next seen with
    | [] => seen
    | found => levelOrder next rounds (seen ++ found)

/-- Whether `goal` is within `rounds` steps of the nodes `layer`. -/
def meets (next : α → List α) (goal : α) : (rounds : Nat) → (layer : List α) → Bool
  | _, [] => false
  | 0, layer => layer.contains goal
  | rounds + 1, layer =>
    layer.contains goal || meets next goal rounds (layer.flatMap next).eraseDups

end PathQuery.Search
