/-
The cardinality of a set, as seen from a scope node.

A set that lives in a node strictly above the viewpoint is iterated
there one element at a time, so from the viewpoint it counts as one
value. Any other path set has as many elements as the set it goes on
from, times what the pointer allows; any other set has the cardinality
it was made with.
-/
import PathQuery.Compile.Context

namespace PathQuery

variable {κ : Type}

/-- How many elements the set `id` has, seen from the scope node
`viewpoint`; nothing if there is no such set. -/
def Store.judge? (st : Store κ) (viewpoint : ScopeId) (id : SetId) : Option Cardinality :=
  match h : st.arena.get? id with
  | none => none
  | some node =>
    if st.scopes.isStrictAncestor node.scope viewpoint then some .one
    else
      match ho : node.origin with
      | .step source _ perSource =>
        have : source < id := st.arena.lt_of_source h (by rw [ho]; rfl)
        (st.judge? viewpoint source).map fun c => c.mul perSource
      | .root | .computed _ => some node.cardinality
termination_by id

namespace CompileM

/-- How many elements a set has, seen from the active scope node. -/
def judge (id : SetId) : CompileM κ Cardinality := do
  orFail ((← store).judge? (← frame).scope id) (.internal (.danglingSet id))

/-- A set that must have at most one element for one evaluation of the
active scope node. -/
def requireSingleton (id : SetId) : CompileM κ Unit := do
  if (← judge id).isSingleton then return
  fail (.notSingleton (← frame).clause (← getSet id).span)

end CompileM

end PathQuery
