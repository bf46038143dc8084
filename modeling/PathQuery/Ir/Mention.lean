/-
The sets that a set refers to.

A set names other sets in its origin: the source of a pointer, the
operands of an operation, and for a subquery everything that its
statement names, shapes at every depth included.
-/
import PathQuery.Ir.Basic

namespace PathQuery.Ir

mutual

/-- The sets that an element of a shape names. -/
def ShapeNode.mentions : ShapeNode → List SetId
  | .mk _ set _ elements => set :: mentionsOf elements
termination_by structural node => node

/-- The sets that a shape names. -/
def ShapeNode.mentionsOf : List ShapeNode → List SetId
  | [] => []
  | node :: rest => node.mentions ++ mentionsOf rest
termination_by structural nodes => nodes

end

/-- The sets that a statement names. -/
def Statement.mentions (stmt : Statement) : List SetId :=
  stmt.result :: ShapeNode.mentionsOf stmt.shape ++ stmt.filter.toList ++ stmt.groupBy
    ++ stmt.orderBy.map SortKey.key ++ stmt.offset.toList ++ stmt.limit.toList

/-- The operands of an operation. -/
def Operation.mentions : Operation → List SetId
  | constant _ | emptySet => []
  | binary left _ right => [left, right]
  | unary _ operand => [operand]
  | call _ args _ => args
  | cast operand _ _ => [operand]
  | union members => members
  | subquery statement => statement.mentions
  | reference set => [set]

/-- The sets that the elements of a set come from. -/
def Origin.mentions : Origin → List SetId
  | root => []
  | step source _ _ => [source]
  | computed operation => operation.mentions

theorem Statement.mem_mentions {stmt : Statement} {id : SetId} :
    id ∈ stmt.mentions ↔
      id = stmt.result ∨ id ∈ ShapeNode.mentionsOf stmt.shape ∨ stmt.filter = some id
        ∨ id ∈ stmt.groupBy ∨ (∃ k ∈ stmt.orderBy, k.key = id) ∨ stmt.offset = some id
        ∨ stmt.limit = some id := by
  simp only [mentions, List.mem_append, List.mem_cons, List.mem_map, Option.mem_toList,
    or_assoc]

/-- A limit is all that a statement names when it is given one. -/
theorem Statement.mem_mentions_limit {stmt : Statement} {id limit : SetId} {c : Cardinality}
    (h : id ∈ { stmt with limit := some limit, cardinality := c }.mentions) :
    id ∈ stmt.mentions ∨ id = limit := by
  rw [mem_mentions] at h ⊢
  rcases h with h | h | h | h | h | h | h
  · exact .inl (.inl h)
  · exact .inl (.inr (.inl h))
  · exact .inl (.inr (.inr (.inl h)))
  · exact .inl (.inr (.inr (.inr (.inl h))))
  · exact .inl (.inr (.inr (.inr (.inr (.inl h)))))
  · exact .inl (.inr (.inr (.inr (.inr (.inr (.inl h))))))
  · exact .inr (Option.some.inj h).symm

end PathQuery.Ir
