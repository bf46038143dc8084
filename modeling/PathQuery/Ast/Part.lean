/-
The parts of a statement.

Around its result a statement has parts: elements of its shape, a filter,
keys to group and to sort by, and a number of elements to skip and one of
elements to keep. They come in the order of `parts`. A statement can be
written with one of its parts `only`, or with none (`bare`).
-/
import PathQuery.Ast.Basic

namespace PathQuery.Ast

/-- What a statement may have besides its result. -/
inductive Part where
  | element (e : ShapeElement)
  | filter (e : Expr)
  | groupBy (e : Expr)
  | orderBy (key : SortKey)
  | offset (e : Expr)
  | limit (e : Expr)

namespace Select

/-- The parts of a statement, in the order in which they are compiled. -/
def parts (q : Select) : List Part :=
  q.shape.map .element ++ (q.filter.toList.map .filter
    ++ (q.groupBy.map .groupBy ++ (q.orderBy.map .orderBy
      ++ (q.offset.toList.map .offset ++ q.limit.toList.map .limit))))

/-- A statement without its parts. -/
def bare (q : Select) : Select :=
  { q with
    shape := [], filter := none, groupBy := [], orderBy := [], offset := none,
    limit := none }

/-- A statement with one part, and no other. -/
def only (q : Select) : Part → Select
  | .element e => { q.bare with shape := [e] }
  | .filter e => { q.bare with filter := some e }
  | .groupBy e => { q.bare with groupBy := [e] }
  | .orderBy key => { q.bare with orderBy := [key] }
  | .offset e => { q.bare with offset := some e }
  | .limit e => { q.bare with limit := some e }

/-- Two statements select the same under the same modules. What their
parts are does not matter. -/
structure Akin (q q' : Select) : Prop where
  modules : q'.modules = q.modules
  result : q'.result = q.result

theorem akin_only (q : Select) (p : Part) : q.Akin (q.only p) := by
  cases p <;> exact ⟨rfl, rfl⟩

@[simp] theorem parts_only (q : Select) (p : Part) : (q.only p).parts = [p] := by
  cases p <;> rfl

/-- One element has a name of its own. -/
theorem nodup_only (q : Select) (p : Part) :
    ((q.only p).shape.map ShapeElement.name).Nodup := by
  cases p with
  | element e => exact List.pairwise_singleton _ _
  | _ => exact List.Pairwise.nil

/-- A part that is an element is one of a shape. -/
theorem shape_of_only {q q' : Select} {p : Part} (hp : p ∈ q'.parts)
    (h : (q.only p).shape ≠ []) : q'.shape ≠ [] := by
  cases p with
  | element e =>
      intro hnil
      simp [parts, hnil] at hp
  | _ => exact absurd rfl h

end Select

end PathQuery.Ast
