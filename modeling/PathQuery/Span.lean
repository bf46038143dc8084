/-
Source positions.

A span is where a node of a query was written. It travels unchanged
from the tree to the compiled sets and into every diagnostic. Only
`cover` computes with spans; everything else copies them.
-/

namespace PathQuery

/-- A region of query text. -/
structure Span where
  /-- Line number, from one. -/
  line : Nat
  /-- Column in bytes, from one. -/
  col : Nat
  /-- Length in bytes. -/
  length : Nat
  deriving DecidableEq, Inhabited

namespace Span

/-- The span of nothing in particular: diagnostics that have no place
in the text carry it. -/
def unknown : Span := ⟨0, 0, 0⟩

/-- The empty region at a position. -/
def point (line col : Nat) : Span := ⟨line, col, 0⟩

def isEmpty (s : Span) : Bool := s.length == 0

/-- The region from `s` to `t`. On one line it is the least region that
holds both. Across lines there is no such region, and the result starts
where `s` starts with the two lengths added. -/
def cover (s t : Span) : Span :=
  if s.line = t.line then
    let start := min s.col t.col
    ⟨s.line, start, max (s.col + s.length) (t.col + t.length) - start⟩
  else { s with length := s.length + t.length }

/-- The position as diagnostics give it. -/
def position (s : Span) : String :=
  toString s.line ++ ":" ++ toString s.col

/-- The position and the length. -/
def extent (s : Span) : String :=
  s.position ++ "+" ++ toString s.length

/-- On one line the covered region starts no later than either part. -/
theorem cover_col_le (s t : Span) (h : s.line = t.line) :
    (s.cover t).col ≤ s.col ∧ (s.cover t).col ≤ t.col := by
  simp only [cover, h, if_true]
  omega

end Span

end PathQuery
