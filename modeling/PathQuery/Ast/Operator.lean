/-
Operators and sort modifiers, with their spelling.
-/

namespace PathQuery

inductive BinaryOp where
  | or
  | and
  | eq
  | notEq
  | lt
  | ltEq
  | gt
  | gtEq
  | add
  | sub
  | mul
  | div
  | mod
  | concat
  deriving DecidableEq, Inhabited

namespace BinaryOp

def isLogical : BinaryOp → Bool
  | or | and => true
  | _ => false

/-- Equality, which compares objects as well as scalars. -/
def isEquality : BinaryOp → Bool
  | eq | notEq => true
  | _ => false

def isComparison : BinaryOp → Bool
  | eq | notEq | lt | ltEq | gt | gtEq => true
  | _ => false

def isArithmetic : BinaryOp → Bool
  | add | sub | mul | div | mod => true
  | _ => false

def spelling : BinaryOp → String
  | or => "OR"
  | and => "AND"
  | eq => "="
  | notEq => "!="
  | lt => "<"
  | ltEq => "<="
  | gt => ">"
  | gtEq => ">="
  | add => "+"
  | sub => "-"
  | mul => "*"
  | div => "/"
  | mod => "%"
  | concat => "++"

def all : List BinaryOp :=
  [or, and, eq, notEq, lt, ltEq, gt, gtEq, add, sub, mul, div, mod, concat]

/-- The operator with the given spelling. -/
def ofSpelling? (text : String) : Option BinaryOp :=
  all.find? fun op => op.spelling == text

theorem ofSpelling?_spelling (op : BinaryOp) : ofSpelling? op.spelling = some op := by
  cases op <;> decide

end BinaryOp

inductive UnaryOp where
  | not
  | neg
  | exists
  deriving DecidableEq, Inhabited

namespace UnaryOp

def spelling : UnaryOp → String
  | not => "NOT"
  | neg => "-"
  | «exists» => "EXISTS"

def all : List UnaryOp := [not, neg, «exists»]

/-- The operator with the given spelling. -/
def ofSpelling? (text : String) : Option UnaryOp :=
  all.find? fun op => op.spelling == text

theorem ofSpelling?_spelling (op : UnaryOp) : ofSpelling? op.spelling = some op := by
  cases op <;> decide

end UnaryOp

/-- The direction of a sort key, ascending where none is written. -/
inductive SortDirection where
  | ascending
  | descending
  deriving DecidableEq, Inhabited

def SortDirection.spelling : SortDirection → String
  | ascending => "ASC"
  | descending => "DESC"

/-- Where the elements for which a sort key is empty come. -/
inductive EmptyOrder where
  | first
  | last
  deriving DecidableEq, Inhabited

def EmptyOrder.spelling : EmptyOrder → String
  | first => "EMPTY FIRST"
  | last => "EMPTY LAST"

end PathQuery
