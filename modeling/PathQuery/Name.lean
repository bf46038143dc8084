/-
Names of schema items.

A name is a simple name, placed in a module or not. In text the two
parts are joined by `::`, and reading a name back splits at the *last*
`::`, so a module may itself contain separators (`a::b::T` is `T` in
`a::b`) while a simple name that was read never does. A separator with
nothing before it qualifies nothing: `::T` reads as the bare `T`.
-/

namespace PathQuery

/-- A simple name and the module that holds it, if one is given. -/
structure QualifiedName where
  module : Option String
  name : String
  deriving DecidableEq, Inhabited

namespace QualifiedName

-- ============================================================= reading

/-- What stands before and after the last `::`, if there is one. The
tail is searched first, so a later separator wins over an earlier one,
also where they overlap. -/
def splitLast : List Char → Option (List Char × List Char)
  | [] => none
  | c :: rest =>
    match splitLast rest with
    | some (before, after) => some (c :: before, after)
    | none =>
      match rest with
      | ':' :: after => if c = ':' then some ([], after) else none
      | _ => none

/-- Read a name as written. -/
def parse (text : String) : QualifiedName :=
  match splitLast text.toList with
  | some ([], after) => ⟨none, String.ofList after⟩
  | some (before, after) => ⟨some (String.ofList before), String.ofList after⟩
  | none => ⟨none, text⟩

-- ============================================================= writing

/-- The simple name `name` in `module`. -/
def within (module name : String) : QualifiedName := ⟨some module, name⟩

/-- A name with no module. -/
def bare (name : String) : QualifiedName := ⟨none, name⟩

/-- The same simple name in another module. -/
def withModule (n : QualifiedName) (module : String) : QualifiedName :=
  within module n.name

def isQualified (n : QualifiedName) : Bool := n.module.isSome

/-- The text of a name, as diagnostics give it and identities hash it. -/
def text (n : QualifiedName) : String :=
  match n.module with
  | some module => module ++ "::" ++ n.name
  | none => n.name

instance : ToString QualifiedName := ⟨text⟩

-- =============================================================== order

/-- Bare names come first, then modules in order, then simple names. -/
def order (a b : QualifiedName) : Ordering :=
  match a.module, b.module with
  | none, none => compare a.name b.name
  | none, some _ => .lt
  | some _, none => .gt
  | some m, some n => (compare m n).then (compare a.name b.name)

end QualifiedName

end PathQuery
