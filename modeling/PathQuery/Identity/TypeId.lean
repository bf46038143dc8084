/-
Identities of schema types.

A type is identified by the digest of its qualified name, so a type can
be referred to before it is registered, or without ever being. The word
zero is set aside for the empty set before a type was chosen for it.
-/
import PathQuery.Digest.Hex
import PathQuery.Identity.Digest
import PathQuery.Name

namespace PathQuery

/-- The identity of a schema type. -/
structure TypeId where
  bits : UInt64
  deriving DecidableEq, Inhabited

namespace TypeId

/-- The type of an empty set nothing has typed yet. -/
def empty : TypeId := ⟨0⟩

def isEmpty (t : TypeId) : Bool := t == empty

/-- How a type shows that no schema knows. -/
def display (t : TypeId) : String := "TypeId(" ++ Hex.word t.bits ++ ")"

/-- Keeps the words of types apart from the words of paths. -/
def domain : UInt64 := 0x2fac10b63a6cc57c

variable [NameDigest]

/-- The type with the qualified name `name`. -/
def ofName (name : String) : TypeId := ⟨domain ^^^ NameDigest.digest name⟩

def ofQualified (name : QualifiedName) : TypeId := ofName name.text

-- ====================================================== built-in types

def bool : TypeId := ofName "std::bool"
def int : TypeId := ofName "std::int"
def float : TypeId := ofName "std::float"
def str : TypeId := ofName "std::str"

/-- The type every object type extends. -/
def object : TypeId := ofName "std::Object"

end TypeId

end PathQuery
