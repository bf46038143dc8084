/-
The digest of a name.

Types and paths are identified by 64-bit words computed from names. How
a name becomes a word is a parameter of the whole library: definitions
take a `NameDigest`, and a statement about them holds for every digest,
the ones with collisions included. Programs open the scope of
`PathQuery.Xxh64` to run with the 64-bit xxHash.
-/
import PathQuery.Digest.Xxh64

namespace PathQuery

/-- A way to condense a name into one word. -/
class NameDigest where
  digest : String → UInt64

/-- The xxHash of the name's UTF-8 bytes. -/
scoped instance Xxh64.nameDigest : NameDigest where
  digest name := Xxh64.hash name.toUTF8.toList

end PathQuery
