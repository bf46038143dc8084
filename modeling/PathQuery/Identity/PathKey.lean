/-
Identities of paths.

A canonical path is where a path starts, a type's objects or some other
set, and the pointers followed from there. Compilation recognises a
path it has met by a *key*, built up along the path: the key of its
start, extended once per pointer. `PathKey` says no more than that, so
compilation can be studied with any keys, in particular with the
canonical path as its own key, which no two paths share. Programs run
with `PathId`, a 64-bit word. Two paths may share one, so a hit is always
checked against the path it stands for.
-/
import PathQuery.Identity.TypeId

namespace PathQuery

/-- What a path starts from and which pointers it follows. -/
inductive CanonicalPath where
  /-- All objects of a type. -/
  | root (type : TypeId)
  /-- The set with this number, which is not itself a path. -/
  | anchor (set : Nat)
  /-- One pointer further. -/
  | step (source : CanonicalPath) (pointer : String)
  deriving DecidableEq, Inhabited

/-- Keys that paths are recognised by, built along the path. -/
class PathKey (κ : Type) where
  root : TypeId → κ
  anchored : Nat → κ
  extend : κ → String → κ

/-- The key of a canonical path. -/
def CanonicalPath.key {κ : Type} [PathKey κ] : CanonicalPath → κ
  | root type => PathKey.root type
  | anchor set => PathKey.anchored set
  | step source pointer => PathKey.extend source.key pointer

/-- A canonical path can serve as its own key. -/
instance CanonicalPath.pathKey : PathKey CanonicalPath where
  root := .root
  anchored := .anchor
  extend := .step

/-- The key of a canonical path, among canonical paths, is the path. -/
@[simp] theorem CanonicalPath.key_self (p : CanonicalPath) : (p.key : CanonicalPath) = p := by
  induction p with
  | root => rfl
  | anchor => rfl
  | step source pointer ih => simp [key, PathKey.extend, ih]

-- ======================================================== fingerprints

/-- A 64-bit fingerprint of a path. -/
structure PathId where
  bits : UInt64
  deriving DecidableEq, Inhabited

namespace PathId

/-- Keeps the starts at a type apart from other words. -/
def rootDomain : UInt64 := 0x6a09e667f3bcc909

/-- Keeps the starts at a set apart from other words. -/
def anchorDomain : UInt64 := 0x3c6ef372fe94f82b

/-- Keeps the words of pointers apart from other words. -/
def stepDomain : UInt64 := 0xbb67ae8584caa73b

/-- Multiplied in before each step, so the order of steps counts. -/
def separator : UInt64 := 0x4bc94d6bd06053ad

def display (p : PathId) : String := "PathId(" ++ Hex.word p.bits ++ ")"

/-- The fingerprint of all objects of a type. -/
def root (type : TypeId) : PathId := ⟨rootDomain ^^^ type.bits⟩

/-- The fingerprint of a set that is not itself a path. -/
def anchored (set : Nat) : PathId := ⟨anchorDomain ^^^ (set.toUInt64 * separator)⟩

variable [NameDigest]

/-- What a pointer adds to a fingerprint. -/
def stepWord (pointer : String) : UInt64 := stepDomain ^^^ NameDigest.digest pointer

/-- The fingerprint one pointer further. -/
def extend (p : PathId) (pointer : String) : PathId :=
  ⟨p.bits * separator + stepWord pointer⟩

/-- Fingerprints as keys. -/
instance pathKey : PathKey PathId where
  root := root
  anchored := anchored
  extend := extend

end PathId

end PathQuery
