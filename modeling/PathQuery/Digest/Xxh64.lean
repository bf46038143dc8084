/-
The 64-bit xxHash of a byte string with seed zero.

The input is consumed in four layers, each a fold over what the layer
before it left: whole stripes of four words, whole words, one half
word, single bytes. The word read at an offset is little-endian. Every
operation wraps at 64 bits, so the definitions stay in `UInt64`.

Nothing downstream depends on this function but through the class
`NameDigest` (`Identity.Digest`); it is the instance that programs run
with.
-/

namespace PathQuery.Xxh64

-- ==================================================== mixing constants

def prime₁ : UInt64 := 0x9E3779B185EBCA87
def prime₂ : UInt64 := 0xC2B2AE3D27D4EB4F
def prime₃ : UInt64 := 0x165667B19E3779F9
def prime₄ : UInt64 := 0x85EBCA77C2B2AE63
def prime₅ : UInt64 := 0x27D4EB2F165667C5

-- ============================================================ one step

/-- Rotation towards the high end; `r` is between 1 and 63 in every use. -/
def rotateLeft (x r : UInt64) : UInt64 :=
  (x <<< r) ||| (x >>> (64 - r))

/-- One lane absorbs one word. -/
def absorb (lane word : UInt64) : UInt64 :=
  rotateLeft (lane + word * prime₂) 31 * prime₁

/-- One lane is folded into the running state. -/
def merge (state lane : UInt64) : UInt64 :=
  (state ^^^ absorb 0 lane) * prime₁ + prime₄

/-- The `width` bytes at `offset` as a little-endian number. -/
def wordAt (bytes : List UInt8) (offset width : Nat) : UInt64 :=
  ((bytes.drop offset).take width).foldr
    (fun byte word => (word <<< 8) ||| byte.toUInt64) 0

-- ========================================================== the layers

/-- The four lanes that whole stripes of 32 bytes are spread over. -/
structure Lanes where
  a : UInt64
  b : UInt64
  c : UInt64
  d : UInt64

/-- The lanes before the first stripe. -/
def Lanes.start : Lanes :=
  ⟨prime₁ + prime₂, prime₂, 0, 0 - prime₁⟩

/-- Each lane absorbs its word of the stripe at `offset`. -/
def Lanes.stripe (bytes : List UInt8) (l : Lanes) (offset : Nat) : Lanes :=
  ⟨absorb l.a (wordAt bytes offset 8),
   absorb l.b (wordAt bytes (offset + 8) 8),
   absorb l.c (wordAt bytes (offset + 16) 8),
   absorb l.d (wordAt bytes (offset + 24) 8)⟩

/-- The lanes joined into one state. -/
def Lanes.join (l : Lanes) : UInt64 :=
  let mixed := rotateLeft l.a 1 + rotateLeft l.b 7
    + rotateLeft l.c 12 + rotateLeft l.d 18
  [l.a, l.b, l.c, l.d].foldl merge mixed

/-- The state after the stripes: inputs shorter than one stripe skip
the lanes altogether. -/
def afterStripes (bytes : List UInt8) : UInt64 :=
  if bytes.length < 32 then prime₅
  else
    ((List.range (bytes.length / 32)).foldl
      (fun lanes i => lanes.stripe bytes (32 * i)) Lanes.start).join

/-- The state absorbs each whole word left over by the stripes. -/
def absorbWords (bytes : List UInt8) (state : UInt64) : UInt64 :=
  (List.range (bytes.length / 8)).foldl
    (fun h i => rotateLeft (h ^^^ absorb 0 (wordAt bytes (8 * i) 8)) 27 * prime₁ + prime₄)
    state

/-- The state absorbs a half word, if one is left. -/
def absorbHalf (bytes : List UInt8) (state : UInt64) : UInt64 :=
  if bytes.length < 4 then state
  else rotateLeft (state ^^^ (wordAt bytes 0 4 * prime₁)) 23 * prime₂ + prime₃

/-- The state absorbs the bytes that are left. -/
def absorbBytes (bytes : List UInt8) (state : UInt64) : UInt64 :=
  bytes.foldl (fun h byte => rotateLeft (h ^^^ (byte.toUInt64 * prime₅)) 11 * prime₁) state

/-- The closing mix, which lets every bit of the state reach every bit
of the result. -/
def avalanche (state : UInt64) : UInt64 :=
  let x := (state ^^^ (state >>> 33)) * prime₂
  let y := (x ^^^ (x >>> 29)) * prime₃
  y ^^^ (y >>> 32)

/-- The hash of a byte string. -/
def hash (bytes : List UInt8) : UInt64 :=
  let words := bytes.drop (32 * (bytes.length / 32))
  let half := words.drop (8 * (words.length / 8))
  let rest := half.drop (4 * (half.length / 4))
  let state := afterStripes bytes + bytes.length.toUInt64
  avalanche (absorbBytes rest (absorbHalf half (absorbWords words state)))

end PathQuery.Xxh64
