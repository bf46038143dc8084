/-
A 64-bit word as sixteen lower-case hexadecimal digits, most
significant first. Identities are shown in this form, so its width is
fixed: leading zeros are kept.
-/

namespace PathQuery.Hex

/-- The digits in order of value. -/
def digits : List Char :=
  ['0', '1', '2', '3', '4', '5', '6', '7', '8', '9', 'a', 'b', 'c', 'd', 'e', 'f']

/-- The digit at place `i`, where place 0 is the least significant. -/
def digitAt (word : UInt64) (i : Nat) : Char :=
  (digits[(word.toNat >>> (4 * i)) % 16]?).getD '0'

/-- Sixteen digits after the mark `0x`. -/
def word (w : UInt64) : String :=
  String.ofList ('0' :: 'x' :: (List.range 16).map fun i => digitAt w (15 - i))

end PathQuery.Hex
