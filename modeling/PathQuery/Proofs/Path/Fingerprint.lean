/-
Which paths have one fingerprint.

A pointer multiplies a fingerprint by the separator and adds a word of its
own. The separator is odd, so a step can be undone, whatever the words of
the pointers are: two paths that follow the same pointers have one
fingerprint only if they had one where they started
(`PathId.extendAll_eq_iff`), and no two types and no two sets start with
one.

How far the order of steps counts is another matter. Two pointers that
change places change the fingerprint by the difference of their words,
times one less than the separator. That is four times an odd word, so the
two topmost bits of the difference are lost, and no more than these
(`PathId.extend_swap_iff`).
-/
import Mathlib.Data.Nat.Bitwise
import Mathlib.Data.Nat.ModEq
import PathQuery.Proofs.Store.CanonicalPath

namespace PathQuery

namespace PathId

-- ======================================================== 64-bit words

section

variable {x y u v : UInt64}

/-- A factor that has an inverse can be cancelled. -/
theorem mul_right_cancel_iff (h : u * v = 1) : x * u = y * u ↔ x = y := by
  constructor
  · intro hxy
    calc x = x * u * v := by rw [UInt64.mul_assoc, h, UInt64.mul_one]
      _ = y * u * v := by rw [hxy]
      _ = y := by rw [UInt64.mul_assoc, h, UInt64.mul_one]
  · rintro rfl
    rfl

/-- A factor of four loses the two topmost bits. -/
theorem mul_four_eq_iff : x * 4 = y * 4 ↔ x.toNat ≡ y.toNat [MOD 2 ^ 62] := by
  have hfour : (4 : UInt64).toNat = 4 := rfl
  rw [← UInt64.toNat_inj, UInt64.toNat_mul, UInt64.toNat_mul, hfour]
  unfold Nat.ModEq
  omega

/-- Whether words agree in their lower bits does not change where some bits
are flipped in both. -/
theorem xor_modEq_iff {n : Nat} :
    (u ^^^ x).toNat ≡ (u ^^^ y).toNat [MOD 2 ^ n]
      ↔ x.toNat ≡ y.toNat [MOD 2 ^ n] := by
  unfold Nat.ModEq
  rw [UInt64.toNat_xor, UInt64.toNat_xor, Nat.xor_mod_two_pow, Nat.xor_mod_two_pow,
    Nat.xor_right_injective.eq_iff]

/-- The separator is odd. -/
theorem separator_inverse : separator * 0xd3f20f0a40208825 = 1 := by decide

/-- One less than the separator is four times a word that is odd. -/
theorem separator_sub_one : separator - 1 = 0x12f2535af41814eb * 4 := by decide

theorem quarter_inverse : 0x12f2535af41814eb * 0x4df996449227f3c3 = (1 : UInt64) := by
  decide

theorem mul_separator_sub_one_eq_iff :
    x * (separator - 1) = y * (separator - 1)
      ↔ x.toNat ≡ y.toNat [MOD 2 ^ 62] := by
  rw [separator_sub_one, UInt64.mul_comm _ 4, ← UInt64.mul_assoc, ← UInt64.mul_assoc,
    mul_right_cancel_iff quarter_inverse, mul_four_eq_iff]

end

-- ============================================================== starts

theorem root_injective : Function.Injective root := by
  intro s t h
  have hbits := congrArg bits h
  unfold root at hbits
  rw [UInt64.xor_right_inj] at hbits
  cases s
  cases t
  exact congrArg TypeId.mk hbits

/-- Two sets start with one fingerprint exactly if their numbers are one in
64 bits. -/
theorem anchored_eq_iff {a b : Nat} :
    anchored a = anchored b ↔ a.toUInt64 = b.toUInt64 := by
  unfold anchored
  rw [PathId.mk.injEq, UInt64.xor_right_inj, mul_right_cancel_iff separator_inverse]

theorem anchored_injective :
    Function.Injective fun anchor : UInt64 => anchored anchor.toNat := by
  intro a b h
  simpa using anchored_eq_iff.1 h

-- =============================================================== steps

variable [NameDigest] {p q : PathId} {name other : String}

/-- The fingerprint some pointers further. -/
def extendAll (p : PathId) (names : List String) : PathId := names.foldl extend p

theorem extendAll_cons (p : PathId) (name : String) (names : List String) :
    p.extendAll (name :: names) = (p.extend name).extendAll names := rfl

/-- The key of a path some pointers further. -/
theorem key_follow (p : CanonicalPath) (names : List String) :
    ((p.follow names).key : PathId) = (p.key : PathId).extendAll names := by
  induction names generalizing p with
  | nil => rfl
  | cons name names ih => exact ih (p.step name)

theorem extend_eq_iff : p.extend name = q.extend name ↔ p = q := by
  cases p
  cases q
  unfold extend
  rw [PathId.mk.injEq, PathId.mk.injEq, UInt64.add_left_inj,
    mul_right_cancel_iff separator_inverse]

/-- Following the same pointers parts no paths and joins none. -/
theorem extendAll_eq_iff {names : List String} :
    p.extendAll names = q.extendAll names ↔ p = q := by
  induction names generalizing p q with
  | nil => rfl
  | cons name names ih => exact ih.trans extend_eq_iff

/-- The words of two pointers agree in their lower bits as the digests of
their names do. -/
theorem stepWord_modEq_iff {n : Nat} :
    (stepWord name).toNat ≡ (stepWord other).toNat [MOD 2 ^ n]
      ↔ (NameDigest.digest name).toNat
        ≡ (NameDigest.digest other).toNat [MOD 2 ^ n] :=
  xor_modEq_iff

/-- Two pointers may change places exactly if their words agree up to the
two topmost bits. -/
theorem extend_swap_iff :
    (p.extend name).extend other = (p.extend other).extend name
      ↔ (stepWord name).toNat ≡ (stepWord other).toNat [MOD 2 ^ 62] := by
  have hswap : ∀ x a b : UInt64, (x * separator + a) * separator + b
        = (x * separator + b) * separator + a
      ↔ a * (separator - 1) = b * (separator - 1) := by
    intro x a b
    grind
  unfold extend
  rw [PathId.mk.injEq, hswap, mul_separator_sub_one_eq_iff]

/-- What follows after does not undo the order. -/
theorem extendAll_swap_iff {after : List String} :
    p.extendAll (name :: other :: after) = p.extendAll (other :: name :: after)
      ↔ (stepWord name).toNat ≡ (stepWord other).toNat [MOD 2 ^ 62] := by
  rw [extendAll_cons, extendAll_cons, extendAll_cons, extendAll_cons,
    extendAll_eq_iff, extend_swap_iff]

/-- Following the same pointers two paths get one fingerprint only if they
started with one. Types start apart, and so do sets, so the same pointers
lead from two of them to two fingerprints. Two pointers in a row may change
places, whatever comes before and after them, exactly if their words, or
what they are digested to, differ by a multiple of `2 ^ 62`. -/
theorem collides_iff :
    (∀ names : List String, Function.Injective fun p : PathId => p.extendAll names)
      ∧ (∀ (p q : CanonicalPath) (names : List String),
        ((p.follow names).key : PathId) = (q.follow names).key
          ↔ (p.key : PathId) = q.key)
      ∧ Function.Injective root
      ∧ (Function.Injective fun anchor : UInt64 => anchored anchor.toNat)
      ∧ (∀ (s t : TypeId) (names : List String),
        (((CanonicalPath.root s).follow names).key : PathId)
            = ((CanonicalPath.root t).follow names).key ↔ s = t)
      ∧ (∀ (a b : UInt64) (names : List String),
        (((CanonicalPath.anchor a.toNat).follow names).key : PathId)
            = ((CanonicalPath.anchor b.toNat).follow names).key ↔ a = b)
      ∧ ∀ (p : PathId) (name other : String) (after : List String),
        (p.extendAll (name :: other :: after) = p.extendAll (other :: name :: after)
            ↔ (stepWord name).toNat ≡ (stepWord other).toNat [MOD 2 ^ 62])
          ∧ ((stepWord name).toNat ≡ (stepWord other).toNat [MOD 2 ^ 62]
            ↔ (NameDigest.digest name).toNat
              ≡ (NameDigest.digest other).toNat [MOD 2 ^ 62]) := by
  have hsame : ∀ (p q : CanonicalPath) (names : List String),
      ((p.follow names).key : PathId) = (q.follow names).key
        ↔ (p.key : PathId) = q.key := by
    intro p q names
    rw [key_follow, key_follow, extendAll_eq_iff]
  exact ⟨fun names p q => extendAll_eq_iff.1, hsame, root_injective, anchored_injective,
    fun s t names => (hsame (.root s) (.root t) names).trans root_injective.eq_iff,
    fun a b names => (hsame (.anchor a.toNat) (.anchor b.toNat) names).trans
      anchored_injective.eq_iff,
    fun p name other after => ⟨extendAll_swap_iff, stepWord_modEq_iff⟩⟩

end PathId

-- ============================================================= examples

open scoped Xxh64

/-- The owner of a name and the name of an owner. -/
example : PathId.extendAll (.root (.ofName "test::Issue")) ["owner", "name"]
    ≠ PathId.extendAll (.root (.ofName "test::Issue")) ["name", "owner"] := by
  decide +kernel

end PathQuery
