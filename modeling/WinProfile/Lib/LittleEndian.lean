/-
  File:      WinProfile/Lib/LittleEndian.lean
  Subject:   Numbers and 16-bit units in little-endian bytes, and fields that are read out of a
             longer row of bytes. Nothing here knows a program.

  * `leBytes`, `leNat` -- a number as so many bytes, and back.
  * `bytesOf`, `wordsOf` -- 16-bit units as bytes, and back.
  * `slice` -- the bytes from a place on; `slice_block` reads back a block that was written there.
-/
import Mathlib.Tactic

namespace WinProfile.LittleEndian

/-! ## 1. Numbers -/

/-- A number as `k` bytes, the lowest first. -/
def leBytes : Nat → Nat → List UInt8
  | 0, _ => []
  | k + 1, n => UInt8.ofNat (n % 256) :: leBytes k (n / 256)

/-- The number that bytes stand for. -/
def leNat : List UInt8 → Nat
  | [] => 0
  | b :: bs => b.toNat + 256 * leNat bs

@[simp] theorem length_leBytes (k n : Nat) : (leBytes k n).length = k := by
  induction k generalizing n with
  | zero => rfl
  | succ k ih => rw [leBytes, List.length_cons, ih]

/-- **A number is read back** from as many bytes as it needs. -/
theorem leNat_leBytes {k n : Nat} (h : n < 256 ^ k) : leNat (leBytes k n) = n := by
  induction k generalizing n with
  | zero =>
    have hzero : n = 0 := by simpa using h
    rw [hzero]
    rfl
  | succ k ih =>
    have hrest : n / 256 < 256 ^ k := by
      rw [Nat.pow_succ] at h
      exact Nat.div_lt_of_lt_mul (by omega)
    rw [leBytes, leNat, ih hrest, UInt8.toNat_ofNat']
    omega

/-! ## 2. Units -/

/-- Units as bytes, two each. -/
def bytesOf (w : List UInt16) : List UInt8 := w.flatMap fun u => leBytes 2 u.toNat

/-- The units of as many pairs of bytes. -/
def wordsOf : List UInt8 → List UInt16
  | a :: b :: rest => UInt16.ofNat (leNat [a, b]) :: wordsOf rest
  | _ => []

@[simp] theorem length_bytesOf (w : List UInt16) : (bytesOf w).length = 2 * w.length := by
  induction w with
  | nil => rfl
  | cons u w ih =>
    rw [bytesOf, List.flatMap_cons, List.length_append, length_leBytes, ← bytesOf, ih,
      List.length_cons]
    omega

/-- **Units are read back.** -/
theorem wordsOf_bytesOf (w : List UInt16) : wordsOf (bytesOf w) = w := by
  induction w with
  | nil => rfl
  | cons u w ih =>
    have hu : leNat (leBytes 2 u.toNat) = u.toNat := leNat_leBytes u.toNat_lt
    have hcons : bytesOf (u :: w) = leBytes 2 u.toNat ++ bytesOf w := rfl
    rw [hcons]
    show UInt16.ofNat (leNat (leBytes 2 u.toNat)) :: wordsOf (bytesOf w) = u :: w
    rw [hu, ih, UInt16.ofNat_toNat]

/-! ## 3. Fields -/

/-- `k` bytes from a place on. -/
def slice {α : Type} (bytes : List α) (offset k : Nat) : List α := (bytes.drop offset).take k

theorem slice_drop {α : Type} (bytes : List α) (o offset k : Nat) :
    slice bytes (o + offset) k = slice (bytes.drop o) offset k := by
  rw [slice, slice, List.drop_drop]

/-- **A block is read back** from where it was written. -/
theorem slice_block {α : Type} {pre block post : List α} {offset k : Nat}
    (hpre : pre.length = offset) (hblock : block.length = k) :
    slice (pre ++ (block ++ post)) offset k = block := by
  subst hpre hblock
  rw [slice, List.drop_left, List.take_left]

end WinProfile.LittleEndian
