import Mathlib.Algebra.Ring.Nat
import Mathlib.Data.Nat.Init
import Mathlib.Data.List.Basic

/-! # Machine words in memory

Fixed-width words as little-endian bytes, the reversal of their byte order, and
reading a field out of a block of bytes by its offset and size.

`leValue_leBytes` and `leBytes_leValue` say that the two directions are inverse,
`swap_swap` that reversing the byte order twice is the identity, and the `field`
lemmas find a field in a block that is written as a concatenation.
-/

namespace Libcmm.Lib

/-- The low bytes of a number, least significant first. -/
def leBytes : Nat → Nat → List UInt8
  | 0, _ => []
  | count + 1, value => UInt8.ofNat value :: leBytes count (value / 256)

/-- The number whose bytes these are, least significant first. -/
def leValue : List UInt8 → Nat
  | [] => 0
  | byte :: rest => byte.toNat + 256 * leValue rest

@[simp] theorem length_leBytes (count value : Nat) : (leBytes count value).length = count := by
  induction count generalizing value with
  | zero => rfl
  | succ count ih => rw [leBytes, List.length_cons, ih]

theorem leValue_lt (bytes : List UInt8) : leValue bytes < 256 ^ bytes.length := by
  induction bytes with
  | nil => exact Nat.one_pos
  | cons byte rest ih =>
      have small := byte.toNat_lt
      rw [leValue, List.length_cons, Nat.pow_succ]
      omega

/-- A number that fits is read back. -/
theorem leValue_leBytes {count value : Nat} (fits : value < 256 ^ count) :
    leValue (leBytes count value) = value := by
  induction count generalizing value with
  | zero =>
      rw [Nat.pow_zero] at fits
      exact (Nat.lt_one_iff.mp fits).symm
  | succ count ih =>
      have rest : value / 256 < 256 ^ count := by
        rw [Nat.pow_succ] at fits
        exact Nat.div_lt_of_lt_mul (by rwa [Nat.mul_comm])
      rw [leBytes, leValue, ih rest, UInt8.toNat_ofNat']
      exact Nat.mod_add_div value 256

/-- The bytes of the number some bytes stand for are these bytes. -/
theorem leBytes_leValue (bytes : List UInt8) : leBytes bytes.length (leValue bytes) = bytes := by
  induction bytes with
  | nil => rfl
  | cons byte rest ih =>
      have small := byte.toNat_lt
      have low : UInt8.ofNat (byte.toNat + 256 * leValue rest) = byte := by
        apply UInt8.toNat.inj
        rw [UInt8.toNat_ofNat']
        omega
      have high : (byte.toNat + 256 * leValue rest) / 256 = leValue rest := by omega
      rw [List.length_cons, leValue, leBytes, low, high, ih]

/-- A word with its bytes in reverse order. -/
def swap (count value : Nat) : Nat := leValue (leBytes count value).reverse

theorem swap_lt (count value : Nat) : swap count value < 256 ^ count := by
  have bound := leValue_lt (leBytes count value).reverse
  rwa [List.length_reverse, length_leBytes] at bound

/-- Reversing the byte order twice changes nothing. -/
theorem swap_swap {count value : Nat} (fits : value < 256 ^ count) :
    swap count (swap count value) = value := by
  have bytes : leBytes count (swap count value) = (leBytes count value).reverse := by
    have known := leBytes_leValue (leBytes count value).reverse
    rwa [List.length_reverse, length_leBytes] at known
  calc swap count (swap count value)
      = leValue (leBytes count (swap count value)).reverse := rfl
    _ = leValue (leBytes count value) := by rw [bytes, List.reverse_reverse]
    _ = value := leValue_leBytes fits

/-! ### Fields of a block -/

/-- The field of a block with a given offset and size. -/
def field (offset size : Nat) (block : List UInt8) : List UInt8 := (block.drop offset).take size

/-- The first part of a block. -/
theorem field_head {head : List UInt8} {size : Nat} (sized : head.length = size)
    (rest : List UInt8) : field 0 size (head ++ rest) = head := by
  rw [field, List.drop_zero, ← sized, List.take_left]

/-- A field beyond the first part of a block. -/
theorem field_tail {head : List UInt8} {offset : Nat} (beyond : head.length ≤ offset) (size : Nat)
    (rest : List UInt8) :
    field offset size (head ++ rest) = field (offset - head.length) size rest := by
  rw [field, field, List.drop_append, List.drop_eq_nil_of_le beyond, List.nil_append]

end Libcmm.Lib
