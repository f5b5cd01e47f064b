import Mathlib.Data.List.Induction
import Mathlib.Algebra.Order.Ring.Nat
import Mathlib.Tactic.Ring

/-!
# Big-endian words

A number as a fixed number of bytes, most significant byte first.
-/

namespace Igloo

namespace BigEndian

/-- The low `width` bytes of a number. -/
def encode : Nat → Nat → List UInt8
  | 0, _ => []
  | width + 1, number => encode width (number / 256) ++ [UInt8.ofNat number]

def decode (bytes : List UInt8) : Nat :=
  bytes.foldl (fun number byte => number * 256 + byte.toNat) 0

@[simp]
theorem length_encode (width number : Nat) :
    (encode width number).length = width := by
  induction width generalizing number with
  | zero => rfl
  | succ width induction => simp [encode, induction]

theorem decode_concat (bytes : List UInt8) (byte : UInt8) :
    decode (bytes ++ [byte]) = decode bytes * 256 + byte.toNat := by
  simp [decode]

theorem decode_encode {width number : Nat} (bounded : number < 256 ^ width) :
    decode (encode width number) = number := by
  induction width generalizing number with
  | zero =>
      have : number = 0 := by simpa using bounded
      subst number
      rfl
  | succ width induction =>
      have quotient : number / 256 < 256 ^ width := by
        rw [Nat.div_lt_iff_lt_mul (by decide)]
        rwa [pow_succ] at bounded
      rw [encode, decode_concat, induction quotient]
      simp only [UInt8.toNat_ofNat']
      omega

theorem encode_decode (bytes : List UInt8) :
    encode bytes.length (decode bytes) = bytes := by
  induction bytes using List.reverseRecOn with
  | nil => rfl
  | append_singleton bytes byte induction =>
      have small : byte.toNat < 256 := byte.toNat_lt
      have quotient : (decode bytes * 256 + byte.toNat) / 256 = decode bytes := by
        omega
      have low : UInt8.ofNat (decode bytes * 256 + byte.toNat) = byte := by
        rw [← UInt8.toNat_inj, UInt8.toNat_ofNat']
        omega
      rw [List.length_append, List.length_singleton, encode, decode_concat,
        quotient, induction, low]

theorem decode_lt (bytes : List UInt8) :
    decode bytes < 256 ^ bytes.length := by
  induction bytes using List.reverseRecOn with
  | nil => decide
  | append_singleton bytes byte induction =>
      have small : byte.toNat < 256 := byte.toNat_lt
      rw [decode_concat, List.length_append, List.length_singleton, pow_succ]
      omega

end BigEndian

end Igloo
