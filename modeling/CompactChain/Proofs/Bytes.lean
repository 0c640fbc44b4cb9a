import CompactChain.Bytes
import Mathlib.Algebra.GroupWithZero.Nat

set_option autoImplicit false

namespace CompactChain.LittleEndian

theorem toNat_lt (bytes : Bytes) : toNat bytes < 256 ^ bytes.length := by
  induction bytes with
  | nil => simp [toNat]
  | cons byte rest ih =>
    have small := byte.toNat_lt
    simp only [toNat, List.length_cons, Nat.pow_succ]
    omega

theorem toNat_ofNat {width n : Nat} (fits : n < 256 ^ width) : toNat (ofNat width n) = n := by
  induction width generalizing n with
  | zero => simp at fits; simp [ofNat, toNat, fits]
  | succ width ih =>
    have quotient : n / 256 < 256 ^ width := by
      rw [Nat.pow_succ] at fits
      omega
    simp only [ofNat, toNat, ih quotient, UInt8.toNat_ofNat']
    omega

theorem ofNat_toNat (bytes : Bytes) : ofNat bytes.length (toNat bytes) = bytes := by
  induction bytes with
  | nil => rfl
  | cons byte rest ih =>
    have small := byte.toNat_lt
    have low : UInt8.ofNat (toNat (byte :: rest)) = byte := by
      apply UInt8.toNat_inj.mp
      simp only [toNat, UInt8.toNat_ofNat']
      omega
    have high : toNat (byte :: rest) / 256 = toNat rest := by
      simp only [toNat]
      omega
    simp only [List.length_cons, ofNat, low, high, ih]

theorem toNat_injective {bytes spelled : Bytes} (length : bytes.length = spelled.length)
    (same : toNat bytes = toNat spelled) : bytes = spelled := by
  rw [← ofNat_toNat bytes, length, same, ofNat_toNat]

end CompactChain.LittleEndian
