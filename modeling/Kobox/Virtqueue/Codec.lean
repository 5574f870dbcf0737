import Kobox.Virtqueue.Types

/-!
# Byte order of ring and descriptor fields
-/

namespace Kobox.Virtqueue
open LittleEndian List

variable {p : List UInt8}

theorem toNat_readU16 (h : 2 ≤ p.length) : (readU16 p).toNat = value (p.take 2) := by
  match p, h with
  | x :: y :: rest, _ =>
    have hx := x.toNat_lt
    have hy := y.toNat_lt
    have hs : (y.toUInt16 <<< (8 : UInt16)).toNat = y.toNat <<< 8 := by
      rw [UInt16.toNat_shiftLeft, UInt8.toNat_toUInt16]
      apply Nat.mod_eq_of_lt
      change y.toNat <<< 8 < 2 ^ 16
      rw [Nat.shiftLeft_eq]
      omega
    have hv : value ((x :: y :: rest).take 2) = x.toNat + 256 * y.toNat := by
      simp only [take_succ_cons, take_zero, value_cons, value_nil]
      omega
    change (x.toUInt16 ||| y.toUInt16 <<< 8).toNat = _
    rw [UInt16.toNat_or, hs, UInt8.toNat_toUInt16, or_shiftLeft_eq_add hx, hv]
    norm_num

theorem value_take_double {k : ℕ} (h : k ≤ p.length) :
    value (p.take (k + k)) = value (p.take k) + 256 ^ k * value ((p.drop k).take k) := by
  rw [take_add, value_append, length_take, Nat.min_eq_left h]

theorem toNat_readU32 (h : 4 ≤ p.length) : (readU32 p).toNat = value (p.take 4) := by
  have hd : 2 ≤ (p.drop 2).length := by
    rw [length_drop]
    omega
  rw [readU32, toNat_join16, toNat_readU16 (by omega), toNat_readU16 hd]
  exact (value_take_double (k := 2) (by omega)).symm

theorem toNat_readU64 (h : 8 ≤ p.length) : (readU64 p).toNat = value (p.take 8) := by
  have hd : 4 ≤ (p.drop 4).length := by
    rw [length_drop]
    omega
  rw [readU64, toNat_join32, toNat_readU32 (by omega), toNat_readU32 hd]
  exact (value_take_double (k := 4) (by omega)).symm

/-! ### Writers -/

@[simp] theorem writeU16_length (v : UInt16) : (writeU16 v).length = 2 := rfl

@[simp] theorem writeU32_length (v : UInt32) : (writeU32 v).length = 4 := rfl

@[simp] theorem writeU64_length (v : UInt64) : (writeU64 v).length = 8 := rfl

@[simp] theorem descriptorBytes_length (address : UInt64) (length : UInt32) (flags next : UInt16) :
    (descriptorBytes address length flags next).length = descSize := rfl

theorem writeU16_eq (v : UInt16) : writeU16 v = bytes v.toNat 2 := by
  have hhigh : (v >>> 8).toUInt8 = UInt8.ofNat (v.toNat / 256) := by
    apply UInt8.toNat_inj.mp
    rw [UInt16.toNat_toUInt8, UInt16.toNat_shiftRight, UInt8.toNat_ofNat']
    change v.toNat >>> 8 % 2 ^ 8 = v.toNat / 256 % 2 ^ 8
    rw [Nat.shiftRight_eq_div_pow]
  have hlow : v.toUInt8 = UInt8.ofNat v.toNat := by
    apply UInt8.toNat_inj.mp
    rw [UInt16.toNat_toUInt8, UInt8.toNat_ofNat']
  simp only [writeU16, bytes, hhigh, hlow]

theorem writeU32_eq (v : UInt32) : writeU32 v = bytes v.toNat 4 := by
  rw [writeU32, writeU16_eq, writeU16_eq, bytes_split32]

theorem writeU64_eq (v : UInt64) : writeU64 v = bytes v.toNat 8 := by
  rw [writeU64, writeU32_eq, writeU32_eq, bytes_split64]

theorem readU16_writeU16 (v : UInt16) (rest : List UInt8) : readU16 (writeU16 v ++ rest) = v := by
  apply UInt16.toNat_inj.mp
  rw [toNat_readU16 (by simp), take_left' (writeU16_length v), writeU16_eq,
    value_bytes_of_lt v.toNat_lt]

theorem readU32_writeU32 (v : UInt32) (rest : List UInt8) : readU32 (writeU32 v ++ rest) = v := by
  apply UInt32.toNat_inj.mp
  rw [toNat_readU32 (by simp), take_left' (writeU32_length v), writeU32_eq,
    value_bytes_of_lt v.toNat_lt]

theorem readU64_writeU64 (v : UInt64) (rest : List UInt8) : readU64 (writeU64 v ++ rest) = v := by
  apply UInt64.toNat_inj.mp
  rw [toNat_readU64 (by simp), take_left' (writeU64_length v), writeU64_eq,
    value_bytes_of_lt v.toNat_lt]

section Descriptor
variable (address : UInt64) (length : UInt32) (flags next : UInt16)

theorem descriptorBytes_address : readU64 (descriptorBytes address length flags next) = address := by
  rw [descriptorBytes, append_assoc, append_assoc]
  exact readU64_writeU64 _ _

theorem descriptorBytes_size :
    readU32 ((descriptorBytes address length flags next).drop 8) = length := by
  rw [descriptorBytes, append_assoc, append_assoc, drop_left' (writeU64_length _)]
  exact readU32_writeU32 _ _

theorem descriptorBytes_flags :
    readU16 ((descriptorBytes address length flags next).drop 12) = flags := by
  rw [descriptorBytes, append_assoc, drop_left' (by simp)]
  exact readU16_writeU16 _ _

theorem descriptorBytes_next :
    readU16 ((descriptorBytes address length flags next).drop 14) = next := by
  rw [descriptorBytes, drop_left' (by simp)]
  have h := readU16_writeU16 next []
  rwa [append_nil] at h

end Descriptor

end Kobox.Virtqueue
