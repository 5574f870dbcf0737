import Mathlib.Data.Nat.Digits.Defs
import Mathlib.Tactic.NormNum
import Mathlib.Tactic.Ring

/-!
# Little-endian words over byte lists
-/

namespace LittleEndian
open List

def value (bs : List UInt8) : ℕ := Nat.ofDigits 256 (bs.map UInt8.toNat)

def bytes (n : ℕ) : ℕ → List UInt8
  | 0 => []
  | k + 1 => UInt8.ofNat n :: bytes (n / 256) k

@[simp] theorem value_nil : value [] = 0 := rfl

theorem value_cons (b : UInt8) (bs : List UInt8) :
    value (b :: bs) = b.toNat + 256 * value bs := by
  simp only [value, map_cons, Nat.ofDigits_cons]

theorem value_append (bs cs : List UInt8) :
    value (bs ++ cs) = value bs + 256 ^ bs.length * value cs := by
  simp only [value, map_append, Nat.ofDigits_append, length_map]

theorem value_bytes (n k : ℕ) : value (bytes n k) = n % 256 ^ k := by
  induction k generalizing n with
  | zero => simp only [bytes, value_nil, pow_zero, Nat.mod_one]
  | succ k ih =>
    have hb : (UInt8.ofNat n).toNat = n % 256 := by simp
    rw [bytes, value_cons, ih, hb, pow_succ', Nat.mod_mul]

theorem value_bytes_of_lt {n k : ℕ} (h : n < 256 ^ k) : value (bytes n k) = n := by
  rw [value_bytes, Nat.mod_eq_of_lt h]

theorem bytes_mod (n k : ℕ) : bytes (n % 256 ^ k) k = bytes n k := by
  induction k generalizing n with
  | zero => rfl
  | succ k ih =>
    have hlow : UInt8.ofNat (n % 256 ^ (k + 1)) = UInt8.ofNat n := by
      apply UInt8.toNat.inj
      rw [UInt8.toNat_ofNat', UInt8.toNat_ofNat', pow_succ']
      exact Nat.mod_mul_right_mod n 256 (256 ^ k)
    have hhigh : n % 256 ^ (k + 1) / 256 = n / 256 % 256 ^ k := by
      rw [pow_succ', Nat.mod_mul_right_div_self]
    rw [bytes, bytes, hlow, hhigh, ih]

theorem bytes_value (bs : List UInt8) : bytes (value bs) bs.length = bs := by
  induction bs with
  | nil => rfl
  | cons b bs ih =>
    have hb := b.toNat_lt
    have hlow : UInt8.ofNat (b.toNat + 256 * value bs) = b := by
      apply UInt8.toNat.inj
      rw [UInt8.toNat_ofNat']
      omega
    have hhigh : (b.toNat + 256 * value bs) / 256 = value bs := by omega
    rw [value_cons, length_cons, bytes, hlow, hhigh, ih]

theorem value_lt (bs : List UInt8) : value bs < 256 ^ bs.length := by
  have h := value_bytes (value bs) bs.length
  rw [bytes_value] at h
  rw [h]
  exact Nat.mod_lt _ (Nat.pow_pos (by decide))

theorem bytes_add (n j k : ℕ) : bytes n (j + k) = bytes n j ++ bytes (n / 256 ^ j) k := by
  induction j generalizing n with
  | zero => simp [bytes]
  | succ j ih =>
    have hj : j + 1 + k = (j + k) + 1 := by omega
    rw [hj, bytes, ih, bytes, cons_append, Nat.div_div_eq_div_mul, ← pow_succ']

theorem or_shiftLeft_eq_add {a b k : ℕ} (h : a < 2 ^ k) : a ||| b <<< k = a + 2 ^ k * b := by
  rw [Nat.or_comm, ← Nat.shiftLeft_add_eq_or_of_lt h, Nat.shiftLeft_eq]
  ring

theorem toNat_join16 (low high : UInt16) :
    (low.toUInt32 ||| high.toUInt32 <<< 16).toNat = low.toNat + 256 ^ 2 * high.toNat := by
  have hhigh := high.toNat_lt
  have hshift : (high.toUInt32 <<< (16 : UInt32)).toNat = high.toNat <<< 16 := by
    rw [UInt32.toNat_shiftLeft, UInt16.toNat_toUInt32]
    apply Nat.mod_eq_of_lt
    change high.toNat <<< 16 < 2 ^ 32
    rw [Nat.shiftLeft_eq]
    omega
  rw [UInt32.toNat_or, hshift, UInt16.toNat_toUInt32, or_shiftLeft_eq_add low.toNat_lt]
  norm_num

theorem toNat_join32 (low high : UInt32) :
    (low.toUInt64 ||| high.toUInt64 <<< 32).toNat = low.toNat + 256 ^ 4 * high.toNat := by
  have hhigh := high.toNat_lt
  have hshift : (high.toUInt64 <<< (32 : UInt64)).toNat = high.toNat <<< 32 := by
    rw [UInt64.toNat_shiftLeft, UInt32.toNat_toUInt64]
    apply Nat.mod_eq_of_lt
    change high.toNat <<< 32 < 2 ^ 64
    rw [Nat.shiftLeft_eq]
    omega
  rw [UInt64.toNat_or, hshift, UInt32.toNat_toUInt64, or_shiftLeft_eq_add low.toNat_lt]
  norm_num

theorem bytes_split {n k : ℕ} {low high : ℕ} (hlow : low = n % 256 ^ k)
    (hhigh : high = n / 256 ^ k % 256 ^ k) : bytes low k ++ bytes high k = bytes n (k + k) := by
  rw [hlow, hhigh, bytes_mod, bytes_mod, ← bytes_add]

theorem bytes_split32 (v : UInt32) :
    bytes v.toUInt16.toNat 2 ++ bytes (v >>> 16).toUInt16.toNat 2 = bytes v.toNat 4 := by
  refine bytes_split (UInt32.toNat_toUInt16 v) ?_
  rw [UInt32.toNat_toUInt16, UInt32.toNat_shiftRight]
  change v.toNat >>> 16 % 2 ^ 16 = _
  rw [Nat.shiftRight_eq_div_pow]
  norm_num

theorem bytes_split64 (v : UInt64) :
    bytes v.toUInt32.toNat 4 ++ bytes (v >>> 32).toUInt32.toNat 4 = bytes v.toNat 8 := by
  refine bytes_split (UInt64.toNat_toUInt32 v) ?_
  rw [UInt64.toNat_toUInt32, UInt64.toNat_shiftRight]
  change v.toNat >>> 32 % 2 ^ 32 = _
  rw [Nat.shiftRight_eq_div_pow]
  norm_num

end LittleEndian
