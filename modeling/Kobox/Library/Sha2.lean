import Kobox.Library.Chunks
import Mathlib.Data.BitVec
import Mathlib.Data.Nat.Find
import Mathlib.Data.Nat.Prime.Basic
import Mathlib.Tactic.Ring

/-!
# SHA-256 as FIPS 180-4 defines it

The message is a string of bits. The constants are not listed but computed from the roots of
primes, of which the standard says that they are the first bits.
-/

namespace Sha2
open Chunks List

def bits : ℕ → ℕ → List Bool
  | 0, _ => []
  | n + 1, x => bits n (x / 2) ++ [x % 2 == 1]

def number (l : List Bool) : ℕ := l.foldl (fun x bit => 2 * x + bit.toNat) 0

def byteBits (byte : UInt8) : List Bool := bits 8 byte.toNat

def message (bytes : List UInt8) : List Bool := bytes.flatMap byteBits

/-! ### Functions and constants (4.1.2, 4.2.2, 5.3.3) -/

abbrev Word := BitVec 32

def ch (x y z : Word) : Word := (x &&& y) ^^^ (~~~x &&& z)

def maj (x y z : Word) : Word := (x &&& y) ^^^ (x &&& z) ^^^ (y &&& z)

def bigSigma0 (x : Word) : Word := x.rotateRight 2 ^^^ x.rotateRight 13 ^^^ x.rotateRight 22

def bigSigma1 (x : Word) : Word := x.rotateRight 6 ^^^ x.rotateRight 11 ^^^ x.rotateRight 25

def smallSigma0 (x : Word) : Word := x.rotateRight 7 ^^^ x.rotateRight 18 ^^^ (x >>> 3)

def smallSigma1 (x : Word) : Word := x.rotateRight 17 ^^^ x.rotateRight 19 ^^^ (x >>> 10)

def primes : List ℕ := (List.range 312).filter Nat.Prime

def floorRoot (degree x : ℕ) : ℕ := Nat.findGreatest (fun r => r ^ degree ≤ x) x

/-- The first 32 bits of the fractional part of a root. -/
def rootFraction (degree p : ℕ) : Word :=
  BitVec.ofNat 32 (floorRoot degree (p * 2 ^ (32 * degree)))

/-- `K_t`. -/
def roundConstants : List Word := primes.map (rootFraction 3)

structure Hash where
  a : Word
  b : Word
  c : Word
  d : Word
  e : Word
  f : Word
  g : Word
  h : Word

/-- The fractions of the square roots of the first eight primes, for `H^(0)`. -/
def initialWords : List Word := (primes.take 8).map (rootFraction 2)

/-- `H^(0)`. -/
def initial : Hash :=
  ⟨initialWords.getD 0 0, initialWords.getD 1 0, initialWords.getD 2 0, initialWords.getD 3 0,
    initialWords.getD 4 0, initialWords.getD 5 0, initialWords.getD 6 0, initialWords.getD 7 0⟩

theorem prime_iff_of_lt {p : ℕ} (hp : p < 324) :
    p.Prime ↔ 2 ≤ p ∧ ∀ m < 18, 2 ≤ m → m < p → ¬m ∣ p := by
  constructor
  · intro hprime
    refine ⟨hprime.two_le, fun m _ hm hlt hdvd => ?_⟩
    rcases (Nat.dvd_prime hprime).mp hdvd with h | h
    · omega
    · omega
  · intro ⟨htwo, hnone⟩
    by_contra hprime
    have hsquare := Nat.minFac_sq_le_self (by omega) hprime
    have hmin : 2 ≤ p.minFac := (Nat.minFac_prime (by omega)).two_le
    have hsmall : p.minFac < 18 := lt_of_pow_lt_pow_left₀ 2 (by omega) (by omega)
    have hlt : p.minFac < p := (Nat.not_prime_iff_minFac_lt htwo).mp hprime
    exact hnone _ hsmall hmin hlt p.minFac_dvd

theorem primes_eq : primes =
    (List.range 312).filter fun p => 2 ≤ p ∧ ∀ m < 18, 2 ≤ m → m < p → ¬m ∣ p := by
  refine filter_congr fun p hp => ?_
  have hlt := mem_range.mp hp
  exact decide_eq_decide.mpr (prime_iff_of_lt (by omega))

theorem floorRoot_eq {degree x r : ℕ} (hdegree : degree ≠ 0) (hle : r ^ degree ≤ x)
    (hlt : x < (r + 1) ^ degree) : floorRoot degree x = r := by
  refine Nat.findGreatest_eq_iff.mpr ⟨(Nat.le_self_pow hdegree r).trans hle, fun _ => hle, ?_⟩
  intro n hn _ hpow
  have hroot : (r + 1) ^ degree ≤ n ^ degree := Nat.pow_le_pow_left hn degree
  omega

theorem rootFraction_eq {degree p whole : ℕ} {word : Word} (hdegree : degree ≠ 0)
    (hle : (whole * 2 ^ 32 + word.toNat) ^ degree ≤ p * 2 ^ (32 * degree))
    (hlt : p * 2 ^ (32 * degree) < (whole * 2 ^ 32 + word.toNat + 1) ^ degree) :
    rootFraction degree p = word := by
  apply BitVec.eq_of_toNat_eq
  rw [rootFraction, floorRoot_eq hdegree hle hlt, BitVec.toNat_ofNat, Nat.mul_comm,
    Nat.mul_add_mod, Nat.mod_eq_of_lt word.isLt]

theorem map_rootFraction {degree : ℕ} (hdegree : degree ≠ 0) {l : List ℕ} {words : List Word}
    (h : List.Forall₂ (fun p word => ∃ whole < 8,
      (whole * 2 ^ 32 + word.toNat) ^ degree ≤ p * 2 ^ (32 * degree) ∧
        p * 2 ^ (32 * degree) < (whole * 2 ^ 32 + word.toNat + 1) ^ degree) l words) :
    l.map (rootFraction degree) = words := by
  induction h with
  | nil => rfl
  | cons hword _ ih =>
    obtain ⟨whole, -, hle, hlt⟩ := hword
    rw [map_cons, rootFraction_eq hdegree hle hlt, ih]

theorem exists_padding (length : ℕ) : ∃ k, (length + 1 + k) % 512 = 448 :=
  ⟨(959 - length % 512) % 512, by omega⟩

/-- The smallest solution `k` of `length + 1 + k ≡ 448`. -/
def paddingZeros (length : ℕ) : ℕ := Nat.find (exists_padding length)

def pad (l : List Bool) : List Bool :=
  l ++ [true] ++ List.replicate (paddingZeros l.length) false ++ bits 64 l.length

/-- `M_t` of a block of 512 bits. -/
def blockWord (block : List Bool) (t : ℕ) : Word :=
  BitVec.ofNat 32 (number ((block.drop (32 * t)).take 32))

/-- `W_t`. -/
def schedule (block : List Bool) (t : ℕ) : Word :=
  if t < 16 then blockWord block t
  else smallSigma1 (schedule block (t - 2)) + schedule block (t - 7) +
    smallSigma0 (schedule block (t - 15)) + schedule block (t - 16)

def round (block : List Bool) (s : Hash) (t : ℕ) : Hash :=
  let t1 := s.h + bigSigma1 s.e + ch s.e s.f s.g + roundConstants.getD t 0 + schedule block t
  let t2 := bigSigma0 s.a + maj s.a s.b s.c
  ⟨t1 + t2, s.a, s.b, s.c, s.d + t1, s.e, s.f, s.g⟩

/-- `H^(i)` from `H^(i-1)` and the block `M^(i)`. -/
def compress (s : Hash) (block : List Bool) : Hash :=
  let v := (List.range 64).foldl (round block) s
  ⟨v.a + s.a, v.b + s.b, v.c + s.c, v.d + s.d, v.e + s.e, v.f + s.f, v.g + s.g, v.h + s.h⟩

def Hash.digest (s : Hash) : List Bool :=
  [s.a, s.b, s.c, s.d, s.e, s.f, s.g, s.h].flatMap fun word => bits 32 word.toNat

/-- The digest of a message of fewer than `2 ^ 64` bits. -/
def sha256 (l : List Bool) : List Bool := (foldChunks 512 compress initial (pad l)).digest

/-! ### Lemmas -/

@[simp] theorem length_bits (n x : ℕ) : (bits n x).length = n := by
  induction n generalizing x with
  | zero => rfl
  | succ n ih => rw [bits, length_append, ih, length_singleton]

theorem bits_add (m n x : ℕ) : bits (m + n) x = bits m (x / 2 ^ n) ++ bits n x := by
  induction n generalizing x with
  | zero => simp [bits]
  | succ n ih =>
    rw [← Nat.add_assoc, bits, ih, bits, append_assoc, Nat.div_div_eq_div_mul, Nat.pow_succ']

theorem bits_mod (n x : ℕ) : bits n (x % 2 ^ n) = bits n x := by
  induction n generalizing x with
  | zero => rfl
  | succ n ih =>
    have hhalf : x % 2 ^ (n + 1) / 2 = x / 2 % 2 ^ n := by
      rw [Nat.pow_succ', Nat.mod_mul_right_div_self]
    have hlast : x % 2 ^ (n + 1) % 2 = x % 2 := by
      rw [Nat.pow_succ', Nat.mod_mul_right_mod]
    rw [bits, bits, hhalf, hlast, ih]

theorem number_append (l l' : List Bool) :
    number (l ++ l') = number l * 2 ^ l'.length + number l' := by
  have hfold : ∀ x, l'.foldl (fun x bit => 2 * x + bit.toNat) x =
      x * 2 ^ l'.length + number l' := by
    unfold number
    induction l' with
    | nil => simp
    | cons bit rest ih =>
      intro x
      rw [foldl_cons, ih, foldl_cons, ih (2 * 0 + bit.toNat), length_cons,
        Nat.pow_succ]
      ring
  rw [number, foldl_append, hfold]
  rfl

theorem number_bits (n x : ℕ) : number (bits n x) = x % 2 ^ n := by
  induction n generalizing x with
  | zero => simp [bits, number, Nat.mod_one]
  | succ n ih =>
    rw [bits, number_append, ih, length_singleton, pow_one, Nat.pow_succ']
    have hbit : number [x % 2 == 1] = x % 2 := by
      rcases Nat.mod_two_eq_zero_or_one x with h | h <;> simp [number, h]
    rw [hbit, Nat.mod_mul]
    omega

@[simp] theorem length_byteBits (byte : UInt8) : (byteBits byte).length = 8 := length_bits ..

theorem number_byteBits (byte : UInt8) : number (byteBits byte) = byte.toNat := by
  rw [byteBits, number_bits]
  exact Nat.mod_eq_of_lt byte.toNat_lt

theorem message_append (l l' : List UInt8) : message (l ++ l') = message l ++ message l' :=
  flatMap_append

theorem length_message (l : List UInt8) : (message l).length = 8 * l.length :=
  length_flatMap_const length_byteBits

theorem message_zeros (k : ℕ) : message (List.replicate k 0) = List.replicate (8 * k) false := by
  induction k with
  | zero => rfl
  | succ k ih =>
    rw [replicate_succ, ← singleton_append, message_append, ih, Nat.mul_succ,
      Nat.add_comm, replicate_add]
    rfl

theorem message_injective : Function.Injective message := by
  intro l l' h
  induction l generalizing l' with
  | nil =>
    have hlength := congrArg List.length h
    rw [length_message, length_message, length_nil] at hlength
    exact (length_eq_zero_iff.mp (by omega)).symm
  | cons byte rest ih =>
    cases l' with
    | nil =>
      have hlength := congrArg List.length h
      rw [length_message, length_message, length_cons, length_nil] at hlength
      omega
    | cons byte' rest' =>
      rw [message, message, flatMap_cons, flatMap_cons] at h
      obtain ⟨hbits, hrest⟩ := append_inj h (by simp)
      have hnumber := congrArg number hbits
      rw [number_byteBits, number_byteBits, UInt8.toNat_inj] at hnumber
      rw [hnumber, ih hrest]

theorem paddingZeros_eq {length k : ℕ} (hlt : k < 512) (hk : (length + 1 + k) % 512 = 448) :
    paddingZeros length = k := by
  refine (Nat.find_eq_iff _).mpr ⟨hk, ?_⟩
  intro m hm hsolves
  omega

theorem schedule_of_lt (block : List Bool) {t : ℕ} (ht : t < 16) :
    schedule block t = blockWord block t := by
  rw [schedule, if_pos ht]

theorem schedule_add (block : List Bool) (t : ℕ) :
    schedule block (t + 16) = smallSigma1 (schedule block (t + 14)) + schedule block (t + 9) +
      smallSigma0 (schedule block (t + 1)) + schedule block t := by
  rw [schedule, if_neg (by omega)]
  rfl

end Sha2
