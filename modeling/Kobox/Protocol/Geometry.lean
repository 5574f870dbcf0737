import Kobox.Protocol.Channel

/-!
# Ranges of a channel
-/

namespace Kobox.Protocol
open ByteMemory List

def Region.span (r : Region) : Span := ⟨r.transportBase.toNat, r.length.toNat⟩

/-- The descriptor table (0), available ring (1) or used ring (2) as a span. -/
def Queue.ring (q : Queue) (i : ℕ) : Span :=
  ⟨(queueRangeBase q i).toNat, (queueRangeLength q i).toNat⟩

theorem u64RangeValid_iff (base length : UInt64) :
    u64RangeValid base length = true ↔ 0 < length.toNat ∧ base.toNat + length.toNat < 2 ^ 64 := by
  have hb := base.toNat_lt
  have hl := length.toNat_lt
  have hmax : uint64Max.toNat = 2 ^ 64 - 1 := rfl
  have hle : length ≤ uint64Max := by
    rw [UInt64.le_iff_toNat_le, hmax]
    omega
  have hz : length = 0 ↔ length.toNat = 0 := by
    rw [← UInt64.toNat_inj]
    rfl
  simp only [u64RangeValid, Bool.and_eq_true, bne_iff_ne, ne_eq, decide_eq_true_eq, hz,
    UInt64.le_iff_toNat_le, UInt64.toNat_sub_of_le _ _ hle, hmax]
  omega

theorem toNat_add_of_lt {a b : UInt64} (h : a.toNat + b.toNat < 2 ^ 64) :
    (a + b).toNat = a.toNat + b.toNat := by
  rw [UInt64.toNat_add, Nat.mod_eq_of_lt h]

theorem rangesOverlap_eq_false_iff {leftBase leftLength rightBase rightLength : UInt64}
    (hl : 0 < leftLength.toNat) (hr : 0 < rightLength.toNat)
    (hlw : leftBase.toNat + leftLength.toNat < 2 ^ 64)
    (hrw : rightBase.toNat + rightLength.toNat < 2 ^ 64) :
    rangesOverlap leftBase leftLength rightBase rightLength = false ↔
      Span.Apart ⟨leftBase.toNat, leftLength.toNat⟩ ⟨rightBase.toNat, rightLength.toNat⟩ := by
  simp only [rangesOverlap, Bool.and_eq_false_iff, decide_eq_false_iff_not,
    UInt64.lt_iff_toNat_lt, toNat_add_of_lt hlw, toNat_add_of_lt hrw, Span.Apart]
  omega

theorem ring_length (q : Queue) (i : ℕ) (hi : i < 3) :
    (q.ring i).size = match i with
      | 0 => 16 * q.queueSize.toNat
      | 1 => 6 + 2 * q.queueSize.toNat
      | _ => 6 + 8 * q.queueSize.toNat := by
  have h := q.queueSize.toNat_lt
  have hi' : i = 0 ∨ i = 1 ∨ i = 2 := by omega
  rcases hi' with rfl | rfl | rfl <;>
    simp only [Queue.ring, queueRangeLength, UInt64.toNat_add, UInt64.toNat_mul,
      UInt32.toNat_toUInt64, UInt64.reduceToNat] <;> omega

theorem size_pow_of_mask {n : UInt32} (hpos : 0 < n.toNat) (h : n &&& (n - 1) = 0) :
    ∃ k, n.toNat = 2 ^ k := by
  have h1 : (1 : UInt32) ≤ n := by
    rw [UInt32.le_iff_toNat_le]
    exact hpos
  have hn : n.toNat &&& (n.toNat - 1) = 0 := by
    have := congrArg UInt32.toNat h
    rwa [UInt32.toNat_and, UInt32.toNat_sub_of_le _ _ h1] at this
  exact (Nat.and_sub_one_eq_zero_iff_isPowerOfTwo (by omega)).mp hn

variable {α : Type}

theorem lt_length_of_getElem? {l : List α} {n : ℕ} {a : α} (h : l[n]? = some a) :
    n < l.length := (List.getElem?_eq_some_iff.mp h).1

theorem getElem?_mono {l l' : List α} {n : ℕ} {a : α} (hle : l <+: l') (h : l[n]? = some a) :
    l'[n]? = some a := by
  obtain ⟨rest, hrest⟩ := hle
  rw [← hrest, getElem?_append_left (lt_length_of_getElem? h)]
  exact h

theorem mem_take_of_lt {l : List α} {i j : ℕ} {a : α} (hi : l[i]? = some a) (hij : i < j) :
    a ∈ l.take j := by
  rw [mem_iff_getElem?]
  exact ⟨i, by rw [getElem?_take_of_lt hij]; exact hi⟩

end Kobox.Protocol
