import Kobox.Virtqueue.Engine
import Kobox.Virtqueue.Ownership

/-!
# Addresses of a queue's metadata
-/

namespace Kobox.Virtqueue
open ByteMemory Protocol

variable {q : Queue} {b : Binding}

abbrev Binding.size (b : Binding) : ℕ := b.queue.queueSize.toNat

theorem ring_zero (q : Queue) :
    q.ring 0 = ⟨q.descriptorAddress.toNat, 16 * q.queueSize.toNat⟩ := by
  exact congrArg (Span.mk _) (ring_length q 0 (by omega))

theorem ring_one (q : Queue) :
    q.ring 1 = ⟨q.availableAddress.toNat, 6 + 2 * q.queueSize.toNat⟩ := by
  exact congrArg (Span.mk _) (ring_length q 1 (by omega))

theorem ring_two (q : Queue) : q.ring 2 = ⟨q.usedAddress.toNat, 6 + 8 * q.queueSize.toNat⟩ := by
  exact congrArg (Span.mk _) (ring_length q 2 (by omega))

theorem ring_zero_lt (hw : q.WellFormed) :
    q.descriptorAddress.toNat + 16 * q.queueSize.toNat < 2 ^ 64 := by
  have h := hw.ring_lt 0 (by omega)
  rwa [ring_zero] at h

theorem ring_one_lt (hw : q.WellFormed) :
    q.availableAddress.toNat + (6 + 2 * q.queueSize.toNat) < 2 ^ 64 := by
  have h := hw.ring_lt 1 (by omega)
  rwa [ring_one] at h

theorem ring_two_lt (hw : q.WellFormed) :
    q.usedAddress.toNat + (6 + 8 * q.queueSize.toNat) < 2 ^ 64 := by
  have h := hw.ring_lt 2 (by omega)
  rwa [ring_two] at h

/-! ### Ring entries and indices -/

section
variable (hw : b.queue.WellFormed) (i : UInt16)
include hw

theorem ringSlot_toNat : (ringSlot b i).toNat = i.toNat % b.size := by
  obtain ⟨k, hk⟩ := hw.size_pow
  have h1 : (1 : UInt32) ≤ b.queue.queueSize := by
    rw [UInt32.le_iff_toNat_le]
    exact hw.size_pos
  rw [ringSlot, UInt32.toNat_toUInt64, UInt32.toNat_and, UInt32.toNat_sub_of_le _ _ h1,
    UInt16.toNat_toUInt32, Binding.size, hk]
  exact Nat.and_two_pow_sub_one_eq_mod _ _

theorem ringSlot_lt : (ringSlot b i).toNat < b.size := by
  rw [ringSlot_toNat hw]
  exact Nat.mod_lt _ hw.size_pos

theorem availableEntry_toNat :
    (b.queue.availableAddress + 4 + 2 * ringSlot b i).toNat =
      b.queue.availableAddress.toNat + 4 + 2 * (i.toNat % b.size) := by
  have hlt := ringSlot_lt hw i
  have hend := ring_one_lt hw
  have hslot := ringSlot_toNat hw i
  simp only [UInt64.toNat_add, UInt64.toNat_mul, UInt64.reduceToNat, Binding.size] at *
  omega

theorem usedEntry_toNat :
    (b.queue.usedAddress + 4 + 8 * ringSlot b i).toNat =
      b.queue.usedAddress.toNat + 4 + 8 * (i.toNat % b.size) := by
  have hlt := ringSlot_lt hw i
  have hend := ring_two_lt hw
  have hslot := ringSlot_toNat hw i
  simp only [UInt64.toNat_add, UInt64.toNat_mul, UInt64.reduceToNat, Binding.size] at *
  omega

end

section
variable (hw : q.WellFormed)
include hw

theorem availableIndex_toNat : (q.availableAddress + 2).toNat = q.availableAddress.toNat + 2 := by
  have hend := ring_one_lt hw
  simp only [UInt64.toNat_add, UInt64.reduceToNat]
  omega

theorem usedIndex_toNat : (q.usedAddress + 2).toNat = q.usedAddress.toNat + 2 := by
  have hend := ring_two_lt hw
  simp only [UInt64.toNat_add, UInt64.reduceToNat]
  omega

theorem availableEvent_toNat :
    (availableEvent q).toNat = q.usedAddress.toNat + 4 + 8 * q.queueSize.toNat := by
  have hend := ring_two_lt hw
  simp only [availableEvent, UInt64.toNat_add, UInt64.toNat_mul, UInt64.reduceToNat,
    UInt32.toNat_toUInt64]
  omega

theorem usedEvent_toNat :
    (usedEvent q).toNat = q.availableAddress.toNat + 4 + 2 * q.queueSize.toNat := by
  have hend := ring_one_lt hw
  simp only [usedEvent, UInt64.toNat_add, UInt64.toNat_mul, UInt64.reduceToNat,
    UInt32.toNat_toUInt64]
  omega

end

theorem descriptorAt_toNat {table : UInt64} {i : UInt16} {n : ℕ}
    (hend : table.toNat + 16 * n < 2 ^ 64) (hi : i.toNat < n) :
    (descriptorAt table i).toNat = table.toNat + 16 * i.toNat := by
  have hlt := i.toNat_lt
  have hofNat : (UInt64.ofNat descSize).toNat = 16 := rfl
  rw [descriptorAt, UInt64.toNat_add, UInt64.toNat_mul, UInt16.toNat_toUInt64, hofNat]
  omega

theorem offset_toNat {a : UInt64} {k : ℕ} (h : a.toNat + k < 2 ^ 64) :
    (a + UInt64.ofNat k).toNat = a.toNat + k := by
  rw [UInt64.toNat_add, UInt64.toNat_ofNat']
  omega

theorem Segment.address_toNat {seg : Segment} (hwrap : NoWrap seg.span) {offset : ℕ}
    (h : offset ≤ seg.length.toNat) :
    (seg.address + UInt64.ofNat offset).toNat = seg.address.toNat + offset := by
  refine offset_toNat ?_
  have hlt := seg.address.toNat_lt
  by_cases hz : seg.length.toNat = 0
  · omega
  · have hend : seg.address.toNat + seg.length.toNat < 2 ^ 64 := hwrap hz
    omega

theorem Wire.Valid.table_lt {w : Wire} (h : w.Valid b) (hz : w.indirectLength ≠ 0) :
    w.indirect.toNat + 16 * (w.indirectLength.toNat / descSize) < 2 ^ 64 := by
  have hne : w.table.size ≠ 0 := by
    intro hsize
    apply hz
    rw [← UInt32.toNat_inj]
    exact hsize
  have hlt := h.noWraps.1 hne
  have hdesc : descSize = 16 := rfl
  simp only [Wire.table] at hlt
  rw [hdesc]
  omega

end Kobox.Virtqueue
