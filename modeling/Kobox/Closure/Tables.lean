import Kobox.Closure.Builder
import Mathlib.Tactic.Common

/-!
# Names and growing tables
-/

namespace Kobox.Closure
open List
open Control (Status)

/-- The buffer holds a valid name, its NUL and zeros. -/
structure Named (buffer : NameBuffer) : Prop where
  valid : nameValid (some buffer.text) = true
  padded : buffer = copyName .zero buffer.text

variable {name : List UInt8}

theorem nameValid_iff :
    nameValid (some name) = true ↔
      name ≠ [] ∧ name.length ≤ nameMax ∧ ∀ byte ∈ name, nameByteValid byte = true := by
  simp [nameValid, and_assoc]

theorem nameByteValid_ne_zero {byte : UInt8} (h : nameByteValid byte = true) : byte ≠ 0 := by
  rintro rfl
  exact absurd h (by decide)

theorem text_copyName (h : nameValid (some name) = true) (destination : NameBuffer) :
    (copyName destination name).text = name := by
  have hbytes := (nameValid_iff.mp h).2.2
  have hne : ∀ byte ∈ name, (byte != 0) = true := fun byte hb => by
    simpa using nameByteValid_ne_zero (hbytes byte hb)
  rw [NameBuffer.text, copyName, takeWhile_append_of_pos hne]
  simp

theorem named_copyName (h : nameValid (some name) = true) : Named (copyName .zero name) := by
  have htext := text_copyName h .zero
  exact ⟨by rw [htext]; exact h, by rw [htext]⟩

theorem Named.ext {buffer buffer' : NameBuffer} (h : Named buffer) (h' : Named buffer')
    (ht : buffer.text = buffer'.text) : buffer = buffer' := by
  rw [h.padded, h'.padded, ht]

theorem nameEquals_iff {stored : NameBuffer} :
    nameEquals stored name = true ↔ stored.text = name := by
  have htext : stored.take stored.text.length = stored.text := by
    have hsplit : stored.text ++ stored.dropWhile (· != 0) = stored :=
      takeWhile_append_dropWhile
    have htake : (stored.text ++ stored.dropWhile (· != 0)).take stored.text.length = stored.text :=
      take_left
    rwa [hsplit] at htake
  simp only [nameEquals, strlen, Bool.and_eq_true, beq_iff_eq]
  constructor
  · rintro ⟨hlength, htake⟩
    rw [← hlength] at htake
    rw [← htext, htake]
  · rintro rfl
    exact ⟨rfl, htext⟩

theorem strcmp_eq_iff {left right : NameBuffer} : strcmp left right = .eq ↔ left.text = right.text :=
  Std.LawfulEqOrd.compare_eq_iff_eq

/-! ### Tables -/

namespace Table
variable {α : Type} {t : Table α} {zero : α} {itemSize maximumCount : ℕ} {allocated : Bool}

/-- The records in use fit the array, the array keeps to its maximum, and the free entries are zero.
-/
structure Fits (t : Table α) (zero : α) (maximumCount : ℕ) : Prop where
  count_le : t.count ≤ t.capacity
  capacity_le : t.capacity ≤ maximumCount
  fresh : ∀ x ∈ t.slots.drop t.count, x = zero

theorem fits_empty (zero : α) (maximumCount : ℕ) : Fits empty zero maximumCount :=
  ⟨Nat.le_refl _, Nat.zero_le _, nofun⟩

theorem Fits.length_records (h : t.Fits zero maximumCount) : t.records.length = t.count := by
  rw [records, length_take]
  exact Nat.min_eq_left h.count_le

theorem newCapacity_bounds (capacity : ℕ) (hlt : capacity < maximumCount)
    (hmax : maximumCount < 2 ^ 63) :
    capacity < newCapacity capacity maximumCount ∧
      newCapacity capacity maximumCount ≤ maximumCount := by
  unfold newCapacity
  dsimp only
  have hmod : capacity * 2 % 2 ^ 64 = capacity * 2 := Nat.mod_eq_of_lt (by omega)
  rw [hmod]
  split_ifs <;> omega

theorem reserve_refused (h : (t.reserve zero itemSize maximumCount allocated).1 ≠ .ok) :
    (t.reserve zero itemSize maximumCount allocated).2 = t := by
  unfold reserve at h ⊢
  dsimp only at h ⊢
  split_ifs at h ⊢
  all_goals first | rfl | exact absurd rfl h

section
variable (h : t.Fits zero maximumCount)
include h

theorem Fits.grown {free : ℕ} (hpos : 0 < free) (hle : t.count + free ≤ maximumCount) :
    let t' : Table α := ⟨t.records ++ List.replicate free zero, t.count⟩
    t'.Fits zero maximumCount ∧ t'.records = t.records ∧ t'.count < t'.capacity := by
  have hlength := h.length_records
  have hcapacity : (t.records ++ List.replicate free zero).length = t.count + free := by
    rw [length_append, hlength, length_replicate]
  refine ⟨⟨?_, ?_, fun x hx => ?_⟩, ?_, ?_⟩
  · change t.count ≤ (t.records ++ List.replicate free zero).length
    omega
  · change (t.records ++ List.replicate free zero).length ≤ maximumCount
    omega
  · change x ∈ (t.records ++ List.replicate free zero).drop t.count at hx
    rw [← hlength, drop_left] at hx
    exact eq_of_mem_replicate hx
  · change (t.records ++ List.replicate free zero).take t.count = t.records
    rw [← hlength, take_left]
  · change t.count < (t.records ++ List.replicate free zero).length
    omega

theorem Fits.reserve (hmax : maximumCount < 2 ^ 63)
    (hok : (t.reserve zero itemSize maximumCount allocated).1 = .ok) :
    let t' := (t.reserve zero itemSize maximumCount allocated).2
    t'.Fits zero maximumCount ∧ t'.records = t.records ∧ t'.count < t'.capacity := by
  have hle := h.count_le
  have hcapacity := h.capacity_le
  unfold Table.reserve at hok ⊢
  dsimp only at hok ⊢
  by_cases hroom : t.count < t.capacity
  · rw [if_pos hroom] at hok ⊢
    exact ⟨h, rfl, hroom⟩
  · rw [if_neg hroom] at hok ⊢
    split_ifs at hok ⊢ with hfull
    have hbounds := newCapacity_bounds t.capacity (by omega) hmax
    exact h.grown (by omega) (by omega)

theorem Fits.fill (hroom : t.count < t.capacity) (write : α → α) :
    (t.fill write).Fits zero maximumCount ∧ (t.fill write).records = t.records ++ [write zero] := by
  have hlt : t.count < t.slots.length := hroom
  have hslot : t.slots[t.count] = zero := by
    refine h.fresh _ ?_
    rw [drop_eq_getElem_cons hlt]
    exact mem_cons_self
  have hmodify : t.slots.modify t.count write =
      t.slots.take t.count ++ write zero :: t.slots.drop (t.count + 1) := by
    rw [modify_eq_take_cons_drop hlt, hslot]
  have htake : (t.slots.take t.count).length = t.count := by
    rw [length_take]
    omega
  refine ⟨⟨?_, ?_, fun x hx => ?_⟩, ?_⟩
  · change t.count + 1 ≤ (t.slots.modify t.count write).length
    rw [length_modify]
    exact hlt
  · change (t.slots.modify t.count write).length ≤ _
    rw [length_modify]
    exact h.capacity_le
  · refine h.fresh x ?_
    change x ∈ (t.slots.modify t.count write).drop (t.count + 1) at hx
    rw [hmodify, drop_append, drop_of_length_le (by omega), nil_append, htake] at hx
    rw [drop_eq_getElem_cons hlt]
    refine mem_cons_of_mem _ ?_
    simpa using hx
  · change (t.slots.modify t.count write).take (t.count + 1) = _
    rw [hmodify, take_append, take_of_length_le (by omega), htake]
    simp [records]

end

theorem add_refused {write : α → α}
    (h : (t.add zero itemSize maximumCount allocated write).1 ≠ .ok) :
    (t.add zero itemSize maximumCount allocated write).2 = t := by
  unfold add at h ⊢
  dsimp only at h ⊢
  split_ifs at h ⊢ with hstatus
  · exact reserve_refused hstatus
  · exact absurd rfl h

variable (h : t.Fits zero maximumCount)
include h

theorem Fits.add (hmax : maximumCount < 2 ^ 63) {write : α → α}
    (hok : (t.add zero itemSize maximumCount allocated write).1 = .ok) :
    let t' := (t.add zero itemSize maximumCount allocated write).2
    t'.Fits zero maximumCount ∧ t'.records = t.records ++ [write zero] ∧
      t.records.length < maximumCount := by
  unfold Table.add at hok ⊢
  dsimp only at hok ⊢
  by_cases hstatus : (t.reserve zero itemSize maximumCount allocated).1 = .ok
  · rw [if_neg (not_not.mpr hstatus)]
    obtain ⟨hfits, hrecords, hroom⟩ := h.reserve hmax hstatus
    obtain ⟨hfill, hadded⟩ := hfits.fill hroom write
    refine ⟨hfill, hadded.trans (by rw [hrecords]), ?_⟩
    have hcapacity := hfits.capacity_le
    rw [← hrecords, hfits.length_records]
    omega
  · rw [if_pos hstatus] at hok
    exact absurd hok hstatus

theorem Fits.add_ok (hroom : t.records.length < maximumCount) (hmax : maximumCount < 2 ^ 63)
    (hsize : maximumCount ≤ sizeMax / itemSize) (write : α → α) :
    (t.add zero itemSize maximumCount true write).1 = .ok := by
  rw [h.length_records] at hroom
  have hreserve : (t.reserve zero itemSize maximumCount true).1 = .ok := by
    unfold Table.reserve
    dsimp only
    by_cases hfree : t.count < t.capacity
    · rw [if_pos hfree]
    · have hle := h.count_le
      have hbounds := newCapacity_bounds t.capacity (by omega) hmax
      rw [if_neg hfree, if_neg (by omega), if_neg (by omega), if_neg (by decide)]
  unfold Table.add
  dsimp only
  rw [if_neg (not_not.mpr hreserve)]

theorem Fits.update (test : α → Bool) (write : α → α) :
    (t.update test write).Fits zero maximumCount ∧
      (t.update test write).records =
        match t.records.findIdx? test with
        | none => t.records
        | some index => t.records.modify index write := by
  unfold Table.update
  cases hindex : t.records.findIdx? test with
  | none => exact ⟨h, rfl⟩
  | some index =>
    have hlt : index < t.count := by
      rw [← h.length_records]
      exact (findIdx?_eq_some_iff_findIdx_eq.mp hindex).1
    refine ⟨⟨?_, ?_, fun x hx => ?_⟩, ?_⟩
    · change t.count ≤ (t.slots.modify index write).length
      rw [length_modify]
      exact h.count_le
    · change (t.slots.modify index write).length ≤ _
      rw [length_modify]
      exact h.capacity_le
    · refine h.fresh x ?_
      have hdrop : (t.slots.modify index write).drop t.count = t.slots.drop t.count := by
        refine ext_getElem? fun i => ?_
        have hne : index ≠ t.count + i := by omega
        simp [getElem?_drop, hne]
      rwa [← hdrop]
    · refine ext_getElem? fun i => ?_
      simp only [records, getElem?_take, getElem?_modify]
      split_ifs <;> rfl

end Table

end Kobox.Closure
