import Mathlib.Order.Lattice
import Mathlib.Data.Nat.Notation

/-!
# Binary search in a table
-/

namespace BinarySearch
open List Option
variable {κ : Type} [LinearOrder κ]

/-- The position of `target` in `[left, right)`; `fuel` bounds the number of probes. -/
def search (key : ℕ → Option κ) (target : κ) : ℕ → ℕ → ℕ → Option ℕ
  | 0, _, _ => none
  | fuel + 1, left, right =>
    if left < right then
      let middle := left + (right - left) / 2
      match key middle with
      | none => none
      | some k =>
        if k = target then some middle
        else if k < target then search key target fuel (middle + 1) right
        else search key target fuel left middle
    else none

/-- The position of `target` in a table of `count` entries. -/
def find (key : ℕ → Option κ) (count : ℕ) (target : κ) : Option ℕ := search key target count 0 count

/-- All of the first `count` entries can be read, and they strictly ascend. -/
structure Ascending (key : ℕ → Option κ) (count : ℕ) : Prop where
  present : ∀ i < count, ∃ k, key i = some k
  ascending : ∀ {i j k l}, i < j → j < count → key i = some k → key j = some l → k < l

section Search
variable {key : ℕ → Option κ} {count fuel left right i : ℕ} {target : κ}

theorem Ascending.lt_of_lt (h : Ascending key count) {i j : ℕ} {k l : κ} (hi : i < count)
    (hki : key i = some k) (hkj : key j = some l) (hlt : k < l) : i < j := by
  rcases Nat.lt_trichotomy i j with hij | hij | hij
  · exact hij
  · rw [hij, hkj] at hki
    rw [some.inj hki] at hlt
    exact absurd hlt (lt_irrefl k)
  · exact absurd hlt (lt_asymm (h.ascending hij hi hkj hki))

theorem Ascending.injective (h : Ascending key count) {i j : ℕ} {k : κ} (hi : i < count)
    (hj : j < count) (hki : key i = some k) (hkj : key j = some k) : i = j := by
  rcases Nat.lt_trichotomy i j with hij | hij | hij
  · exact absurd (h.ascending hij hj hki hkj) (lt_irrefl k)
  · exact hij
  · exact absurd (h.ascending hij hi hkj hki) (lt_irrefl k)

theorem search_sound (h : search key target fuel left right = some i) :
    left ≤ i ∧ i < right ∧ key i = some target := by
  induction fuel generalizing left right with
  | zero => cases h
  | succ fuel ih =>
    rw [search] at h
    by_cases hlr : left < right
    · rw [if_pos hlr] at h
      dsimp only at h
      split at h
      · cases h
      · rename_i k hk
        split_ifs at h with he hlt
        · rw [← some.inj h, hk, he]
          exact ⟨by omega, by omega, rfl⟩
        · obtain ⟨hle, hi, hkey⟩ := ih h
          exact ⟨by omega, hi, hkey⟩
        · obtain ⟨hle, hi, hkey⟩ := ih h
          exact ⟨hle, by omega, hkey⟩
    · rw [if_neg hlr] at h
      cases h

theorem search_complete (ha : Ascending key count) (hcount : right ≤ count)
    (hfuel : right - left ≤ fuel) (hle : left ≤ i) (hi : i < right) (hkey : key i = some target) :
    search key target fuel left right = some i := by
  induction fuel generalizing left right with
  | zero => omega
  | succ fuel ih =>
    have hlr : left < right := by omega
    have hmiddle : left + (right - left) / 2 < count := by omega
    obtain ⟨k, hk⟩ := ha.present _ hmiddle
    rw [search, if_pos hlr]
    dsimp only
    rw [hk]
    dsimp only
    by_cases he : k = target
    · rw [if_pos he]
      rw [he] at hk
      rw [ha.injective hmiddle (by omega) hk hkey]
    · rw [if_neg he]
      by_cases hlt : k < target
      · have hpos := ha.lt_of_lt hmiddle hk hkey hlt
        rw [if_pos hlt]
        exact ih hcount (by omega) (by omega) hi
      · have hgt : target < k := lt_of_le_of_ne (not_lt.mp hlt) (Ne.symm he)
        have hpos := ha.lt_of_lt (by omega) hkey hk hgt
        rw [if_neg hlt]
        exact ih (by omega) (by omega) hle hpos

theorem find_sound (h : find key count target = some i) : i < count ∧ key i = some target :=
  (search_sound h).2

theorem find_eq_some_iff (ha : Ascending key count) :
    find key count target = some i ↔ i < count ∧ key i = some target := by
  constructor
  · exact find_sound
  · rintro ⟨hi, hkey⟩
    exact search_complete ha (Nat.le_refl _) (Nat.sub_le _ _) (Nat.zero_le _) hi hkey

theorem find_isSome_iff (ha : Ascending key count) :
    (find key count target).isSome = true ↔ ∃ i < count, key i = some target := by
  rw [isSome_iff_exists]
  exact exists_congr fun i => find_eq_some_iff ha

end Search

section Listed
variable {α : Type} {l : List α} {key : α → κ} {target : κ}

variable (h : (l.map key).Pairwise (· < ·))
include h

theorem ascending_of_pairwise :
    Ascending (fun i => (l[i]?).map key) l.length where
  present i hi := ⟨key l[i], by rw [List.getElem?_eq_getElem hi, map_some]⟩
  ascending {i j k k'} hij hj hk hk' := by
    obtain ⟨x, hx, rfl⟩ := map_eq_some_iff.mp hk
    obtain ⟨y, hy, rfl⟩ := map_eq_some_iff.mp hk'
    obtain ⟨hi, rfl⟩ := List.getElem?_eq_some_iff.mp hx
    obtain ⟨hj, rfl⟩ := List.getElem?_eq_some_iff.mp hy
    exact List.pairwise_iff_getElem.mp (List.pairwise_map.mp h) i j hi hj hij

theorem find_get_eq_some_iff {x : α} :
    ((find (fun i => (l[i]?).map key) l.length target).bind fun i => l[i]?) = some x ↔
      x ∈ l ∧ key x = target := by
  simp only [bind_eq_some_iff, find_eq_some_iff (ascending_of_pairwise h),
    map_eq_some_iff]
  constructor
  · rintro ⟨i, ⟨-, y, hy, hkey⟩, hx⟩
    rw [hx] at hy
    rw [some.inj hy]
    exact ⟨mem_of_getElem? (some.inj hy ▸ hx), hkey⟩
  · rintro ⟨hx, hkey⟩
    obtain ⟨i, hi⟩ := mem_iff_getElem?.mp hx
    exact ⟨i, ⟨(List.getElem?_eq_some_iff.mp hi).1, x, hi, hkey⟩, hi⟩

theorem find_ne_none_iff (target : κ) :
    find (fun i => (l[i]?).map key) l.length target ≠ none ↔ ∃ x ∈ l, key x = target := by
  rw [← isSome_iff_ne_none, find_isSome_iff (ascending_of_pairwise h)]
  constructor
  · rintro ⟨i, -, hi⟩
    obtain ⟨x, hx, hkey⟩ := map_eq_some_iff.mp hi
    exact ⟨x, mem_of_getElem? hx, hkey⟩
  · rintro ⟨x, hx, hkey⟩
    obtain ⟨i, hi⟩ := mem_iff_getElem?.mp hx
    exact ⟨i, (List.getElem?_eq_some_iff.mp hi).1, by rw [hi, map_some, hkey]⟩

end Listed

end BinarySearch
