import Mathlib.Algebra.GroupWithZero.Nat
import Mathlib.Data.List.Range
import Mathlib.Tactic.Common

/-!
# Byte-addressed memory and address spans
-/

namespace ByteMemory
open List
variable {spans : List Span} {start stop : ℕ} {s t : Span} {m : Memory} {a : ℕ} {bs : List UInt8}

/-- Addresses `base, …, base + size - 1`. -/
structure Span where
  base : ℕ
  size : ℕ
  deriving DecidableEq, Repr

namespace Span

def Mem (x : ℕ) (s : Span) : Prop := s.base ≤ x ∧ x < s.base + s.size

def Apart (s t : Span) : Prop :=
  s.size = 0 ∨ t.size = 0 ∨ s.base + s.size ≤ t.base ∨ t.base + t.size ≤ s.base

def Within (s t : Span) : Prop := t.base ≤ s.base ∧ s.base + s.size ≤ t.base + t.size

instance (s t : Span) : Decidable (Apart s t) := inferInstanceAs (Decidable (_ ∨ _ ∨ _ ∨ _))

instance (s t : Span) : Decidable (Within s t) := inferInstanceAs (Decidable (_ ∧ _))

theorem Apart.symm (h : Apart s t) : Apart t s := by
  unfold Apart at *
  omega

theorem apart_comm : Apart s t ↔ Apart t s := ⟨Apart.symm, Apart.symm⟩

theorem apart_iff_not_mem : Apart s t ↔ ∀ x, Mem x s → ¬ Mem x t := by
  unfold Apart Mem
  constructor
  · intro h x hs ht
    omega
  · intro h
    by_contra hn
    exact h (max s.base t.base) (by omega) (by omega)

theorem Apart.mono {s' t' : Span} (h : Apart s t) (hs : Within s' s) (ht : Within t' t) :
    Apart s' t' := by
  unfold Apart Within at *
  omega

theorem Within.refl (s : Span) : Within s s := ⟨le_refl _, le_refl _⟩

theorem Within.trans {u : Span} (h : Within s t) (h' : Within t u) : Within s u :=
  ⟨h'.1.trans h.1, h.2.trans h'.2⟩

theorem Within.mem (h : Within s t) {x : ℕ} (hx : Mem x s) : Mem x t := by
  unfold Within Mem at *
  omega

/-- The spans follow one another from `start` to `stop`, without gap or overlap. -/
def Consecutive : List Span → ℕ → ℕ → Prop
  | [], start, stop => start = stop
  | s :: rest, start, stop => s.base = start ∧ Consecutive rest (start + s.size) stop

theorem Consecutive.le (h : Consecutive spans start stop) :
    start ≤ stop := by
  induction spans generalizing start with
  | nil => exact le_of_eq h
  | cons s rest ih => exact (Nat.le_add_right _ _).trans (ih h.2)

theorem Consecutive.within (h : Consecutive spans start stop) (hs : s ∈ spans) :
    start ≤ s.base ∧ s.base + s.size ≤ stop := by
  induction spans generalizing start with
  | nil => cases hs
  | cons t rest ih =>
    rcases mem_cons.mp hs with rfl | hs
    · have hle := h.2.le
      rw [h.1]
      exact ⟨le_refl _, hle⟩
    · obtain ⟨hlow, hhigh⟩ := ih h.2 hs
      exact ⟨by omega, hhigh⟩

theorem consecutive_append :
    Consecutive (spans ++ [s]) start stop ↔
      Consecutive spans start s.base ∧ s.base + s.size = stop := by
  induction spans generalizing start with
  | nil =>
    simp only [nil_append, Consecutive]
    constructor
    · rintro ⟨rfl, hstop⟩
      exact ⟨rfl, hstop⟩
    · rintro ⟨rfl, hstop⟩
      exact ⟨rfl, hstop⟩
  | cons t rest ih => rw [cons_append, Consecutive, Consecutive, ih, and_assoc]

end Span

abbrev Memory := ℕ → UInt8

def read (m : Memory) (a n : ℕ) : List UInt8 := (List.range n).map fun i => m (a + i)

def write (m : Memory) (a : ℕ) (bs : List UInt8) : Memory :=
  fun x => if a ≤ x then (bs[x - a]?).getD (m x) else m x

@[simp] theorem read_length (m : Memory) (a n : ℕ) : (read m a n).length = n := by
  simp only [read, length_map, length_range]

@[simp] theorem read_zero (m : Memory) (a : ℕ) : read m a 0 = [] := rfl

theorem read_congr {m' : Memory} {n : ℕ} (h : ∀ x, Span.Mem x ⟨a, n⟩ → m' x = m x) :
    read m' a n = read m a n := by
  unfold read
  apply map_congr_left
  intro i hi
  have hlt := mem_range.mp hi
  exact h (a + i) ⟨by dsimp only; omega, by dsimp only; omega⟩

theorem read_eq (h : ∀ i byte, bs[i]? = some byte → m (a + i) = byte) :
    read m a bs.length = bs := by
  apply ext_getElem
  · rw [read_length]
  · intro i _ hi
    simp only [read, getElem_map, getElem_range]
    exact h i _ (getElem?_eq_getElem hi)

theorem read_append (m : Memory) (a j k : ℕ) :
    read m a (j + k) = read m a j ++ read m (a + j) k := by
  unfold read
  rw [range_add, map_append, map_map]
  congr 1
  apply map_congr_left
  intro i _
  simp only [Function.comp_apply, Nat.add_assoc]

theorem write_outside (m : Memory) (a : ℕ) (bs : List UInt8) {x : ℕ}
    (h : ¬ Span.Mem x ⟨a, bs.length⟩) : write m a bs x = m x := by
  unfold Span.Mem at h
  unfold write
  split
  · rw [getElem?_eq_none (by dsimp only at h; omega), Option.getD_none]
  · rfl

@[simp] theorem write_nil (m : Memory) (a : ℕ) : write m a [] = m := by
  funext x
  exact write_outside m a [] (by unfold Span.Mem; dsimp; omega)

theorem write_inside (m : Memory) (a : ℕ) (bs : List UInt8) {i : ℕ} (h : i < bs.length) :
    write m a bs (a + i) = bs[i] := by
  unfold write
  rw [if_pos (Nat.le_add_right a i), Nat.add_sub_cancel_left, getElem?_eq_getElem h,
    Option.getD_some]

theorem read_write (m : Memory) (a : ℕ) (bs : List UInt8) :
    read (write m a bs) a bs.length = bs := by
  apply read_eq
  intro i byte hi
  obtain ⟨hlt, rfl⟩ := List.getElem?_eq_some_iff.mp hi
  exact write_inside m a bs hlt

theorem read_write_apart {b n : ℕ} (h : Span.Apart ⟨a, bs.length⟩ ⟨b, n⟩) :
    read (write m a bs) b n = read m b n := by
  apply read_congr
  intro x hx
  apply write_outside
  intro hw
  exact Span.apart_iff_not_mem.mp h x hw hx

def Holds (m : Memory) (a : ℕ) (bs : List UInt8) : Prop := read m a bs.length = bs

theorem holds_write (m : Memory) (a : ℕ) (bs : List UInt8) : Holds (write m a bs) a bs :=
  read_write m a bs

theorem Holds.write_apart {b : ℕ} {cs : List UInt8} (h : Holds m b cs)
    (ha : Span.Apart ⟨a, bs.length⟩ ⟨b, cs.length⟩) : Holds (write m a bs) b cs := by
  unfold Holds
  rw [read_write_apart ha]
  exact h

theorem Holds.congr {m' : Memory} (h : Holds m a bs)
    (hm : ∀ x, Span.Mem x ⟨a, bs.length⟩ → m' x = m x) : Holds m' a bs := by
  unfold Holds
  rw [read_congr hm]
  exact h

end ByteMemory
