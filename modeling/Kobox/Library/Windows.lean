import Kobox.Library.ByteMemory

/-!
# Windows from one address space into another
-/

namespace ByteMemory
open List

structure Window where
  base : ℕ
  target : ℕ
  size : ℕ
  deriving DecidableEq, Repr

namespace Window

def span (w : Window) : Span := ⟨w.base, w.size⟩

def targetSpan (w : Window) : Span := ⟨w.target, w.size⟩

def place (w : Window) (s : Span) : Span := ⟨w.target + (s.base - w.base), s.size⟩

instance (x : ℕ) (s : Span) : Decidable (Span.Mem x s) := inferInstanceAs (Decidable (_ ∧ _))

variable {v w : Window} {s t : Span} {l : List Window} {x : ℕ}

theorem place_within (h : Span.Within s w.span) : Span.Within (w.place s) w.targetSpan := by
  simp only [Span.Within, span, place, targetSpan] at *
  omega

theorem place_apart (hs : Span.Within s w.span) (ht : Span.Within t w.span)
    (h : Span.Apart s t) : Span.Apart (w.place s) (w.place t) := by
  simp only [Span.Within, Span.Apart, span, place] at *
  omega

/-- The windows are apart in both address spaces. -/
structure Unambiguous (l : List Window) : Prop where
  sources : l.Pairwise fun v w => Span.Apart v.span w.span
  targets : l.Pairwise fun v w => Span.Apart v.targetSpan w.targetSpan

namespace Unambiguous

theorem index_unique (h : Unambiguous l) {i j : ℕ} (hv : l[i]? = some v) (hw : l[j]? = some w)
    (hsize : s.size ≠ 0) (hs : Span.Within s v.span) (hs' : Span.Within s w.span) : i = j := by
  obtain ⟨hi, rfl⟩ := List.getElem?_eq_some_iff.mp hv
  obtain ⟨hj, rfl⟩ := List.getElem?_eq_some_iff.mp hw
  have hmeet : ¬Span.Apart s s := by
    unfold Span.Apart
    omega
  rcases Nat.lt_trichotomy i j with hlt | heq | hlt
  · exact absurd ((List.pairwise_iff_getElem.mp h.sources i j hi hj hlt).mono hs hs') hmeet
  · exact heq
  · exact absurd ((List.pairwise_iff_getElem.mp h.sources j i hj hi hlt).mono hs' hs) hmeet

variable (h : Unambiguous l) (hv : v ∈ l) (hw : w ∈ l)
include h hv hw

theorem unique (hsize : s.size ≠ 0) (hs : Span.Within s v.span) (hs' : Span.Within s w.span) :
    v = w := by
  obtain ⟨i, hi⟩ := mem_iff_getElem?.mp hv
  obtain ⟨j, hj⟩ := mem_iff_getElem?.mp hw
  rw [h.index_unique hi hj hsize hs hs', hj] at hi
  exact (Option.some.inj hi).symm

theorem unique_of_mem (hx : Span.Mem x v.span) (hx' : Span.Mem x w.span) : v = w :=
  h.unique (s := ⟨x, 1⟩) hv hw Nat.one_ne_zero ⟨hx.1, hx.2⟩ ⟨hx'.1, hx'.2⟩

theorem place_apart (hs : Span.Within s v.span) (ht : Span.Within t w.span)
    (hapart : Span.Apart s t) : Span.Apart (v.place s) (w.place t) := by
  by_cases heq : v = w
  · subst heq
    exact Window.place_apart hs ht hapart
  · have : Std.Symm fun v w : Window => Span.Apart v.targetSpan w.targetSpan :=
      ⟨fun _ _ hvw => hvw.symm⟩
    exact (List.Pairwise.forall h.targets hv hw heq).mono (place_within hs) (place_within ht)

end Unambiguous

def view (l : List Window) (m : Memory) : Memory := fun x =>
  match l.find? fun w => decide (Span.Mem x w.span) with
  | some w => m (w.target + (x - w.base))
  | none => 0

theorem view_outside (hx : ∀ w ∈ l, ¬Span.Mem x w.span) (m : Memory) : view l m x = 0 := by
  have hfind : (l.find? fun w => decide (Span.Mem x w.span)) = none := by
    refine find?_eq_none.mpr fun w hw => ?_
    rw [decide_eq_true_eq]
    exact hx w hw
  rw [view, hfind]

variable (h : Unambiguous l) (hw : w ∈ l)
include h hw

theorem view_inside (hx : Span.Mem x w.span) (m : Memory) :
    view l m x = m (w.target + (x - w.base)) := by
  rw [view]
  cases hfind : l.find? fun w => decide (Span.Mem x w.span) with
  | none =>
    have hnone := find?_eq_none.mp hfind w hw
    simp [hx] at hnone
  | some v =>
    have hv := find?_some hfind
    rw [decide_eq_true_eq] at hv
    rw [h.unique_of_mem (mem_of_find?_eq_some hfind) hw hv hx]

theorem read_view (hs : Span.Within s w.span) (m : Memory) :
    read (view l m) s.base s.size = read m (w.place s).base s.size := by
  refine map_congr_left fun i hi => ?_
  have hi := mem_range.mp hi
  have hmem : Span.Mem (s.base + i) w.span := by
    simp only [Span.Within, Span.Mem, span] at *
    omega
  have hbase : w.base ≤ s.base := hs.1
  rw [view_inside h hw hmem, place, Nat.sub_add_comm hbase, Nat.add_assoc]

theorem view_write {bytes : List UInt8} (hs : Span.Within ⟨x, bytes.length⟩ w.span) (m : Memory) :
    view l (write m (w.target + (x - w.base)) bytes) = write (view l m) x bytes := by
  funext y
  have hbase : w.base ≤ x := hs.1
  by_cases hin : Span.Mem y ⟨x, bytes.length⟩
  · -- The window itself shows what was written.
    obtain ⟨i, rfl⟩ := Nat.exists_eq_add_of_le hin.1
    have hi : i < bytes.length := Nat.lt_of_add_lt_add_left hin.2
    have hplace : w.target + (x + i - w.base) = w.target + (x - w.base) + i := by omega
    rw [view_inside h hw (hs.mem hin), hplace, write_inside _ _ _ hi, write_inside _ _ _ hi]
  · rw [write_outside _ _ _ hin]
    by_cases hshown : ∃ v ∈ l, Span.Mem y v.span
    · obtain ⟨v, hv, hy⟩ := hshown
      have hapart : Span.Apart ⟨y, 1⟩ ⟨x, bytes.length⟩ := by
        simp only [Span.Mem, Span.Apart] at *
        omega
      have hbyte : Span.Within ⟨y, 1⟩ v.span := ⟨hy.1, hy.2⟩
      have hplaces := h.place_apart hv hw hbyte hs hapart
      rw [view_inside h hv hy, view_inside h hv hy, write_outside]
      simp only [place, Span.Apart, Span.Mem] at *
      omega
    · have hnone : ∀ v ∈ l, ¬Span.Mem y v.span := fun v hv hy => hshown ⟨v, hv, hy⟩
      rw [view_outside hnone, view_outside hnone]

end Window

end ByteMemory
