import Kobox.Library.ByteMemory
import Mathlib.Data.List.Nodup
import Mathlib.Logic.Function.Basic

/-!
# Memory in pieces
-/

namespace ByteMemory
open List Function

def addresses (spans : List Span) : List ℕ := spans.flatMap fun s => List.range' s.base s.size

def contents (m : Memory) (spans : List Span) : List UInt8 :=
  spans.flatMap fun s => read m s.base s.size

def scatter (m : Memory) : List ℕ → List UInt8 → Memory
  | a :: rest, byte :: bytes => scatter (update m a byte) rest bytes
  | _, _ => m

section Addresses
variable {m : Memory} {s : Span} {spans : List Span} {offset size : ℕ}

theorem addresses_cons : addresses (s :: spans) = List.range' s.base s.size ++ addresses spans :=
  flatMap_cons

theorem length_addresses (spans : List Span) :
    (addresses spans).length = (spans.map Span.size).sum := by
  rw [addresses, length_flatMap]
  simp only [length_range']

theorem read_eq_map (m : Memory) (a n : ℕ) : read m a n = (List.range' a n).map m := by
  rw [read, List.range'_eq_map_range, map_map]
  rfl

theorem contents_eq (m : Memory) (spans : List Span) :
    contents m spans = (addresses spans).map m := by
  rw [contents, addresses, map_flatMap]
  simp only [read_eq_map]

theorem nodup_addresses (h : spans.Pairwise Span.Apart) : (addresses spans).Nodup := by
  refine nodup_flatMap.mpr ⟨fun s _ => nodup_range', h.imp fun {s t} hapart => ?_⟩
  intro x hs ht
  rw [mem_range'_1] at hs ht
  exact Span.apart_iff_not_mem.mp hapart x hs ht

theorem slice_skip (h : s.size ≤ offset) :
    ((addresses (s :: spans)).drop offset).take size =
      ((addresses spans).drop (offset - s.size)).take size := by
  have hnil : (List.range' s.base s.size).drop offset = [] := by
    rw [drop_range', Nat.sub_eq_zero_of_le h]
    rfl
  rw [addresses_cons, drop_append, hnil, nil_append, length_range']

theorem slice_inside (spans : List Span) (size : ℕ) (h : offset < s.size) :
    ((addresses (s :: spans)).drop offset).take size =
      List.range' (s.base + offset) (min (s.size - offset) size) ++
        ((addresses spans).drop 0).take (size - min (s.size - offset) size) := by
  have hsize : size - (s.size - offset) = size - min (s.size - offset) size := by omega
  have htake : (List.range' (s.base + offset) (s.size - offset)).take size =
      List.range' (s.base + offset) (min (s.size - offset) size) := by
    rcases Nat.le_total (s.size - offset) size with hle | hle
    · rw [Nat.min_eq_left hle, take_range'_of_length_le hle]
    · rw [Nat.min_eq_right hle, take_range'_of_length_ge hle]
  have hwithin : offset ≤ (List.range' s.base s.size).length := by
    rw [length_range']
    exact Nat.le_of_lt h
  rw [addresses_cons, drop_append_of_le_length hwithin, take_append, drop_range',
    Nat.mul_one, length_range', hsize, htake, drop_zero]

end Addresses

section Scatter
variable {m : Memory} {as as' : List ℕ} {bytes bytes' : List UInt8} {x : ℕ}

theorem scatter_nil (m : Memory) (as : List ℕ) : scatter m as [] = m := by
  cases as <;> rfl

theorem scatter_append (h : as.length = bytes.length) :
    scatter m (as ++ as') (bytes ++ bytes') = scatter (scatter m as bytes) as' bytes' := by
  induction as generalizing m bytes with
  | nil =>
    rw [length_nil] at h
    rw [eq_nil_of_length_eq_zero h.symm]
    rfl
  | cons a rest ih =>
    cases bytes with
    | nil => cases h
    | cons byte bytes => exact ih (Nat.succ.inj h)

theorem scatter_of_not_mem (h : x ∉ as) : scatter m as bytes x = m x := by
  induction as generalizing m bytes with
  | nil => rfl
  | cons a rest ih =>
    rw [mem_cons, not_or] at h
    cases bytes with
    | nil => rfl
    | cons byte bytes => rw [scatter, ih h.2, update_of_ne h.1]

theorem map_scatter (hnodup : as.Nodup) (h : as.length = bytes.length) :
    as.map (scatter m as bytes) = bytes := by
  induction as generalizing m bytes with
  | nil =>
    rw [length_nil] at h
    rw [eq_nil_of_length_eq_zero h.symm]
    rfl
  | cons a rest ih =>
    obtain ⟨ha, hrest⟩ := nodup_cons.mp hnodup
    cases bytes with
    | nil => cases h
    | cons byte bytes =>
      rw [map_cons, scatter, ih hrest (Nat.succ.inj h), scatter_of_not_mem ha,
        update_self]

theorem write_cons (m : Memory) (a : ℕ) (byte : UInt8) (bytes : List UInt8) :
    write m a (byte :: bytes) = write (update m a byte) (a + 1) bytes := by
  funext x
  rcases Nat.lt_trichotomy x a with hlt | heq | hlt
  · rw [write, write, if_neg (by omega), if_neg (by omega), update_of_ne (by omega)]
  · subst heq
    rw [write, write, if_pos (Nat.le_refl _), if_neg (by omega), Nat.sub_self,
      update_self]
    rfl
  · obtain ⟨k, rfl⟩ := Nat.exists_eq_add_of_lt hlt
    have hk : a + k + 1 - a = k + 1 := by omega
    have hk' : a + k + 1 - (a + 1) = k := by omega
    rw [write, write, if_pos (by omega), if_pos (by omega), hk, hk',
      update_of_ne (by omega), getElem?_cons_succ]

theorem write_eq_scatter (m : Memory) (a : ℕ) (bytes : List UInt8) :
    write m a bytes = scatter m (List.range' a bytes.length) bytes := by
  induction bytes generalizing m a with
  | nil => rw [write_nil, scatter_nil]
  | cons byte rest ih =>
    rw [length_cons, List.range'_succ, scatter, ← ih, write_cons]

theorem contents_scatter {spans : List Span} (hnodup : (addresses spans).Nodup) {offset : ℕ}
    (h : offset + bytes.length ≤ (addresses spans).length) :
    contents (scatter m (((addresses spans).drop offset).take bytes.length) bytes) spans =
      (contents m spans).take offset ++ bytes ++ (contents m spans).drop (offset + bytes.length) := by
  generalize hpart : ((addresses spans).drop offset).take bytes.length = part
  have hlength : part.length = bytes.length := by
    rw [← hpart, length_take, length_drop]
    omega
  have hsplit : addresses spans = (addresses spans).take offset ++
      (part ++ (addresses spans).drop (offset + bytes.length)) := by
    rw [← hpart, ← drop_drop, take_append_drop, take_append_drop]
  rw [hsplit, nodup_append] at hnodup
  obtain ⟨-, hrest, hbefore⟩ := hnodup
  obtain ⟨hpart', -, hafter⟩ := nodup_append.mp hrest
  -- The addresses around the part are not written.
  have hfirst : ((addresses spans).take offset).map (scatter m part bytes) =
      ((addresses spans).take offset).map m := by
    refine map_congr_left fun x hx => scatter_of_not_mem fun hmem => ?_
    exact hbefore x hx x (mem_append_left _ hmem) rfl
  have hlast : ((addresses spans).drop (offset + bytes.length)).map (scatter m part bytes) =
      ((addresses spans).drop (offset + bytes.length)).map m := by
    refine map_congr_left fun x hx => scatter_of_not_mem fun hmem => ?_
    exact hafter x hmem x hx rfl
  calc contents (scatter m part bytes) spans
      = ((addresses spans).take offset ++
          (part ++ (addresses spans).drop (offset + bytes.length))).map (scatter m part bytes) := by
        rw [contents_eq, ← hsplit]
    _ = ((addresses spans).take offset).map m ++
          (bytes ++ ((addresses spans).drop (offset + bytes.length)).map m) := by
        rw [map_append, map_append, hfirst, hlast, map_scatter hpart' hlength]
    _ = (contents m spans).take offset ++ bytes ++
          (contents m spans).drop (offset + bytes.length) := by
        rw [contents_eq, map_take, map_drop, append_assoc]

end Scatter

end ByteMemory
