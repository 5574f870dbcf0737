import Mathlib.Data.List.Range
import Mathlib.Tactic.Common

/-!
# Folding over chunks
-/

namespace Chunks
open List

variable {α β σ : Type*} {n : ℕ} {f : σ → List α → σ} {s : σ} {l : List α}

def foldChunks (n : ℕ) (f : σ → List α → σ) (s : σ) (l : List α) : σ :=
  (List.range (l.length / n)).foldl (fun state i => f state ((l.drop (n * i)).take n)) s

theorem foldChunks_nil : foldChunks n f s [] = s := by
  simp [foldChunks]

theorem foldChunks_append {whole chunk : List α} (hn : 0 < n) (hwhole : n ∣ whole.length)
    (hchunk : chunk.length = n) :
    foldChunks n f s (whole ++ chunk) = f (foldChunks n f s whole) chunk := by
  obtain ⟨k, hk⟩ := hwhole
  have hcount : (whole ++ chunk).length / n = k + 1 := by
    rw [length_append, hk, hchunk, ← Nat.mul_succ, Nat.mul_div_cancel_left _ hn]
  have hlast : ((whole ++ chunk).drop (n * k)).take n = chunk := by
    rw [← hk, drop_left, ← hchunk, take_length]
  -- An earlier chunk lies in `whole`.
  have hearlier : ∀ i ∈ List.range k,
      ((whole ++ chunk).drop (n * i)).take n = (whole.drop (n * i)).take n := by
    intro i hi
    have hend : n * (i + 1) ≤ n * k := Nat.mul_le_mul_left n (mem_range.mp hi)
    rw [Nat.mul_succ, ← hk] at hend
    rw [drop_append_of_le_length (by omega), take_append_of_le_length]
    rw [length_drop]
    omega
  rw [foldChunks, foldChunks, hcount, range_succ, foldl_append, foldl_cons,
    foldl_nil, hlast, hk, Nat.mul_div_cancel_left _ hn]
  congr 1
  exact foldl_ext _ _ _ fun state i hi => by rw [hearlier i hi]

theorem map_foldChunks {τ : Type*} {g : σ → τ} {f' : τ → List α → τ}
    (h : ∀ state chunk, chunk.length = n → g (f state chunk) = f' (g state) chunk) :
    g (foldChunks n f s l) = foldChunks n f' (g s) l := by
  unfold foldChunks
  have hchunk : ∀ i ∈ List.range (l.length / n), ((l.drop (n * i)).take n).length = n := by
    intro i hi
    have hend : n * (i + 1) ≤ n * (l.length / n) := Nat.mul_le_mul_left n (mem_range.mp hi)
    have hle := Nat.mul_div_le l.length n
    rw [Nat.mul_succ] at hend
    rw [length_take, length_drop]
    omega
  generalize List.range (l.length / n) = indices at hchunk
  induction indices generalizing s with
  | nil => rfl
  | cons i rest ih =>
    rw [foldl_cons, foldl_cons, ← h _ _ (hchunk i mem_cons_self)]
    exact ih fun j hj => hchunk j (mem_cons_of_mem _ hj)

section Spread
variable {k : ℕ} {g : α → List β}

section
variable (hg : ∀ x, (g x).length = k)
include hg

theorem length_flatMap_const : (l.flatMap g).length = k * l.length := by
  induction l with
  | nil => simp
  | cons x rest ih =>
    rw [flatMap_cons, length_append, ih, hg, length_cons, Nat.mul_succ,
      Nat.add_comm]

theorem mul_succ_const (i : ℕ) (x : α) : k * (i + 1) = (g x).length + k * i := by
  rw [hg, Nat.mul_succ, Nat.add_comm]

theorem drop_flatMap_const (i : ℕ) : (l.flatMap g).drop (k * i) = (l.drop i).flatMap g := by
  induction i generalizing l with
  | zero => simp
  | succ i ih =>
    cases l with
    | nil => simp
    | cons x rest =>
      rw [flatMap_cons, mul_succ_const hg i x, drop_length_add_append, ih, drop_succ_cons]

theorem take_flatMap_const (i : ℕ) : (l.flatMap g).take (k * i) = (l.take i).flatMap g := by
  induction i generalizing l with
  | zero => simp
  | succ i ih =>
    cases l with
    | nil => simp
    | cons x rest =>
      rw [flatMap_cons, mul_succ_const hg i x, take_length_add_append, ih, take_succ_cons,
        flatMap_cons]

end

theorem foldChunks_flatMap (hk : 0 < k) (hg : ∀ x, (g x).length = k) {f : σ → List β → σ} :
    foldChunks (k * n) f s (l.flatMap g) =
      foldChunks n (fun state chunk => f state (chunk.flatMap g)) s l := by
  simp only [foldChunks]
  rw [length_flatMap_const hg, Nat.mul_div_mul_left _ _ hk]
  refine foldl_ext _ _ _ fun state i _ => ?_
  rw [Nat.mul_assoc, drop_flatMap_const hg, take_flatMap_const hg]

end Spread

/-- The state after the whole chunks of the data so far, and the rest, which waits for more. -/
structure Buffered (n : ℕ) (f : σ → List α → σ) (s : σ) (data : List α) (state : σ)
    (rest : List α) : Prop where
  short : rest.length < n
  split : ∃ whole, data = whole ++ rest ∧ n ∣ whole.length ∧ state = foldChunks n f s whole

section Buffer
variable {data rest more : List α} {state : σ}

theorem buffered_nil (hn : 0 < n) : Buffered n f s [] s [] :=
  ⟨hn, [], rfl, Nat.dvd_zero n, foldChunks_nil.symm⟩

section
variable (h : Buffered n f s data state rest)
include h

theorem Buffered.wait (hmore : (rest ++ more).length < n) :
    Buffered n f s (data ++ more) state (rest ++ more) := by
  obtain ⟨whole, hdata, hwhole, hstate⟩ := h.split
  exact ⟨hmore, whole, by rw [hdata, append_assoc], hwhole, hstate⟩

theorem Buffered.consume (hmore : (rest ++ more).length = n) :
    Buffered n f s (data ++ more) (f state (rest ++ more)) [] := by
  have hn : 0 < n := Nat.lt_of_le_of_lt (Nat.zero_le _) h.short
  obtain ⟨whole, hdata, hwhole, hstate⟩ := h.split
  refine ⟨hn, whole ++ (rest ++ more), ?_, ?_, ?_⟩
  · rw [hdata, append_assoc, append_nil]
  · rw [length_append, hmore]
    exact Nat.dvd_add hwhole (Nat.dvd_refl n)
  · rw [foldChunks_append hn hwhole hmore, hstate]

theorem Buffered.length_rest : rest.length = data.length % n := by
  obtain ⟨whole, hdata, ⟨k, hk⟩, -⟩ := h.split
  rw [hdata, length_append, hk, Nat.mul_add_mod, Nat.mod_eq_of_lt h.short]

end

theorem Buffered.foldChunks_eq (h : Buffered n f s data state []) :
    foldChunks n f s data = state := by
  obtain ⟨whole, hdata, -, hstate⟩ := h.split
  rw [hdata, append_nil, hstate]

end Buffer

end Chunks
