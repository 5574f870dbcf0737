import Kobox.Library.Scan
import Mathlib.Order.Lattice

/-!
# Runs of equal keys
-/

namespace Runs
open List
variable {κ : Type} {keys parents : List κ} {k : κ} {cursor : ℕ}

structure Range (κ : Type) where
  key : κ
  start : ℕ
  count : ℕ

def Covers (keys : List κ) : List (Range κ) → ℕ → Prop
  | [], cursor => cursor = keys.length
  | r :: rest, cursor =>
    (r.start = cursor ∧ ∀ i < r.count, keys[cursor + i]? = some r.key) ∧
      Covers keys rest (cursor + r.count)

variable {ranges : List (Range κ)}

theorem covers_iff_passes :
    Covers keys ranges cursor ↔
      Scan.Passes (fun cursor (r : Range κ) =>
        r.start = cursor ∧ ∀ i < r.count, keys[cursor + i]? = some r.key)
        (fun cursor r => cursor + r.count) ranges cursor ∧
      ranges.foldl (fun cursor r => cursor + r.count) cursor = keys.length := by
  induction ranges generalizing cursor with
  | nil => exact ⟨fun h => ⟨trivial, h⟩, And.right⟩
  | cons r rest ih =>
    rw [Covers, Scan.Passes, foldl_cons, ih]
    exact and_assoc.symm

theorem run_fits {n : ℕ} (hrun : ∀ i < n, keys[cursor + i]? = some k) :
    n ≤ keys.length - cursor := by
  cases n with
  | zero => exact Nat.zero_le _
  | succ n =>
    obtain ⟨hlast, -⟩ := List.getElem?_eq_some_iff.mp (hrun n (Nat.lt_succ_self n))
    omega

theorem foldlM_covers_iff {σ π : Type} {l : List π} {step : σ × ℕ → π → Option (σ × ℕ)} {s : σ}
    (range : π → Range κ) (good : σ → π → Prop) (next : σ → π → σ)
    (hstep : ∀ state p state', step state p = some state' ↔
      (good state.1 p ∧ (range p).start = state.2 ∧
        ∀ i < (range p).count, keys[state.2 + i]? = some (range p).key) ∧
      (next state.1 p, state.2 + (range p).count) = state') :
    (∃ s', l.foldlM step (s, cursor) = some (s', keys.length)) ↔
      Scan.Passes good next l s ∧ Covers keys (l.map range) cursor := by
  have hlast : ∀ state : σ × ℕ, l.foldl (fun state p =>
      (next state.1 p, state.2 + (range p).count)) state =
      (l.foldl next state.1, l.foldl (fun cursor p => cursor + (range p).count) state.2) := by
    clear hstep
    induction l with
    | nil => exact fun _ => rfl
    | cons p rest ih => exact fun state => ih _
  rw [covers_iff_passes, Scan.passes_map, foldl_map]
  simp only [Scan.foldlM_eq_some_iff hstep, hlast, Prod.mk.injEq]
  rw [exists_and_left, Scan.passes_and, Scan.passes_part good next Prod.fst fun _ _ => rfl,
    Scan.passes_part (fun cursor p => (range p).start = cursor ∧
      ∀ i < (range p).count, keys[cursor + i]? = some (range p).key)
      (fun cursor p => cursor + (range p).count) Prod.snd fun _ _ => rfl, exists_eq_left', and_assoc]

theorem drop_eq_run {n : ℕ} (hrun : ∀ i < n, keys[cursor + i]? = some k) :
    keys.drop cursor = List.replicate n k ++ keys.drop (cursor + n) := by
  induction n generalizing cursor with
  | zero => rfl
  | succ n ih =>
    have hhead : keys[cursor]? = some k := hrun 0 (Nat.succ_pos n)
    obtain ⟨hlt, hget⟩ := List.getElem?_eq_some_iff.mp hhead
    have hrest := ih fun i hi => by
      rw [Nat.add_assoc, Nat.add_comm 1 i]
      exact hrun (i + 1) (Nat.succ_lt_succ hi)
    rw [List.drop_eq_getElem_cons hlt, List.replicate_succ, List.cons_append, Nat.add_comm n 1,
      ← Nat.add_assoc]
    exact congrArg₂ List.cons hget hrest

section
variable (h : Covers keys ranges cursor)
include h

theorem Covers.exists_key {x : κ} (hx : x ∈ keys.drop cursor) : ∃ r ∈ ranges, r.key = x := by
  induction ranges generalizing cursor with
  | nil =>
    rw [Covers] at h
    simp [h] at hx
  | cons r rest ih =>
    obtain ⟨⟨-, hrun⟩, hrest⟩ := h
    rw [drop_eq_run hrun] at hx
    rcases mem_append.mp hx with hx | hx
    · exact ⟨r, mem_cons_self, (eq_of_mem_replicate hx).symm⟩
    · obtain ⟨r', hr', hkey⟩ := ih hrest hx
      exact ⟨r', mem_cons_of_mem _ hr', hkey⟩

theorem Covers.exists_range {i : ℕ} {x : κ} (hi : cursor ≤ i) (hx : keys[i]? = some x) :
    ∃ r ∈ ranges, r.key = x ∧ r.start ≤ i ∧ i < r.start + r.count := by
  induction ranges generalizing cursor with
  | nil =>
    rw [Covers] at h
    obtain ⟨hlt, -⟩ := List.getElem?_eq_some_iff.mp hx
    omega
  | cons r rest ih =>
    obtain ⟨⟨hstart, hrun⟩, hrest⟩ := h
    by_cases hin : i < cursor + r.count
    · refine ⟨r, List.mem_cons_self, ?_, by omega, by omega⟩
      have hkey := hrun (i - cursor) (by omega)
      rw [Nat.add_sub_cancel' hi, hx] at hkey
      exact (Option.some.inj hkey).symm
    · obtain ⟨r', hr', hin'⟩ := ih hrest (by omega)
      exact ⟨r', List.mem_cons_of_mem _ hr', hin'⟩

theorem Covers.run {r : Range κ} (hr : r ∈ ranges) {i : ℕ} (hi : i < r.count) :
    keys[r.start + i]? = some r.key := by
  induction ranges generalizing cursor with
  | nil => cases hr
  | cons r' rest ih =>
    obtain ⟨⟨hstart, hrun⟩, hrest⟩ := h
    rcases mem_cons.mp hr with rfl | hr
    · rw [hstart]
      exact hrun i hi
    · exact ih hrest hr

end

variable [LinearOrder κ]

/-! ### Runs that are found -/

def before (keys : List κ) (k : κ) : ℕ := keys.countP (· < k)

def size (keys : List κ) (k : κ) : ℕ := keys.countP (· = k)

def advance (keys : List κ) (cursor : ℕ) (k : κ) : ℕ :=
  cursor + ((keys.drop cursor).takeWhile (· = k)).length

theorem before_le (keys : List κ) (k : κ) : before keys k ≤ keys.length := countP_le_length

theorem size_le (keys : List κ) (k : κ) : size keys k ≤ keys.length := countP_le_length

theorem before_add_size (keys : List κ) (k : κ) :
    before keys k + size keys k = keys.countP (· ≤ k) := by
  rw [before, size]
  induction keys with
  | nil => rfl
  | cons x rest ih =>
    simp only [countP_cons, ← ih, decide_eq_true_eq]
    rcases lt_trichotomy x k with hlt | rfl | hgt
    · rw [if_pos hlt, if_neg hlt.ne, if_pos hlt.le]
      omega
    · rw [if_neg (lt_irrefl x), if_pos rfl, if_pos (le_refl x)]
      omega
    · rw [if_neg hgt.not_gt, if_neg hgt.ne', if_neg hgt.not_ge]
      omega

theorem eq_append_run (hsorted : keys.Pairwise (· ≤ ·)) (k : κ) :
    keys = keys.filter (· < k) ++
      (List.replicate (size keys k) k ++ keys.filter (k < ·)) := by
  induction keys with
  | nil => rfl
  | cons x rest ih =>
    obtain ⟨hx, hrest⟩ := pairwise_cons.mp hsorted
    have ih := ih hrest
    rcases lt_trichotomy x k with hlt | rfl | hgt
    · have hsize : size (x :: rest) k = size rest k := by simp [size, hlt.ne]
      rw [filter_cons_of_pos (by simpa using hlt),
        filter_cons_of_neg (by simpa using hlt.le), hsize, cons_append, ← ih]
    · have hnone : rest.filter (· < x) = [] :=
        filter_eq_nil_iff.mpr fun y hy => by simpa using hx y hy
      have hsize : size (x :: rest) x = size rest x + 1 := by simp [size]
      rw [hnone, nil_append] at ih
      rw [filter_cons_of_neg (by simp), filter_cons_of_neg (by simp), hnone, hsize,
        nil_append, replicate_succ, cons_append, ← ih]
    · have hall : ∀ y ∈ x :: rest, k < y := by
        intro y hy
        rcases mem_cons.mp hy with rfl | hy
        · exact hgt
        · exact hgt.trans_le (hx y hy)
      have hnone : (x :: rest).filter (· < k) = [] :=
        filter_eq_nil_iff.mpr fun y hy => by simpa using (hall y hy).le
      have hsize : size (x :: rest) k = 0 :=
        countP_eq_zero.mpr fun y hy => by simpa using (hall y hy).ne'
      have hself : (x :: rest).filter (k < ·) = x :: rest :=
        filter_eq_self.mpr fun y hy => by simpa using hall y hy
      rw [hnone, hsize, hself]
      rfl

theorem drop_before (hsorted : keys.Pairwise (· ≤ ·)) (k : κ) :
    keys.drop (before keys k) = List.replicate (size keys k) k ++ keys.filter (k < ·) := by
  have hlength : before keys k = (keys.filter (· < k)).length := countP_eq_length_filter
  rw [hlength]
  nth_rewrite 2 [eq_append_run hsorted k]
  exact drop_left

theorem takeWhile_run {n : ℕ} {rest : List κ} (hrest : ∀ x ∈ rest, x ≠ k) :
    (List.replicate n k ++ rest).takeWhile (· = k) = List.replicate n k := by
  have hnone : rest.takeWhile (· = k) = [] := by
    cases rest with
    | nil => rfl
    | cons x rest => simp [hrest x mem_cons_self]
  rw [takeWhile_append_of_pos (by simp), hnone, append_nil]

theorem advance_before (hsorted : keys.Pairwise (· ≤ ·)) (k : κ) :
    advance keys (before keys k) k = before keys k + size keys k := by
  have hback : ∀ x ∈ keys.filter (k < ·), x ≠ k := by
    intro x hx
    have hlt : k < x := by simpa using (mem_filter.mp hx).2
    exact hlt.ne'
  rw [advance, drop_before hsorted, takeWhile_run hback, length_replicate]

/-- The cursor when the parents from here on are left: every child belongs to one of them or is
behind it. -/
structure Left (keys parents : List κ) (cursor : ℕ) : Prop where
  ascending : parents.Pairwise (· < ·)
  belongs : ∀ x ∈ keys, x ∈ parents ∨ ∀ p ∈ parents, x < p
  cursor : cursor = keys.countP fun x => ∀ p ∈ parents, x < p

theorem Left.start (hascending : parents.Pairwise (· < ·)) (hbelongs : ∀ x ∈ keys, x ∈ parents) :
    Left keys parents 0 := by
  refine ⟨hascending, fun x hx => .inl (hbelongs x hx), ?_⟩
  refine (countP_eq_zero.mpr fun x hx => ?_).symm
  rw [decide_eq_true_eq]
  exact fun h => lt_irrefl x (h x (hbelongs x hx))

theorem Left.head (h : Left keys (k :: parents) cursor) : cursor = before keys k := by
  refine h.cursor.trans (countP_congr fun x _ => ?_)
  rw [decide_eq_true_eq, decide_eq_true_eq, forall_mem_cons]
  constructor
  · exact And.left
  · exact fun hx => ⟨hx, fun p hp => hx.trans ((pairwise_cons.mp h.ascending).1 p hp)⟩

theorem Left.tail (h : Left keys (k :: parents) cursor) :
    Left keys parents (before keys k + size keys k) := by
  obtain ⟨hk, hascending⟩ := pairwise_cons.mp h.ascending
  have hcases : ∀ x ∈ keys, x ≤ k ∨ x ∈ parents := by
    intro x hx
    rcases h.belongs x hx with hx | hx
    · rcases mem_cons.mp hx with rfl | hx
      · exact .inl (le_refl _)
      · exact .inr hx
    · exact .inl (hx k mem_cons_self).le
  refine ⟨hascending, fun x hx => ?_, ?_⟩
  · exact (hcases x hx).symm.imp_right fun hle p hp => hle.trans_lt (hk p hp)
  · rw [before_add_size]
    refine countP_congr fun x hx => ?_
    rw [decide_eq_true_eq, decide_eq_true_eq]
    constructor
    · exact fun hle p hp => hle.trans_lt (hk p hp)
    · intro hall
      exact (hcases x hx).resolve_right fun hp => lt_irrefl x (hall x hp)

theorem Left.cursors (h : Left keys parents cursor) (hsorted : keys.Pairwise (· ≤ ·)) :
    (∀ {j p}, parents[j]? = some p →
      (parents.take j).foldl (advance keys) cursor = before keys p) ∧
    parents.foldl (advance keys) cursor = keys.length := by
  induction parents generalizing cursor with
  | nil =>
    refine ⟨fun hp => by simp at hp, ?_⟩
    rw [foldl_nil, h.cursor]
    simp
  | cons k rest ih =>
    have hcursor : advance keys cursor k = before keys k + size keys k := by
      rw [h.head, advance_before hsorted]
    obtain ⟨hruns, hall⟩ := ih h.tail
    refine ⟨fun {j p} hp => ?_, ?_⟩
    · cases j with
      | zero =>
        obtain rfl : k = p := by simpa using hp
        exact h.head
      | succ j =>
        rw [take_succ_cons, foldl_cons, hcursor]
        exact hruns (by simpa using hp)
    · rw [foldl_cons, hcursor]
      exact hall

theorem found {π β : Type} {parents : List π} {children : List β} {parentKey : π → κ}
    {childKey : β → κ} {next : ℕ → π → ℕ}
    (hnext : ∀ cursor p, next cursor p = advance (children.map childKey) cursor (parentKey p))
    (hascending : (parents.map parentKey).Pairwise (· < ·))
    (hsorted : (children.map childKey).Pairwise (· ≤ ·))
    (hbelongs : ∀ x ∈ children, ∃ p ∈ parents, parentKey p = childKey x) :
    (∀ j p, parents[j]? = some p →
      (parents.take j).foldl next 0 = before (children.map childKey) (parentKey p) ∧
      next ((parents.take j).foldl next 0) p =
        before (children.map childKey) (parentKey p) + size (children.map childKey) (parentKey p)) ∧
    parents.foldl next 0 = children.length := by
  have hfold : ∀ l : List π,
      l.foldl next 0 = (l.map parentKey).foldl (advance (children.map childKey)) 0 := by
    intro l
    rw [foldl_map]
    exact congrArg (fun f => l.foldl f 0) (funext fun cursor => funext fun p => hnext cursor p)
  have hleft : Left (children.map childKey) (parents.map parentKey) 0 := by
    refine .start hascending fun x hx => ?_
    obtain ⟨child, hchild, rfl⟩ := mem_map.mp hx
    obtain ⟨p, hp, hkey⟩ := hbelongs child hchild
    exact hkey ▸ mem_map_of_mem hp
  obtain ⟨hruns, hall⟩ := hleft.cursors hsorted
  refine ⟨fun j p hp => ?_, ?_⟩
  · have hcursor : (parents.take j).foldl next 0 = before (children.map childKey) (parentKey p) := by
      rw [hfold, map_take]
      exact hruns (by rw [getElem?_map, hp, Option.map_some])
    refine ⟨hcursor, ?_⟩
    rw [hcursor, hnext, advance_before hsorted]
  · rw [hfold, hall, length_map]

variable {ranges : List (Range κ)} {r : Range κ}

theorem Covers.advance (h : Covers keys (r :: ranges) cursor)
    (hascending : ∀ r' ∈ ranges, r.key < r'.key) :
    Runs.advance keys cursor r.key = cursor + r.count := by
  obtain ⟨⟨-, hrun⟩, hrest⟩ := h
  have hback : ∀ x ∈ keys.drop (cursor + r.count), x ≠ r.key := by
    intro x hx
    obtain ⟨r', hr', rfl⟩ := hrest.exists_key hx
    exact (hascending r' hr').ne'
  rw [Runs.advance, drop_eq_run hrun, takeWhile_run hback, length_replicate]

theorem covers_iff (h : Left keys (ranges.map Range.key) cursor)
    (hsorted : keys.Pairwise (· ≤ ·)) : Covers keys ranges cursor ↔
      ∀ r ∈ ranges, r.start = before keys r.key ∧ r.count = size keys r.key := by
  induction ranges generalizing cursor with
  | nil =>
    have hall := (h.cursors hsorted).2
    exact ⟨fun _ => nofun, fun _ => hall⟩
  | cons r rest ih =>
    have hhead : cursor = before keys r.key := h.head
    have hascending : ∀ r' ∈ rest, r.key < r'.key := by
      intro r' hr'
      exact (pairwise_cons.mp h.ascending).1 r'.key (mem_map_of_mem hr')
    have hadvance : Runs.advance keys cursor r.key = cursor + size keys r.key := by
      rw [hhead, advance_before hsorted]
    have htail := ih h.tail
    rw [← hhead] at htail
    rw [forall_mem_cons, ← htail]
    constructor
    · intro hcovers
      have hcount : r.count = size keys r.key := by
        have hrun := hcovers.advance hascending
        omega
      obtain ⟨⟨hstart, -⟩, hrest⟩ := hcovers
      rw [hcount] at hrest
      exact ⟨⟨hstart.trans hhead, hcount⟩, hrest⟩
    · rintro ⟨⟨hstart, hcount⟩, hrest⟩
      refine ⟨⟨hstart.trans hhead.symm, fun i hi => ?_⟩, hcount ▸ hrest⟩
      have hdrop := congrArg (fun l => l[i]?) (drop_before hsorted r.key)
      rw [hcount] at hi
      rw [← hhead] at hdrop
      simpa [getElem?_append_left, hi] using hdrop

end Runs
