import Mathlib.Data.List.Forall2
import Mathlib.Data.Nat.Notation

/-!
# Tables read entry by entry
-/

namespace Listing
open List Option
variable {α β : Type} {entry : ℕ → α → Prop} {count i : ℕ} {l l' : List α} {x : α}

/-- A list of `count` values, each of which `entry` puts at its place. -/
structure Lists (entry : ℕ → α → Prop) (count : ℕ) (l : List α) : Prop where
  length : l.length = count
  entry : ∀ {i x}, l[i]? = some x → entry i x

namespace Lists

variable (h : Lists entry count l)
include h

theorem bound (hx : l[i]? = some x) : i < count := by
  rw [← h.length]
  exact (List.getElem?_eq_some_iff.mp hx).1

theorem get (hi : i < count) : ∃ x, l[i]? = some x ∧ entry i x := by
  rw [← h.length] at hi
  exact ⟨l[i], getElem?_eq_getElem hi, h.entry (getElem?_eq_getElem hi)⟩

theorem of_mem (hx : x ∈ l) : ∃ i < count, l[i]? = some x ∧ entry i x := by
  obtain ⟨i, hi⟩ := mem_iff_getElem?.mp hx
  exact ⟨i, h.bound hi, hi, h.entry hi⟩

theorem mono {entry' : ℕ → α → Prop} (himp : ∀ {i x}, l[i]? = some x → entry i x → entry' i x) :
    Lists entry' count l :=
  ⟨h.length, fun hx => himp hx (h.entry hx)⟩

theorem unique (h' : Lists entry count l') (hentry : ∀ i x y, entry i x → entry i y → x = y) :
    l = l' := by
  apply ext_getElem (h.length.trans h'.length.symm)
  intro i hi hi'
  exact hentry i _ _ (h.entry (getElem?_eq_getElem hi)) (h'.entry (getElem?_eq_getElem hi'))

end Lists

theorem lists_nil : Lists entry 0 [] := ⟨rfl, fun hx => by simp at hx⟩

theorem lists_succ (h : Lists entry count l) (hx : entry count x) :
    Lists entry (count + 1) (l ++ [x]) := by
  refine ⟨by simp [h.length], fun {i y} hy => ?_⟩
  rcases Nat.lt_or_ge i l.length with hi | hi
  · rw [getElem?_append_left hi] at hy
    exact h.entry hy
  · rw [getElem?_append_right hi, getElem?_singleton] at hy
    split at hy
    · have hicount : i = count := by
        have hlen := h.length
        omega
      rw [hicount, ← some.inj hy]
      exact hx
    · cases hy

theorem exists_lists (h : ∀ i < count, ∃ x, entry i x) : ∃ l, Lists entry count l := by
  induction count with
  | zero => exact ⟨[], lists_nil⟩
  | succ count ih =>
    obtain ⟨l, hl⟩ := ih fun i hi => h i (Nat.lt_succ_of_lt hi)
    obtain ⟨x, hx⟩ := h count (Nat.lt_succ_self count)
    exact ⟨l ++ [x], lists_succ hl hx⟩

theorem exists_lists_map {f : α → β} {values : List β}
    (h : ∀ i y, values[i]? = some y → ∃ x, entry i x ∧ f x = y) :
    ∃ l, Lists entry values.length l ∧ l.map f = values := by
  have hall : ∀ i < values.length, ∃ x, entry i x ∧ values[i]? = some (f x) := by
    intro i hi
    obtain ⟨x, hx, hfx⟩ := h i values[i] (getElem?_eq_getElem hi)
    exact ⟨x, hx, by rw [getElem?_eq_getElem hi, hfx]⟩
  obtain ⟨l, hl⟩ := exists_lists hall
  refine ⟨l, hl.mono fun _ hx => hx.1, ?_⟩
  apply ext_getElem?
  intro i
  rw [getElem?_map]
  rcases Nat.lt_or_ge i values.length with hi | hi
  · obtain ⟨x, hx, -, hfx⟩ := hl.get hi
    rw [hx, hfx, map_some]
  · rw [getElem?_eq_none hi, getElem?_eq_none (by rw [hl.length]; exact hi),
      map_none]

section Checked
variable {read : ℕ → α → Prop} {fits : α → Prop}

theorem Lists.unchecked (hl : Lists read count l)
    (h : ∀ {i x}, read i x ↔ i < count ∧ entry i x ∧ fits x) : Lists entry count l :=
  hl.mono fun _ hx => (h.mp hx).2.1

theorem Lists.valid (hl : Lists read count l)
    (h : ∀ {i x}, read i x ↔ i < count ∧ entry i x ∧ fits x) : ∀ x ∈ l, fits x := by
  intro x hx
  obtain ⟨i, -, -, hentry⟩ := hl.of_mem hx
  exact (h.mp hentry).2.2

theorem Lists.checked (hl : Lists entry count l) (hfits : ∀ x ∈ l, fits x)
    (h : ∀ {i x}, read i x ↔ i < count ∧ entry i x ∧ fits x) : Lists read count l :=
  hl.mono fun hi hx => h.mpr ⟨hl.bound hi, hx, hfits _ (mem_of_getElem? hi)⟩

end Checked

theorem forall₂_range_iff : List.Forall₂ entry (List.range count) l ↔ Lists entry count l := by
  rw [List.forall₂_iff_get]
  constructor
  · rintro ⟨hlen, hget⟩
    rw [List.length_range] at hlen
    refine ⟨hlen.symm, fun {i x} hx => ?_⟩
    obtain ⟨hi, rfl⟩ := List.getElem?_eq_some_iff.mp hx
    have h := hget i (by rw [List.length_range]; omega) hi
    simpa using h
  · intro h
    refine ⟨by rw [List.length_range, h.length], fun i hi hi' => ?_⟩
    have hentry := h.entry (List.getElem?_eq_getElem hi')
    simpa using hentry

theorem map_range_iff {read : ℕ → α} :
    (List.range count).map read = l ↔ Lists (fun i x => read i = x) count l := by
  rw [← forall₂_range_iff, ← forall₂_map_left_iff (f := read), forall₂_eq_eq_eq]

variable {f : α → Option β}
variable {values : List β} {l : List α}

theorem mapM_eq_some_iff :
    l.mapM f = some values ↔ List.Forall₂ (fun x y => f x = some y) l values := by
  induction l generalizing values with
  | nil =>
    rw [mapM_nil, forall₂_nil_left_iff]
    exact ⟨fun h => (some.inj h).symm, fun h => by rw [h]; rfl⟩
  | cons x rest ih =>
    rw [mapM_cons, forall₂_cons_left_iff, bind_eq_bind, bind_eq_some_iff]
    refine exists_congr fun y => ?_
    rw [bind_eq_bind, bind_eq_some_iff]
    constructor
    · rintro ⟨hy, tail, htail, h⟩
      exact ⟨tail, hy, ih.mp htail, (some.inj h).symm⟩
    · rintro ⟨tail, hy, htail, rfl⟩
      exact ⟨hy, tail, ih.mpr htail, rfl⟩

theorem mapM_eq_some_map_iff {p : α → Prop} {g : α → β} (h : ∀ x y, f x = some y ↔ p x ∧ y = g x) :
    l.mapM f = some values ↔ (∀ x ∈ l, p x) ∧ values = l.map g := by
  rw [mapM_eq_some_iff]
  induction l generalizing values with
  | nil => simp
  | cons x rest ih =>
    cases values with
    | nil => simp
    | cons y values =>
      rw [forall₂_cons, ih, h, forall_mem_cons, map_cons, List.cons.injEq]
      exact and_and_and_comm

theorem exists_of_mapM (h : l.mapM f = some values) {x : α} (hx : x ∈ l) : ∃ y, f x = some y := by
  rw [mapM_eq_some_iff] at h
  induction h with
  | nil => cases hx
  | cons hy _ ih =>
    rcases mem_cons.mp hx with rfl | hx
    · exact ⟨_, hy⟩
    · exact ih hx

theorem mapM_range_iff {read : ℕ → Option α} :
    (List.range count).mapM read = some l ↔ Lists (fun i x => read i = some x) count l := by
  rw [mapM_eq_some_iff, forall₂_range_iff]

theorem findSome?_perm (hperm : l.Perm l')
    (hsame : ∀ x ∈ l, ∀ y ∈ l, ∀ a b, f x = some a → f y = some b → a = b) :
    l'.findSome? f = l.findSome? f := by
  cases hfound : l.findSome? f with
  | none =>
    have hall := findSome?_eq_none_iff.mp hfound
    exact findSome?_eq_none_iff.mpr fun x hx => hall x (hperm.mem_iff.mpr hx)
  | some a =>
    obtain ⟨x, hx, hxa⟩ := exists_of_findSome?_eq_some hfound
    cases hfound' : l'.findSome? f with
    | none =>
      have hnone := findSome?_eq_none_iff.mp hfound' x (hperm.mem_iff.mp hx)
      rw [hnone] at hxa
      cases hxa
    | some b =>
      obtain ⟨y, hy, hyb⟩ := exists_of_findSome?_eq_some hfound'
      rw [hsame x hx y (hperm.mem_iff.mpr hy) a b hxa hyb]

end Listing
