import Mathlib.Data.List.Nodup
import Mathlib.Data.List.Perm.Subperm
import Mathlib.Data.Nat.Notation
import Mathlib.Tactic.Common

/-!
# References to the keys of a table
-/

namespace Matching
open List
variable {α κ : Type} {p : α → Prop} {name : α → κ} {l : List α} {keys : List κ}

/-- The positions of the references and of the keys are in bijection. -/
structure Matches (p : α → Prop) (name : α → κ) (l : List α) (keys : List κ) : Prop where
  key : ∀ {i : ℕ} {x : α}, l[i]? = some x → p x → ∃! j : ℕ, keys[j]? = some (name x)
  reference : ∀ {j : ℕ} {k : κ}, keys[j]? = some k →
    ∃! i : ℕ, ∃ x, l[i]? = some x ∧ p x ∧ name x = k

section Count
variable [DecidablePred p]

def names (p : α → Prop) [DecidablePred p] (name : α → κ) (l : List α) : List κ :=
  (l.filter fun x => p x).map name

theorem length_names : (names p name l).length = l.countP fun x => p x := by
  rw [names, length_map, ← countP_eq_length_filter]

theorem mem_names {k : κ} : k ∈ names p name l ↔ ∃ x ∈ l, p x ∧ name x = k := by
  simp only [names, mem_map, mem_filter, decide_eq_true_eq, and_assoc]

theorem length_le_countP (hkeys : keys.Nodup) (hcover : ∀ k ∈ keys, ∃ x ∈ l, p x ∧ name x = k) :
    keys.length ≤ l.countP fun x => p x := by
  have hsubset : keys ⊆ names p name l := fun k hk => mem_names.mpr (hcover k hk)
  have hlength := (subperm_of_subset hkeys hsubset).length_le
  rwa [length_names] at hlength

theorem matches_of_count (hkeys : keys.Nodup)
    (hcover : ∀ k ∈ keys, ∃ x ∈ l, p x ∧ name x = k)
    (hcount : (l.countP fun x => p x) ≤ keys.length) : Matches p name l keys := by
  have hsubset : keys ⊆ names p name l := fun k hk => mem_names.mpr (hcover k hk)
  have hlength : (names p name l).length ≤ keys.length := by
    rw [length_names]
    exact hcount
  have hperm : keys.Perm (names p name l) :=
    (List.subperm_of_subset hkeys hsubset).perm_of_length_le hlength
  have hpairs : l.Pairwise fun x y => p x → p y → name x ≠ name y := by
    have hnames : (names p name l).Pairwise (· ≠ ·) := hperm.nodup_iff.mp hkeys
    rw [names, List.pairwise_map, List.pairwise_filter] at hnames
    simpa only [decide_eq_true_eq] using hnames
  constructor
  · intro i x hx hp
    have hkey : name x ∈ keys :=
      hperm.mem_iff.mpr (mem_names.mpr ⟨x, List.mem_of_getElem? hx, hp, rfl⟩)
    obtain ⟨j, hj⟩ := List.mem_iff_getElem?.mp hkey
    refine ⟨j, hj, fun j' hj' => ?_⟩
    obtain ⟨hlt, -⟩ := List.getElem?_eq_some_iff.mp hj'
    exact (List.getElem?_inj hlt hkeys).mp (hj'.trans hj.symm)
  · intro j k hk
    obtain ⟨x, hx, hp, hname⟩ := hcover k (List.mem_of_getElem? hk)
    obtain ⟨i, hi⟩ := List.mem_iff_getElem?.mp hx
    refine ⟨i, ⟨x, hi, hp, hname⟩, ?_⟩
    rintro i' ⟨x', hi', hp', hname'⟩
    obtain ⟨hlt, rfl⟩ := List.getElem?_eq_some_iff.mp hi
    obtain ⟨hlt', rfl⟩ := List.getElem?_eq_some_iff.mp hi'
    have hget := List.pairwise_iff_getElem.mp hpairs
    rcases Nat.lt_trichotomy i i' with h | h | h
    · exact absurd (hname.trans hname'.symm) (hget i i' hlt hlt' h hp hp')
    · exact h.symm
    · exact absurd (hname'.trans hname.symm) (hget i' i hlt' hlt h hp' hp)

theorem countP_eq_length_iff (hl : l.Nodup) (hkeys : keys.Nodup)
    (hcover : ∀ k ∈ keys, ∃ x ∈ l, p x ∧ name x = k) (hnamed : ∀ x ∈ l, p x → name x ∈ keys) :
    (l.countP fun x => p x) = keys.length ↔
      ∀ x ∈ l, ∀ y ∈ l, p x → p y → name x = name y → x = y := by
  constructor
  · intro hcount x hx y hy hpx hpy hname
    have hmatches := matches_of_count hkeys hcover (Nat.le_of_eq hcount)
    obtain ⟨i, hi⟩ := mem_iff_getElem?.mp hx
    obtain ⟨i', hi'⟩ := mem_iff_getElem?.mp hy
    obtain ⟨j, hj⟩ := mem_iff_getElem?.mp (hnamed x hx hpx)
    have hsame := (hmatches.reference hj).unique ⟨x, hi, hpx, rfl⟩ ⟨y, hi', hpy, hname.symm⟩
    rw [← hsame, hi] at hi'
    exact Option.some.inj hi'
  · intro hinj
    have hnodup : (names p name l).Nodup := by
      refine List.Nodup.map_on ?_ (hl.filter _)
      simp only [mem_filter, decide_eq_true_eq]
      intro x hx y hy
      exact hinj x hx.1 y hy.1 hx.2 hy.2
    have hsubset : names p name l ⊆ keys := by
      intro k hk
      obtain ⟨x, hx, hpx, rfl⟩ := mem_names.mp hk
      exact hnamed x hx hpx
    have hle := (subperm_of_subset hnodup hsubset).length_le
    rw [length_names] at hle
    exact Nat.le_antisymm hle (length_le_countP hkeys hcover)

end Count

theorem countP_kinds_le [DecidableEq κ] (kind : α → κ) {a b c : κ} (hab : a ≠ b) (hac : a ≠ c)
    (hbc : b ≠ c) (l : List α) :
    (l.countP fun x => kind x = a) + (l.countP fun x => kind x = b) +
      (l.countP fun x => kind x = c) ≤ l.length := by
  induction l with
  | nil => exact Nat.le_refl 0
  | cons x rest ih =>
    simp only [countP_cons, length_cons, decide_eq_true_eq]
    split_ifs <;> first | omega | simp_all

theorem kind_of_countP_eq [DecidableEq κ] (kind : α → κ) {a b c : κ} (hab : a ≠ b) (hac : a ≠ c)
    (hbc : b ≠ c) {l : List α}
    (h : (l.countP fun x => kind x = a) + (l.countP fun x => kind x = b) +
      (l.countP fun x => kind x = c) = l.length) :
    ∀ x ∈ l, kind x = a ∨ kind x = b ∨ kind x = c := by
  induction l with
  | nil => simp
  | cons x rest ih =>
    have hle := countP_kinds_le kind hab hac hbc rest
    simp only [countP_cons, length_cons, decide_eq_true_eq] at h
    rw [forall_mem_cons]
    by_cases ha : kind x = a
    · simp only [ha, hab, hac, if_true, if_false] at h
      exact ⟨.inl ha, ih (by omega)⟩
    by_cases hb : kind x = b
    · simp only [hb, hab.symm, hbc, if_true, if_false] at h
      exact ⟨.inr (.inl hb), ih (by omega)⟩
    by_cases hc : kind x = c
    · simp only [hc, hac.symm, hbc.symm, if_true, if_false] at h
      exact ⟨.inr (.inr hc), ih (by omega)⟩
    · simp only [ha, hb, hc, if_false] at h
      omega

end Matching
