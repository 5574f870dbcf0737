import Mathlib.Data.List.Nodup
import Mathlib.Data.List.Perm.Basic
import Mathlib.Tactic.Common

/-!
# Lists of records with a key
-/

theorem List.Nodup.countP_eq_one_iff {α : Type*} {l : List α} (hn : l.Nodup) (test : α → Bool) :
    l.countP test = 1 ↔ ∃! x, x ∈ l ∧ test x = true := by
  rw [List.countP_eq_length_filter, List.length_eq_one_iff]
  constructor
  · rintro ⟨x, hx⟩
    refine ⟨x, List.mem_filter.mp (hx ▸ List.mem_singleton_self x), fun y hy => ?_⟩
    have hmem := List.mem_filter.mpr hy
    rwa [hx, List.mem_singleton] at hmem
  · rintro ⟨x, hx, hunique⟩
    refine ⟨x, List.perm_singleton.mp ((List.perm_ext_iff_of_nodup (hn.filter _)
      (List.nodup_singleton x)).mpr fun y => ?_)⟩
    rw [List.mem_filter, List.mem_singleton]
    exact ⟨hunique y, fun h => h ▸ hx⟩

theorem List.find?_key_eq_some {α κ : Type*} [BEq κ] [LawfulBEq κ] {key : α → κ} {l : List α}
    (hl : (l.map key).Nodup) {k : κ} {x : α} :
    (l.find? fun y => key y == k) = some x ↔ x ∈ l ∧ key x = k := by
  constructor
  · intro h
    have hkey := List.find?_some h
    exact ⟨List.mem_of_find?_eq_some h, beq_iff_eq.mp hkey⟩
  · rintro ⟨hx, rfl⟩
    cases hfind : l.find? fun y => key y == key x with
    | none => exact absurd (beq_self_eq_true _) (List.find?_eq_none.mp hfind x hx)
    | some y =>
      have hy := List.mem_of_find?_eq_some hfind
      have hkey := List.find?_some hfind
      rw [List.inj_on_of_nodup_map hl hy hx (beq_iff_eq.mp hkey)]

/-- At most `maximum` valid records, no two under one key. -/
structure Keyed {α κ : Type*} (key : α → κ) (Valid : α → Prop) (maximum : ℕ) (l : List α) :
    Prop where
  unique : (l.map key).Nodup
  valid : ∀ x ∈ l, Valid x
  bounded : l.length ≤ maximum

namespace Keyed
open List
variable {α κ : Type*} {key : α → κ} {Valid : α → Prop} {maximum : ℕ} {l l' : List α}

theorem nil (key : α → κ) (Valid : α → Prop) (maximum : ℕ) : Keyed key Valid maximum [] :=
  ⟨nodup_nil, nofun, Nat.zero_le _⟩

section
variable (h : Keyed key Valid maximum l)
include h

theorem nodup : l.Nodup := h.unique.of_map _

theorem inj {x y : α} (hx : x ∈ l) (hy : y ∈ l) (hk : key x = key y) :
    x = y := inj_on_of_nodup_map h.unique hx hy hk

theorem add {x : α} (hx : Valid x) (hnew : ∀ y ∈ l, key y ≠ key x) (hroom : l.length < maximum) :
    Keyed key Valid maximum (l ++ [x]) where
  unique := by
    rw [map_append, nodup_append]
    refine ⟨h.unique, nodup_singleton _, fun k hk k' hk' => ?_⟩
    obtain ⟨y, hy, rfl⟩ := mem_map.mp hk
    rw [map_singleton, mem_singleton] at hk'
    rw [hk']
    exact hnew y hy
  valid := by
    intro y hy
    rcases mem_append.mp hy with hy | hy
    · exact h.valid y hy
    · rwa [mem_singleton.mp hy]
  bounded := by
    rw [length_append, length_singleton]
    omega

end

theorem split {before after : List α} {x : α} (h : Keyed key Valid maximum (before ++ x :: after)) :
    Valid x ∧ (∀ y ∈ before, key y ≠ key x) ∧ before.length < maximum := by
  have hbound := h.bounded
  have hunique := h.unique
  rw [length_append, length_cons] at hbound
  rw [map_append, map_cons, nodup_append] at hunique
  refine ⟨h.valid x (by simp), fun y hy => ?_, by omega⟩
  exact hunique.2.2 (key y) (mem_map_of_mem hy) (key x) mem_cons_self

variable (h : Keyed key Valid maximum l)
include h

theorem map {f : α → α} (hkey : ∀ x, key (f x) = key x) (hvalid : ∀ x ∈ l, Valid (f x)) :
    Keyed key Valid maximum (l.map f) where
  unique := by
    rw [map_map]
    have hcomp : key ∘ f = key := funext hkey
    rw [hcomp]
    exact h.unique
  valid := by
    intro y hy
    obtain ⟨x, hx, rfl⟩ := mem_map.mp hy
    exact hvalid x hx
  bounded := by
    rw [length_map]
    exact h.bounded

theorem perm (hp : l'.Perm l) : Keyed key Valid maximum l' where
  unique := (hp.map key).nodup_iff.mpr h.unique
  valid x hx := h.valid x (hp.mem_iff.mp hx)
  bounded := hp.length_eq ▸ h.bounded

theorem perm_of_mem (h' : Keyed key Valid maximum l') (hmem : ∀ x, x ∈ l ↔ x ∈ l') : l.Perm l' :=
  (perm_ext_iff_of_nodup h.nodup h'.nodup).mpr hmem

theorem modify_first {test : α → Bool} {k : κ} (htest : ∀ x, test x = true ↔ key x = k)
    (write : α → α) :
    (match l.findIdx? test with
      | none => l
      | some index => l.modify index write) = l.map fun x => if test x then write x else x := by
  have hunique := h.unique
  clear h
  induction l with
  | nil => rfl
  | cons x rest ih =>
    rw [map_cons, nodup_cons] at hunique
    rw [findIdx?_cons]
    by_cases hx : test x = true
    · have hrest : rest.map (fun y => if test y then write y else y) = rest := by
        conv_rhs => rw [← map_id rest]
        refine map_congr_left fun y hy => if_neg fun hy' => hunique.1 ?_
        rw [(htest x).mp hx, ← (htest y).mp hy']
        exact mem_map_of_mem hy
      simp [hx, hrest]
    · have ih := ih hunique.2
      cases hfind : rest.findIdx? test with
      | none =>
        rw [hfind] at ih
        simp [hx, ← ih]
      | some index =>
        rw [hfind] at ih
        simp [hx, ← ih]

theorem eq_of_sorted {cmp : α → α → Ordering} [Std.OrientedCmp cmp]
    (hcmp : ∀ x y, cmp x y = .eq → key x = key y) (hp : l.Perm l')
    (hs : l.Pairwise fun x y => cmp x y ≠ .gt) (hs' : l'.Pairwise fun x y => cmp x y ≠ .gt) :
    l = l' := by
  refine List.Perm.eq_of_pairwise (fun x y hx hy hxy hyx => ?_) hs hs' hp
  refine h.inj hx (hp.mem_iff.mpr hy) (hcmp x y ?_)
  have hswap : cmp y x = (cmp x y).swap := Std.OrientedCmp.eq_swap
  rw [hswap] at hyx
  cases hc : cmp x y with
  | lt => rw [hc] at hyx; exact absurd rfl hyx
  | eq => rfl
  | gt => exact absurd hc hxy

end Keyed
