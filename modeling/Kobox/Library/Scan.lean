import Mathlib.Data.List.Basic
import Mathlib.Data.Nat.Notation
import Mathlib.Order.Defs.Unbundled
import Mathlib.Tactic.Common

/-!
# Loops that check
-/

namespace Scan
open List
variable {σ τ α κ : Type} {good good' : σ → α → Prop} {next : σ → α → σ} {l : List α} {s s' : σ}

def Passes (good : σ → α → Prop) (next : σ → α → σ) : List α → σ → Prop
  | [], _ => True
  | x :: rest, s => good s x ∧ Passes good next rest (next s x)

variable {step : σ → α → Option σ} {p : List α → α → Bool} {compatible : α → α → Prop}
  {own : α → Prop}

theorem foldlM_eq_some_iff (hstep : ∀ s x s', step s x = some s' ↔ good s x ∧ next s x = s') :
    l.foldlM step s = some s' ↔ Passes good next l s ∧ l.foldl next s = s' := by
  induction l generalizing s with
  | nil =>
    rw [foldlM_nil, foldl_nil, Passes, true_and]
    exact Option.some_inj
  | cons x rest ih =>
    rw [foldlM_cons, Option.bind_eq_bind, Option.bind_eq_some_iff, foldl_cons, Passes]
    constructor
    · rintro ⟨middle, hmiddle, hrest⟩
      obtain ⟨hx, rfl⟩ := (hstep s x middle).mp hmiddle
      obtain ⟨hpasses, hlast⟩ := ih.mp hrest
      exact ⟨⟨hx, hpasses⟩, hlast⟩
    · rintro ⟨⟨hx, hpasses⟩, hlast⟩
      exact ⟨next s x, (hstep s x _).mpr ⟨hx, rfl⟩, ih.mpr ⟨hpasses, hlast⟩⟩

theorem foldlM_zipIdx_fst :
    l.zipIdx.foldlM (fun s entry => step s entry.1) s = l.foldlM step s := by
  conv_rhs => rw [← zipIdx_map_fst 0 l, foldlM_map]

theorem isSome_foldlM_iff (hstep : ∀ s x s', step s x = some s' ↔ good s x ∧ next s x = s') :
    (l.foldlM step s).isSome = true ↔ Passes good next l s := by
  rw [Option.isSome_iff_exists]
  constructor
  · rintro ⟨s', hs'⟩
    exact ((foldlM_eq_some_iff hstep).mp hs').1
  · intro hpasses
    exact ⟨_, (foldlM_eq_some_iff hstep).mpr ⟨hpasses, rfl⟩⟩

theorem guard_eq_some {bad : Prop} [Decidable bad] {ok : Prop} (h : ¬bad ↔ ok) :
    (if bad then none else some s) = some s' ↔ ok ∧ s = s' := by
  rw [← h]
  split_ifs with hbad
  · exact ⟨nofun, fun hgood => absurd hbad hgood.1⟩
  · rw [Option.some_inj, and_iff_right hbad]

theorem passes_congr (h : ∀ s, ∀ x ∈ l, good s x ↔ good' s x) :
    Passes good next l s ↔ Passes good' next l s := by
  induction l generalizing s with
  | nil => exact Iff.rfl
  | cons x rest ih =>
    have hrest := ih (s := next s x) fun s y hy => h s y (mem_cons_of_mem _ hy)
    exact and_congr (h s x mem_cons_self) hrest

theorem passes_and :
    Passes (fun s x => good s x ∧ good' s x) next l s ↔
      Passes good next l s ∧ Passes good' next l s := by
  induction l generalizing s with
  | nil => exact (and_self_iff).symm
  | cons x rest ih =>
    rw [Passes, Passes, Passes, ih]
    exact and_and_and_comm

theorem passes_forall {valid : α → Prop} :
    Passes (fun _ x => valid x) next l s ↔ ∀ x ∈ l, valid x := by
  induction l generalizing s with
  | nil => exact ⟨fun _ => nofun, fun _ => trivial⟩
  | cons x rest ih => rw [Passes, ih, forall_mem_cons]

theorem passes_part (good : τ → α → Prop) (next' : τ → α → τ) (part : σ → τ)
    (hpart : ∀ s x, part (next s x) = next' (part s) x) :
    Passes (fun s x => good (part s) x) next l s ↔ Passes good next' l (part s) := by
  induction l generalizing s with
  | nil => exact Iff.rfl
  | cons x rest ih => rw [Passes, Passes, ih, hpart]

theorem passes_map {β : Type} {f : β → α} {l : List β} :
    Passes good next (l.map f) s ↔
      Passes (fun s x => good s (f x)) (fun s x => next s (f x)) l s := by
  induction l generalizing s with
  | nil => exact Iff.rfl
  | cons x rest ih => rw [map_cons, Passes, Passes, ih]

theorem passes_prior (R : κ → κ → Prop) [IsTrans κ R] (prior : σ → κ) (key : α → κ)
    (hnext : ∀ s x, prior (next s x) = key x) :
    Passes (fun s x => R (prior s) (key x)) next l s ↔
      (∀ x ∈ l, R (prior s) (key x)) ∧ (l.map key).Pairwise R := by
  induction l generalizing s with
  | nil => exact ⟨fun _ => ⟨nofun, .nil⟩, fun _ => trivial⟩
  | cons x rest ih =>
    rw [Passes, ih, hnext, map_cons, pairwise_cons, forall_mem_cons,
      forall_mem_map]
    constructor
    · rintro ⟨hx, hrest, hpairs⟩
      exact ⟨⟨hx, fun y hy => IsTrans.trans _ _ _ hx (hrest y hy)⟩, hrest, hpairs⟩
    · rintro ⟨⟨hx, -⟩, hrest, hpairs⟩
      exact ⟨hx, hrest, hpairs⟩

theorem passes_iff_getElem? :
    Passes good next l s ↔ ∀ j x, l[j]? = some x → good ((l.take j).foldl next s) x := by
  induction l generalizing s with
  | nil => exact ⟨fun _ j x hx => by simp at hx, fun _ => trivial⟩
  | cons y rest ih =>
    rw [Passes, ih]
    constructor
    · rintro ⟨hy, hrest⟩ j x hx
      cases j with
      | zero =>
        obtain rfl : y = x := by simpa using hx
        exact hy
      | succ j => exact hrest j x (by simpa using hx)
    · intro h
      exact ⟨h 0 y rfl, fun j x hx => h (j + 1) x (by simpa using hx)⟩

theorem all_zipIdx_iff :
    (l.zipIdx.all fun (x, i) => p (l.take i) x) = true ↔
      ∀ i x, l[i]? = some x → p (l.take i) x = true := by
  simp only [all_eq_true, Prod.forall, mk_mem_zipIdx_iff_getElem?]
  exact forall_comm

theorem earlier_iff :
    (∀ i x, l[i]? = some x → own x ∧ ∀ y ∈ l.take i, compatible y x) ↔
      (∀ x ∈ l, own x) ∧ l.Pairwise compatible := by
  rw [List.pairwise_iff_getElem]
  constructor
  · intro hall
    refine ⟨fun x hx => ?_, fun i j hi hj hij => ?_⟩
    · obtain ⟨i, hi⟩ := List.mem_iff_getElem?.mp hx
      exact (hall i x hi).1
    · refine (hall j l[j] (List.getElem?_eq_getElem hj)).2 l[i] ?_
      rw [List.mem_take_iff_getElem]
      exact ⟨i, by omega, rfl⟩
  · rintro ⟨hown, hpairs⟩ j x hx
    obtain ⟨hj, rfl⟩ := List.getElem?_eq_some_iff.mp hx
    refine ⟨hown _ (List.getElem_mem hj), fun y hy => ?_⟩
    obtain ⟨i, hi, rfl⟩ := List.mem_take_iff_getElem.mp hy
    exact hpairs i j (by omega) hj (by omega)

theorem ascending_iff (R : α → α → Prop) [IsTrans α R] :
    (∀ i x, l[i]? = some x → ∀ y, (l.take i).getLast? = some y → R y x) ↔ l.Pairwise R := by
  rw [← List.isChain_iff_pairwise, List.isChain_iff_getElem]
  constructor
  · intro h i hi
    refine h (i + 1) _ (List.getElem?_eq_getElem hi) _ ?_
    rw [List.take_succ_eq_append_getElem (Nat.lt_of_succ_lt hi), List.getLast?_concat]
  · intro h i x hx y hy
    obtain ⟨hi, rfl⟩ := List.getElem?_eq_some_iff.mp hx
    cases i with
    | zero => simp at hy
    | succ i =>
      rw [List.take_succ_eq_append_getElem (Nat.lt_of_succ_lt hi), List.getLast?_concat,
        Option.some_inj] at hy
      exact hy ▸ h i hi

theorem all_earlier_iff
    (h : ∀ earlier x, p earlier x = true ↔ own x ∧ ∀ y ∈ earlier, compatible y x) {l : List α} :
    (l.zipIdx.all fun (x, i) => p (l.take i) x) = true ↔
      (∀ x ∈ l, own x) ∧ l.Pairwise compatible := by
  simp only [all_zipIdx_iff, h, earlier_iff]

theorem all_ascending_iff (R : α → α → Prop) [IsTrans α R]
    (h : ∀ earlier x, p earlier x = true ↔
      (∀ y, earlier.getLast? = some y → R y x) ∧ own x ∧ ∀ y ∈ earlier, compatible y x) :
    (l.zipIdx.all fun (x, i) => p (l.take i) x) = true ↔
      l.Pairwise R ∧ (∀ x ∈ l, own x) ∧ l.Pairwise compatible := by
  simp only [all_zipIdx_iff, h, forall_and, ascending_iff, ← earlier_iff]

theorem skip_alike_iff {alike : α → α → Prop} {ok : α → Prop}
    (h : ∀ x ∈ l, ∀ y ∈ l, alike y x → ok y → ok x) :
    (∀ i x, l[i]? = some x → (∃ y ∈ l.take i, alike y x) ∨ ok x) ↔ ∀ x ∈ l, ok x := by
  constructor
  · intro hall
    have hplace : ∀ (i : ℕ) (x : α), l[i]? = some x → ok x := by
      intro i
      induction i using Nat.strongRecOn with
      | ind i ih =>
        intro x hx
        rcases hall i x hx with ⟨y, hy, halike⟩ | hok
        · obtain ⟨j, hj, rfl⟩ := mem_take_iff_getElem.mp hy
          have hget := getElem?_eq_getElem (show j < l.length by omega)
          exact h x (mem_of_getElem? hx) _ (mem_of_getElem? hget) halike
            (ih j (by omega) _ hget)
        · exact hok
    intro x hx
    obtain ⟨i, hi⟩ := mem_iff_getElem?.mp hx
    exact hplace i x hi
  · intro hall i x hx
    exact .inr (hall x (mem_of_getElem? hx))

end Scan
