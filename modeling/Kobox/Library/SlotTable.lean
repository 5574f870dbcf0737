import Mathlib.Algebra.BigOperators.Group.Finset.Piecewise
import Mathlib.Logic.Function.Basic
import Mathlib.Tactic.Common

/-!
# Slot tables with exclusively owned resources
-/

namespace SlotTable
open Function
variable {n h : ℕ} {α β : Type}

def count (n : ℕ) (t : ℕ → Option α) (p : α → Bool) : ℕ :=
  ((Finset.range n).filter fun h => (t h).any p = true).card

theorem count_update (hn : h < n) (t : ℕ → Option α) (v : Option α) (p : α → Bool) :
    count n (update t h v) p + (if (t h).any p then 1 else 0) =
      count n t p + if v.any p then 1 else 0 := by
  have hmem : h ∈ Finset.range n := Finset.mem_range.mpr hn
  unfold count
  rw [Finset.card_filter, Finset.card_filter, ← Finset.add_sum_erase _ _ hmem,
    ← Finset.add_sum_erase (Finset.range n) (fun x => if (t x).any p = true then 1 else 0) hmem,
    update_self]
  have hrest : ∀ x ∈ (Finset.range n).erase h,
      (if (update t h v x).any p = true then 1 else 0) =
        if (t x).any p = true then 1 else 0 := by
    intro x hx
    rw [update_of_ne (Finset.ne_of_mem_erase hx)]
  rw [Finset.sum_congr rfl hrest]
  omega

variable {t : ℕ → Option α} {p : α → Bool}
variable {a : α}

theorem count_insert (hn : h < n) (ht : t h = none) (hp : p a = true) :
    count n (update t h (some a)) p = count n t p + 1 := by
  have hcount := count_update hn t (some a) p
  simpa [ht, hp] using hcount

theorem count_remove (hn : h < n) {v : Option α} (ht : (t h).any p = true) (hv : v.any p = false) :
    count n (update t h v) p = count n t p - 1 := by
  have hcount := count_update hn t v p
  simp only [ht, hv, if_true, Bool.false_eq_true, if_false] at hcount
  omega

theorem count_keep (hn : h < n) {v : Option α} (hv : v.any p = (t h).any p) :
    count n (update t h v) p = count n t p := by
  have hcount := count_update hn t v p
  rw [hv] at hcount
  omega

theorem count_empty (n : ℕ) (p : α → Bool) : count n (fun _ => none) p = 0 := by
  simp [count]

theorem count_le_of_imp {p q : α → Bool} (h : ∀ a, p a = true → q a = true) :
    count n t p ≤ count n t q := by
  apply Finset.card_le_card
  intro x hx
  rw [Finset.mem_filter] at hx ⊢
  refine ⟨hx.1, ?_⟩
  rw [Option.any_eq_true] at hx ⊢
  obtain ⟨a, ha, hp⟩ := hx.2
  exact ⟨a, ha, h a hp⟩

theorem count_pos (hn : h < n) (ht : t h = some a) (hp : p a = true) : 0 < count n t p :=
  Finset.card_pos.mpr ⟨h, Finset.mem_filter.mpr ⟨Finset.mem_range.mpr hn, by simp [ht, hp]⟩⟩

def Exclusive (R : α → α → Prop) (t : ℕ → Option α) : Prop :=
  ∀ h h' a a', h ≠ h' → t h = some a → t h' = some a' → R a a'

theorem Exclusive.insert {R : α → α → Prop} (ht : Exclusive R t) (hR : ∀ a a', R a a' → R a' a)
    (ha : ∀ h' a', h' ≠ h → t h' = some a' → R a a') : Exclusive R (update t h (some a)) := by
  intro i j x y hij hx hy
  by_cases hi : i = h
  · subst hi
    rw [update_self] at hx
    rw [update_of_ne hij.symm] at hy
    cases hx
    exact ha j y hij.symm hy
  · rw [update_of_ne hi] at hx
    by_cases hj : j = h
    · subst hj
      rw [update_self] at hy
      cases hy
      exact hR _ _ (ha i x hi hx)
    · rw [update_of_ne hj] at hy
      exact ht i j x y hij hx hy

theorem update_none_eq_some {i : ℕ} (hi : update t h none i = some a) : i ≠ h ∧ t i = some a := by
  by_cases hih : i = h
  · subst hih
    simp at hi
  · rw [update_of_ne hih] at hi
    exact ⟨hih, hi⟩

theorem Exclusive.erase {R : α → α → Prop} (ht : Exclusive R t) (h : ℕ) :
    Exclusive R (update t h none) := by
  intro i j x y hij hx hy
  exact ht i j x y hij (update_none_eq_some hx).2 (update_none_eq_some hy).2

/-- The book `owner` names, for every resource, the slot whose entry uses it. -/
structure Books (uses : α → ℕ → Prop) (tag : ℕ → β) (free : β) (t : ℕ → Option α)
    (owner : ℕ → β) : Prop where
  used : ∀ h a d, t h = some a → uses a d → owner d = tag h
  unused : ∀ d, (∀ h a, t h = some a → ¬ uses a d) → owner d = free

section Books
variable {uses : α → ℕ → Prop} {tag : ℕ → β} {free : β} {t : ℕ → Option α} {owner owner' : ℕ → β}

variable (hb : Books uses tag free t owner)
include hb

theorem Books.not_used (htag : ∀ h a, t h = some a → tag h ≠ free) {d : ℕ} (hd : owner d = free)
    {a : α} (ht : t h = some a) : ¬ uses a d := by
  intro hu
  exact htag h a ht ((hb.used h a d ht hu).symm.trans hd)

theorem Books.insert (htag : ∀ h a, t h = some a → tag h ≠ free) {a : α} (hslot : t h = none)
    (hfree : ∀ d, uses a d → owner d = free) (hin : ∀ d, uses a d → owner' d = tag h)
    (hout : ∀ d, ¬ uses a d → owner' d = owner d) :
    Books uses tag free (update t h (some a)) owner' := by
  constructor
  · intro i x d hx hu
    by_cases hi : i = h
    · subst hi
      rw [update_self] at hx
      cases hx
      exact hin d hu
    · rw [update_of_ne hi] at hx
      have hna : ¬ uses a d := fun hua => hb.not_used htag (hfree d hua) hx hu
      rw [hout d hna]
      exact hb.used i x d hx hu
  · intro d hd
    have hna : ¬ uses a d := hd h a (by rw [update_self])
    rw [hout d hna]
    refine hb.unused d fun i x hx => ?_
    have hi : i ≠ h := by
      rintro rfl
      rw [hslot] at hx
      cases hx
    exact hd i x (by rwa [update_of_ne hi])

theorem Books.erase (hinj : ∀ h h' a a', t h = some a → t h' = some a' → tag h = tag h' → h = h')
    {a : α} (hslot : t h = some a) (hin : ∀ d, uses a d → owner' d = free)
    (hout : ∀ d, ¬ uses a d → owner' d = owner d) :
    Books uses tag free (update t h none) owner' := by
  constructor
  · intro i x d hx hu
    obtain ⟨hi, hx⟩ := update_none_eq_some hx
    have hna : ¬ uses a d := by
      intro hua
      have htags := (hb.used i x d hx hu).symm.trans (hb.used h a d hslot hua)
      exact hi (hinj i h x a hx hslot htags)
    rw [hout d hna]
    exact hb.used i x d hx hu
  · intro d hd
    by_cases hua : uses a d
    · exact hin d hua
    · rw [hout d hua]
      refine hb.unused d fun i x hx => ?_
      by_cases hi : i = h
      · subst hi
        rw [hslot] at hx
        cases hx
        exact hua
      · exact hd i x (by rwa [update_of_ne hi])

theorem Books.replace {a a' : α} (hslot : t h = some a) (huses : ∀ d, uses a' d ↔ uses a d) :
    Books uses tag free (update t h (some a')) owner := by
  constructor
  · intro i x d hx hu
    by_cases hi : i = h
    · subst hi
      rw [update_self] at hx
      cases hx
      exact hb.used i a d hslot ((huses d).mp hu)
    · rw [update_of_ne hi] at hx
      exact hb.used i x d hx hu
  · intro d hd
    refine hb.unused d fun i x hx hu => ?_
    by_cases hi : i = h
    · subst hi
      rw [hslot] at hx
      cases hx
      exact hd i a' (by rw [update_self]) ((huses d).mpr hu)
    · exact hd i x (by rwa [update_of_ne hi]) hu

end Books

end SlotTable
