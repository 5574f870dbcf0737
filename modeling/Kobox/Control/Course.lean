import Kobox.Control.Types
import Mathlib.Data.List.Sort
import Mathlib.Tactic.Common

/-!
# The course of a generation

What a generation is for, without the controller: `Allowed` says which action may succeed
after the actions of `done`, and a `Course` is any sequence of allowed successes.
-/

namespace Kobox.Control
open List

def Gone (done : List ActionType) (exited : Bool) : Prop :=
  .quiesceSandbox ∈ done ∨ .terminateSandbox ∈ done ∨ exited = true

/-- The action may succeed next; `reset` is whether the closure has a resource to reset. -/
def Allowed (reset : Bool) (done : List ActionType) (exited : Bool) : ActionType → Prop
  | .none => False
  | .allocateResources => done = []
  | .launchSandbox => done = [.allocateResources]
  | .transferResources => done = [.allocateResources, .launchSandbox]
  | .quiesceSandbox | .terminateSandbox => .launchSandbox ∈ done ∧ ¬ Gone done exited
  | .revokeResources =>
    .allocateResources ∈ done ∧ (.launchSandbox ∈ done → Gone done exited) ∧
      .revokeResources ∉ done
  | .resetResources => .revokeResources ∈ done ∧ reset = true ∧ .resetResources ∉ done
  | .reapSandbox =>
    .launchSandbox ∈ done ∧ Gone done exited ∧ .revokeResources ∈ done ∧
      (reset = true → .resetResources ∈ done) ∧ .reapSandbox ∉ done
  | .releaseResources =>
    .allocateResources ∈ done ∧ .revokeResources ∈ done ∧
      (reset = true → .resetResources ∈ done) ∧ (.launchSandbox ∈ done → .reapSandbox ∈ done) ∧
      .releaseResources ∉ done

/-- The actions that have succeeded in a generation, in order, and whether the sandbox has exited by
itself. -/
inductive Course (reset : Bool) : List ActionType → Bool → Prop where
  | start : Course reset [] false
  | success {done : List ActionType} {exited : Bool} {type : ActionType}
      (h : Course reset done exited) (ha : Allowed reset done exited type) :
      Course reset (done ++ [type]) exited
  | exit (h : Course reset [.allocateResources, .launchSandbox, .transferResources] false) :
      Course reset [.allocateResources, .launchSandbox, .transferResources] true

def ActionType.rank : ActionType → ℕ
  | .none => 0
  | .allocateResources => 1
  | .launchSandbox => 2
  | .transferResources => 3
  | .quiesceSandbox => 4
  | .terminateSandbox => 4
  | .revokeResources => 5
  | .resetResources => 6
  | .reapSandbox => 7
  | .releaseResources => 8

/-- What every course keeps. -/
structure Orderly (reset : Bool) (done : List ActionType) (exited : Bool) : Prop where
  real : .none ∉ done
  sorted : done.Pairwise fun a b => a.rank < b.rank
  launched : .launchSandbox ∈ done → .allocateResources ∈ done
  gone : Gone done exited → .launchSandbox ∈ done
  revoked : .revokeResources ∈ done → .allocateResources ∈ done ∧
    (.launchSandbox ∈ done → Gone done exited)
  resets : .resetResources ∈ done → .revokeResources ∈ done ∧ reset = true
  reaped : .reapSandbox ∈ done → .launchSandbox ∈ done ∧ Gone done exited ∧
    .revokeResources ∈ done ∧ (reset = true → .resetResources ∈ done)
  released : .releaseResources ∈ done → .allocateResources ∈ done ∧ .revokeResources ∈ done ∧
    (reset = true → .resetResources ∈ done) ∧ (.launchSandbox ∈ done → .reapSandbox ∈ done)

section Course
variable {reset : Bool} {done : List ActionType} {exited : Bool} {type : ActionType}

section
variable (h : Orderly reset done exited)
include h

theorem Orderly.not_cleaned (hl : .launchSandbox ∈ done) (hg : ¬ Gone done exited) :
    .revokeResources ∉ done ∧ .resetResources ∉ done ∧
      .reapSandbox ∉ done ∧ .releaseResources ∉ done := by
  have hrevoke : .revokeResources ∉ done := fun hm => hg ((h.revoked hm).2 hl)
  have hreap : .reapSandbox ∉ done := fun hm => hg (h.reaped hm).2.1
  exact ⟨hrevoke, fun hm => hrevoke (h.resets hm).1, hreap,
    fun hm => hreap ((h.released hm).2.2.2 hl)⟩

theorem Orderly.rank_lt (ha : Allowed reset done exited type) {a : ActionType} (hm : a ∈ done) :
    a.rank < type.rank := by
  have hreal : .none ∉ done := h.real
  by_contra hlt
  cases type with
  | none => exact ha
  | allocateResources =>
    obtain rfl : done = [] := ha
    exact not_mem_nil hm
  | launchSandbox =>
    obtain rfl : done = [.allocateResources] := ha
    rw [mem_singleton.mp hm] at hlt
    exact hlt (by decide)
  | transferResources =>
    obtain rfl : done = [.allocateResources, .launchSandbox] := ha
    rcases mem_pair.mp hm with rfl | rfl
    · exact hlt (by decide)
    · exact hlt (by decide)
  | quiesceSandbox | terminateSandbox =>
    obtain ⟨hl, hg⟩ := ha
    obtain ⟨hrevoke, hreset, hreap, hrelease⟩ := h.not_cleaned hl hg
    have hquiesce : .quiesceSandbox ∉ done := fun hq => hg (Or.inl hq)
    have hterminate : .terminateSandbox ∉ done := fun ht => hg (Or.inr (Or.inl ht))
    cases a <;> contradiction
  | revokeResources =>
    obtain ⟨-, -, hrevoke⟩ := ha
    have hreset : .resetResources ∉ done := fun hm => hrevoke (h.resets hm).1
    have hreap : .reapSandbox ∉ done := fun hm => hrevoke (h.reaped hm).2.2.1
    have hrelease : .releaseResources ∉ done := fun hm => hrevoke (h.released hm).2.1
    cases a <;> contradiction
  | resetResources =>
    obtain ⟨-, hreset, hnot⟩ := ha
    have hreap : .reapSandbox ∉ done := fun hm => hnot ((h.reaped hm).2.2.2 hreset)
    have hrelease : .releaseResources ∉ done := fun hm => hnot ((h.released hm).2.2.1 hreset)
    cases a <;> contradiction
  | reapSandbox =>
    obtain ⟨hl, -, -, -, hnot⟩ := ha
    have hrelease : .releaseResources ∉ done := fun hm => hnot ((h.released hm).2.2.2 hl)
    cases a <;> contradiction
  | releaseResources =>
    obtain ⟨-, -, -, -, hnot⟩ := ha
    cases a <;> contradiction

theorem Orderly.success (ha : Allowed reset done exited type) :
    Orderly reset (done ++ [type]) exited := by
  have hsorted : (done ++ [type]).Pairwise fun a b => a.rank < b.rank := by
    refine pairwise_append.mpr ⟨h.sorted, pairwise_singleton _ _, fun a hm b hb => ?_⟩
    rw [mem_singleton.mp hb]
    exact h.rank_lt ha hm
  obtain ⟨hreal, -, hlaunched, hgone, hrevoked, hresets, hreaped, hreleased⟩ := h
  refine ⟨?_, hsorted, ?_, ?_, ?_, ?_, ?_, ?_⟩
  all_goals
    simp only [Gone, mem_append, mem_singleton] at *
    cases type <;> simp only [Allowed, Gone] at ha <;> grind -ring -linarith

end

theorem Course.orderly (h : Course reset done exited) : Orderly reset done exited := by
  induction h with
  | start =>
    exact ⟨by simp, List.Pairwise.nil, by simp, by simp [Gone], by simp, by simp, by simp, by simp⟩
  | success h ha ih => exact ih.success ha
  | exit h ih =>
    refine ⟨ih.real, ih.sorted, ih.launched, ?_, ?_, ih.resets, ?_, ih.released⟩
    all_goals simp [Gone]

theorem Orderly.one_stop (h : Orderly reset done exited) :
    ¬ (.quiesceSandbox ∈ done ∧ .terminateSandbox ∈ done) := by
  rintro ⟨hq, ht⟩
  have hranks : (done.map ActionType.rank).Nodup :=
    pairwise_map.mpr (h.sorted.imp fun hlt => Nat.ne_of_lt hlt)
  have heq := inj_on_of_nodup_map hranks hq ht rfl
  cases heq

def actionOrder (stop : ActionType) : List ActionType :=
  [.allocateResources, .launchSandbox, .transferResources, stop, .revokeResources, .resetResources,
    .reapSandbox, .releaseResources]

theorem Orderly.sublist (h : Orderly reset done exited) :
    ∃ stop, (stop = .quiesceSandbox ∨ stop = .terminateSandbox) ∧ done.Sublist (actionOrder stop) := by
  have hchoice : ∃ stop, (stop = .quiesceSandbox ∨ stop = .terminateSandbox) ∧
      done ⊆ actionOrder stop := by
    by_cases ht : .terminateSandbox ∈ done
    · have hq : .quiesceSandbox ∉ done := fun hq => h.one_stop ⟨hq, ht⟩
      refine ⟨.terminateSandbox, Or.inr rfl, fun a hm => ?_⟩
      cases a <;> first | exact absurd hm h.real | exact absurd hm hq | decide
    · refine ⟨.quiesceSandbox, Or.inl rfl, fun a hm => ?_⟩
      cases a <;> first | exact absurd hm h.real | exact absurd hm ht | decide
  obtain ⟨stop, hstop, hsub⟩ := hchoice
  have hsorted : (actionOrder stop).Pairwise fun a b => a.rank < b.rank := by
    rcases hstop with rfl | rfl <;> decide
  have : Std.Antisymm fun a b : ActionType => a.rank < b.rank :=
    ⟨fun a b hab hba => absurd (hab.trans hba) (Nat.lt_irrefl _)⟩
  have hnodup : done.Nodup := h.sorted.imp fun hlt he => absurd (he ▸ hlt) (Nat.lt_irrefl _)
  exact ⟨stop, hstop, sublist_of_subperm_of_pairwise (subperm_of_subset hnodup hsub)
    h.sorted hsorted⟩

def ActionType.namesResources (type : ActionType) : Prop :=
  type ∈ [.launchSandbox, .transferResources, .quiesceSandbox, .revokeResources, .resetResources,
    .releaseResources]

def ActionType.namesSandbox (type : ActionType) : Prop :=
  type ∈ [.transferResources, .quiesceSandbox, .terminateSandbox, .reapSandbox]

instance (type : ActionType) : Decidable type.namesResources :=
  inferInstanceAs (Decidable (type ∈ _))

instance (type : ActionType) : Decidable type.namesSandbox := inferInstanceAs (Decidable (type ∈ _))

theorem Orderly.holds_resources (h : Orderly reset done exited)
    (ha : Allowed reset done exited type) (hn : type.namesResources) :
    .allocateResources ∈ done ∧ .releaseResources ∉ done := by
  refine ⟨?_, fun hm => ?_⟩
  · cases type with
    | none | allocateResources | terminateSandbox | reapSandbox => exact absurd hn (by decide)
    | launchSandbox | transferResources =>
      rw [show done = _ from ha]
      decide
    | quiesceSandbox => exact h.launched ha.1
    | revokeResources | releaseResources => exact ha.1
    | resetResources => exact (h.revoked ha.1).1
  · have hlt := h.rank_lt ha hm
    cases type <;> exact absurd hlt (by decide)

theorem Orderly.holds_sandbox (h : Orderly reset done exited)
    (ha : Allowed reset done exited type) (hn : type.namesSandbox) :
    .launchSandbox ∈ done ∧ .reapSandbox ∉ done := by
  refine ⟨?_, fun hm => ?_⟩
  · cases type with
    | none | allocateResources | launchSandbox | revokeResources | resetResources
    | releaseResources => exact absurd hn (by decide)
    | transferResources =>
      rw [show done = _ from ha]
      decide
    | quiesceSandbox | terminateSandbox | reapSandbox => exact ha.1
  · have hlt := h.rank_lt ha hm
    cases type <;> first | exact absurd hlt (by decide) | exact absurd hn (by decide)

end Course

end Kobox.Control
