import Kobox.Control.Lifecycle

/-!
# The fault a generation is left with
-/

namespace Kobox.Control
open List

def Controller.faultResult (c : Controller) : FaultKind × UInt64 := (c.faultKind, c.faultCode)

def Step.replaces (s : Step) : Option (FaultKind × UInt64) :=
  if s.status = .counterExhausted then some (.controller, Status.counterExhausted.code)
  else match s.call with
    | .completeAction r =>
      if r.refusal s.before = none ∧ r.result ≠ .ok then
        some (.hostAction, s.before.action.type.code)
      else none
    | _ => none

def latestFault (first : FaultKind × UInt64) (log : List Step) : FaultKind × UInt64 :=
  log.foldl (fun fault s => s.replaces.getD fault) first

theorem latestFault_append (first : FaultKind × UInt64) (log : List Step) (s : Step) :
    latestFault first (log ++ [s]) = s.replaces.getD (latestFault first log) := by
  simp only [latestFault, foldl_append, foldl_cons, foldl_nil]

section Step
variable {c : Controller} {call : Call} {past : Past} {exited : Bool}
variable {s : Step}

theorem replaces_exhausted (h : s.status = .counterExhausted) :
    s.replaces = some (.controller, Status.counterExhausted.code) := if_pos h

theorem replaces_none (h : s.status ≠ .counterExhausted)
    (hresult : ∀ r, s.call = .completeAction r → r.refusal s.before = none → r.result = .ok) :
    s.replaces = none := by
  unfold Step.replaces
  rw [if_neg h]
  split
  · rename_i r hcall
    exact if_neg fun hr => hr.2 (hresult r hcall hr.1)
  · rfl

theorem Arrival.fault_cases {o : Result} (ha : Arrival c o) (hv : validateConfiguration c = .ok)
    (hstate : o.2.state ≠ .idle) (hgen : o.2.generation = c.generation) :
    (o.1 = .ok ∧ o.2.faultResult = c.faultResult) ∨
      (o.1 = .counterExhausted ∧
        o.2.faultResult = (.controller, Status.counterExhausted.code)) := by
  cases ha with
  | next type ht hn => exact Or.inl ⟨rfl, rfl⟩
  | exhausted type ht hn => exact Or.inr ⟨rfl, rfl⟩
  | rested hn hr => exact absurd rfl hstate
  | renewed hn hr hmax =>
    have hsucc : (c.generation + 1).toNat = c.generation.toNat := congrArg UInt64.toNat hgen
    rw [toNat_succ hmax] at hsucc
    omega
  | stuck status hn hr hs hwhy =>
    rcases hwhy with ⟨rfl, -⟩ | hwhy
    · exact Or.inr ⟨rfl, rfl⟩
    · exact absurd (hwhy.trans hv) hs

theorem Arrival.fault_step (ha : Arrival c (perform s.before s.call))
    (hv : validateConfiguration c = .ok) (hfault : c.faultResult = s.before.faultResult)
    (hresult : ∀ r, s.call = .completeAction r → r.refusal s.before = none → r.result = .ok)
    (hstate : s.after.state ≠ .idle) (hgen : s.after.generation = c.generation) :
    s.after.faultResult = s.replaces.getD s.before.faultResult := by
  rcases ha.fault_cases hv hstate hgen with ⟨hstatus, hkept⟩ | ⟨hstatus, hset⟩
  · have hok : s.status = .ok := hstatus
    rw [replaces_none (by rw [hok]; exact nofun) hresult]
    exact hkept.trans hfault
  · rw [replaces_exhausted hstatus]
    exact hset

theorem Active.fault_step (h : Active c past exited) (hf : c.faultKind ≠ .none)
    (hstate : (Step.after ⟨c, call⟩).state ≠ .idle)
    (hgen : (Step.after ⟨c, call⟩).generation = c.generation) :
    (Step.after ⟨c, call⟩).faultResult = (Step.replaces ⟨c, call⟩).getD c.faultResult := by
  have hunclean : ¬ Clean c := fun hclean => hf (h.clean hclean)
  obtain ⟨o, ho, heffect, hafter, hstatus⟩ := step_effect c call
  cases heffect with
  | refused status hs hstart hheard =>
    rw [replaces_none, hafter]
    · rfl
    · rw [hstatus]
      exact fun he => h.state (hstart he).2
    · exact fun r hcall hr => absurd hr (hheard r hcall)
  | configured configuration hidle => exact absurd hidle h.state
  | begun hcall hidle => exact absurd hidle h.state
  | halted restart hcall hp hs harrival =>
    rw [← ho] at harrival
    refine Arrival.fault_step (c := c.halted restart) harrival h.valid rfl ?_ hstate hgen
    subst hcall
    cases restart <;> exact nofun
  | ready generation hcall hs => exact absurd (Or.inr (Or.inl hs)) hunclean
  | reported generation kind code hcall hkind hs =>
    exact absurd (Or.inr (hs.imp id Or.inl)) hunclean
  | failed r hcall hr hresult =>
    have hne : r.result ≠ .counterExhausted := by
      intro he
      simp [Completion.refusal, he, actionResultValid] at hr
    subst hcall
    have hreplaces : Step.replaces ⟨c, .completeAction r⟩ =
        some (.hostAction, c.action.type.code) := by
      rw [Step.replaces, hstatus, if_neg hne]
      exact if_pos ⟨hr, hresult⟩
    rw [hafter, hreplaces]
    rfl
  | completed r hcall hr hresult =>
    subst hcall
    rcases h.pending.mp (refusal_eq_none hr).1 with hs | hs
    · exact absurd (Or.inl hs) hunclean
    · have harrival := (advance_cleanup (h.stopping hs) r).1
      rw [← ho] at harrival
      obtain ⟨-, -, hkind, hcode, hkept, -, hconf, -⟩ :=
        mark_keeps (clearAction c) r c.action.type
      refine harrival.fault_step ?_ ?_ ?_ hstate (hgen.trans hkept.symm)
      · rw [validateConfiguration, hconf]
        exact h.valid
      · rw [Controller.faultResult, hkind, hcode]
        rfl
      · intro r' hcall' hr'
        rw [← Call.completeAction.inj hcall']
        exact hresult

theorem replaces_ne_none {fault : FaultKind × UInt64} (hf : fault.1 ≠ .none) :
    (s.replaces.getD fault).1 ≠ .none := by
  unfold Step.replaces
  split_ifs
  · exact nofun
  · split
    · split_ifs
      · exact nofun
      · exact hf
    · exact hf

end Step

theorem fault_run (calls later : List Call) (hf : (run .created calls).faultKind ≠ .none)
    (hstay : ∀ s ∈ history (run .created calls) later,
      s.after.state ≠ .idle ∧ s.after.generation = (run .created calls).generation) :
    (run (run .created calls) later).faultKind ≠ .none ∧
      (run (run .created calls) later).generation = (run .created calls).generation ∧
      (run (run .created calls) later).faultResult =
        latestFault (run .created calls).faultResult (history (run .created calls) later) := by
  induction later using List.reverseRecOn with
  | nil => exact ⟨hf, rfl, rfl⟩
  | append_singleton later call ih =>
    rw [history_append] at hstay ⊢
    obtain ⟨hkind, hkept, hlatest⟩ := ih fun s hs => hstay s (mem_append_left _ hs)
    obtain ⟨hstate, hgen⟩ :=
      hstay _ (mem_append_right _ (mem_singleton_self _))
    have hnow : run (run .created calls) later = run .created (calls ++ later) := by
      rw [run, run, run, foldl_append]
    have hactive : ∃ past exited, Active (run (run .created calls) later) past exited := by
      rcases run_cases (calls ++ later) with hr | ha
      · rw [← hnow] at hr
        exact absurd hr.noFault hkind
      · rwa [hnow]
    obtain ⟨past, exited, ha⟩ := hactive
    have hstep := ha.fault_step hkind hstate (hgen.trans hkept.symm)
    rw [run_append]
    refine ⟨?_, hgen, ?_⟩
    · have hne : ((Step.replaces ⟨run (run .created calls) later, call⟩).getD
          (run (run .created calls) later).faultResult).1 ≠ .none := replaces_ne_none hkind
      rwa [← hstep] at hne
    · rw [latestFault_append, ← hlatest]
      exact hstep

/-- Until the controller is idle or in another generation, the fault it has is the last
of those that replaced the first one. -/
theorem fault_kept_until_replaced (calls later : List Call)
    (hf : (run .created calls).faultKind ≠ .none)
    (hstay : ∀ s ∈ history (run .created calls) later,
      s.after.state ≠ .idle ∧ s.after.generation = (run .created calls).generation) :
    (run (run .created calls) later).faultResult =
      latestFault (run .created calls).faultResult (history (run .created calls) later) :=
  (fault_run calls later hf hstay).2.2

namespace Sample

def digest : List UInt8 := List.replicate digestSize 1

def configure : List Call :=
  [.setClosure (some ⟨[⟨resourceResetRequired⟩]⟩) true, .setDigest (some .profile) (some digest),
    .setDigest (some .capabilitySet) (some digest), .setDigest (some .channelSet) (some digest),
    .setLimit (some .sharedMemoryBytes) 1, .setLimit (some .channelCount) 1,
    .setLimit (some .queueCount) 1, .setLimit (some .outstandingRequestCount) 1]

def exited : List Call :=
  configure ++ [.start, .completeAction ⟨1, 1, .ok, 9, 0⟩, .completeAction ⟨1, 2, .ok, 0, 13⟩,
    .completeAction ⟨1, 3, .ok, 0, 0⟩, .reportReady 1, .reportFault 1 .processExit 9]

def revokeFailed : List Call := [.restart, .completeAction ⟨1, 4, .hostFailure, 0, 0⟩]

end Sample

theorem sample_fault_replaced :
    (run .created Sample.exited).faultResult = (.processExit, 9) ∧
      (∀ s ∈ history (run .created Sample.exited) Sample.revokeFailed,
        s.after.state ≠ .idle ∧ s.after.generation = (run .created Sample.exited).generation) ∧
      (run (run .created Sample.exited) Sample.revokeFailed).faultResult = (.hostAction, 6) := by
  decide +kernel

theorem sample_fault_latest :
    (run (run .created Sample.exited) Sample.revokeFailed).faultResult =
      latestFault (run .created Sample.exited).faultResult
        (history (run .created Sample.exited) Sample.revokeFailed) :=
  fault_kept_until_replaced _ _ (by decide +kernel) (by decide +kernel)

end Kobox.Control
