import Kobox.Control.Lifecycle

/-!
# What holds in every state of the controller
-/

namespace Kobox.Control

/-- What the state says about the pending action, the flags, the identifiers and the fault. -/
structure Consistent (c : Controller) : Prop where
  pending : c.actionPending = true ↔ c.state = .starting ∨ c.state = .stopping
  idle : c.state = .idle → c.resourcesAllocated = false ∧ c.processStarted = false ∧
    c.processExited = false ∧ c.resourceSetId = 0 ∧ c.sandboxId = 0
  up : c.state = .handshaking ∨ c.state = .running → c.resourcesAllocated = true ∧
    c.resourcesRevoked = false ∧ c.processStarted = true
  noFault : c.state = .idle ∨ c.state = .starting ∨ c.state = .handshaking ∨ c.state = .running →
    c.faultKind = .none
  faulted : c.state = .faulted → c.faultKind ≠ .none
  exclusive : ¬ (c.processStarted = true ∧ c.processExited = true)
  held : c.processStarted = true ∨ c.processExited = true → c.resourcesAllocated = true

/-- The object on which `kb2_begin_start` is called when a call comes to it: `start` calls it
directly, `restart` and a completion through `kb2_finish_cleanup`, after what they have set. -/
def Step.origin (s : Step) : Controller :=
  match s.call with
  | .restart => (s.before.halted true).rest
  | .completeAction r => ((clearAction s.before).mark r s.before.action.type).rest
  | _ => s.before

/-- The call begins the next generation, and nothing of an earlier one is left then. -/
structure Begins (s : Step) : Prop where
  begins : perform s.before s.call = beginStart s.origin
  next : s.after.generation.toNat = s.before.generation.toNat + 1
  allocated : s.origin.resourcesAllocated = false
  started : s.origin.processStarted = false
  exited : s.origin.processExited = false

section States
variable {c : Controller} {call : Call} {past : Past} {exited : Bool}

theorem Resting.consistent (h : Resting c) : Consistent c := by
  obtain ⟨hstarted, hallocated, hexited⟩ := cleanupType_none.mp h.finished
  refine ⟨?_, fun _ => ⟨hallocated, hstarted, hexited, h.noResources, h.noSandbox⟩, ?_,
    fun _ => h.noFault, ?_, ?_, ?_⟩
  · rw [h.pending, h.state]
    decide
  · rw [h.state]
    rintro (hs | hs) <;> cases hs
  · rw [h.state]
    exact nofun
  · rw [hstarted]
    exact fun hs => Bool.false_ne_true hs.1
  · rw [hstarted, hexited]
    rintro (hs | hs) <;> cases hs

theorem Follows.held (h : Follows c past exited)
    (hs : c.processStarted = true ∨ c.processExited = true) : c.resourcesAllocated = true := by
  rcases hs with hs | hs
  · obtain ⟨hlaunch, hgone⟩ := h.started.mp hs
    have horder := h.course.orderly
    refine h.allocated.mpr ⟨horder.launched hlaunch, fun hrelease => hgone ?_⟩
    exact (horder.reaped ((horder.released hrelease).2.2.2 hlaunch)).2.1
  · exact h.allocated_of_exited hs

theorem Active.consistent (h : Active c past exited) : Consistent c := by
  refine ⟨h.pending, fun hs => absurd hs h.state, fun hs => ?_, fun hs => ?_, h.faulted, ?_,
    h.follows.held⟩
  · obtain ⟨rfl, hdone⟩ := h.up hs
    refine ⟨?_, ?_, ?_⟩
    · rw [h.follows.allocated, hdone]
      decide
    · rw [Bool.eq_false_iff, ne_eq, h.follows.revoked, hdone]
      decide
    · rw [h.follows.started, hdone]
      simp [Gone]
  · rcases hs with hs | hs | hs | hs
    · exact absurd hs h.state
    · exact h.clean (Or.inl hs)
    · exact h.clean (Or.inr (Or.inl hs))
    · exact h.clean (Or.inr (Or.inr (Or.inl hs)))
  · rintro ⟨hs, hx⟩
    exact (h.follows.started.mp hs).2 (h.follows.gone.mp hx).2.1

theorem Arrival.begins {s : Step} (ha : Arrival c (perform s.before s.call))
    (horigin : c.restartRequested = true → s.origin = c.rest)
    (hgen : c.generation = s.before.generation)
    (hne : s.after.generation ≠ s.before.generation) : Begins s := by
  obtain ⟨o, ho⟩ : ∃ o, perform s.before s.call = o := ⟨_, rfl⟩
  have hafter : s.after = o.2 := congrArg Prod.snd ho
  rw [ho] at ha
  rw [hafter] at hne
  cases ha with
  | next | exhausted | rested | stuck => exact absurd hgen hne
  | renewed hn hr hmax htoken hv =>
    have hbegin : beginStart c.rest = (.ok, c.rest.begin.emit .allocateResources) :=
      beginStart_ok hmax htoken hv
    obtain ⟨hstarted, hallocated, hexited⟩ := cleanupType_none.mp hn
    refine ⟨?_, ?_, ?_, ?_, ?_⟩
    · rw [horigin hr]
      exact ho.trans hbegin.symm
    · rw [hafter, ← hgen]
      exact toNat_succ hmax
    all_goals rw [horigin hr]
    · exact hallocated
    · exact hstarted
    · exact hexited

theorem generation_step (h : Resting c ∨ ∃ past exited, Active c past exited) (call : Call) :
    (Step.after ⟨c, call⟩).generation = c.generation ∨ Begins ⟨c, call⟩ := by
  rw [or_iff_not_imp_left]
  intro hne
  obtain ⟨o, ho, heffect, hafter, -⟩ := step_effect c call
  cases heffect with
  | refused | configured | ready | failed =>
    rw [hafter] at hne
    exact absurd rfl hne
  | begun hcall hidle hmax htoken hv =>
    subst hcall
    rcases h with h | ⟨past, exited, h⟩
    · obtain ⟨hstarted, hallocated, hexited⟩ := cleanupType_none.mp h.finished
      refine ⟨ho.trans (beginStart_ok hmax htoken hv).symm, ?_, hallocated, hstarted, hexited⟩
      rw [hafter]
      exact toNat_succ hmax
    · exact absurd hidle h.state
  | halted restart hcall hp hs harrival =>
    rw [← ho] at harrival
    refine Arrival.begins (c := c.halted restart) harrival (fun hrestart => ?_) rfl hne
    obtain rfl : restart = true := hrestart
    rw [hcall]
    rfl
  | reported generation kind code =>
    rw [hafter] at hne
    exact absurd (report_keeps c kind code).1 hne
  | completed r hcall hr hresult =>
    subst hcall
    rcases h with h | ⟨past, exited, h⟩
    · exact absurd (refusal_eq_none hr).1 (by rw [h.pending]; exact Bool.false_ne_true)
    · rcases h.pending.mp (refusal_eq_none hr).1 with hs | hs
      · rw [hafter] at hne
        exact absurd (h.advanceStart hs r).2.1 hne
      · have harrival := (advance_cleanup (h.stopping hs) r).1
        rw [← ho] at harrival
        exact harrival.begins (fun _ => rfl) (mark_keeps (clearAction c) r c.action.type).2.2.2.2.1 hne

end States

/-- Every reachable object is consistent, and its generation only ever moves to the next one,
by a call that hands `kb2_begin_start` an object with no resources and no process. -/
theorem state_invariant (calls : List Call) :
    Consistent (run .created calls) ∧
      ∀ call, (Step.after ⟨run .created calls, call⟩).generation = (run .created calls).generation ∨
        Begins ⟨run .created calls, call⟩ := by
  refine ⟨?_, generation_step (run_cases calls)⟩
  rcases run_cases calls with hr | ⟨past, exited, ha⟩
  · exact hr.consistent
  · exact ha.consistent

end Kobox.Control
