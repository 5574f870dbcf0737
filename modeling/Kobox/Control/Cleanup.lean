import Kobox.Control.States
import Mathlib.Logic.Function.Iterate

/-!
# Cleanup comes to an end
-/

namespace Kobox.Control

def remaining (c : Controller) : ℕ :=
  c.processStarted.toNat + (c.resourcesAllocated && !c.resourcesRevoked).toNat +
    (c.resourcesAllocated && resetRequired c && !c.resourcesReset).toNat +
    (c.processStarted || c.processExited).toNat + c.resourcesAllocated.toNat

section Remaining
variable {c : Controller}

theorem remaining_le (c : Controller) : remaining c ≤ 5 := by
  have h (b : Bool) : b.toNat ≤ 1 := Bool.toNat_le b
  have h₁ := h c.processStarted
  have h₂ := h (c.resourcesAllocated && !c.resourcesRevoked)
  have h₃ := h (c.resourcesAllocated && resetRequired c && !c.resourcesReset)
  have h₄ := h (c.processStarted || c.processExited)
  have h₅ := h c.resourcesAllocated
  rw [remaining]
  omega

theorem remaining_eq_zero : remaining c = 0 ↔ cleanupType c = none := by
  rw [cleanupType_none, remaining]
  cases c.processStarted <;> cases c.resourcesAllocated <;> cases c.processExited <;> simp

theorem remaining_mark (ht : cleanupType c = some c.action.type) (r : Completion) :
    remaining ((clearAction c).mark r c.action.type) + 1 = remaining c := by
  have hreset : resetRequired ((clearAction c).mark r c.action.type) = resetRequired c := by
    rw [resetRequired, (mark_keeps (clearAction c) r c.action.type).2.2.2.2.2.2.1]
    rfl
  unfold remaining
  rw [hreset]
  clear hreset
  unfold cleanupType at ht
  generalize resetRequired c = required at ht ⊢
  split_ifs at ht with hp hg hv hr hx ha
  all_goals
    rw [← Option.some.inj ht]
    clear ht
    simp only [Controller.mark, clearAction]
  all_goals simp_all <;> omega

end Remaining

def okCompletion (c : Controller) : Completion := ⟨c.generation, c.action.token, .ok, 0, 0⟩

def completeOk (c : Controller) : Controller := (perform c (.completeAction (okCompletion c))).2

section Drain
variable {c : Controller}

theorem completeOk_eq (hp : c.actionPending = true) (ht : cleanupType c = some c.action.type) :
    completeOk c = (advance (clearAction c) (okCompletion c) c.action.type).2 := by
  have hids : (okCompletion c).idsValid c.action.type = true := by
    unfold cleanupType at ht
    split_ifs at ht
    all_goals
      rw [← Option.some.inj ht]
      rfl
  have hrefusal : (okCompletion c).refusal c = none := by
    unfold Completion.refusal
    rw [hids]
    simp [okCompletion, actionResultValid, hp]
  rw [completeOk, perform, completeAction, hrefusal]
  rfl

def Left (restart : Bool) (generation : UInt64) (c : Controller) : Prop :=
  if restart then c.state = .starting ∧ c.generation = generation + 1 else c.state = .idle

theorem Arrival.left {o : Result} (ha : Arrival c o) (hn : cleanupType c = none)
    (hv : validateConfiguration c = .ok)
    (hcounters : c.restartRequested = true →
      c.generation ≠ uint64Max ∧ c.nextToken ≠ uint64Max) :
    Left c.restartRequested c.generation o.2 := by
  cases ha with
  | next type ht => cases hn.symm.trans ht
  | exhausted type ht => cases hn.symm.trans ht
  | rested _ hr =>
    rw [hr]
    rfl
  | renewed _ hr =>
    rw [hr]
    exact ⟨rfl, rfl⟩
  | stuck status _ hr hs hwhy =>
    rcases hwhy with ⟨-, hg | ht⟩ | he
    · exact absurd hg (hcounters hr).1
    · exact absurd ht (hcounters hr).2
    · exact absurd (he.trans hv) hs

theorem Arrival.drains {o : Result} (ha : Arrival c o) (hs : c.state = .stopping)
    (hv : validateConfiguration c = .ok) {n : ℕ} (hn : remaining c = n)
    (htoken : c.nextToken.toNat + n + c.restartRequested.toNat ≤ uint64Max.toNat)
    (hgen : c.restartRequested = true → c.generation ≠ uint64Max) :
    (∀ m < n, (completeOk^[m] o.2).state = .stopping) ∧
      Left c.restartRequested c.generation (completeOk^[n] o.2) := by
  induction n generalizing c o with
  | zero =>
    refine ⟨fun m hm => absurd hm (Nat.not_lt_zero m), ?_⟩
    refine ha.left (remaining_eq_zero.mp hn) hv fun hr => ⟨hgen hr, fun he => ?_⟩
    rw [hr, he] at htoken
    exact absurd htoken (by decide)
  | succ n ih =>
    cases ha with
    | rested h | renewed h | stuck _ h =>
      rw [remaining_eq_zero.mpr h] at hn
      cases hn
    | exhausted type ht he =>
      rw [he] at htoken
      omega
    | next type ht hmax =>
      -- The host does the action emitted, and the cleanup goes on with one less.
      have ht' : cleanupType (c.emit type) = some (c.emit type).action.type := ht
      have hnext := (advance_cleanup ht' (okCompletion (c.emit type))).1
      obtain ⟨hstate, -, -, -, hgen', htoken', hconf, hrestart⟩ :=
        mark_keeps (clearAction (c.emit type)) (okCompletion (c.emit type)) (c.emit type).action.type
      have hless := remaining_mark ht' (okCompletion (c.emit type))
      have hsame : remaining (c.emit type) = remaining c := rfl
      have hsucc : (c.emit type).nextToken.toNat = c.nextToken.toNat + 1 := toNat_succ hmax
      have hrec := ih hnext (hstate.trans hs) ?_ (by omega) ?_ ?_
      · rw [hrestart, hgen', ← completeOk_eq rfl ht'] at hrec
        obtain ⟨hstopping, hleft⟩ := hrec
        refine ⟨fun m hm => ?_, hleft⟩
        cases m with
        | zero => exact hs
        | succ m => exact hstopping m (Nat.lt_of_succ_lt_succ hm)
      · rw [validateConfiguration, hconf]
        exact hv
      · have hclear : (clearAction (c.emit type)).restartRequested = c.restartRequested := rfl
        have hclear' : (clearAction (c.emit type)).nextToken = (c.emit type).nextToken := rfl
        rw [hrestart, htoken', hclear, hclear', hsucc]
        omega
      · rw [hrestart, hgen']
        exact hgen

theorem Active.drains {past : Past} {exited : Bool} (h : Active c past exited)
    (hs : c.state = .handshaking ∨ c.state = .running ∨ c.state = .faulted) (restart : Bool)
    (htoken : c.nextToken.toNat + remaining c + restart.toNat ≤ uint64Max.toNat)
    (hgen : restart = true → c.generation ≠ uint64Max) :
    (∀ m < remaining c, (completeOk^[m] (halt c restart).2).state = .stopping) ∧
      Left restart c.generation (completeOk^[remaining c] (halt c restart).2) := by
  have hhalt : halt c restart = nextCleanupAction (c.halted restart) := by
    have hstate : ¬ (c.state ≠ .handshaking ∧ c.state ≠ .running ∧ c.state ≠ .faulted) := by
      rw [not_and_or, not_and_or, not_not, not_not, not_not]
      exact hs
    rw [halt, h.not_pending hs, if_neg Bool.false_ne_true, if_neg hstate]
    rfl
  have harrival := nextCleanupAction_arrival (c.halted restart)
  rw [hhalt]
  exact harrival.drains rfl h.valid rfl htoken hgen

end Drain

/-- What a call does to the actions that remain. -/
structure Descends (s : Step) : Prop where
  decreases : s.before.state = .stopping → s.success ≠ [] →
    remaining s.before = remaining s.after + 1
  never_increases : s.success = [] → remaining s.after ≤ remaining s.before

section Descends
variable {c : Controller} {past : Past} {exited : Bool}

theorem Arrival.remaining {o : Result} (ha : Arrival c o) : remaining o.2 = remaining c := by
  cases ha with
  | next | exhausted | rested | stuck => rfl
  | renewed h =>
    rw [remaining_eq_zero.mpr h]
    rfl

theorem remaining_report (hstarted : c.processStarted = true) (kind : FaultKind) (code : UInt64) :
    Control.remaining (c.report kind code) ≤ Control.remaining c := by
  rw [Controller.report]
  split_ifs
  · have hreset : resetRequired (Controller.fault
        { c with processStarted := false, processExited := true } kind code) = resetRequired c := rfl
    rw [Control.remaining, Control.remaining, hreset, hstarted]
    simp [Controller.fault]
  · exact Nat.le_refl _

theorem descends_of_no_success {s : Step} (hsuccess : s.success = [])
    (hle : Control.remaining s.after ≤ Control.remaining s.before) : Descends s :=
  ⟨fun _ hne => absurd hsuccess hne, fun _ => hle⟩

theorem Resting.descends (h : Resting c) (call : Call) : Descends ⟨c, call⟩ := by
  have hprogress : Progress ⟨c, call⟩ [] false := h.progress call
  cases hprogress with
  | rests _ h' hgen hsuccess =>
    refine descends_of_no_success hsuccess ?_
    rw [remaining_eq_zero.mpr h'.finished]
    exact Nat.zero_le _
  | begins _ h' hgen hmax hsuccess =>
    have hf := h'.follows
    have hnone : cleanupType (Step.after ⟨c, call⟩) = none := by
      refine cleanupType_none.mpr ⟨?_, ?_, ?_⟩
      · exact Bool.eq_false_iff.mpr fun hx => List.not_mem_nil (hf.started.mp hx).1
      · exact Bool.eq_false_iff.mpr fun hx => List.not_mem_nil (hf.allocated.mp hx).1
      · exact Bool.eq_false_iff.mpr fun hx => List.not_mem_nil (hf.gone.mp hx).1
    refine descends_of_no_success hsuccess ?_
    rw [remaining_eq_zero.mpr hnone]
    exact Nat.zero_le _
  | continues h' | ends h' | renews h' => exact absurd h.state h'.state

theorem Active.descends (h : Active c past exited) (call : Call) : Descends ⟨c, call⟩ := by
  obtain ⟨o, ho, heffect, hafter, -⟩ := step_effect c call
  cases heffect with
  | refused status hs hstart hheard =>
    refine descends_of_no_success (Step.success_of_refused hheard) ?_
    rw [hafter]
  | configured configuration hidle => exact absurd hidle h.state
  | begun hcall hidle => exact absurd hidle h.state
  | halted restart hcall hp hs harrival =>
    refine descends_of_no_success ?_ ?_
    · rw [hcall]
      cases restart <;> rfl
    · rw [hafter, harrival.remaining]
      exact Nat.le_refl _
  | ready generation hcall hs hp =>
    refine descends_of_no_success ?_ ?_
    · rw [hcall]
      rfl
    · rw [hafter]
      exact Nat.le_refl _
  | reported generation kind code hcall hkind hs hp =>
    refine descends_of_no_success ?_ ?_
    · rw [hcall]
      rfl
    · rw [hafter]
      exact remaining_report (h.consistent.up hs).2.2 kind code
  | failed r hcall hr hresult =>
    refine descends_of_no_success ?_ ?_
    · rw [hcall]
      simp [Step.success, hresult]
    · rw [hafter]
      exact Nat.le_refl _
  | completed r hcall hr hresult =>
    subst hcall
    have hsuccess := success_completed hr hresult
    refine ⟨fun hs _ => ?_, fun hnone => ?_⟩
    · have ht := h.stopping hs
      rw [hafter, (advance_cleanup ht r).1.remaining, remaining_mark ht r]
    · rw [hsuccess] at hnone
      cases hnone

end Descends

/-- Cleanup of this object comes to an end when the host does what it is asked. -/
structure CleanupEnds (c : Controller) : Prop where
  bounded : remaining c ≤ 5
  stops : c.nextToken ≤ uint64Max - 5 →
    (∀ n < remaining c, (completeOk^[n] (stop c).2).state = .stopping) ∧
      (completeOk^[remaining c] (stop c).2).state = .idle
  restarts : c.nextToken ≤ uint64Max - 6 → c.generation < uint64Max →
    (∀ n < remaining c, (completeOk^[n] (restart c).2).state = .stopping) ∧
      (completeOk^[remaining c] (restart c).2).state = .starting ∧
      (completeOk^[remaining c] (restart c).2).generation = c.generation + 1

theorem Active.cleanupEnds {c : Controller} {past : Past} {exited : Bool}
    (h : Active c past exited)
    (hs : c.state = .handshaking ∨ c.state = .running ∨ c.state = .faulted) : CleanupEnds c := by
  have hle := remaining_le c
  have hmax : uint64Max.toNat = 2 ^ 64 - 1 := rfl
  refine ⟨hle, fun htoken => ?_, fun htoken hgen => ?_⟩
  · have htoken' : c.nextToken.toNat ≤ 2 ^ 64 - 6 := UInt64.le_iff_toNat_le.mp htoken
    refine h.drains hs false ?_ nofun
    rw [hmax, Bool.toNat_false]
    omega
  · have htoken' : c.nextToken.toNat ≤ 2 ^ 64 - 7 := UInt64.le_iff_toNat_le.mp htoken
    refine h.drains hs true ?_ fun _ he => ?_
    · rw [hmax, Bool.toNat_true]
      omega
    · rw [he] at hgen
      exact UInt64.lt_irrefl _ hgen

/-- In every reachable state cleanup can come to its end, and over every run the actions
that remain go down by one with each that succeeds and never up. -/
theorem cleanup_comes_to_an_end (calls : List Call) :
    ((run .created calls).state = .handshaking ∨ (run .created calls).state = .running ∨
        (run .created calls).state = .faulted → CleanupEnds (run .created calls)) ∧
      ∀ call, Descends ⟨run .created calls, call⟩ := by
  rcases run_cases calls with hr | ⟨past, exited, ha⟩
  · refine ⟨fun hs => ?_, hr.descends⟩
    rw [hr.state] at hs
    rcases hs with hs | hs | hs <;> cases hs
  · exact ⟨ha.cleanupEnds, ha.descends⟩

end Kobox.Control
