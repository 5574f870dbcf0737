import Kobox.Control.Refinement

/-!
# What one call does to a generation
-/

namespace Kobox.Control

/-! ### One call -/

/-- A call made on the object `before`. -/
structure Step where
  before : Controller
  call : Call

def Step.status (s : Step) : Status := (perform s.before s.call).1

def Step.after (s : Step) : Controller := (perform s.before s.call).2

def Step.success (s : Step) : Past :=
  match s.call with
  | .completeAction r =>
    if r.result = .ok ∧ r.refusal s.before = none then [(s.before.action.type, r)] else []
  | _ => []

def Step.exits (s : Step) : Bool :=
  match s.call with
  | .reportFault _ kind _ => kind == .processExit && s.status == .ok
  | _ => false

theorem Step.exits_of_status {s : Step} (h : s.status ≠ .ok) : s.exits = false := by
  unfold Step.exits
  split
  · simp [h]
  · rfl

def Call.halt (restart : Bool) : Call := if restart then .restart else .stop

theorem Step.success_of_refused {s : Step}
    (h : ∀ r, s.call = .completeAction r → r.refusal s.before ≠ none) : s.success = [] := by
  unfold Step.success
  split
  · rename_i r hcall
    exact if_neg fun hr => h r hcall hr.2
  · rfl

def Controller.halted (c : Controller) (restart : Bool) : Controller :=
  { c with gracefulStop := c.state != .faulted, state := .stopping, restartRequested := restart }

/-- What `kb2_controller_report_fault` sets when the report is heard. -/
def Controller.report (c : Controller) (kind : FaultKind) (code : UInt64) : Controller :=
  if kind = .processExit then
    Controller.fault { c with processStarted := false, processExited := true } kind code
  else c.fault kind code

/-- What a call can do to an object. -/
inductive Effect (c : Controller) (call : Call) : Result → Prop where
  | refused (status : Status) (hs : status ≠ .ok)
      (hstart : status = .counterExhausted → call = .start ∧ c.state = .idle)
      (hheard : ∀ r, call = .completeAction r → r.refusal c ≠ none) : Effect c call (status, c)
  | configured (configuration : Configuration) (hidle : c.state = .idle)
      (hflags : c.configuration.flags = closureLaunchFlags c.configuration.closure →
        configuration.flags = closureLaunchFlags configuration.closure)
      (hheard : ∀ r, call = .completeAction r → r.refusal c ≠ none)
      (hexits : Step.exits ⟨c, call⟩ = false) : Effect c call (.ok, { c with configuration })
  | begun (hcall : call = .start) (hidle : c.state = .idle) (hg : c.generation ≠ uint64Max)
      (hn : c.nextToken ≠ uint64Max) (hv : validateConfiguration c = .ok) :
      Effect c call (.ok, c.begin.emit .allocateResources)
  | halted (restart : Bool) (hcall : call = .halt restart)
      (hp : c.actionPending = false)
      (hstate : c.state = .handshaking ∨ c.state = .running ∨ c.state = .faulted) {o : Result}
      (ho : Arrival (c.halted restart) o) : Effect c call o
  | ready (generation : UInt64) (hcall : call = .reportReady generation)
      (hstate : c.state = .handshaking) (hp : c.actionPending = false) :
      Effect c call (.ok, { c with state := .running })
  | reported (generation : UInt64) (kind : FaultKind) (code : UInt64)
      (hcall : call = .reportFault generation kind code) (hkind : kind ≠ .none)
      (hstate : c.state = .handshaking ∨ c.state = .running) (hp : c.actionPending = false) :
      Effect c call (.ok, c.report kind code)
  | failed (r : Completion) (hcall : call = .completeAction r) (hr : r.refusal c = none)
      (hresult : r.result ≠ .ok) :
      Effect c call (r.result, (clearAction c).fault .hostAction c.action.type.code)
  | completed (r : Completion) (hcall : call = .completeAction r) (hr : r.refusal c = none)
      (hresult : r.result = .ok) : Effect c call (advance (clearAction c) r c.action.type)

section Effect
variable (c : Controller)

theorem setClosure_effect (closure : Option Closure) (copied : Bool) :
    Effect c (.setClosure closure copied) (setClosure c closure copied) := by
  cases closure with
  | none => exact .refused _ nofun nofun nofun
  | some closure =>
    unfold setClosure
    dsimp only
    split_ifs with hstate hcopied
    · exact .refused _ nofun nofun nofun
    · exact .refused _ nofun nofun nofun
    · exact .configured _ (not_not.mp (not_or.mp hstate).1) (fun _ => rfl) nofun rfl

theorem setDigest_effect (kind : Option DigestKind) (digest : Option (List UInt8)) :
    Effect c (.setDigest kind digest) (setDigest c kind digest) := by
  unfold setDigest
  split
  · split_ifs with hlength hkind hstate hzero
    · exact .refused _ nofun nofun nofun
    · exact .refused _ nofun nofun nofun
    · exact .refused _ nofun nofun nofun
    · exact .refused _ nofun nofun nofun
    · exact .configured _ (not_not.mp (not_or.mp hstate).1) (fun hflags => hflags) nofun rfl
  · exact .refused _ nofun nofun nofun

theorem setLimit_effect (kind : Option LimitKind) (value : UInt64) :
    Effect c (.setLimit kind value) (setLimit c kind value) := by
  unfold setLimit
  split
  · exact .refused _ nofun nofun nofun
  · split_ifs with hstate hzero
    · exact .refused _ nofun nofun nofun
    · exact .refused _ nofun nofun nofun
    · exact .configured _ (not_not.mp (not_or.mp hstate).1) (fun hflags => hflags) nofun rfl

theorem start_effect : Effect c .start (start c) := by
  unfold start
  split_ifs with hstate hpending
  · exact .refused _ nofun nofun nofun
  · exact .refused _ nofun nofun nofun
  · by_cases hcan : c.generation = uint64Max ∨ c.nextToken = uint64Max ∨
        validateConfiguration c ≠ .ok
    · obtain ⟨status, hbegin, hstatus, -⟩ := beginStart_refused hcan
      rw [hbegin]
      exact .refused status hstatus (fun _ => ⟨rfl, not_not.mp hstate⟩) nofun
    · rw [not_or, not_or, not_not] at hcan
      rw [beginStart_ok hcan.1 hcan.2.1 hcan.2.2]
      exact .begun rfl (not_not.mp hstate) hcan.1 hcan.2.1 hcan.2.2

theorem halt_effect (restart : Bool) :
    Effect c (.halt restart) (halt c restart) := by
  have hheard : ∀ r, Call.halt restart = .completeAction r → r.refusal c ≠ none := by
    cases restart <;> exact nofun
  unfold halt
  split_ifs with hpending hstate
  · exact .refused _ nofun nofun hheard
  · exact .refused _ nofun nofun hheard
  · rw [not_and_or, not_and_or, not_not, not_not, not_not] at hstate
    exact .halted restart rfl (Bool.eq_false_iff.mpr hpending) hstate (nextCleanupAction_arrival _)

theorem refusal_eq_none {c : Controller} {r : Completion} (h : r.refusal c = none) :
    c.actionPending = true ∧ r.generation = c.generation ∧ r.token = c.action.token ∧
      r.idsValid c.action.type = true := by
  unfold Completion.refusal at h
  split_ifs at h with hresult hpending hgen htoken hids
  exact ⟨by simpa using hpending, not_not.mp hgen, not_not.mp htoken, by simpa using hids⟩

theorem completeAction_effect (r : Completion) :
    Effect c (.completeAction r) (completeAction c r) := by
  unfold completeAction
  cases hr : r.refusal c with
  | some status =>
    have hstatus : status ≠ .ok ∧ status ≠ .counterExhausted := by
      unfold Completion.refusal at hr
      split_ifs at hr
      all_goals exact Option.some.inj hr ▸ ⟨nofun, nofun⟩
    refine .refused status hstatus.1 (fun h => absurd h hstatus.2) fun r' hcall => ?_
    rw [← Call.completeAction.inj hcall, hr]
    exact nofun
  | none =>
    dsimp only
    split_ifs with hresult
    · exact .failed r rfl hr hresult
    · exact .completed r rfl hr (not_not.mp hresult)

theorem reportReady_effect (generation : UInt64) :
    Effect c (.reportReady generation) (reportReady c generation) := by
  unfold reportReady
  split_ifs with hgen hpending hstate
  · exact .refused _ nofun nofun nofun
  · exact .refused _ nofun nofun nofun
  · exact .refused _ nofun nofun nofun
  · exact .ready generation rfl (not_not.mp hstate) (Bool.eq_false_iff.mpr hpending)

theorem reportFault_effect (generation : UInt64) (kind : FaultKind) (code : UInt64) :
    Effect c (.reportFault generation kind code) (reportFault c generation kind code) := by
  unfold reportFault
  by_cases hkind : kind ≠ .processExit ∧ kind ≠ .protocol
  · rw [if_pos hkind]
    exact .refused _ nofun nofun nofun
  rw [if_neg hkind]
  by_cases hgen : generation ≠ c.generation
  · rw [if_pos hgen]
    exact .refused _ nofun nofun nofun
  rw [if_neg hgen]
  by_cases hpending : c.actionPending = true
  · rw [if_pos hpending]
    exact .refused _ nofun nofun nofun
  rw [if_neg hpending]
  by_cases hstate : c.state ≠ .handshaking ∧ c.state ≠ .running
  · rw [if_pos hstate]
    exact .refused _ nofun nofun nofun
  rw [if_neg hstate, ← apply_ite (Prod.mk Status.ok)]
  refine .reported generation kind code rfl ?_ ?_ (Bool.eq_false_iff.mpr hpending)
  · rintro rfl
    exact hkind ⟨nofun, nofun⟩
  · rwa [not_and_or, not_not, not_not] at hstate

theorem perform_effect (call : Call) : Effect c call (perform c call) := by
  cases call with
  | setClosure closure copied => exact setClosure_effect c closure copied
  | setDigest kind digest => exact setDigest_effect c kind digest
  | setLimit kind value => exact setLimit_effect c kind value
  | start => exact start_effect c
  | stop => exact halt_effect c false
  | restart => exact halt_effect c true
  | completeAction r => exact completeAction_effect c r
  | reportReady generation => exact reportReady_effect c generation
  | reportFault generation kind code => exact reportFault_effect c generation kind code

theorem Step.effect (s : Step) : ∃ o, perform s.before s.call = o ∧ Effect s.before s.call o ∧
    s.after = o.2 ∧ s.status = o.1 :=
  ⟨_, rfl, perform_effect s.before s.call, rfl, rfl⟩

theorem step_effect (call : Call) : ∃ o, perform c call = o ∧ Effect c call o ∧
    Step.after ⟨c, call⟩ = o.2 ∧ Step.status ⟨c, call⟩ = o.1 := Step.effect ⟨c, call⟩

end Effect

/-- The course of the generation is at its end. -/
structure Ended (reset : Bool) (past : Past) (exited : Bool) : Prop where
  orderly : Orderly reset past.done exited
  released : .allocateResources ∈ past.done → .releaseResources ∈ past.done
  reaped : .launchSandbox ∈ past.done → .reapSandbox ∈ past.done

/-- What one call can do to a generation. -/
inductive Progress (s : Step) (past : Past) (exited : Bool) : Prop where
  | rests (h : Resting s.before) (h' : Resting s.after)
      (hgen : s.after.generation = s.before.generation) (hsuccess : s.success = [])
      (hexits : s.exits = false)
  | begins (h : Resting s.before) (h' : Active s.after [] false)
      (hgen : s.after.generation = s.before.generation + 1)
      (hmax : s.before.generation ≠ uint64Max) (hsuccess : s.success = []) (hexits : s.exits = false)
  | continues (h : Active s.before past exited)
      (h' : Active s.after (past ++ s.success) (exited || s.exits))
      (hgen : s.after.generation = s.before.generation)
      (hconf : s.after.configuration = s.before.configuration)
      (hclean : Clean s.after → Clean s.before)
  | ends (h : Active s.before past exited) (h' : Resting s.after)
      (hgen : s.after.generation = s.before.generation)
      (hended : Ended (resetRequired s.before) (past ++ s.success) (exited || s.exits))
  | renews (h : Active s.before past exited) (h' : Active s.after [] false)
      (hgen : s.after.generation = s.before.generation + 1)
      (hmax : s.before.generation ≠ uint64Max)
      (hended : Ended (resetRequired s.before) (past ++ s.success) (exited || s.exits))

section Progress
variable {s : Step} {c : Controller} {past : Past} {exited : Bool}

theorem not_clean_fault (c : Controller) (kind : FaultKind) (code : UInt64) :
    ¬ Clean (c.fault kind code) := by
  rintro (hc | hc | hc | ⟨hc, -⟩) <;> cases hc

theorem Active.refused (h : Active s.before past exited) (hafter : s.after = s.before)
    (hsuccess : s.success = []) (hexits : s.exits = false) : Progress s past exited := by
  refine .continues h ?_ (by rw [hafter]) (by rw [hafter]) (by rw [hafter]; exact fun hc => hc)
  rw [hafter, hsuccess, hexits, List.append_nil, Bool.or_false]
  exact h

theorem Resting.refused (h : Resting s.before) (hafter : s.after = s.before)
    (hsuccess : s.success = []) (hexits : s.exits = false) : Progress s past exited :=
  .rests h (hafter ▸ h) (by rw [hafter]) hsuccess hexits

theorem Arrival.progress {o : Result} (ha : Arrival c o) (ho : perform s.before s.call = o)
    (h : Active s.before past exited) (hf : Follows c (past ++ s.success) (exited || s.exits))
    (hs : c.state = .stopping) (hp : c.actionPending = false)
    (hfault : c.faultKind = s.before.faultKind) (hclean : Clean c → Clean s.before)
    (hgen : c.generation = s.before.generation)
    (hconf : c.configuration = s.before.configuration) : Progress s past exited := by
  have hv : validateConfiguration c = .ok := by
    have hvalid := h.valid
    rw [validateConfiguration, ← hconf] at hvalid
    exact hvalid
  have hafter : s.after = o.2 := congrArg Prod.snd ho
  have hended : cleanupType c = none →
      Ended (resetRequired s.before) (past ++ s.success) (exited || s.exits) := by
    intro hn
    have horder := hf.course.orderly
    rw [resetRequired, hconf] at horder
    exact ⟨horder, (hf.finished hn).1, (hf.finished hn).2⟩
  cases ha with
  | next type ht hn =>
    refine .continues h ?_ ?_ ?_ ?_
    all_goals rw [hafter]
    · exact hf.stop hs ht hv fun hc => hfault.trans (h.clean (hclean hc))
    · exact hgen
    · exact hconf
    · exact hclean
  | exhausted type ht hn =>
    refine .continues h ?_ ?_ ?_ ?_
    all_goals rw [hafter]
    · exact hf.fault hp hv .controller nofun _
    · exact hgen
    · exact hconf
    · exact fun hc => absurd hc (not_clean_fault _ _ _)
  | rested hn hr =>
    refine .ends h ?_ ?_ (hended hn)
    all_goals rw [hafter]
    · exact hf.rest hp hn
    · exact hgen
  | renewed hn hr hmax hnext hvalid =>
    refine .renews h ?_ ?_ (hgen ▸ hmax) (hended hn)
    all_goals rw [hafter]
    · have hrest := hf.rest hp hn
      exact active_begin hrest.launchFlags hv
    · rw [← hgen]
      rfl
  | stuck status hn hr hs hwhy =>
    have hfollows : Follows c.rest (past ++ s.success) (exited || s.exits) := { hf with }
    refine .continues h ?_ ?_ ?_ ?_
    all_goals rw [hafter]
    · exact hfollows.fault hp hv .controller nofun _
    · exact hgen
    · exact hconf
    · exact fun hc => absurd hc (not_clean_fault _ _ _)


theorem Resting.configure (h : Resting c) {configuration : Configuration}
    (hflags : c.configuration.flags = closureLaunchFlags c.configuration.closure →
      configuration.flags = closureLaunchFlags configuration.closure) :
    Resting { c with configuration } := by
  refine ⟨h.state, h.pending, hflags h.launchFlags, ?_, h.noFault, h.noResources, h.noSandbox⟩
  have hfinished := cleanupType_none.mp h.finished
  exact cleanupType_none.mpr hfinished

theorem Resting.progress (h : Resting c) (call : Call) : Progress ⟨c, call⟩ past exited := by
  obtain ⟨o, ho, heffect, hafter, hstatus⟩ := step_effect c call
  have hidle := h.state
  cases heffect with
  | refused status hs hstart hheard =>
    exact h.refused hafter (Step.success_of_refused hheard)
      (Step.exits_of_status (by rw [hstatus]; exact hs))
  | configured configuration _ hflags hheard hexits =>
    refine .rests h ?_ ?_ (Step.success_of_refused hheard) hexits
    all_goals rw [hafter]
    exact h.configure hflags
  | begun hcall _ hg hn hv =>
    subst hcall
    refine .begins h ?_ ?_ hg rfl rfl
    all_goals rw [hafter]
    · exact active_begin h.launchFlags hv
    · rfl
  | halted restart hcall hp hstate =>
    rw [hidle] at hstate
    rcases hstate with hstate | hstate | hstate <;> cases hstate
  | ready generation hcall hstate => cases hidle.symm.trans hstate
  | reported generation kind code hcall hkind hstate =>
    rw [hidle] at hstate
    rcases hstate with hstate | hstate <;> cases hstate
  | failed r hcall hr =>
    exact absurd (refusal_eq_none hr).1 (by rw [h.pending]; exact Bool.false_ne_true)
  | completed r hcall hr =>
    exact absurd (refusal_eq_none hr).1 (by rw [h.pending]; exact Bool.false_ne_true)

/-! ### Inside a generation -/

theorem Active.not_pending (h : Active c past exited)
    (hs : c.state = .handshaking ∨ c.state = .running ∨ c.state = .faulted) :
    c.actionPending = false := by
  rw [Bool.eq_false_iff, ne_eq, h.pending]
  rcases hs with hs | hs | hs <;> rw [hs] <;> decide

theorem clean_halted {restart : Bool}
    (hs : c.state = .handshaking ∨ c.state = .running ∨ c.state = .faulted)
    (hclean : Clean (c.halted restart)) : Clean c := by
  rcases hs with hs | hs | hs
  · exact Or.inr (Or.inl hs)
  · exact Or.inr (Or.inr (Or.inl hs))
  · rcases hclean with hc | hc | hc | ⟨-, -, hc⟩
    · cases hc
    · cases hc
    · cases hc
    · simp [Controller.halted, hs] at hc

theorem Active.ready (h : Active c past exited) (hstate : c.state = .handshaking)
    (hp : c.actionPending = false) : Active { c with state := .running } past exited := by
  refine ⟨{ h.follows with }, nofun, ?_, ?_, nofun, fun _ => h.up (Or.inl hstate), nofun, h.valid,
    fun _ => h.clean (Or.inr (Or.inl hstate)), nofun, h.token⟩
  · rw [hp]
    simp
  · rw [hp]
    exact nofun

theorem Active.report (h : Active c past exited) {kind : FaultKind} (hkind : kind ≠ .none)
    (code : UInt64) (hstate : c.state = .handshaking ∨ c.state = .running)
    (hp : c.actionPending = false) :
    Active (c.report kind code) past (exited || decide (kind = .processExit)) := by
  obtain ⟨rfl, hdone⟩ := h.up hstate
  rw [Controller.report]
  by_cases hexit : kind = .processExit
  · rw [if_pos hexit, decide_eq_true hexit]
    exact (h.follows.exit hdone).fault hp h.valid kind hkind code
  · rw [if_neg hexit, decide_eq_false hexit]
    exact h.follows.fault hp h.valid kind hkind code

theorem report_keeps (c : Controller) (kind : FaultKind) (code : UInt64) :
    (c.report kind code).generation = c.generation ∧
      (c.report kind code).configuration = c.configuration ∧
      (c.report kind code).nextToken = c.nextToken ∧
      (c.report kind code).actionPending = c.actionPending := by
  rw [Controller.report]
  split_ifs <;> exact ⟨rfl, rfl, rfl, rfl⟩

theorem Active.allowed (h : Active c past exited) (hp : c.actionPending = true) :
    Allowed (resetRequired c) past.done exited c.action.type := by
  rcases h.pending.mp hp with hs | hs
  · exact (h.starting hs).2.1
  · exact h.follows.allowed (h.stopping hs)

theorem Follows.startNext {type : ActionType} (h : Follows c past false) (hs : c.state = .starting)
    (ha : Allowed (resetRequired c) past.done false type)
    (ht : type = .launchSandbox ∨ type = .transferResources)
    (hv : validateConfiguration c = .ok) (hfault : c.faultKind = .none) :
    Active (c.emit type) past false := by
  have hstate : (c.emit type).state = .starting := hs
  refine ⟨h.emit type, ?_, ?_, fun _ => names_emit c type, fun _ => ⟨rfl, ha, Or.inr ht⟩, ?_, ?_, hv,
    fun _ => hfault, ?_, fun _ => rfl⟩
  all_goals rw [hstate]
  · decide
  · simp [Controller.emit]
  · rintro (h | h) <;> cases h
  · rintro ⟨⟩
  · rintro ⟨⟩

theorem Follows.emitStart {type : ActionType} (h : Follows c past false) (hs : c.state = .starting)
    (hp : c.actionPending = false) (ha : Allowed (resetRequired c) past.done false type)
    (ht : type = .launchSandbox ∨ type = .transferResources)
    (hv : validateConfiguration c = .ok) (hfault : c.faultKind = .none) :
    Active (emitAction c type).2 past false ∧ (emitAction c type).2.generation = c.generation ∧
      (emitAction c type).2.configuration = c.configuration := by
  unfold emitAction
  split_ifs
  · exact ⟨h.fault hp hv .controller nofun _, rfl, rfl⟩
  · exact ⟨h.startNext hs ha ht hv hfault, rfl, rfl⟩

theorem Active.advanceStart (h : Active c past exited) (hs : c.state = .starting) (r : Completion) :
    Active (advance (clearAction c) r c.action.type).2 (past ++ [(c.action.type, r)]) exited ∧
      (advance (clearAction c) r c.action.type).2.generation = c.generation ∧
      (advance (clearAction c) r c.action.type).2.configuration = c.configuration := by
  obtain ⟨rfl, ha, htype⟩ := h.starting hs
  have hfollows : Follows (clearAction c) past false := { h.follows with }
  have hmarked := hfollows.success r ha
  have hfault := h.clean (Or.inl hs)
  rcases htype with ht | ht | ht
  all_goals rw [ht] at ha hmarked ⊢
  · refine hmarked.emitStart hs rfl ?_ (Or.inl rfl) h.valid hfault
    rw [Past.done_append]
    exact congrArg (· ++ [ActionType.allocateResources]) ha
  · refine hmarked.emitStart hs rfl ?_ (Or.inr rfl) h.valid hfault
    rw [Past.done_append]
    exact congrArg (· ++ [ActionType.launchSandbox]) ha
  · refine ⟨⟨{ hmarked with }, nofun, ?_, nofun, nofun, fun _ => ⟨rfl, ?_⟩, nofun, h.valid,
      fun _ => hfault, nofun, nofun⟩, rfl, rfl⟩
    · simp [advance, clearAction]
    · rw [Past.done_append]
      exact congrArg (· ++ [ActionType.transferResources]) ha

theorem mark_keeps (c : Controller) (r : Completion) (type : ActionType) :
    (c.mark r type).state = c.state ∧ (c.mark r type).actionPending = c.actionPending ∧
      (c.mark r type).faultKind = c.faultKind ∧ (c.mark r type).faultCode = c.faultCode ∧
      (c.mark r type).generation = c.generation ∧ (c.mark r type).nextToken = c.nextToken ∧
      (c.mark r type).configuration = c.configuration ∧
      (c.mark r type).restartRequested = c.restartRequested := by
  cases type <;> exact ⟨rfl, rfl, rfl, rfl, rfl, rfl, rfl, rfl⟩

theorem advance_cleanup (ht : cleanupType c = some c.action.type) (r : Completion) :
    Arrival ((clearAction c).mark r c.action.type) (advance (clearAction c) r c.action.type) ∧
      ((clearAction c).mark r c.action.type).processStarted = false := by
  have hadvance : advance (clearAction c) r c.action.type =
        nextCleanupAction ((clearAction c).mark r c.action.type) ∧
      ((clearAction c).mark r c.action.type).processStarted = false := by
    unfold cleanupType at ht
    split_ifs at ht with hp hg hv hr hx ha
    all_goals rw [← Option.some.inj ht]
    all_goals refine ⟨rfl, ?_⟩
    · rfl
    · rfl
    all_goals exact Bool.eq_false_iff.mpr hp
  rw [hadvance.1]
  exact ⟨nextCleanupAction_arrival _, hadvance.2⟩

theorem success_completed {r : Completion} (hr : r.refusal c = none) (hresult : r.result = .ok) :
    Step.success ⟨c, .completeAction r⟩ = [(c.action.type, r)] := by
  simp [Step.success, hresult, hr]

theorem Active.completed (h : Active c past exited) {r : Completion} (hr : r.refusal c = none)
    (hresult : r.result = .ok)
    (ho : perform c (.completeAction r) = advance (clearAction c) r c.action.type) :
    Progress ⟨c, .completeAction r⟩ past exited := by
  have hsuccess := success_completed hr hresult
  have hexits : Step.exits ⟨c, .completeAction r⟩ = false := rfl
  rcases h.pending.mp (refusal_eq_none hr).1 with hs | hs
  · obtain ⟨hactive, hgen, hconf⟩ := h.advanceStart hs r
    have hafter : Step.after ⟨c, .completeAction r⟩ = (advance (clearAction c) r c.action.type).2 :=
      congrArg Prod.snd ho
    refine .continues h ?_ ?_ ?_ fun _ => Or.inl hs
    all_goals rw [hafter]
    · rw [hsuccess, hexits, Bool.or_false]
      exact hactive
    · exact hgen
    · exact hconf
  · obtain ⟨harrival, hnot⟩ := advance_cleanup (h.stopping hs) r
    obtain ⟨hstate, hpending, hkind, -, hgen, -, hconf, -⟩ :=
      mark_keeps (clearAction c) r c.action.type
    have hfollows : Follows (clearAction c) past exited := { h.follows with }
    refine harrival.progress ho h ?_ (hstate.trans hs) hpending hkind ?_ hgen hconf
    · rw [hsuccess, hexits, Bool.or_false]
      exact hfollows.success r (h.follows.allowed (h.stopping hs))
    · -- No sandbox runs any more, so the state is not clean.
      rw [Clean, hstate, hnot]
      rintro (hc | hc | hc | ⟨-, hc, -⟩)
      · cases hs.symm.trans hc
      · cases hs.symm.trans hc
      · cases hs.symm.trans hc
      · cases hc

theorem Active.progress (h : Active c past exited) (call : Call) :
    Progress ⟨c, call⟩ past exited := by
  obtain ⟨o, ho, heffect, hafter, hstatus⟩ := step_effect c call
  cases heffect with
  | refused status hs hstart hheard =>
    exact h.refused hafter (Step.success_of_refused hheard)
      (Step.exits_of_status (by rw [hstatus]; exact hs))
  | configured configuration hidle => exact absurd hidle h.state
  | begun hcall hidle => exact absurd hidle h.state
  | halted restart hcall hp hstate harrival =>
    have hsuccess : Step.success ⟨c, call⟩ = [] := by rw [hcall]; cases restart <;> rfl
    have hexits : Step.exits ⟨c, call⟩ = false := by rw [hcall]; cases restart <;> rfl
    refine harrival.progress ho h ?_ rfl hp rfl (clean_halted hstate) rfl rfl
    rw [hsuccess, hexits, List.append_nil, Bool.or_false]
    exact { h.follows with }
  | ready generation hcall hstate hp =>
    subst hcall
    have hsuccess : Step.success ⟨c, .reportReady generation⟩ = [] := rfl
    have hexits : Step.exits ⟨c, .reportReady generation⟩ = false := rfl
    refine .continues h ?_ ?_ ?_ fun _ => Or.inr (Or.inl hstate)
    all_goals rw [hafter]
    rw [hsuccess, hexits, List.append_nil, Bool.or_false]
    exact h.ready hstate hp
  | reported generation kind code hcall hkind hstate hp =>
    subst hcall
    have hsuccess : Step.success ⟨c, .reportFault generation kind code⟩ = [] := rfl
    have hexits : Step.exits ⟨c, .reportFault generation kind code⟩ =
        decide (kind = .processExit) := by
      simp [Step.exits, hstatus, beq_eq_decide]
    obtain ⟨hgen, hconf, -, -⟩ := report_keeps c kind code
    refine .continues h ?_ ?_ ?_ ?_
    all_goals rw [hafter]
    · rw [hsuccess, hexits, List.append_nil]
      exact h.report hkind code hstate hp
    · exact hgen
    · exact hconf
    · exact fun _ => Or.inr (hstate.imp id Or.inl)
  | failed r hcall hr hresult =>
    subst hcall
    have hsuccess : Step.success ⟨c, .completeAction r⟩ = [] := by simp [Step.success, hresult]
    have hexits : Step.exits ⟨c, .completeAction r⟩ = false := rfl
    have hfollows : Follows (clearAction c) past exited := { h.follows with }
    refine .continues h ?_ ?_ ?_ ?_
    all_goals rw [hafter]
    · rw [hsuccess, hexits, List.append_nil, Bool.or_false]
      exact hfollows.fault rfl h.valid .hostAction nofun _
    · rfl
    · rfl
    · exact fun hc => absurd hc (not_clean_fault _ _ _)
  | completed r hcall hr hresult =>
    subst hcall
    exact h.completed hr hresult ho

end Progress

end Kobox.Control
