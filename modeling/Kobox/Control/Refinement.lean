import Kobox.Control.Course
import Kobox.Control.Machine

/-!
# The controller follows a course
-/

namespace Kobox.Control
open List
variable {c : Controller}

/-- The actions that succeeded, with what their completions brought. -/
abbrev Past := List (ActionType × Completion)

def Past.done (past : Past) : List ActionType := past.map Prod.fst

theorem Past.done_append (past : Past) (type : ActionType) (r : Completion) :
    Past.done (past ++ [(type, r)]) = past.done ++ [type] := by
  simp only [Past.done, map_append, map_cons, map_nil]

/-- The action `kb2_next_cleanup_action` emits, if any. -/
def cleanupType (c : Controller) : Option ActionType :=
  if c.processStarted then
    some (if c.gracefulStop then .quiesceSandbox else .terminateSandbox)
  else if c.resourcesAllocated && !c.resourcesRevoked then some .revokeResources
  else if c.resourcesAllocated && resetRequired c && !c.resourcesReset then some .resetResources
  else if c.processExited then some .reapSandbox
  else if c.resourcesAllocated then some .releaseResources
  else none

theorem cleanupType_quiesce (h : cleanupType c = some .quiesceSandbox) :
    c.processStarted = true ∧ c.gracefulStop = true := by
  unfold cleanupType at h
  split_ifs at h with hp hg
  · exact ⟨hp, hg⟩
  all_goals cases h

theorem cleanupType_none : cleanupType c = none ↔
    c.processStarted = false ∧ c.resourcesAllocated = false ∧ c.processExited = false := by
  unfold cleanupType
  split_ifs <;> simp_all

/-- The flags and the ids of the controller are those that the course of its generation gives. -/
structure Follows (c : Controller) (past : Past) (exited : Bool) : Prop where
  launchFlags : c.configuration.flags = closureLaunchFlags c.configuration.closure
  course : Course (resetRequired c) past.done exited
  allocated : c.resourcesAllocated = true ↔
    .allocateResources ∈ past.done ∧ .releaseResources ∉ past.done
  revoked : c.resourcesRevoked = true ↔ .revokeResources ∈ past.done
  reset : c.resourcesReset = true ↔ .resetResources ∈ past.done
  started : c.processStarted = true ↔ .launchSandbox ∈ past.done ∧ ¬ Gone past.done exited
  gone : c.processExited = true ↔
    .launchSandbox ∈ past.done ∧ Gone past.done exited ∧ .reapSandbox ∉ past.done
  resources : c.resourcesAllocated = true →
    ∃ r, (.allocateResources, r) ∈ past ∧ r.resourceSetId = c.resourceSetId
  sandbox : c.processStarted = true ∨ c.processExited = true →
    ∃ r, (.launchSandbox, r) ∈ past ∧ r.sandboxId = c.sandboxId
  noResources : c.resourcesAllocated = false → c.resourceSetId = 0
  noSandbox : c.processStarted = false → c.processExited = false → c.sandboxId = 0

section Follows
variable {c : Controller} {past : Past} {exited : Bool} {type : ActionType}

section
variable (h : Follows c past exited)
include h

theorem Follows.allocated_of_exited (hx : c.processExited = true) :
    c.resourcesAllocated = true := by
  obtain ⟨hl, -, hreap⟩ := h.gone.mp hx
  have horder := h.course.orderly
  exact h.allocated.mpr ⟨horder.launched hl, fun hm => hreap ((horder.released hm).2.2.2 hl)⟩

theorem Follows.gone_of_not_started (hp : ¬ c.processStarted = true)
    (hl : .launchSandbox ∈ past.done) : Gone past.done exited := by
  by_contra hg
  exact hp (h.started.mpr ⟨hl, hg⟩)

theorem Follows.allowed (ht : cleanupType c = some type) :
    Allowed (resetRequired c) past.done exited type := by
  unfold cleanupType at ht
  split_ifs at ht with hp hg hv hr hx ha
  all_goals obtain rfl := Option.some.inj ht
  · exact h.started.mp hp
  · exact h.started.mp hp
  all_goals simp only [Bool.and_eq_true, Bool.not_eq_true', Bool.not_eq_false, not_and] at hv
  · refine ⟨(h.allocated.mp hv.1).1, h.gone_of_not_started hp, fun hm => ?_⟩
    exact Bool.false_ne_true (hv.2.symm.trans (h.revoked.mpr hm))
  all_goals simp only [Bool.and_eq_true, Bool.not_eq_true', Bool.not_eq_false, and_imp, not_and] at hr
  · refine ⟨h.revoked.mp (hv hr.1.1), hr.1.2, fun hm => ?_⟩
    exact Bool.false_ne_true (hr.2.symm.trans (h.reset.mpr hm))
  · have ha := h.allocated_of_exited hx
    obtain ⟨hl, hgone, hreap⟩ := h.gone.mp hx
    exact ⟨hl, hgone, h.revoked.mp (hv ha), fun hreq => h.reset.mp (hr ha hreq), hreap⟩
  · obtain ⟨hm, hrelease⟩ := h.allocated.mp ha
    refine ⟨hm, h.revoked.mp (hv ha), fun hreq => h.reset.mp (hr ha hreq), fun hl => ?_, hrelease⟩
    by_contra hreap
    exact hx (h.gone.mpr ⟨hl, h.gone_of_not_started hp hl, hreap⟩)

theorem Follows.finished (hn : cleanupType c = none) :
    (.allocateResources ∈ past.done → .releaseResources ∈ past.done) ∧
      (.launchSandbox ∈ past.done → .reapSandbox ∈ past.done) := by
  unfold cleanupType at hn
  split_ifs at hn with hp hv hr hx ha
  refine ⟨fun hm => ?_, fun hl => ?_⟩
  · by_contra hrelease
    exact ha (h.allocated.mpr ⟨hm, hrelease⟩)
  · by_contra hreap
    exact hx (h.gone.mpr ⟨hl, h.gone_of_not_started hp hl, hreap⟩)

end

/-- The flags and identifiers the switch of `kb2_controller_complete_action` sets. -/
def Controller.mark (c : Controller) (r : Completion) : ActionType → Controller
  | .allocateResources => { c with resourceSetId := r.resourceSetId, resourcesAllocated := true }
  | .launchSandbox => { c with sandboxId := r.sandboxId, processStarted := true }
  | .quiesceSandbox | .terminateSandbox => { c with processStarted := false, processExited := true }
  | .reapSandbox => { c with processExited := false, sandboxId := 0 }
  | .revokeResources => { c with resourcesRevoked := true }
  | .resetResources => { c with resourcesReset := true }
  | .releaseResources => { c with resourcesAllocated := false, resourceSetId := 0 }
  | .transferResources | .none => c

theorem Follows.success (h : Follows c past exited) (r : Completion)
    (ha : Allowed (resetRequired c) past.done exited type) :
    Follows (c.mark r type) (past ++ [(type, r)]) exited := by
  have hreset : resetRequired (c.mark r type) = resetRequired c := by cases type <;> rfl
  have hcourse : Course (resetRequired (c.mark r type)) (past ++ [(type, r)]).done exited := by
    rw [Past.done_append, hreset]
    exact h.course.success ha
  have horder := h.course.orderly
  obtain ⟨hflags, -, hallocated, hrevoked, hresets, hstarted, hgone, hresources, hsandbox,
    hnoResources, hnoSandbox⟩ := h
  -- Each flag says which actions are in `past`; the rules of `Allowed` say which are not.
  refine ⟨?_, hcourse, ?_, ?_, ?_, ?_, ?_, ?_, ?_, ?_, ?_⟩
  · cases type <;> exact hflags
  all_goals
    obtain ⟨-, -, hlaunch, hgo, hrevoke, hreset, hreap, hrelease⟩ := horder
    simp only [Past.done_append, Gone, mem_append, mem_singleton] at *
    cases type <;> simp only [Allowed, Gone] at ha <;> simp only [Controller.mark] <;>
      grind -ring -linarith

theorem Follows.exit (h : Follows c past false)
    (hdone : past.done = [.allocateResources, .launchSandbox, .transferResources]) :
    Follows { c with processStarted := false, processExited := true } past true := by
  have hcourse := h.course
  rw [hdone] at hcourse
  have hstarted : c.processStarted = true := by
    rw [h.started, hdone]
    simp [Gone]
  refine ⟨h.launchFlags, ?_, h.allocated, h.revoked, h.reset, ?_, ?_, h.resources,
    fun _ => h.sandbox (Or.inl hstarted), h.noResources, by rintro _ ⟨⟩⟩
  · rw [hdone]
    exact hcourse.exit
  · simp [Gone]
  · rw [hdone]
    simp [Gone]

theorem follows_begin (hflags : c.configuration.flags = closureLaunchFlags c.configuration.closure) :
    Follows c.begin [] false := by
  refine ⟨hflags, .start, ?_, ?_, ?_, ?_, ?_, nofun, ?_, fun _ => rfl, fun _ _ => rfl⟩
  all_goals simp [Controller.begin, Past.done]

end Follows

/-! ### The invariant -/

/-- The generation has not faulted and its sandbox, if launched, is still to be stopped. -/
def Clean (c : Controller) : Prop :=
  c.state = .starting ∨ c.state = .handshaking ∨ c.state = .running ∨
    (c.state = .stopping ∧ c.processStarted = true ∧ c.gracefulStop = true)

/-- The pending action names what the controller holds. -/
structure Names (c : Controller) : Prop where
  generation : c.action.generation = c.generation
  configuration : c.action.configuration = c.configuration
  resourceSetId : c.action.resourceSetId = actionResourceSetId c c.action.type
  sandboxId : c.action.sandboxId = actionSandboxId c c.action.type

/-- A controller in `KB2_STATE_IDLE`. -/
structure Resting (c : Controller) : Prop where
  state : c.state = .idle
  pending : c.actionPending = false
  launchFlags : c.configuration.flags = closureLaunchFlags c.configuration.closure
  finished : cleanupType c = none
  noFault : c.faultKind = .none
  noResources : c.resourceSetId = 0
  noSandbox : c.sandboxId = 0

/-- A controller inside a generation. -/
structure Active (c : Controller) (past : Past) (exited : Bool) : Prop where
  follows : Follows c past exited
  state : c.state ≠ .idle
  pending : c.actionPending = true ↔ c.state = .starting ∨ c.state = .stopping
  names : c.actionPending = true → Names c
  starting : c.state = .starting → exited = false ∧
    Allowed (resetRequired c) past.done exited c.action.type ∧
    (c.action.type = .allocateResources ∨ c.action.type = .launchSandbox ∨
      c.action.type = .transferResources)
  up : c.state = .handshaking ∨ c.state = .running → exited = false ∧
    past.done = [.allocateResources, .launchSandbox, .transferResources]
  stopping : c.state = .stopping → cleanupType c = some c.action.type
  valid : validateConfiguration c = .ok
  clean : Clean c → c.faultKind = .none
  faulted : c.state = .faulted → c.faultKind ≠ .none
  token : c.actionPending = true → c.action.token = c.nextToken

section Active
variable {c : Controller} {past : Past} {exited : Bool} {type : ActionType}

theorem names_emit (c : Controller) (type : ActionType) : Names (c.emit type) := by
  refine ⟨rfl, rfl, ?_, ?_⟩
  all_goals cases type <;> rfl

section
variable (h : Follows c past exited)
include h

theorem Follows.emit (type : ActionType) :
    Follows (c.emit type) past exited := { h with }

theorem Follows.stop (hs : c.state = .stopping) (ht : cleanupType c = some type)
    (hv : validateConfiguration c = .ok) (hclean : Clean c → c.faultKind = .none) :
    Active (c.emit type) past exited := by
  have hstate : (c.emit type).state = .stopping := hs
  refine ⟨h.emit type, ?_, ?_, fun _ => names_emit c type, ?_, ?_, fun _ => ht, hv, hclean, ?_,
    fun _ => rfl⟩
  all_goals rw [hstate]
  · decide
  · simp [Controller.emit]
  · exact nofun
  · rintro (h | h) <;> cases h
  · exact nofun

theorem Follows.fault (hp : c.actionPending = false) (hv : validateConfiguration c = .ok)
    (kind : FaultKind) (hk : kind ≠ .none) (code : UInt64) :
    Active (c.fault kind code) past exited := by
  have hp' : (c.fault kind code).actionPending = false := hp
  refine ⟨{ h with }, nofun, ?_, ?_, nofun, nofun, nofun, hv, ?_, fun _ => hk, ?_⟩
  · rw [hp']
    simp [Controller.fault]
  · rw [hp']
    exact nofun
  · rintro (h | h | h | ⟨h, -⟩) <;> cases h
  · rw [hp']
    exact nofun

theorem Follows.rest (hp : c.actionPending = false) (hn : cleanupType c = none) :
    Resting c.rest := by
  obtain ⟨hstarted, hallocated, hexited⟩ := cleanupType_none.mp hn
  exact ⟨rfl, hp, h.launchFlags, hn, rfl, h.noResources hallocated, h.noSandbox hstarted hexited⟩

end

theorem active_begin (hflags : c.configuration.flags = closureLaunchFlags c.configuration.closure)
    (hv : validateConfiguration c = .ok) : Active (c.begin.emit .allocateResources) [] false := by
  refine ⟨(follows_begin hflags).emit _, nofun, ?_, fun _ => names_emit _ _, ?_, ?_, nofun, hv,
    fun _ => rfl, nofun, fun _ => rfl⟩
  · simp [Controller.emit, Controller.begin]
  · exact fun _ => ⟨rfl, rfl, Or.inl rfl⟩
  · rintro (h | h) <;> cases h

end Active

theorem beginStart_ok (hg : c.generation ≠ uint64Max) (hn : c.nextToken ≠ uint64Max)
    (hv : validateConfiguration c = .ok) :
    beginStart c = (.ok, c.begin.emit .allocateResources) := by
  have hn' : c.begin.nextToken ≠ uint64Max := hn
  rw [beginStart, if_neg (not_or.mpr ⟨hg, hn⟩)]
  simp only [hv, ne_eq, not_true_eq_false, if_false, emitAction, if_neg hn']

theorem beginStart_refused
    (h : c.generation = uint64Max ∨ c.nextToken = uint64Max ∨ validateConfiguration c ≠ .ok) :
    ∃ status, beginStart c = (status, c) ∧ status ≠ .ok ∧
      (status = .counterExhausted ∧ (c.generation = uint64Max ∨ c.nextToken = uint64Max) ∨
        status = validateConfiguration c) := by
  by_cases hmax : c.generation = uint64Max ∨ c.nextToken = uint64Max
  · exact ⟨_, if_pos hmax, nofun, Or.inl ⟨rfl, hmax⟩⟩
  · have hv : validateConfiguration c ≠ .ok := by
      rw [← or_assoc] at h
      exact h.resolve_left hmax
    refine ⟨_, ?_, hv, Or.inr rfl⟩
    rw [beginStart, if_neg hmax]
    simp only [ne_eq, hv, not_false_eq_true, if_true]

/-- The outcomes of `kb2_next_cleanup_action`. -/
inductive Arrival (c : Controller) : Result → Prop where
  | next (type : ActionType) (h : cleanupType c = some type) (hn : c.nextToken ≠ uint64Max) :
      Arrival c (.ok, c.emit type)
  | exhausted (type : ActionType) (h : cleanupType c = some type) (hn : c.nextToken = uint64Max) :
      Arrival c (.counterExhausted, c.fault .controller Status.counterExhausted.code)
  | rested (h : cleanupType c = none) (hr : c.restartRequested = false) : Arrival c (.ok, c.rest)
  | renewed (h : cleanupType c = none) (hr : c.restartRequested = true)
      (hg : c.generation ≠ uint64Max) (hn : c.nextToken ≠ uint64Max)
      (hv : validateConfiguration c = .ok) :
      Arrival c (.ok, c.rest.begin.emit .allocateResources)
  | stuck (status : Status) (h : cleanupType c = none) (hr : c.restartRequested = true)
      (hs : status ≠ .ok)
      (hwhy : status = .counterExhausted ∧ (c.generation = uint64Max ∨ c.nextToken = uint64Max) ∨
        status = validateConfiguration c) :
      Arrival c (status, c.rest.fault .controller status.code)

theorem emitAction_arrival {type : ActionType} (h : cleanupType c = some type) :
    Arrival c (emitAction c type) := by
  unfold emitAction
  split_ifs with hn
  · exact .exhausted type h hn
  · exact .next type h hn

theorem finishCleanup_arrival (h : cleanupType c = none) :
    Arrival c (finishCleanup c) := by
  unfold finishCleanup
  by_cases hr : c.restartRequested = true
  · rw [if_pos hr]
    by_cases hcan : c.generation = uint64Max ∨ c.nextToken = uint64Max ∨
        validateConfiguration c ≠ .ok
    · have hrefused : ∃ status, beginStart c.rest = (status, c.rest) ∧ status ≠ .ok ∧
          (status = .counterExhausted ∧ (c.generation = uint64Max ∨ c.nextToken = uint64Max) ∨
            status = validateConfiguration c) := beginStart_refused hcan
      obtain ⟨status, hbegin, hstatus, hwhy⟩ := hrefused
      rw [hbegin]
      simp only [ne_eq, hstatus, not_false_eq_true, if_true]
      exact .stuck status h hr hstatus hwhy
    · rw [not_or, not_or, not_not] at hcan
      have hbegin : beginStart c.rest = (.ok, c.rest.begin.emit .allocateResources) :=
        beginStart_ok hcan.1 hcan.2.1 hcan.2.2
      rw [hbegin]
      exact .renewed h hr hcan.1 hcan.2.1 hcan.2.2
  · rw [if_neg hr]
    exact .rested h (Bool.eq_false_iff.mpr hr)

theorem nextCleanupAction_arrival (c : Controller) : Arrival c (nextCleanupAction c) := by
  cases ht : cleanupType c with
  | none =>
    have hnext : nextCleanupAction c = finishCleanup c := by
      unfold cleanupType at ht
      split_ifs at ht with hp hv hr hx ha
      rw [nextCleanupAction, if_neg hp, if_neg hv, if_neg hr, if_neg hx, if_neg ha]
    rw [hnext]
    exact finishCleanup_arrival ht
  | some type =>
    have hnext : nextCleanupAction c = emitAction c type := by
      unfold cleanupType at ht
      unfold nextCleanupAction
      split_ifs at ht ⊢ <;> exact congrArg _ (Option.some.inj ht)
    rw [hnext]
    exact emitAction_arrival ht

end Kobox.Control
