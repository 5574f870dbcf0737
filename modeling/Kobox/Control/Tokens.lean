import Kobox.Control.Lifecycle

/-!
# Stale and replayed calls
-/

namespace Kobox.Control
open List

/-! ### Tokens -/

/-- The statuses of a call that was turned down. -/
def Status.refuses : Status → Bool
  | .invalidArgument | .invalidState | .invalidConfiguration => true
  | .actionPending | .staleGeneration | .staleAction => true
  | _ => false

/-- The actions that a run has emitted, in their order. -/
def emissions (log : List Step) : List Action := log.filterMap Step.emitted

/-- The generation and token of a completion that was not turned down. -/
def Step.accepted (s : Step) : Option (UInt64 × UInt64) :=
  match s.call with
  | .completeAction r => if s.status.refuses then none else some (r.generation, r.token)
  | _ => none

/-- The completions that a run has accepted, in their order. -/
def acceptances (log : List Step) : List (UInt64 × UInt64) := log.filterMap Step.accepted

theorem refusal_refuses {c : Controller} {r : Completion} {status : Status}
    (h : r.refusal c = some status) : status.refuses = true := by
  unfold Completion.refusal at h
  split_ifs at h
  all_goals exact Option.some.inj h ▸ rfl

theorem status_of_refusal {c : Controller} {r : Completion} (h : r.refusal c ≠ none) :
    (Step.status ⟨c, .completeAction r⟩).refuses = true := by
  obtain ⟨status, hstatus⟩ := Option.ne_none_iff_exists'.mp h
  have hcall : completeAction c r = (status, c) := by rw [completeAction, hstatus]
  rw [Step.status, perform, hcall]
  exact refusal_refuses hstatus

/-- What a call does to the token counter and to the pending action. -/
inductive Counts (s : Step) : Prop where
  | keeps (hn : s.after.nextToken = s.before.nextToken)
      (hp : s.after.actionPending = s.before.actionPending) (ha : s.after.action = s.before.action)
      (haccepted : s.accepted = none)
  | clears (hn : s.after.nextToken = s.before.nextToken) (hp : s.after.actionPending = false)
  | emits (hn : s.after.nextToken.toNat = s.before.nextToken.toNat + 1)
      (hp : s.after.actionPending = true) (ha : s.after.action.token = s.after.nextToken)

section Counts
variable {s : Step} {c : Controller}

theorem counts_emit {type : ActionType} (hafter : s.after = c.emit type)
    (hn : c.nextToken = s.before.nextToken) (hmax : c.nextToken ≠ uint64Max) : Counts s := by
  refine .emits ?_ ?_ ?_
  all_goals rw [hafter]
  · rw [← hn]
    exact toNat_succ hmax
  · rfl
  · rfl

theorem counts_emitAction {type : ActionType} (hafter : s.after = (emitAction c type).2)
    (hn : c.nextToken = s.before.nextToken) (hp : c.actionPending = false) : Counts s := by
  unfold emitAction at hafter
  split_ifs at hafter with hmax
  · refine .clears ?_ ?_
    all_goals rw [hafter]
    · exact hn
    · exact hp
  · exact counts_emit hafter hn hmax

theorem Arrival.counts {o : Result} (ha : Arrival c o) (hafter : s.after = o.2)
    (hn : c.nextToken = s.before.nextToken) (hp : c.actionPending = false) : Counts s := by
  cases ha with
  | next type ht hmax => exact counts_emit hafter hn hmax
  | renewed ht hr hg hmax hv => exact counts_emit (c := c.rest.begin) hafter hn hmax
  | exhausted | rested | stuck =>
    refine .clears ?_ ?_
    all_goals rw [hafter]
    · exact hn
    · exact hp

theorem advance_counts {r : Completion} (type : ActionType)
    (hafter : s.after = (advance (clearAction s.before) r type).2) : Counts s := by
  cases type with
  | none | transferResources =>
    refine .clears ?_ ?_
    all_goals rw [hafter]
    all_goals rfl
  | allocateResources | launchSandbox => exact counts_emitAction hafter rfl rfl
  | quiesceSandbox | terminateSandbox | reapSandbox | revokeResources | resetResources
  | releaseResources => exact (nextCleanupAction_arrival _).counts hafter rfl rfl

theorem counts (s : Step) : Counts s := by
  obtain ⟨o, ho, heffect, hafter, -⟩ := s.effect
  have hsilent : (∀ r, s.call = .completeAction r → r.refusal s.before ≠ none) →
      s.accepted = none := by
    intro h
    obtain ⟨c, call⟩ := s
    cases call with
    | completeAction r => exact if_pos (status_of_refusal (h r rfl))
    | _ => rfl
  cases heffect with
  | refused status hs hstart hheard =>
    exact .keeps (by rw [hafter]) (by rw [hafter]) (by rw [hafter]) (hsilent hheard)
  | configured configuration hidle hflags hheard =>
    exact .keeps (by rw [hafter]) (by rw [hafter]) (by rw [hafter]) (hsilent hheard)
  | begun hcall hidle hmax htoken hv => exact counts_emit (c := s.before.begin) hafter rfl htoken
  | halted restart hcall hp hs harrival => exact harrival.counts hafter rfl hp
  | ready generation hcall hs hp =>
    refine .clears ?_ ?_
    all_goals rw [hafter]
    exact hp
  | reported generation kind code hcall hkind hs hp =>
    obtain ⟨-, -, hn, hpending⟩ := report_keeps s.before kind code
    refine .clears ?_ ?_
    all_goals rw [hafter]
    · exact hn
    · exact hpending.trans hp
  | failed r hcall hr hresult =>
    refine .clears ?_ ?_
    all_goals rw [hafter]
    all_goals rfl
  | completed r hcall hr hresult => exact advance_counts _ hafter

end Counts

/-- The tokens seen so far, against the counter of the object. -/
structure Counted (log : List Step) (c : Controller) : Prop where
  emitted : ∀ a ∈ emissions log, a.token ≤ c.nextToken
  increasing : (emissions log).Pairwise fun a b => a.token < b.token
  accepted : ∀ x ∈ acceptances log, x.2 ≤ c.nextToken ∧ (c.actionPending = true → x.2 < c.nextToken)
  once : (acceptances log).Pairwise fun x y => x.2 < y.2

section Counted
variable {log : List Step} {s : Step}

theorem accepted_eq_some {x : UInt64 × UInt64} (h : s.accepted = some x) :
    s.before.actionPending = true ∧ x.2 = s.before.action.token := by
  obtain ⟨c, call⟩ := s
  cases call with
  | completeAction r =>
    simp only [Step.accepted, Option.ite_none_left_eq_some, Option.some.injEq] at h
    obtain ⟨hstatus, rfl⟩ := h
    have hr : r.refusal c = none := not_not.mp fun hr => hstatus (status_of_refusal hr)
    obtain ⟨hp, -, htoken, -⟩ := refusal_eq_none hr
    exact ⟨hp, htoken⟩
  | _ => cases h

theorem Counts.of_emitted (h : Counts s) {a : Action} (ha : s.emitted = some a) :
    a.token = s.after.nextToken ∧ s.before.nextToken < s.after.nextToken := by
  have hpending := (emitted_eq_some ha).1
  cases h with
  | keeps hn hp haction =>
    simp [Step.emitted, hp, haction] at ha
  | clears hn hp =>
    rw [hp] at hpending
    cases hpending
  | emits hn hp haction =>
    rw [(emitted_eq_some ha).2]
    refine ⟨haction, UInt64.lt_iff_toNat_lt.mpr ?_⟩
    omega

theorem Counts.le (h : Counts s) : s.before.nextToken ≤ s.after.nextToken := by
  cases h with
  | keeps hn | clears hn => rw [hn]; exact UInt64.le_refl _
  | emits hn => exact UInt64.le_iff_toNat_le.mpr (by omega)

theorem Counts.lt_of_pending (h : Counts s) (hp : s.after.actionPending = true) {token : UInt64}
    (hle : token ≤ s.before.nextToken)
    (hlt : s.before.actionPending = true → s.accepted = none → token < s.before.nextToken) :
    token < s.after.nextToken := by
  cases h with
  | keeps hn hpending haction haccepted =>
    rw [hn]
    exact hlt (hpending ▸ hp) haccepted
  | clears hn hpending =>
    rw [hpending] at hp
    cases hp
  | emits hn =>
    have hle' := UInt64.le_iff_toNat_le.mp hle
    exact UInt64.lt_iff_toNat_lt.mpr (by omega)

theorem Counted.emitted_step (h : Counted log s.before) :
    (∀ a ∈ emissions (log ++ [s]), a.token ≤ s.after.nextToken) ∧
      (emissions (log ++ [s])).Pairwise fun a b => a.token < b.token := by
  have hle := (counts s).le
  have hold : ∀ a ∈ emissions log, a.token ≤ s.after.nextToken := fun a ha =>
    UInt64.le_trans (h.emitted a ha) hle
  rw [emissions, filterMap_append]
  cases hemitted : s.emitted with
  | none =>
    rw [filterMap_cons_none hemitted, filterMap_nil, append_nil]
    exact ⟨hold, h.increasing⟩
  | some a =>
    obtain ⟨htoken, hlt⟩ := (counts s).of_emitted hemitted
    rw [filterMap_cons_some hemitted, filterMap_nil]
    constructor
    · intro b hb
      rcases mem_append.mp hb with hb | hb
      · exact hold b hb
      · rw [mem_singleton.mp hb, htoken]
        exact UInt64.le_refl _
    · refine pairwise_append.mpr ⟨h.increasing, pairwise_singleton _ _, fun b hb b' hb' => ?_⟩
      rw [mem_singleton.mp hb', htoken]
      exact UInt64.lt_of_le_of_lt (h.emitted b hb) hlt

theorem Counted.accepted_step (h : Counted log s.before)
    (htoken : s.before.actionPending = true → s.before.action.token = s.before.nextToken) :
    (∀ x ∈ acceptances (log ++ [s]), x.2 ≤ s.after.nextToken ∧
        (s.after.actionPending = true → x.2 < s.after.nextToken)) ∧
      (acceptances (log ++ [s])).Pairwise fun x y => x.2 < y.2 := by
  have hle := (counts s).le
  have hold : ∀ x ∈ acceptances log, x.2 ≤ s.after.nextToken ∧
      (s.after.actionPending = true → x.2 < s.after.nextToken) := by
    intro x hx
    obtain ⟨hx, hlt⟩ := h.accepted x hx
    exact ⟨UInt64.le_trans hx hle, fun hp => (counts s).lt_of_pending hp hx fun hb _ => hlt hb⟩
  rw [acceptances, filterMap_append]
  cases haccepted : s.accepted with
  | none =>
    rw [filterMap_cons_none haccepted, filterMap_nil, append_nil]
    exact ⟨hold, h.once⟩
  | some x =>
    obtain ⟨hpending, hx⟩ := accepted_eq_some haccepted
    rw [htoken hpending] at hx
    rw [filterMap_cons_some haccepted, filterMap_nil]
    constructor
    · intro y hy
      rcases mem_append.mp hy with hy | hy
      · exact hold y hy
      · rw [mem_singleton.mp hy, hx]
        refine ⟨hle, fun hp => (counts s).lt_of_pending hp (UInt64.le_refl _) fun _ hnone => ?_⟩
        rw [haccepted] at hnone
        cases hnone
    · refine pairwise_append.mpr ⟨h.once, pairwise_singleton _ _, fun y hy y' hy' => ?_⟩
      rw [mem_singleton.mp hy', hx]
      exact (h.accepted y hy).2 hpending

theorem counted_run (calls : List Call) :
    Counted (history .created calls) (run .created calls) := by
  induction calls using List.reverseRecOn with
  | nil => exact ⟨nofun, List.Pairwise.nil, nofun, List.Pairwise.nil⟩
  | append_singleton calls call ih =>
    rw [history_append, run_append]
    have htoken : (run .created calls).actionPending = true →
        (run .created calls).action.token = (run .created calls).nextToken := by
      rcases run_cases calls with hr | ⟨past, exited, ha⟩
      · rw [hr.pending]
        exact nofun
      · exact ha.token
    obtain ⟨hemitted, hincreasing⟩ := ih.emitted_step (s := ⟨run .created calls, call⟩)
    obtain ⟨haccepted, honce⟩ := Counted.accepted_step (s := ⟨run .created calls, call⟩) ih htoken
    exact ⟨hemitted, hincreasing, haccepted, honce⟩

end Counted

theorem refuses_result {result : Status} (h : actionResultValid result = true) :
    result.refuses = false := by
  cases result <;> first | rfl | cases h

theorem refusal_eq_none_result {c : Controller} {r : Completion} (h : r.refusal c = none) :
    actionResultValid r.result = true := by
  unfold Completion.refusal at h
  split_ifs at h with hresult
  simpa using hresult

/-- The call is turned down, is a `kb2_controller_set_closure` that fails, or a
`kb2_controller_start` with a counter at its end. -/
def Step.refused (s : Step) : Prop :=
  s.status.refuses = true ∨
    (s.status ≠ .ok ∧ ∃ closure copied, s.call = .setClosure closure copied) ∨
    (s.status = .counterExhausted ∧ s.call = .start)

section Refused
variable {c : Controller} {past : Past} {exited : Bool}

theorem Arrival.status {o : Result} (ha : Arrival c o) (hv : validateConfiguration c = .ok) :
    o.1 = .ok ∨ o.1 = .counterExhausted := by
  cases ha with
  | next | rested | renewed => exact Or.inl rfl
  | exhausted => exact Or.inr rfl
  | stuck status hn hr hs hwhy =>
    rcases hwhy with ⟨he, -⟩ | he
    · exact Or.inr he
    · exact absurd (he.trans hv) hs

theorem emitAction_status (c : Controller) (type : ActionType) :
    (emitAction c type).1 = .ok ∨ (emitAction c type).1 = .counterExhausted := by
  unfold emitAction
  split_ifs
  · exact Or.inr rfl
  · exact Or.inl rfl

theorem Active.advance_status (h : Active c past exited) (hp : c.actionPending = true)
    (r : Completion) :
    (advance (clearAction c) r c.action.type).1 = .ok ∨
      (advance (clearAction c) r c.action.type).1 = .counterExhausted := by
  rcases h.pending.mp hp with hs | hs
  · obtain ⟨-, -, ht | ht | ht⟩ := h.starting hs
    all_goals rw [ht]
    · exact emitAction_status _ _
    · exact emitAction_status _ _
    · exact Or.inl rfl
  · refine (advance_cleanup (h.stopping hs) r).1.status ?_
    rw [validateConfiguration, (mark_keeps (clearAction c) r c.action.type).2.2.2.2.2.2.1]
    exact h.valid

theorem not_refused {s : Step} (hstatus : s.status = .ok ∨ s.status = .counterExhausted)
    (hstart : s.call ≠ .start) (hset : ∀ closure copied, s.call ≠ .setClosure closure copied) :
    ¬ s.refused := by
  rintro (h | ⟨-, closure, copied, h⟩ | ⟨-, h⟩)
  · rcases hstatus with he | he <;> rw [he] at h <;> cases h
  · exact hset closure copied h
  · exact hstart h

/-- In a reachable object a completion is turned down for its arguments alone: an action that
it completes never ends with one of the refusing statuses. -/
theorem completion_heard_iff (h : Resting c ∨ ∃ past exited, Active c past exited)
    (r : Completion) :
    (Step.status ⟨c, .completeAction r⟩).refuses = false ↔ r.refusal c = none := by
  constructor
  · intro hstatus
    by_contra hr
    rw [status_of_refusal hr] at hstatus
    cases hstatus
  · intro hr
    obtain ⟨hp, -⟩ := refusal_eq_none hr
    rcases h with h | ⟨past, exited, h⟩
    · exact absurd hp (by rw [h.pending]; exact Bool.false_ne_true)
    · have hcall : Step.status ⟨c, .completeAction r⟩ =
          if r.result ≠ .ok then r.result else (advance (clearAction c) r c.action.type).1 := by
        rw [Step.status, perform, completeAction, hr]
        exact apply_ite Prod.fst ..
      rw [hcall]
      split_ifs with hresult
      · exact refuses_result (refusal_eq_none_result hr)
      · rcases h.advance_status hp r with he | he <;> rw [he] <;> rfl

theorem refused_unchanged (h : Resting c ∨ ∃ past exited, Active c past exited) (call : Call)
    (hrefused : Step.refused ⟨c, call⟩) : Step.after ⟨c, call⟩ = c := by
  obtain ⟨o, ho, heffect, hafter, hstatus⟩ := step_effect c call
  have hok : o.1 ≠ .ok := by
    rw [← hstatus]
    intro he
    rcases hrefused with h | ⟨h, -⟩ | ⟨h, -⟩ <;> rw [he] at h
    · cases h
    · exact h rfl
    · cases h
  cases heffect with
  | refused => exact hafter
  | configured | begun | ready | reported => exact absurd rfl hok
  | halted restart hcall hp hs harrival =>
    rcases h with h | ⟨past, exited, h⟩
    · rw [h.state] at hs
      rcases hs with hs | hs | hs <;> cases hs
    · subst hcall
      refine absurd hrefused (not_refused ?_ ?_ ?_)
      · rw [hstatus]
        exact harrival.status h.valid
      · cases restart <;> exact nofun
      · cases restart <;> exact nofun
  | failed r hcall hr | completed r hcall hr =>
    subst hcall
    rcases hrefused with hrefused | ⟨-, closure, copied, he⟩ | ⟨-, he⟩
    · rw [(completion_heard_iff h r).mpr hr] at hrefused
      cases hrefused
    · cases he
    · cases he

end Refused

/-- Over every run tokens increase and a completion is accepted at most once; a completion of
anything but the pending action is refused, and a refused call leaves the whole object as it is. -/
theorem stale_calls_harmless (calls : List Call) :
    ((emissions (history .created calls)).Pairwise fun a b => a.token < b.token) ∧
      (acceptances (history .created calls)).Nodup ∧
      (∀ r : Completion, (run .created calls).actionPending = false ∨
          r.generation ≠ (run .created calls).generation ∨
          r.token ≠ (run .created calls).action.token →
        (Step.status ⟨run .created calls, .completeAction r⟩).refuses = true) ∧
      ∀ call, Step.refused ⟨run .created calls, call⟩ →
        Step.after ⟨run .created calls, call⟩ = run .created calls := by
  have h := counted_run calls
  refine ⟨h.increasing, ?_, fun r hstale => ?_, refused_unchanged (run_cases calls)⟩
  · refine h.once.imp fun hlt he => ?_
    rw [he] at hlt
    exact UInt64.lt_irrefl _ hlt
  · refine status_of_refusal fun hr => ?_
    obtain ⟨hp, hgen, htoken, -⟩ := refusal_eq_none hr
    rcases hstale with hs | hs | hs
    · rw [hs] at hp
      cases hp
    · exact hs hgen
    · exact hs htoken

end Kobox.Control
