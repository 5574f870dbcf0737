import Kobox.Control.Calls
import Mathlib.Data.List.Induction

/-!
# Every generation in a run
-/

namespace Kobox.Control
open List
variable {a : Action} {configuration : Configuration} {past : Past} {exited : Bool}

/-! ### Histories -/

def history : Controller → List Call → List Step
  | _, [] => []
  | c, call :: calls => ⟨c, call⟩ :: history (perform c call).2 calls

theorem run_append (c : Controller) (calls : List Call) (call : Call) :
    run c (calls ++ [call]) = (perform (run c calls) call).2 := by
  simp only [run, foldl_append, foldl_cons, foldl_nil]

theorem history_append (c : Controller) (calls : List Call) (call : Call) :
    history c (calls ++ [call]) = history c calls ++ [⟨run c calls, call⟩] := by
  induction calls generalizing c with
  | nil => rfl
  | cons first calls ih =>
    rw [cons_append, history, ih]
    rfl

def succeeded (g : UInt64) (log : List Step) : Past :=
  log.flatMap fun s => if s.before.generation = g then s.success else []

def exitReported (g : UInt64) (log : List Step) : Bool :=
  log.any fun s => s.before.generation == g && s.exits

def Step.emitted (s : Step) : Option Action :=
  if s.after.actionPending &&
      (!s.before.actionPending || s.after.action.token != s.before.action.token) then
    some s.after.action
  else none

theorem emitted_eq_some {s : Step} (h : s.emitted = some a) :
    s.after.actionPending = true ∧ a = s.after.action := by
  unfold Step.emitted at h
  split_ifs at h with hp
  exact ⟨(Bool.and_eq_true_iff.mp hp).1, (Option.some.inj h).symm⟩

section Log
variable {log : List Step} {s : Step} {g : UInt64}

theorem succeeded_append (hg : s.before.generation = g) :
    succeeded g (log ++ [s]) = succeeded g log ++ s.success := by
  simp [succeeded, hg]

theorem succeeded_append_other (hg : s.before.generation ≠ g) :
    succeeded g (log ++ [s]) = succeeded g log := by
  simp [succeeded, hg]

theorem exitReported_append (hg : s.before.generation = g) :
    exitReported g (log ++ [s]) = (exitReported g log || s.exits) := by
  simp [exitReported, hg]

theorem exitReported_append_other (hg : s.before.generation ≠ g) :
    exitReported g (log ++ [s]) = exitReported g log := by
  simp [exitReported, hg]

theorem no_record (h : ∀ s ∈ log, s.before.generation ≠ g) :
    succeeded g log = [] ∧ exitReported g log = false := by
  constructor
  · refine flatMap_eq_nil_iff.mpr fun s hs => ?_
    rw [if_neg (h s hs)]
  · refine any_eq_false.mpr fun s hs => ?_
    simp [h s hs]

end Log

/-- The closure has a resource with `KB2_RESOURCE_RESET_REQUIRED`. -/
def NeedsReset (closure : Option Closure) : Prop :=
  ∃ k, closure = some k ∧ ∃ r ∈ k.resources, r.flags &&& resourceResetRequired ≠ 0

/-- An action `a` that call `s` emits after the calls of `earlier`. -/
structure Emission (earlier : List Step) (s : Step) (a : Action) : Prop where
  generation : a.generation = s.after.generation
  configuration : a.configuration = s.after.configuration
  resources : a.type.namesResources → ∃ r,
    (.allocateResources, r) ∈ succeeded a.generation (earlier ++ [s]) ∧
      a.resourceSetId = r.resourceSetId
  no_resources : ¬ a.type.namesResources → a.resourceSetId = 0
  sandbox : a.type.namesSandbox → ∃ r,
    (.launchSandbox, r) ∈ succeeded a.generation (earlier ++ [s]) ∧ a.sandboxId = r.sandboxId
  no_sandbox : ¬ a.type.namesSandbox → a.sandboxId = 0
  reset : a.type = .resetResources → NeedsReset a.configuration.closure
  quiesce : a.type = .quiesceSandbox → ∀ s' ∈ earlier ++ [s],
    s'.after.generation = a.generation → s'.after.faultKind = .none

theorem resetRequired_iff (h : configuration.flags = closureLaunchFlags configuration.closure) :
    configuration.resetRequired = true ↔ NeedsReset configuration.closure := by
  unfold Configuration.resetRequired NeedsReset
  rw [h]
  cases configuration.closure with
  | none => simp [closureLaunchFlags]
  | some k =>
    simp only [closureLaunchFlags, Option.some.injEq, exists_eq_left']
    by_cases hany : (k.resources.any fun r => r.flags &&& resourceResetRequired != 0) = true
    · rw [if_pos hany]
      have hexists : ∃ r ∈ k.resources, r.flags &&& resourceResetRequired ≠ 0 := by
        simpa using hany
      exact ⟨fun _ => hexists, fun _ => by decide⟩
    · rw [if_neg hany]
      simpa using hany

section Emission
variable {c : Controller} {past : Past} {exited : Bool}

theorem Active.resources_named (h : Active c past exited) (hp : c.actionPending = true)
    (hn : c.action.type.namesResources) :
    ∃ r, (.allocateResources, r) ∈ past ∧ c.action.resourceSetId = r.resourceSetId := by
  have hholds := h.follows.course.orderly.holds_resources (h.allowed hp) hn
  obtain ⟨r, hr, hid⟩ := h.follows.resources (h.follows.allocated.mpr hholds)
  refine ⟨r, hr, ?_⟩
  rw [(h.names hp).resourceSetId, hid]
  generalize c.action.type = type at hn
  cases type <;> first | rfl | exact absurd hn (by decide)

theorem Active.sandbox_named (h : Active c past exited) (hp : c.actionPending = true)
    (hn : c.action.type.namesSandbox) :
    ∃ r, (.launchSandbox, r) ∈ past ∧ c.action.sandboxId = r.sandboxId := by
  obtain ⟨hlaunch, hreap⟩ := h.follows.course.orderly.holds_sandbox (h.allowed hp) hn
  have hprocess : c.processStarted = true ∨ c.processExited = true := by
    by_cases hg : Gone past.done exited
    · exact Or.inr (h.follows.gone.mpr ⟨hlaunch, hg, hreap⟩)
    · exact Or.inl (h.follows.started.mpr ⟨hlaunch, hg⟩)
  obtain ⟨r, hr, hid⟩ := h.follows.sandbox hprocess
  refine ⟨r, hr, ?_⟩
  rw [(h.names hp).sandboxId, hid]
  generalize c.action.type = type at hn
  cases type <;> first | rfl | exact absurd hn (by decide)

end Emission

/-! ### The invariant of a run -/

theorem toNat_succ {g : UInt64} (h : g ≠ uint64Max) : (g + 1).toNat = g.toNat + 1 := by
  have hne : g.toNat ≠ uint64Max.toNat := fun he => h (UInt64.toNat_inj.mp he)
  have hlt := g.toNat_lt
  rw [UInt64.toNat_add]
  simp only [uint64Max, UInt64.reduceToNat] at hne ⊢
  omega

def Carried (configuration : Configuration) (g : UInt64) (log : List Step) : Prop :=
  ∀ s ∈ log, (s.before.generation = g → s.success ≠ [] →
      s.before.action.configuration = configuration) ∧
    ∀ a, s.emitted = some a → a.generation = g → a.configuration = configuration

/-- Generation `g` is over. -/
structure Settled (configuration : Configuration) (g : UInt64) (log : List Step) : Prop where
  launchFlags : configuration.flags = closureLaunchFlags configuration.closure
  carried : Carried configuration g log
  ended : Ended configuration.resetRequired (succeeded g log) (exitReported g log)

/-- The invariant of a run: the controller against the history of its calls. -/
structure Logged (log : List Step) (c : Controller) : Prop where
  now : Resting c ∨ Active c (succeeded c.generation log) (exitReported c.generation log)
  bounded : ∀ s ∈ log, s.before.generation.toNat ≤ c.generation.toNat ∧
    s.after.generation.toNat ≤ c.generation.toNat
  carried : c.state ≠ .idle → Carried c.configuration c.generation log
  settled : ∀ g : UInt64, g.toNat < c.generation.toNat ∨ (g = c.generation ∧ c.state = .idle) →
    ∃ configuration, Settled configuration g log
  clean : Clean c → ∀ s ∈ log, s.after.generation = c.generation → s.after.faultKind = .none
  emissions : ∀ earlier s later a, log = earlier ++ s :: later → s.emitted = some a →
    Emission earlier s a

section Run
variable {log : List Step} {s : Step} {g : UInt64}

theorem Carried.append (h : Carried configuration g log)
    (hsuccess : s.before.generation = g → s.success ≠ [] →
      s.before.action.configuration = configuration)
    (hemitted : ∀ a, s.emitted = some a → a.generation = g → a.configuration = configuration) :
    Carried configuration g (log ++ [s]) := by
  intro s' hs'
  rcases mem_append.mp hs' with hs' | hs'
  · exact h s' hs'
  · rw [mem_singleton.mp hs']
    exact ⟨hsuccess, hemitted⟩

theorem Settled.append (h : Settled configuration g log)
    (hsuccess : s.before.generation = g → s.success = [] ∧ s.exits = false)
    (hemitted : ∀ a, s.emitted = some a → a.generation ≠ g) :
    Settled configuration g (log ++ [s]) := by
  refine ⟨h.launchFlags, h.carried.append (fun hg hne => ?_) fun a ha hg => ?_, ?_⟩
  · exact absurd (hsuccess hg).1 hne
  · exact absurd hg (hemitted a ha)
  · by_cases hg : s.before.generation = g
    · rw [succeeded_append hg, exitReported_append hg, (hsuccess hg).1, (hsuccess hg).2,
        append_nil, Bool.or_false]
      exact h.ended
    · rw [succeeded_append_other hg, exitReported_append_other hg]
      exact h.ended

theorem Resting.no_emission (h : Resting s.after) : s.emitted = none := by
  simp [Step.emitted, h.pending]

theorem Active.emitted_generation (h : Active s.after past exited) (ha : s.emitted = some a) :
    a.generation = s.after.generation ∧ a.configuration = s.after.configuration := by
  obtain ⟨hp, rfl⟩ := emitted_eq_some ha
  exact ⟨(h.names hp).generation, (h.names hp).configuration⟩

theorem Active.success_configuration (h : Active s.before past exited) (hs : s.success ≠ []) :
    s.before.action.configuration = s.before.configuration := by
  have hp : s.before.actionPending = true := by
    unfold Step.success at hs
    split at hs
    · split_ifs at hs with hr
      · exact (refusal_eq_none hr.2).1
      · exact absurd rfl hs
    · exact absurd rfl hs
  exact (h.names hp).configuration

theorem Logged.progress (h : Logged log s.before) :
    Progress s (succeeded s.before.generation log) (exitReported s.before.generation log) := by
  rcases h.now with hr | ha
  · exact hr.progress s.call
  · exact ha.progress s.call

theorem Progress.generation_cases (h : Progress s past exited) :
    s.after.generation = s.before.generation ∨
      s.after.generation.toNat = s.before.generation.toNat + 1 := by
  cases h with
  | rests _ _ hgen | continues _ _ hgen | ends _ _ hgen => exact Or.inl hgen
  | begins _ _ hgen hmax | renews _ _ hgen hmax =>
    refine Or.inr ?_
    rw [hgen]
    exact toNat_succ hmax

section
variable (h : Logged log s.before)
include h

theorem Logged.bounded_append :
    ∀ s' ∈ log ++ [s], s'.before.generation.toNat ≤ s.after.generation.toNat ∧
      s'.after.generation.toNat ≤ s.after.generation.toNat := by
  have hle : s.before.generation.toNat ≤ s.after.generation.toNat := by
    rcases h.progress.generation_cases with hgen | hgen
    · rw [hgen]
    · omega
  intro s' hs'
  rcases mem_append.mp hs' with hs' | hs'
  · have hb := h.bounded s' hs'
    exact ⟨hb.1.trans hle, hb.2.trans hle⟩
  · rw [mem_singleton.mp hs']
    exact ⟨hle, Nat.le_refl _⟩

theorem Logged.new_generation (hlt : s.before.generation.toNat < s.after.generation.toNat) :
    succeeded s.after.generation (log ++ [s]) = [] ∧
      exitReported s.after.generation (log ++ [s]) = false := by
  refine no_record fun s' hs' he => ?_
  rcases mem_append.mp hs' with hs' | hs'
  · have hb := (h.bounded s' hs').1
    rw [he] at hb
    omega
  · rw [mem_singleton.mp hs'] at he
    rw [he] at hlt
    exact Nat.lt_irrefl _ hlt

theorem Logged.now_append :
    Resting s.after ∨ Active s.after (succeeded s.after.generation (log ++ [s]))
      (exitReported s.after.generation (log ++ [s])) := by
  have hnew : Active s.after [] false → s.after.generation = s.before.generation + 1 →
      s.before.generation ≠ uint64Max →
      Active s.after (succeeded s.after.generation (log ++ [s]))
        (exitReported s.after.generation (log ++ [s])) := by
    intro ha hgen hmax
    have hlt : s.before.generation.toNat < s.after.generation.toNat := by
      rw [hgen, toNat_succ hmax]
      exact Nat.lt_succ_self _
    obtain ⟨hs, he⟩ := h.new_generation hlt
    rw [hs, he]
    exact ha
  cases h.progress with
  | rests _ h' => exact Or.inl h'
  | ends _ h' => exact Or.inl h'
  | begins _ h' hgen hmax => exact Or.inr (hnew h' hgen hmax)
  | renews _ h' hgen hmax => exact Or.inr (hnew h' hgen hmax)
  | continues _ h' hgen =>
    rw [hgen, succeeded_append rfl, exitReported_append rfl]
    exact Or.inr h'

theorem Logged.settled_old
    (hover : g.toNat < s.before.generation.toNat ∨
      (g = s.before.generation ∧ s.before.state = .idle ∧ s.success = [] ∧ s.exits = false))
    (hemitted : ∀ a, s.emitted = some a → a.generation ≠ g) :
    ∃ configuration, Settled configuration g (log ++ [s]) := by
  have hsettled : g.toNat < s.before.generation.toNat ∨
      (g = s.before.generation ∧ s.before.state = .idle) := by
    rcases hover with hlt | ⟨he, hs, -⟩
    · exact Or.inl hlt
    · exact Or.inr ⟨he, hs⟩
  obtain ⟨configuration, hset⟩ := h.settled g hsettled
  refine ⟨configuration, hset.append (fun hb => ?_) hemitted⟩
  rcases hover with hlt | ⟨-, -, hs⟩
  · rw [hb] at hlt
    exact absurd hlt (Nat.lt_irrefl _)
  · exact hs

theorem Logged.settled_now (ha : Active s.before past exited)
    (hended : Ended (resetRequired s.before) (succeeded s.before.generation log ++ s.success)
      (exitReported s.before.generation log || s.exits))
    (hemitted : ∀ a, s.emitted = some a → a.generation ≠ s.before.generation) :
    Settled s.before.configuration s.before.generation (log ++ [s]) := by
  refine ⟨ha.follows.launchFlags, (h.carried ha.state).append
    (fun _ hs => ha.success_configuration hs) (fun a he hgen => absurd hgen (hemitted a he)), ?_⟩
  rw [succeeded_append rfl, exitReported_append rfl]
  exact hended

theorem Logged.settled_append
    (hg : g.toNat < s.after.generation.toNat ∨ (g = s.after.generation ∧ s.after.state = .idle)) :
    ∃ configuration, Settled configuration g (log ++ [s]) := by
  have hresting : Resting s.after → ∀ (g : UInt64) a, s.emitted = some a → a.generation ≠ g := by
    intro hr g a ha
    rw [hr.no_emission] at ha
    cases ha
  have hlater : ∀ {past exited}, Active s.after past exited → ∀ {g : UInt64},
      g.toNat < s.after.generation.toNat → ∀ a, s.emitted = some a → a.generation ≠ g := by
    intro past exited ha g hlt a he hgen
    rw [← hgen, (ha.emitted_generation he).1] at hlt
    exact Nat.lt_irrefl _ hlt
  cases h.progress with
  | rests hb h' hgen hsuccess hexits =>
    refine h.settled_old ?_ (hresting h' g)
    rw [hgen] at hg
    rcases hg with hlt | ⟨he, -⟩
    · exact Or.inl hlt
    · exact Or.inr ⟨he, hb.state, hsuccess, hexits⟩
  | begins hb h' hgen hmax hsuccess hexits =>
    have hsucc := toNat_succ hmax
    rw [← hgen] at hsucc
    rcases hg with hlt | ⟨-, hidle⟩
    · refine h.settled_old ?_ (hlater h' hlt)
      rcases Nat.lt_or_eq_of_le (Nat.lt_succ_iff.mp (hsucc ▸ hlt)) with hlt | he
      · exact Or.inl hlt
      · exact Or.inr ⟨UInt64.toNat_inj.mp he, hb.state, hsuccess, hexits⟩
    · exact absurd hidle h'.state
  | continues hb h' hgen =>
    rcases hg with hlt | ⟨-, hidle⟩
    · exact h.settled_old (Or.inl (hgen ▸ hlt)) (hlater h' hlt)
    · exact absurd hidle h'.state
  | ends hb h' hgen hended =>
    rw [hgen] at hg
    rcases hg with hlt | ⟨rfl, -⟩
    · exact h.settled_old (Or.inl hlt) (hresting h' g)
    · exact ⟨_, h.settled_now hb hended (hresting h' _)⟩
  | renews hb h' hgen hmax hended =>
    have hsucc := toNat_succ hmax
    rw [← hgen] at hsucc
    rcases hg with hlt | ⟨-, hidle⟩
    · rcases Nat.lt_or_eq_of_le (Nat.lt_succ_iff.mp (hsucc ▸ hlt)) with hless | he
      · exact h.settled_old (Or.inl hless) (hlater h' hlt)
      · obtain rfl := UInt64.toNat_inj.mp he
        exact ⟨_, h.settled_now hb hended (hlater h' hlt)⟩
    · exact absurd hidle h'.state

theorem Logged.carried_append (hstate : s.after.state ≠ .idle) :
    Carried s.after.configuration s.after.generation (log ++ [s]) := by
  have hnew : ∀ {past exited}, Active s.after past exited →
      s.before.generation.toNat < s.after.generation.toNat →
      Carried s.after.configuration s.after.generation (log ++ [s]) := by
    intro past exited ha hlt
    refine Carried.append (fun s' hs' => ?_) (fun he => ?_) fun a he _ => (ha.emitted_generation he).2
    · have hb := h.bounded s' hs'
      refine ⟨fun he => ?_, fun a hemitted hgen => ?_⟩
      · rw [he] at hb
        omega
      · obtain ⟨earlier, later, hsplit⟩ := append_of_mem hs'
        rw [(h.emissions earlier s' later a hsplit hemitted).generation] at hgen
        rw [hgen] at hb
        omega
    · rw [he] at hlt
      exact absurd hlt (Nat.lt_irrefl _)
  cases h.progress with
  | rests _ h' => exact absurd h'.state hstate
  | ends _ h' => exact absurd h'.state hstate
  | begins _ h' hgen hmax | renews _ h' hgen hmax =>
    refine hnew h' ?_
    rw [hgen, toNat_succ hmax]
    exact Nat.lt_succ_self _
  | continues hb h' hgen hconf =>
    rw [hgen, hconf]
    refine (h.carried hb.state).append (fun _ hs => hb.success_configuration hs) fun a he _ => ?_
    rw [(h'.emitted_generation he).2, hconf]

theorem Logged.clean_append (hc : Clean s.after) :
    ∀ s' ∈ log ++ [s], s'.after.generation = s.after.generation → s'.after.faultKind = .none := by
  have hactive : ∃ past exited, Active s.after past exited := by
    rcases h.now_append with hr | ha
    · rcases hc with hs | hs | hs | ⟨hs, -⟩ <;> rw [hr.state] at hs <;> cases hs
    · exact ⟨_, _, ha⟩
  obtain ⟨past, exited, hactive⟩ := hactive
  intro s' hs' hgen'
  rcases mem_append.mp hs' with hs' | hs'
  · -- An earlier call of this generation: the generation was clean then.
    have hb := (h.bounded s' hs').2
    cases h.progress with
    | rests _ h' => exact absurd h'.state hactive.state
    | ends _ h' => exact absurd h'.state hactive.state
    | begins _ h' hgen hmax | renews _ h' hgen hmax =>
      rw [hgen', hgen, toNat_succ hmax] at hb
      omega
    | continues _ _ hgen _ hclean => exact h.clean (hclean hc) s' hs' (hgen'.trans hgen)
  · rw [mem_singleton.mp hs']
    exact hactive.clean hc

theorem Logged.emission (ha : s.emitted = some a) : Emission log s a := by
  obtain ⟨hp, rfl⟩ := emitted_eq_some ha
  have hactive : Active s.after (succeeded s.after.generation (log ++ [s]))
      (exitReported s.after.generation (log ++ [s])) := by
    rcases h.now_append with hr | hactive
    · exact absurd hp (by rw [hr.pending]; exact Bool.false_ne_true)
    · exact hactive
  have hnames := hactive.names hp
  refine ⟨hnames.generation, hnames.configuration, ?_, ?_, ?_, ?_, ?_, ?_⟩
  · rw [hnames.generation]
    exact hactive.resources_named hp
  · intro hn
    rw [hnames.resourceSetId]
    generalize s.after.action.type = type at hn
    cases type <;> first | rfl | exact absurd (by decide) hn
  · rw [hnames.generation]
    exact hactive.sandbox_named hp
  · intro hn
    rw [hnames.sandboxId]
    generalize s.after.action.type = type at hn
    cases type <;> first | rfl | exact absurd (by decide) hn
  · intro ht
    have hallowed := hactive.allowed hp
    rw [ht] at hallowed
    rw [hnames.configuration]
    exact (resetRequired_iff hactive.follows.launchFlags).mp hallowed.2.1
  · intro ht
    rw [hnames.generation]
    refine h.clean_append ?_
    -- The sandbox is quiesced only by a stop that began without a fault.
    rcases hactive.pending.mp hp with hs | hs
    · exact Or.inl hs
    · have hnext := hactive.stopping hs
      rw [ht] at hnext
      exact Or.inr (Or.inr (Or.inr ⟨hs, cleanupType_quiesce hnext⟩))

theorem Logged.step : Logged (log ++ [s]) s.after := by
  refine ⟨h.now_append, h.bounded_append, h.carried_append, fun g hg => h.settled_append hg,
    h.clean_append, fun earlier s' later a hsplit ha => ?_⟩
  rcases eq_nil_or_concat later with rfl | ⟨later', last, rfl⟩
  · obtain ⟨rfl, he⟩ := append_inj' hsplit rfl
    obtain rfl := singleton_inj.mp he
    exact h.emission ha
  · rw [concat_eq_append, ← cons_append, ← append_assoc] at hsplit
    exact h.emissions earlier s' later' a (append_inj' hsplit rfl).1 ha

end

theorem logged_created : Logged [] Controller.created := by
  have hnil : ∀ {P : Step → Prop}, ∀ s ∈ ([] : List Step), P s :=
    fun s hs => absurd hs not_mem_nil
  have hresting : Resting Controller.created := ⟨rfl, rfl, rfl, rfl, rfl, rfl, rfl⟩
  refine ⟨Or.inl hresting, hnil, fun h => absurd rfl h, fun g hg => ?_, fun _ => hnil, ?_⟩
  · have hstart : Course false [] false := .start
    exact ⟨.zero, rfl, hnil, ⟨hstart.orderly,
      fun h => absurd h not_mem_nil, fun h => absurd h not_mem_nil⟩⟩
  · intro earlier s later a h
    cases earlier <;> cases h

theorem logged_run (calls : List Call) :
    Logged (history .created calls) (run .created calls) := by
  induction calls using List.reverseRecOn with
  | nil => exact logged_created
  | append_singleton calls call ih =>
    rw [history_append, run_append]
    exact Logged.step (s := ⟨run .created calls, call⟩) ih

end Run

theorem run_cases (calls : List Call) :
    Resting (run .created calls) ∨ ∃ past exited, Active (run .created calls) past exited := by
  rcases (logged_run calls).now with hr | ha
  · exact Or.inl hr
  · exact Or.inr ⟨_, _, ha⟩

theorem Logged.orderly {log : List Step} {c : Controller} (h : Logged log c) (g : UInt64) :
    ∃ configuration : Configuration,
      configuration.flags = closureLaunchFlags configuration.closure ∧
      Carried configuration g log ∧
      Orderly configuration.resetRequired (succeeded g log).done (exitReported g log) := by
  rcases Nat.lt_trichotomy g.toNat c.generation.toNat with hlt | he | hgt
  · obtain ⟨configuration, hset⟩ := h.settled g (Or.inl hlt)
    exact ⟨configuration, hset.launchFlags, hset.carried, hset.ended.orderly⟩
  · obtain rfl := UInt64.toNat_inj.mp he
    rcases h.now with hr | ha
    · obtain ⟨configuration, hset⟩ := h.settled c.generation (Or.inr ⟨rfl, hr.state⟩)
      exact ⟨configuration, hset.launchFlags, hset.carried, hset.ended.orderly⟩
    · exact ⟨c.configuration, ha.follows.launchFlags, h.carried ha.state,
        ha.follows.course.orderly⟩
  · -- Nothing has happened in a generation that is still to come.
    have hbefore : ∀ s ∈ log, s.before.generation ≠ g := by
      intro s hs hgen
      have hb := (h.bounded s hs).1
      rw [hgen] at hb
      omega
    have hstart : Course false [] false := .start
    refine ⟨.zero, rfl, fun s hs => ⟨fun hgen => absurd hgen (hbefore s hs), ?_⟩, ?_⟩
    · intro a ha hgen
      obtain ⟨earlier, later, hsplit⟩ := append_of_mem hs
      rw [(h.emissions earlier s later a hsplit ha).generation] at hgen
      have hb := (h.bounded s hs).2
      rw [hgen] at hb
      omega
    · rw [(no_record hbefore).1, (no_record hbefore).2]
      exact hstart.orderly

/-- What a run has done, up to any point, in each generation: the actions in their order, nothing
released that was not revoked, reset exactly when the closure needs it, and nothing held once the
generation is left. -/
structure Lifecycle (log : List Step) (c : Controller) : Prop where
  order : ∀ g, ∃ stop, (stop = .quiesceSandbox ∨ stop = .terminateSandbox) ∧
    (succeeded g log).done.Sublist (actionOrder stop)
  revoked : ∀ g, .releaseResources ∈ (succeeded g log).done →
    .revokeResources ∈ (succeeded g log).done
  reset : ∀ s ∈ log, .releaseResources ∈ Past.done s.success →
    (.resetResources ∈ (succeeded s.before.generation log).done ↔
      NeedsReset s.before.action.configuration.closure)
  reaped : ∀ g, .reapSandbox ∈ (succeeded g log).done →
    .quiesceSandbox ∈ (succeeded g log).done ∨ .terminateSandbox ∈ (succeeded g log).done ∨
      exitReported g log = true
  left : ∀ g : UInt64, g.toNat < c.generation.toNat ∨ (g = c.generation ∧ c.state = .idle) →
    (.allocateResources ∈ (succeeded g log).done → .releaseResources ∈ (succeeded g log).done) ∧
    (.launchSandbox ∈ (succeeded g log).done → .reapSandbox ∈ (succeeded g log).done)
  emissions : ∀ earlier s later a, log = earlier ++ s :: later → s.emitted = some a →
    Emission earlier s a
  configuration : ∀ s ∈ log, ∀ s' ∈ log, ∀ a a', s.emitted = some a → s'.emitted = some a' →
    a.generation = a'.generation → a.configuration = a'.configuration

theorem done_subset_succeeded {log : List Step} {s : Step} (hs : s ∈ log) :
    Past.done s.success ⊆ (succeeded s.before.generation log).done := by
  refine map_subset _ fun x hx => mem_flatMap.mpr ⟨s, hs, ?_⟩
  rw [if_pos rfl]
  exact hx

/-- In every run of the controller the successful actions of each generation keep to
their order, whatever fails, is reported or is repeated in between. -/
theorem lifecycle_action_order (calls : List Call) :
    Lifecycle (history .created calls) (run .created calls) := by
  have h := logged_run calls
  refine ⟨fun g => ?_, fun g hm => ?_, fun s hs hm => ?_, fun g hm => ?_, fun g hg => ?_, h.emissions,
    fun s hs s' hs' a a' ha ha' hgen => ?_⟩
  · obtain ⟨configuration, -, -, horder⟩ := h.orderly g
    exact horder.sublist
  · obtain ⟨configuration, -, -, horder⟩ := h.orderly g
    exact (horder.released hm).2.1
  · obtain ⟨configuration, hflags, hcarried, horder⟩ := h.orderly s.before.generation
    have hne : s.success ≠ [] := by
      intro he
      rw [he] at hm
      exact absurd hm not_mem_nil
    rw [(hcarried s hs).1 rfl hne, ← resetRequired_iff hflags]
    have hrelease := horder.released (done_subset_succeeded hs hm)
    exact ⟨fun hreset => (horder.resets hreset).2, hrelease.2.2.1⟩
  · obtain ⟨configuration, -, -, horder⟩ := h.orderly g
    exact (horder.reaped hm).2.1
  · obtain ⟨configuration, hset⟩ := h.settled g hg
    exact ⟨hset.ended.released, hset.ended.reaped⟩
  · obtain ⟨configuration, -, hcarried, -⟩ := h.orderly a.generation
    rw [(hcarried s hs).2 a ha rfl, (hcarried s' hs').2 a' ha' hgen.symm]

end Kobox.Control
