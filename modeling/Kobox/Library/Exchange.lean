import Mathlib.Logic.Function.Basic
import Mathlib.Tactic.Common

/-!
# Compare-exchange loops on one word

A call loads the word and then makes passes: from the value it has observed it decides to fault,
to return, or to exchange the word, which succeeds if the word still has that value. Threads make
calls in any interleaving. A call accesses no other memory than the word, so coherence of the word
is all that the order of a schedule stands for.
-/

namespace Exchange

inductive Turn (W R : Type) where
  | fault
  | give (result : R)
  /-- Returns `after` once the exchange has succeeded, and faults if there is none. -/
  | exchange (desired : W) (after : Option R)

inductive Thread (W C : Type) where
  | ready
  | holding (call : C) (observed : W)
  | trapped

structure Entry (ι C R : Type) where
  thread : ι
  call : C
  result : R

/-- The log has the calls that returned, in the order in which they did. -/
structure State (ι W C R : Type) where
  word : W
  threads : ι → Thread W C
  log : List (Entry ι C R)

variable {ι W C R : Type} [DecidableEq ι] [DecidableEq W] {turn : C → W → Turn W R}
  {s s' : State ι W C R} {i j : ι} {next : C}

def State.put (s : State ι W C R) (i : ι) (t : Thread W C) : State ι W C R :=
  { s with threads := Function.update s.threads i t }

def State.finish (s : State ι W C R) (i : ι) (call : C) (r : R) : State ι W C R :=
  { s.put i .ready with log := s.log ++ [⟨i, call, r⟩] }

def State.step (turn : C → W → Turn W R) (s : State ι W C R) (move : ι × C) : State ι W C R :=
  match s.threads move.1 with
  | .trapped => s
  | .ready => s.put move.1 (.holding move.2 s.word)
  | .holding call observed =>
    match turn call observed with
    | .fault => s.put move.1 .trapped
    | .give r => s.finish move.1 call r
    | .exchange desired after =>
      if s.word = observed then
        match after with
        | none => { s.put move.1 .trapped with word := desired }
        | some r => { s.finish move.1 call r with word := desired }
      else s.put move.1 (.holding call s.word)

def State.run (turn : C → W → Turn W R) (s : State ι W C R) (schedule : List (ι × C)) :
    State ι W C R :=
  schedule.foldl (State.step turn) s

/-- All that one move of thread `i` can do. -/
inductive Steps (turn : C → W → Turn W R) (s : State ι W C R) (i : ι) (next : C) :
    State ι W C R → Prop
  | stuck : s.threads i = .trapped → Steps turn s i next s
  | load : s.threads i = .ready → Steps turn s i next (s.put i (.holding next s.word))
  | fault {call observed} : s.threads i = .holding call observed → turn call observed = .fault →
      Steps turn s i next (s.put i .trapped)
  | give {call observed r} : s.threads i = .holding call observed →
      turn call observed = .give r → Steps turn s i next (s.finish i call r)
  | trap {call desired} : s.threads i = .holding call s.word →
      turn call s.word = .exchange desired none →
      Steps turn s i next { s.put i .trapped with word := desired }
  | swap {call desired r} : s.threads i = .holding call s.word →
      turn call s.word = .exchange desired (some r) →
      Steps turn s i next { s.finish i call r with word := desired }
  | retry {call observed} : s.threads i = .holding call observed → s.word ≠ observed →
      Steps turn s i next (s.put i (.holding call s.word))

theorem step_cases (turn : C → W → Turn W R) (s : State ι W C R) (move : ι × C) :
    Steps turn s move.1 move.2 (s.step turn move) := by
  unfold State.step
  cases hi : s.threads move.1 with
  | trapped => exact .stuck hi
  | ready => exact .load hi
  | holding call observed =>
    cases hturn : turn call observed with
    | fault => simpa [hturn] using Steps.fault hi hturn
    | give r => simpa [hturn] using Steps.give hi hturn
    | exchange desired after =>
      by_cases hword : s.word = observed
      · subst hword
        cases after with
        | none => simpa [hturn] using Steps.trap hi hturn
        | some r => simpa [hturn] using Steps.swap hi hturn
      · simpa [hturn, hword] using Steps.retry hi hword

/-- What every move keeps, a run keeps. -/
theorem run_induction {P : State ι W C R → Prop} (hstart : P s)
    (hstep : ∀ s i next s', P s → Steps turn s i next s' → P s') (schedule : List (ι × C)) :
    P (s.run turn schedule) := by
  induction schedule generalizing s with
  | nil => exact hstart
  | cons move rest ih => exact ih (hstep s move.1 move.2 _ hstart (step_cases turn s move))

omit [DecidableEq W] in
theorem Steps.others (h : Steps turn s i next s') (hne : j ≠ i) : s'.threads j = s.threads j := by
  cases h <;> simp [State.put, State.finish, hne]

omit [DecidableEq W] in
/-- A thread has observed what it had observed before, or what the word was. -/
theorem Steps.observed (h : Steps turn s i next s') {call : C} {v : W}
    (hj : s'.threads j = .holding call v) : s.threads j = .holding call v ∨ v = s.word := by
  by_cases hne : j = i
  · subst hne
    cases h with
    | stuck => exact .inl hj
    | load | retry =>
      simp [State.put] at hj
      exact .inr hj.2.symm
    | fault | give | trap | swap => simp [State.put, State.finish] at hj
  · rw [h.others hne] at hj
    exact .inl hj

/-! ### Progress -/

/-- The moves of a schedule that change the word. -/
def changes (turn : C → W → Turn W R) : State ι W C R → List (ι × C) → ℕ
  | _, [] => 0
  | s, move :: rest =>
    (if (s.step turn move).word = s.word then 0 else 1) + changes turn (s.step turn move) rest

/-- A thread that has observed another value than the word has one pass to lose. -/
def behind (s : State ι W C R) (i : ι) : ℕ :=
  match s.threads i with
  | .holding _ observed => if observed = s.word then 0 else 1
  | _ => 0

/-- Inside one call from the first state of a run to the last. -/
def Inside (turn : C → W → Turn W R) (i : ι) : State ι W C R → List (ι × C) → Prop
  | s, [] => ∃ call observed, s.threads i = .holding call observed
  | s, move :: rest =>
    (∃ call observed, s.threads i = .holding call observed) ∧ Inside turn i (s.step turn move) rest

theorem Inside.holding {schedule : List (ι × C)} (h : Inside turn i s schedule) :
    ∃ call observed, s.threads i = .holding call observed := by
  cases schedule with
  | nil => exact h
  | cons move rest => exact h.1

theorem Steps.own_pass (h : Steps turn s i next s')
    (hbefore : ∃ call observed, s.threads i = .holding call observed)
    (hafter : ∃ call observed, s'.threads i = .holding call observed) :
    s'.word = s.word ∧ behind s' i + 1 = behind s i := by
  obtain ⟨call₀, observed₀, hbefore⟩ := hbefore
  obtain ⟨call₁, observed₁, hafter⟩ := hafter
  cases h with
  | stuck hi => simp [hi] at hbefore
  | load hi => simp [hi] at hbefore
  | retry hi hne => simp [behind, State.put, hi, Ne.symm hne]
  | fault | give | trap | swap => simp [State.put, State.finish] at hafter

theorem Steps.other_pass (h : Steps turn s j next s') (hne : i ≠ j) :
    behind s' i ≤ (if s'.word = s.word then 0 else 1) + behind s i := by
  have hsame := h.others hne
  unfold behind
  rw [hsame]
  cases hi : s.threads i with
  | ready | trapped => simp
  | holding call observed =>
    by_cases hword : s'.word = s.word
    · simp [hword]
    · simp only [hword, if_false]
      split <;> omega

/-- A call that goes on loses a pass only to a change of the word. -/
theorem passes_le_changes {schedule : List (ι × C)} (h : Inside turn i s schedule) :
    schedule.countP (·.1 = i) ≤ changes turn s schedule + behind s i := by
  induction schedule generalizing s with
  | nil => simp
  | cons move rest ih =>
    obtain ⟨hbefore, hrest⟩ := h
    have hstep := step_cases turn s move
    have hle := ih hrest
    rw [List.countP_cons, changes]
    by_cases hi : move.1 = i
    · subst hi
      obtain ⟨hword, hbehind⟩ := hstep.own_pass hbefore hrest.holding
      simp only [hword, decide_true, if_true]
      omega
    · have hbehind := hstep.other_pass (Ne.symm hi)
      simp only [hi, decide_false, Bool.false_eq_true, if_false]
      omega

omit [DecidableEq ι] in
theorem behind_le (s : State ι W C R) (i : ι) : behind s i ≤ 1 := by
  unfold behind
  split
  · split <;> omega
  · omega

end Exchange
