import Kobox.Library.Exchange
import Mathlib.Algebra.BigOperators.Group.Finset.Piecewise
import Mathlib.Data.Fintype.Basic

/-!
# Reference counts of the core runtime

The reference counts of `core_runtime.h` are compare-exchange loops on one 32-bit word. A count
that overflows, or that is used after it has reached zero, is set to `UINT32_MAX` and stays there,
and the call traps.
-/

namespace Kobox.Runtime
open Exchange List Option

/-- `UINT32_MAX`. -/
def saturated : UInt32 := 0xFFFFFFFF

inductive RefCall where
  | increment
  | incrementNotZero
  | decrementAndTest
  deriving DecidableEq

/-- One pass of the loop of each call; `increment` returns nothing, which is `true` here. -/
def RefCall.turn : RefCall → UInt32 → Turn UInt32 Bool
  | .increment, observed =>
    if observed = saturated then .fault
    else if observed = 0 ∨ observed = saturated - 1 then .exchange saturated none
    else .exchange (observed + 1) (some true)
  | .incrementNotZero, observed =>
    if observed = 0 then .give false
    else if observed = saturated then .fault
    else if observed = saturated - 1 then .exchange saturated none
    else .exchange (observed + 1) (some true)
  | .decrementAndTest, observed =>
    if observed = 0 then .exchange saturated none
    else if observed = saturated then .fault
    else .exchange (observed - 1) (some (observed = 1))

abbrev Refcount (ι : Type) := State ι UInt32 RefCall Bool

abbrev RefEntry (ι : Type) := Entry ι RefCall Bool

variable {ι : Type}

/-- `kb2_core_refcount_set`, before any thread uses the count. -/
def refcountSet (value : UInt32) : Option (Refcount ι) :=
  if value = saturated then none else some ⟨value, fun _ => .ready, []⟩

namespace Sample

/-- An object that thread 0 owns. -/
def single : Refcount (Fin 2) := ⟨1, fun _ => .ready, []⟩

/-- Thread 1 has loaded the count when thread 0 drops its reference. -/
def race : List (Fin 2 × RefCall) :=
  [(1, .incrementNotZero), (0, .decrementAndTest), (0, .decrementAndTest), (1, .incrementNotZero),
    (1, .incrementNotZero)]

end Sample

/-! ### The plain counter -/

/-- A call on a plain counter, if it can return `result` there. -/
def Tally (count : ℕ) : RefCall → Bool → Option ℕ
  | .increment, false => none
  | .increment, true => if count = 0 then none else some (count + 1)
  | .incrementNotZero, true => if count = 0 then none else some (count + 1)
  | .incrementNotZero, false => if count = 0 then some 0 else none
  | .decrementAndTest, last =>
    if count ≠ 0 ∧ last = decide (count = 1) then some (count - 1) else none

def replay (count : ℕ) (log : List (RefEntry ι)) : Option ℕ :=
  log.foldlM (fun count e => Tally count e.call e.result) count

def Refused (e : RefEntry ι) : Prop := e.call = .incrementNotZero ∧ e.result = false

/-- The references that the calls of a log have made. -/
def gains (log : List (RefEntry ι)) : ℕ :=
  log.countP fun e => e.call ≠ .decrementAndTest ∧ e.result = true

/-- The references that the calls of a log have given up. -/
def losses (log : List (RefEntry ι)) : ℕ := log.countP fun e => e.call = .decrementAndTest

theorem tally_balance {count count' : ℕ} {call : RefCall} {r : Bool}
    (h : Tally count call r = some count') :
    count' + (if call = .decrementAndTest then 1 else 0) =
      count + if call ≠ .decrementAndTest ∧ r = true then 1 else 0 := by
  cases call <;> cases r <;> simp [Tally] at h ⊢ <;> omega

theorem tally_zero {count : ℕ} {call : RefCall} {r : Bool} (h : Tally 0 call r = some count) :
    count = 0 ∧ call = .incrementNotZero ∧ r = false := by
  cases call <;> cases r <;> simp [Tally] at h ⊢
  exact h.symm

variable {log : List (RefEntry ι)}

theorem replay_balance {n count : ℕ} (h : replay n log = some count) :
    count + losses log = n + gains log := by
  induction log generalizing n with
  | nil =>
    have hn : n = count := some.inj h
    simp [losses, gains, hn]
  | cons e rest ih =>
    obtain ⟨n', hhead, hrest⟩ := bind_eq_some_iff.mp h
    have hbalance := tally_balance hhead
    have hle := ih hrest
    simp only [losses, gains, countP_cons, decide_eq_true_eq] at hle ⊢
    omega

theorem replay_zero {count : ℕ} (h : replay 0 log = some count) :
    count = 0 ∧ ∀ e ∈ log, Refused e := by
  induction log with
  | nil => simpa [replay, eq_comm] using h
  | cons e rest ih =>
    obtain ⟨n', hhead, hrest⟩ := bind_eq_some_iff.mp h
    obtain ⟨rfl, hcall, hresult⟩ := tally_zero hhead
    obtain ⟨hcount, hall⟩ := ih hrest
    exact ⟨hcount, forall_mem_cons.mpr ⟨⟨hcall, hresult⟩, hall⟩⟩

/-! ### What a pass decides -/

variable {call : RefCall} {v desired : UInt32} {r : Bool}

theorem turn_fault (h : call.turn v = .fault) : v = saturated := by
  cases call <;> simp only [RefCall.turn] at h <;> grind

theorem turn_give (h : call.turn v = .give r) :
    v = 0 ∧ call = .incrementNotZero ∧ r = false := by
  cases call <;> simp only [RefCall.turn] at h <;> grind

theorem turn_trap (h : call.turn v = .exchange desired none) :
    desired = saturated ∧ (v = 0 ∧ call ≠ .incrementNotZero ∨ v = saturated - 1) := by
  cases call <;> simp only [RefCall.turn] at h <;> grind

theorem toNat_add_one (h : v ≠ saturated) : (v + 1).toNat = v.toNat + 1 := by
  have hlt := v.toNat_lt
  have hne : v.toNat ≠ 4294967295 := fun he => h (UInt32.toNat_inj.mp he)
  rw [UInt32.toNat_add]
  exact Nat.mod_eq_of_lt (by simp; omega)

theorem toNat_sub_one (h : v ≠ 0) : (v - 1).toNat = v.toNat - 1 := by
  have hne : v.toNat ≠ 0 := fun he => h (UInt32.toNat_inj.mp he)
  exact UInt32.toNat_sub_of_le _ _ (UInt32.le_iff_toNat_le.mpr (by simp; omega))

theorem turn_swap (h : call.turn v = .exchange desired (some r)) :
    v ≠ 0 ∧ v ≠ saturated ∧ Tally v.toNat call r = some desired.toNat := by
  have hzero : v ≠ 0 → v.toNat ≠ 0 := fun hv he => hv (UInt32.toNat_inj.mp he)
  have hone : v = 1 ↔ v.toNat = 1 := UInt32.toNat_inj.symm
  cases call with
  | increment =>
    simp only [RefCall.turn] at h
    split_ifs at h with hmax hne <;> cases h
    have hv : v ≠ 0 := fun he => hne (.inl he)
    simp [Tally, hv, hmax, hzero hv, toNat_add_one hmax]
  | incrementNotZero =>
    simp only [RefCall.turn] at h
    split_ifs at h with hv hmax <;> cases h
    simp [Tally, hv, hmax, hzero hv, toNat_add_one hmax]
  | decrementAndTest =>
    simp only [RefCall.turn] at h
    split_ifs at h with hv hmax <;> cases h
    simp [Tally, hv, hmax, hzero hv, toNat_sub_one hv, hone]

theorem replay_append {n count count' : ℕ} {e : RefEntry ι} (h : replay n log = some count)
    (he : Tally count e.call e.result = some count') : replay n (log ++ [e]) = some count' := by
  simp only [replay] at h
  simp [replay, h, he]

/-! ### The word follows the plain counter -/

/-- The calls that returned are a history of a plain counter whose value the word has. -/
structure History (n : ℕ) (s : Refcount ι) (count : ℕ) : Prop where
  legal : replay n s.log = some count
  word : s.word = saturated ∨ s.word.toNat = count
  zero : ∀ i call, s.threads i = .holding call 0 → count = 0

variable {s s' : Refcount ι} {i : ι} {next : RefCall} {n count : ℕ}

theorem History.start {value : UInt32} (h : refcountSet value = some s) :
    History value.toNat s value.toNat := by
  unfold refcountSet at h
  split at h
  · cases h
  · cases h
    exact ⟨rfl, .inr rfl, by simp⟩

theorem History.count_of_zero (h : History n s count) (hword : s.word = 0) : count = 0 := by
  rcases h.word with hsat | hcount
  · rw [hword] at hsat
    exact absurd hsat (by decide)
  · rw [← hcount, hword]
    rfl

variable [DecidableEq ι]

theorem History.zero_step (h : History n s count) (hstep : Steps RefCall.turn s i next s') (j : ι)
    (call : RefCall) (hj : s'.threads j = .holding call 0) : count = 0 := by
  rcases hstep.observed hj with hbefore | hword
  · exact h.zero j call hbefore
  · exact h.count_of_zero hword.symm

theorem History.step (h : History n s count) (hstep : Steps RefCall.turn s i next s') :
    ∃ count', History n s' count' := by
  have hzero := h.zero_step hstep
  cases hstep with
  | stuck | load | retry | fault => exact ⟨count, h.legal, h.word, hzero⟩
  | give hi hturn =>
    obtain ⟨rfl, rfl, rfl⟩ := turn_give hturn
    have hcount := h.zero i _ hi
    subst hcount
    exact ⟨0, replay_append h.legal rfl, h.word, hzero⟩
  | trap hi hturn =>
    obtain ⟨rfl, -⟩ := turn_trap hturn
    exact ⟨count, h.legal, .inl rfl, hzero⟩
  | swap hi hturn =>
    rename_i call desired r
    obtain ⟨hne, hmax, htally⟩ := turn_swap hturn
    have hword : s.word.toNat = count := h.word.resolve_left hmax
    rw [hword] at htally
    refine ⟨desired.toNat, replay_append h.legal htally, .inr rfl, ?_⟩
    -- Nobody has observed zero: the count would be zero, and so would the word.
    intro j call' hj
    have hcount := hzero j call' hj
    rw [hcount] at hword
    exact absurd (UInt32.toNat_inj.mp hword) hne

theorem History.run (h : History n s count) (schedule : List (ι × RefCall)) :
    ∃ count, History n (s.run RefCall.turn schedule) count := by
  refine run_induction (P := fun s => ∃ count, History n s count) ⟨count, h⟩ ?_ schedule
  intro s i next s' h hstep
  obtain ⟨count, h⟩ := h
  exact h.step hstep

/-- Whatever the interleaving, the calls that return are a history of a plain counter, and the
word is the counter's value until it saturates. -/
theorem refcount_counts {value : UInt32} (hset : refcountSet value = some s)
    (schedule : List (ι × RefCall)) :
    ∃ count, replay value.toNat (s.run RefCall.turn schedule).log = some count ∧
      ((s.run RefCall.turn schedule).word = saturated ∨
        (s.run RefCall.turn schedule).word.toNat = count) := by
  obtain ⟨count, h⟩ := (History.start hset).run schedule
  exact ⟨count, h.legal, h.word⟩

theorem race_counts :
    refcountSet 1 = some Sample.single ∧
      ∃ count, replay 1 (Sample.single.run RefCall.turn Sample.race).log = some count ∧
        ((Sample.single.run RefCall.turn Sample.race).word = saturated ∨
          (Sample.single.run RefCall.turn Sample.race).word.toNat = count) := by
  have hset : refcountSet 1 = some Sample.single := rfl
  exact ⟨hset, refcount_counts hset Sample.race⟩

/-- The last release is the one that finds a single reference left, and after it nobody gets or
gives up a reference. -/
theorem last_release_final {value : UInt32} (hset : refcountSet value = some s)
    (schedule : List (ι × RefCall)) {before after : List (RefEntry ι)}
    (hlog : (s.run RefCall.turn schedule).log = before ++ ⟨i, .decrementAndTest, true⟩ :: after) :
    losses before + 1 = value.toNat + gains before ∧ ∀ e ∈ after, Refused e := by
  obtain ⟨count, h⟩ := (History.start hset).run schedule
  have hlegal := h.legal
  rw [hlog, replay, foldlM_append] at hlegal
  obtain ⟨n, hbefore, hrest⟩ := bind_eq_some_iff.mp hlegal
  rw [foldlM_cons] at hrest
  obtain ⟨n', hlast, hafter⟩ := bind_eq_some_iff.mp hrest
  have hone : n = 1 ∧ n' = 0 := by
    simp [Tally] at hlast
    omega
  have hbalance := replay_balance hbefore
  rw [hone.2] at hafter
  have hall := (replay_zero hafter).2
  exact ⟨by omega, hall⟩

theorem race_refuses :
    (Sample.single.run RefCall.turn Sample.race).log =
      [⟨0, .decrementAndTest, true⟩, ⟨1, .incrementNotZero, false⟩] ∧
      ∀ e ∈ [(⟨1, .incrementNotZero, false⟩ : RefEntry (Fin 2))], Refused e := by
  have hset : refcountSet 1 = some Sample.single := rfl
  have hlog : (Sample.single.run RefCall.turn Sample.race).log =
      [⟨0, .decrementAndTest, true⟩, ⟨1, .incrementNotZero, false⟩] := rfl
  exact ⟨hlog, (last_release_final hset Sample.race (hlog.trans (nil_append _).symm)).2⟩

theorem saturated_step (hword : s.word = saturated) (hstep : Steps RefCall.turn s i next s') :
    s'.word = saturated ∧ ∃ more, s'.log = s.log ++ more ∧ ∀ e ∈ more, Refused e := by
  cases hstep with
  | stuck | load | retry | fault => exact ⟨hword, [], by simp [State.put], by simp⟩
  | give hi hturn =>
    obtain ⟨-, hcall, hresult⟩ := turn_give hturn
    exact ⟨hword, [_], rfl, forall_mem_singleton.mpr ⟨hcall, hresult⟩⟩
  | trap hi hturn =>
    exact ⟨(turn_trap hturn).1, [], by simp [State.put], by simp⟩
  | swap hi hturn => exact absurd hword (turn_swap hturn).2.1

/-- A saturated count stays so: it is not freed, and nobody gets or gives up a reference. -/
theorem saturated_for_good (hword : s.word = saturated) (schedule : List (ι × RefCall)) :
    (s.run RefCall.turn schedule).word = saturated ∧
      ∃ more, (s.run RefCall.turn schedule).log = s.log ++ more ∧ ∀ e ∈ more, Refused e := by
  refine run_induction (P := fun s' => s'.word = saturated ∧
    ∃ more, s'.log = s.log ++ more ∧ ∀ e ∈ more, Refused e) ⟨hword, [], by simp, by simp⟩ ?_ schedule
  intro s₁ i next s₂ h hstep
  obtain ⟨hword₁, more₁, hlog₁, hmore₁⟩ := h
  obtain ⟨hword₂, more₂, hlog₂, hmore₂⟩ := saturated_step hword₁ hstep
  refine ⟨hword₂, more₁ ++ more₂, by rw [hlog₂, hlog₁, append_assoc], ?_⟩
  intro e he
  rcases mem_append.mp he with he | he
  · exact hmore₁ e he
  · exact hmore₂ e he

theorem race_saturated :
    (({ Sample.single with word := saturated }).run RefCall.turn Sample.race).word = saturated :=
  (saturated_for_good rfl Sample.race).1

/-- The calls that returned, and one more for a word that has saturated. -/
def ended (s : Refcount ι) : ℕ := s.log.length + if s.word = saturated then 1 else 0

theorem ended_step (hstep : Steps RefCall.turn s i next s') :
    (if s'.word = s.word then 0 else 1) + ended s ≤ ended s' := by
  cases hstep with
  | stuck | load | retry | fault | give =>
    by_cases hs : s.word = saturated <;> simp [ended, State.put, State.finish, hs]
  | trap hi hturn =>
    obtain ⟨rfl, hword⟩ := turn_trap hturn
    have hne : s.word ≠ saturated := by
      rcases hword with ⟨hword, -⟩ | hword <;> rw [hword] <;> decide
    simp [ended, State.put, hne, Ne.symm hne, Nat.add_comm]
  | swap hi hturn =>
    have hne := (turn_swap hturn).2.1
    simp only [ended, State.put, State.finish, hne, if_false, length_append,
      length_singleton]
    split <;> omega

theorem changes_le_ended (s : Refcount ι) (schedule : List (ι × RefCall)) :
    changes RefCall.turn s schedule + ended s ≤ ended (s.run RefCall.turn schedule) := by
  induction schedule generalizing s with
  | nil => simp [changes, State.run]
  | cons move rest ih =>
    have hstep := ended_step (step_cases RefCall.turn s move)
    have hrest := ih (s.step RefCall.turn move)
    rw [changes]
    simp only [State.run, foldl_cons] at hrest ⊢
    omega

/-- The calls are lock-free: one that is still running has made at most two passes more than
other calls have returned meanwhile. -/
theorem refcount_lock_free {schedule : List (ι × RefCall)} (h : Inside RefCall.turn i s schedule) :
    schedule.countP (·.1 = i) + s.log.length ≤ (s.run RefCall.turn schedule).log.length + 2 := by
  have hpasses := passes_le_changes h
  have hbehind := behind_le s i
  have hended := changes_le_ended s schedule
  have hlast : ended (s.run RefCall.turn schedule) ≤
      (s.run RefCall.turn schedule).log.length + 1 := by
    unfold ended
    split <;> omega
  unfold ended at hended hlast
  split at hended <;> omega

/-- Thread 1 is still running after a pass that it has lost to thread 0. -/
theorem race_lock_free :
    let loaded : Refcount (Fin 2) := Sample.single.run RefCall.turn [(1, .incrementNotZero)]
    let rest := Sample.race.tail.take 3
    Inside RefCall.turn 1 loaded rest ∧
      rest.countP (·.1 = 1) + loaded.log.length ≤ (loaded.run RefCall.turn rest).log.length + 2 := by
  have hinside : Inside RefCall.turn 1 (Sample.single.run RefCall.turn [(1, .incrementNotZero)])
      (Sample.race.tail.take 3) :=
    ⟨⟨_, _, rfl⟩, ⟨_, _, rfl⟩, ⟨_, _, rfl⟩, ⟨.incrementNotZero, 1 - 1, rfl⟩⟩
  exact ⟨hinside, refcount_lock_free hinside⟩

/-! ### Threads that own what they give up -/

/-- What a call that returned leaves its thread of `own` references. -/
def credit (e : RefEntry ι) (own : ℕ) : ℕ :=
  if e.call = .decrementAndTest then own - 1 else if e.result then own + 1 else own

/-- The references of each thread after the calls of a log. -/
def owned (start : ι → ℕ) (log : List (RefEntry ι)) : ι → ℕ :=
  log.foldl (fun own e => Function.update own e.thread (credit e (own e.thread))) start

/-- A thread increments or decrements only while it owns a reference, and the count stays below
its ceiling. -/
def Disciplined (start : ι → ℕ) : Refcount ι → List (ι × RefCall) → Prop
  | _, [] => True
  | s, move :: rest =>
    (s.threads move.1 = .ready → move.2 ≠ .incrementNotZero → 0 < owned start s.log move.1) ∧
      s.word ≠ saturated - 1 ∧ Disciplined start (s.step RefCall.turn move) rest

/-- The word is the number of references the threads own; no thread has trapped or loaded a
saturated word. -/
structure Sound [Fintype ι] (start : ι → ℕ) (s : Refcount ι) : Prop where
  word : s.word.toNat = ∑ i, owned start s.log i
  unsaturated : s.word ≠ saturated
  running : ∀ i, s.threads i ≠ .trapped
  fresh : ∀ i call v, s.threads i = .holding call v → v ≠ saturated
  owner : ∀ i call v, s.threads i = .holding call v → call ≠ .incrementNotZero →
    0 < owned start s.log i

variable [Fintype ι] {start : ι → ℕ}

theorem sum_update (f : ι → ℕ) (i : ι) (x : ℕ) :
    ∑ j, Function.update f i x j + f i = ∑ j, f j + x := by
  rw [Finset.sum_update_of_mem (Finset.mem_univ i), ← Finset.add_sum_erase _ f (Finset.mem_univ i),
    Finset.sdiff_singleton_eq_erase]
  omega

omit [Fintype ι] in
theorem owned_append (log : List (RefEntry ι)) (e : RefEntry ι) :
    owned start (log ++ [e]) =
      Function.update (owned start log) e.thread (credit e (owned start log e.thread)) := by
  simp [owned]

theorem Sound.swap (h : Sound start s) (hceiling : s.word ≠ saturated - 1)
    (hi : s.threads i = .holding call s.word)
    (hturn : call.turn s.word = .exchange desired (some r)) :
    desired ≠ saturated ∧ desired.toNat = ∑ j, owned start (s.log ++ [⟨i, call, r⟩]) j := by
  obtain ⟨hzero, hmax, htally⟩ := turn_swap hturn
  have hbalance := tally_balance htally
  have hcredit : credit ⟨i, call, r⟩ (owned start s.log i) +
      (if call = .decrementAndTest then 1 else 0) = owned start s.log i +
        if call ≠ .decrementAndTest ∧ r = true then 1 else 0 := by
    have hown := h.owner i call _ hi
    cases call <;> cases r <;> simp [credit] at hown ⊢ <;> omega
  have hsum := sum_update (owned start s.log) i (credit ⟨i, call, r⟩ (owned start s.log i))
  have hword := h.word
  have hmax' : s.word.toNat ≠ 4294967295 := fun he => hmax (UInt32.toNat_inj.mp he)
  have hceiling' : s.word.toNat ≠ 4294967294 := fun he => hceiling (UInt32.toNat_inj.mp he)
  have hlt := s.word.toNat_lt
  simp only [owned_append]
  refine ⟨?_, by omega⟩
  intro he
  have hdesired : desired.toNat = 4294967295 := by rw [he]; rfl
  split at hbalance <;> split at hbalance <;> omega

/-- The owner of a reference keeps the count off zero. -/
theorem Sound.word_ne_zero (h : Sound start s) (hown : 0 < owned start s.log i) : s.word ≠ 0 := by
  intro hzero
  have hsum := sum_update (owned start s.log) i 0
  have hword := h.word
  rw [hzero, UInt32.toNat_zero] at hword
  omega

theorem Sound.step (h : Sound start s)
    (hready : s.threads i = .ready → next ≠ .incrementNotZero → 0 < owned start s.log i)
    (hceiling : s.word ≠ saturated - 1) (hstep : Steps RefCall.turn s i next s') :
    Sound start s' := by
  have hfresh : ∀ j call v, s'.threads j = .holding call v → v ≠ saturated := by
    intro j call v hj
    rcases hstep.observed hj with hbefore | hword
    · exact h.fresh j call v hbefore
    · rw [hword]
      exact h.unsaturated
  have hrunning : s'.threads i ≠ .trapped → ∀ j, s'.threads j ≠ .trapped := by
    intro hi j
    by_cases hne : j = i
    · rw [hne]
      exact hi
    · rw [hstep.others hne]
      exact h.running j
  have howner : (∀ call v, s'.threads i = .holding call v → call ≠ .incrementNotZero →
      0 < owned start s'.log i) → (∀ j, j ≠ i → owned start s'.log j = owned start s.log j) →
      ∀ j call v, s'.threads j = .holding call v → call ≠ .incrementNotZero →
        0 < owned start s'.log j := by
    intro hi hsame j call v hj hcall
    by_cases hne : j = i
    · subst hne
      exact hi call v hj hcall
    · rw [hstep.others hne] at hj
      rw [hsame j hne]
      exact h.owner j call v hj hcall
  cases hstep with
  | stuck hi => exact h
  | load hi =>
    refine ⟨h.word, h.unsaturated, hrunning (by simp [State.put]), hfresh, howner ?_ fun _ _ => rfl⟩
    intro call v hj
    simp [State.put] at hj
    rw [← hj.1]
    exact hready hi
  | retry hi =>
    refine ⟨h.word, h.unsaturated, hrunning (by simp [State.put]), hfresh, howner ?_ fun _ _ => rfl⟩
    intro call v hj
    simp [State.put] at hj
    rw [← hj.1]
    exact h.owner i _ _ hi
  | fault hi hturn => exact absurd (turn_fault hturn) (h.fresh i _ _ hi)
  | give hi hturn =>
    obtain ⟨-, rfl, rfl⟩ := turn_give hturn
    have hsame : owned start (s.log ++ [⟨i, .incrementNotZero, false⟩]) = owned start s.log := by
      simp [owned_append, credit]
    refine ⟨?_, h.unsaturated, hrunning (by simp [State.put, State.finish]), hfresh, howner ?_ ?_⟩
    · simp only [State.finish, hsame]
      exact h.word
    · simp [State.put, State.finish]
    · simp [State.finish, hsame]
  | trap hi hturn =>
    -- Only a count at its ceiling, or one used at zero, saturates.
    rcases (turn_trap hturn).2 with ⟨hzero, hcall⟩ | hmax
    · exact absurd hzero (h.word_ne_zero (h.owner i _ _ hi hcall))
    · exact absurd hmax hceiling
  | swap hi hturn =>
    obtain ⟨hsat, hsum⟩ := h.swap hceiling hi hturn
    refine ⟨hsum, hsat, hrunning (by simp [State.put, State.finish]), hfresh, howner ?_ ?_⟩
    · simp [State.put, State.finish]
    · intro j hne
      simp [State.finish, owned_append, hne]

/-- Threads that own the references they use never trap, and the count is the number of
references that they own. -/
theorem disciplined_never_trap {value : UInt32} (hset : refcountSet value = some s)
    (hstart : value.toNat = ∑ i, start i) {schedule : List (ι × RefCall)}
    (h : Disciplined start s schedule) :
    (∀ i, (s.run RefCall.turn schedule).threads i ≠ .trapped) ∧
      (s.run RefCall.turn schedule).word.toNat =
        ∑ i, owned start (s.run RefCall.turn schedule).log i := by
  have hsound : Sound start s := by
    unfold refcountSet at hset
    split at hset
    · cases hset
    · rename_i hne
      cases hset
      exact ⟨hstart, hne, by simp, by simp, by simp⟩
  clear hset hstart
  induction schedule generalizing s with
  | nil => exact ⟨hsound.running, hsound.word⟩
  | cons move rest ih =>
    obtain ⟨hready, hceiling, hrest⟩ := h
    exact ih hrest (hsound.step hready hceiling (step_cases RefCall.turn s move))

theorem race_never_traps :
    (∀ i, (Sample.single.run RefCall.turn Sample.race).threads i ≠ .trapped) ∧
      (Sample.single.run RefCall.turn Sample.race).word = 0 := by
  have hset : refcountSet 1 = some Sample.single := rfl
  have hdisciplined : Disciplined (fun i => if i = 0 then 1 else 0) Sample.single Sample.race :=
    ⟨fun _ h => absurd rfl h, by decide, fun _ _ => by decide, by decide, fun _ _ => by decide,
      by decide, fun _ h => absurd rfl h, by decide, fun _ h => absurd rfl h, by decide, trivial⟩
  exact ⟨(disciplined_never_trap hset rfl hdisciplined).1, rfl⟩

end Kobox.Runtime
