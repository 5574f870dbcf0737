import Kobox.Virtqueue.DeviceCalls
import Kobox.Virtqueue.World

/-!
# Two honest endpoints never fault each other
-/

namespace Kobox.Virtqueue
open ByteMemory Protocol Resumption List Function Option
variable {action : Action} {m : Memory}

/-- A `copy_response` with valid arguments, inside the used length of a returned chain. -/
structure Answerable (b : Binding) (s : State) (r : Request) (id : ChainId) (offset size : ℕ)
    (out : Bool) : Prop where
  side : b.side = .driver
  call : r.call = .copyResponse (some id) offset size out
  accepted : check b s r.vq r.generation = .ok
  owned : owned b s id .returned = true
  out : size ≠ 0 → out = true
  inside : offset + size ≤ (s.chains id).usedLength.toNat

def Answers (b : Binding) (s : State) (r : Request) (o : Outcome) : Prop :=
  ∀ id offset size out, Answerable b s r id offset size out →
    (∃ bytes, o.1 = ⟨.ok, .bytes bytes⟩) ∨ o.2.faulted = true

theorem always_of_forall {E : Type} {R : E → Type} {α : Type} {Q : α → Prop} (h : ∀ a, Q a)
    (p : Program E R α) : Always (fun _ => True) Q p := by
  induction p with
  | done a => exact h a
  | ask e k ih => exact ⟨trivial, ih⟩

theorem copyResponse_answers {b : Binding} {s : State} {r : Request} {id : ChainId}
    {offset size : ℕ} {out : Bool} (h : Answerable b s r id offset size out) :
    Always (fun _ => True) (fun o => (∃ bytes, o.1 = ⟨.ok, .bytes bytes⟩) ∨ o.2.faulted = true)
      (copyResponse b s r.vq r.generation (some id) offset size out) := by
  have hargs : ¬ (b.side ≠ .driver ∨ owned b s id .returned = false ∨ (out = false ∧ size ≠ 0) ∨
      (s.chains id).usedLength.toNat < offset ∨
      (s.chains id).usedLength.toNat - offset < size) := by
    have hin := h.inside
    rw [h.owned, h.side]
    rintro (hside | howned | ⟨hout, hsize⟩ | hlt | hlt)
    · exact hside rfl
    · cases howned
    · rw [h.out hsize] at hout
      cases hout
    · omega
    · omega
  simp only [copyResponse, checked, h.accepted, if_true]
  rw [if_neg hargs]
  refine (copyData_always (by simp)).mono (fun _ _ => trivial) fun o ho => ?_
  rcases ho with ⟨bytes, rfl⟩ | ⟨io, rfl⟩
  · exact Or.inl ⟨bytes, rfl⟩
  · exact Or.inr rfl

theorem perform_answers (b : Binding) (s : State) (r : Request) :
    Always (fun _ => True) (Answers b s r) (perform b s r) := by
  by_cases h : ∃ id offset size out, Answerable b s r id offset size out
  · obtain ⟨id, offset, size, out, h⟩ := h
    have hperform : perform b s r =
        copyResponse b s r.vq r.generation (some id) offset size out := by
      rw [perform, h.call]
    rw [hperform]
    exact (copyResponse_answers h).mono (fun _ _ => trivial) fun o ho _ _ _ _ _ => ho
  · exact always_of_forall
      (fun o id offset size out ha => absurd ⟨id, offset, size, out, ha⟩ h) _

/-- A finished call that went as it should. -/
structure Clean (b : Binding) (e : Done) : Prop where
  status : e.reply.status ≠ .faulted ∧ e.reply.status ≠ .io
  running : e.after.faulted = false
  answers : Answers b e.before e.request (e.reply, e.after)

/-- The part of the call that is left: what it can reply, whatever memory does. -/
structure Remains (b : Binding) (s : State) (r : Request) (p : Op Outcome) : Prop where
  sound : Sound b s
  running : s.faulted = false
  transition : Always (fun _ => True) (fun o => Transition b s r.generation r.call o.1 o.2) p
  answers : Always (fun _ => True) (Answers b s r) p

/-- An agent whose calls have all been clean, between two calls or inside one. -/
inductive Party.Ok {G V O : Type} (P : Party G V O) (g : G) : Agent → Prop where
  | idle (log : List Done) (s : State) (clean : ∀ e ∈ log, Clean P.binding e) (h : P.Idle g s)
      (hview : P.view g = P.of log) : P.Ok g ⟨log, .idle s⟩
  | busy (log : List Done) (s : State) (r : Request) (p : Op Outcome)
      (clean : ∀ e ∈ log, Clean P.binding e) (h : Remains P.binding s r p)
      (htracks : P.Tracks (P.of log) s) (hsafe : P.Safe (P.of log) r (P.Ends (P.of log) s r) p g) :
      P.Ok g ⟨log, .busy s r p⟩

abbrev DriverOk (L : Lane) := (driver L).Ok

abbrev DeviceOk (L : Lane) := (device L).Ok

/-- A side that starts each of its calls, and whose view follows the private state. -/
structure Party.Honest {G V O : Type} (P : Party G V O) : Prop where
  bound : P.binding.Bound
  perform : ∀ {g s} (r : Request), P.Idle g s → P.Starts g s r (perform P.binding s r)
  next : ∀ {v s s'} {r : Request} {reply : Reply}, P.Tracks v s → Sound P.binding s →
    Transition P.binding s r.generation r.call reply s' → s'.faulted = false →
    P.Tracks (learn P.hear v ⟨r, reply, s, s'⟩) s'

theorem driver_honest {L : Lane} (hb : (L.binding .driver).Bound) : (driver L).Honest where
  bound := hb
  perform r hi := DriverIdle.perform hb hi r
  next ht hs h hf := ht.next hb rfl hs.owns hs.counters h hf

theorem device_honest {L : Lane} (hb : (L.binding .driver).Bound) : (device L).Honest where
  bound := hb.peer .device
  perform r hi := DeviceIdle.perform hb hi r
  next ht hs h hf := ht.next (hb.peer .device) rfl hs.owns hs.counters h hf

/-! ### One action keeps it -/

section Action
variable {b : Binding} {s : State} {r : Request}

theorem Owns.keeps (ho : Owns b s) {id : ChainId} {c : Chain}
    (h : ∀ slot < b.queue.queueSize.toNat, s.vq.slots slot ≠ some id) (slot : ℕ) (id' : ChainId)
    (hs : s.vq.slots slot = some id') : update s.chains id c id' = s.chains id' := by
  refine update_of_ne (fun he => ?_) ..
  exact h slot (ho.held_of_slot hs).lt (he ▸ hs)

theorem Remains.start (hb : b.Bound) (hs : Sound b s) (hrun : s.faulted = false) :
    Remains b s r (perform b s r) :=
  ⟨hs, hrun, (perform_behaves hb r).mono (fun _ _ => trivial) fun _ h => h, perform_answers b s r⟩

theorem Remains.answered {e : Access} {k : e.call.Answer → Op Outcome}
    (h : Remains b s r (.ask e k)) (answer : e.call.Answer) : Remains b s r (k answer) :=
  ⟨h.sound, h.running, h.transition.2 answer, h.answers.2 answer⟩

theorem Remains.clean {o : Outcome} (h : Remains b s r (.done o)) (hf : o.2.faulted = false) :
    Clean b ⟨r, o.1, s, o.2⟩ := by
  have ht : Transition b s r.generation r.call o.1 o.2 := h.transition
  refine ⟨⟨fun hs => ?_, fun hs => ?_⟩, hf, h.answers⟩
  · exact Bool.false_ne_true (hf.symm.trans (ht.fault_flagged (Or.inl hs)))
  · exact Bool.false_ne_true (hf.symm.trans (ht.fault_flagged (Or.inr hs)))

theorem clean_append {log : List Done} {e : Done} (h : ∀ e ∈ log, Clean b e) (he : Clean b e) :
    ∀ e' ∈ log ++ [e], Clean b e' := by
  intro e' he'
  rcases mem_append.mp he' with hmem | hmem
  · exact h e' hmem
  · rw [mem_singleton.mp hmem]
    exact he

theorem with_faulted_eq (h : s.faulted = false) : { s with faulted := false } = s := by
  rw [← h]

variable {L : Lane} {d : DriverGhost} {v : DeviceGhost} {m m' : Memory} {a a' : Agent} {flag : Bool}

/-- What an action of one agent leaves for the others. -/
structure Kept (L : Lane) (m m' : Memory) (flag : Bool) : Prop where
  running : flag = false
  outside : ∀ x, ¬ InLane L x → m' x = m x

theorem Kept.same (L : Lane) (m : Memory) : Kept L m m false := ⟨rfl, fun _ _ => rfl⟩

theorem Kept.exec {e : Access}
    (h : e.call.writes = true → ∀ x, Span.Mem x e.call.span → InLane L x) :
    Kept L m (e.exec m).2 false :=
  ⟨rfl, fun x hx => exec_outside e m fun hw hmem => hx (h hw x hmem)⟩

section Party
variable {G V O : Type} {P : Party G V O} {g : G} {peer : O}

/-- The step of an honest side: whatever it does next, some ghost goes along with it. -/
theorem Party.Ok.act (hok : P.Ok g a) (hp : P.Honest) (hs : P.Shared g peer m)
    (hact : a.act P.binding false m action = some (a', m', flag)) :
    ∃ g', P.Shared g' peer m' ∧ P.Ok g' a' ∧ Kept P.lane m m' flag := by
  cases hok with
  | idle log s clean hi hview =>
    cases action with
    | chain id c =>
      simp only [Agent.act, ite_none_right_eq_some, some.injEq, Prod.mk.injEq] at hact
      obtain ⟨hfree, rfl, rfl, rfl⟩ := hact
      have hkeep := hi.sound.owns.keeps (c := c) hfree
      exact ⟨g, hs, .idle log _ clean
        ⟨hi.sound.caller hkeep, P.caller hi.tracks hkeep, hi.quiet, hi.running⟩ hview, .same _ m⟩
    | call r =>
      simp only [Agent.act, with_faulted_eq hi.running, some.injEq, Prod.mk.injEq] at hact
      obtain ⟨rfl, rfl, rfl⟩ := hact
      obtain ⟨g', hs', hsafe⟩ := hp.perform r hi peer m hs
      rw [hview] at hsafe
      exact ⟨g', hs', .busy log s r _ clean (.start hp.bound hi.sound hi.running)
        (hview ▸ hi.tracks) hsafe, .same _ m⟩
    | access | finish => cases hact
  | busy log s r p clean hr htracks hsafe =>
    cases action with
    | chain | call => cases hact
    | access =>
      cases p with
      | done o => cases hact
      | ask e k =>
        simp only [Agent.act, some.injEq, Prod.mk.injEq] at hact
        obtain ⟨rfl, rfl, rfl⟩ := hact
        obtain ⟨g', hs', hsafe'⟩ := hsafe.2 peer m hs
        exact ⟨g', hs', .busy log s r _ clean (hr.answered _) htracks hsafe', .exec hsafe.1.inLane⟩
    | finish =>
      cases p with
      | ask e k => cases hact
      | done o =>
        have hdone : P.Ends (P.of log) s r o g := hsafe
        simp only [Agent.act, hdone.running, some.injEq, Prod.mk.injEq] at hact
        obtain ⟨rfl, rfl, rfl⟩ := hact
        obtain ⟨g', hs', hquiet, hview⟩ := hdone.settle peer m hs
        have ht : Transition _ s r.generation r.call o.1 o.2 := hr.transition
        have hnext := hp.next htracks hr.sound ht hdone.running
        refine ⟨g', hs', .idle _ _ (clean_append clean (hr.clean hdone.running)) ?_ ?_, .same _ m⟩
        · exact ⟨ht.sound hp.bound hr.sound, hview ▸ hnext, hquiet, hdone.running⟩
        · exact hview.trans (learned_append _ _).symm

theorem Party.Ok.clean (h : P.Ok g a) : ∀ e ∈ a.log, Clean P.binding e := by
  cases h with
  | idle _ _ clean => exact clean
  | busy _ _ _ _ clean => exact clean

theorem Party.Ok.tracks (h : P.Ok g a) {p : Op Outcome} (ha : a.thread = .busy s r p) :
    P.Tracks (P.of a.log) s := by
  cases h with
  | idle => cases ha
  | busy _ _ _ _ _ _ htracks =>
    cases ha
    exact htracks

/-- What holds between two calls and inside each call holds of the agent. -/
theorem Party.Ok.rec_keeps {C : Agent → Prop} (h : P.Ok g a)
    (hidle : ∀ log s, P.Idle g s → P.view g = P.of log → C ⟨log, .idle s⟩)
    (hbusy : ∀ log s r p, P.Keeps (P.of log) r (Thread.busy s r p).state g →
      C ⟨log, .busy s r p⟩) : C a := by
  cases h with
  | idle log s clean hi hview => exact hidle log s hi hview
  | busy log s r p clean hr htracks hsafe =>
    refine hbusy log s r p ?_
    cases p with
    | done o => exact hsafe.keeps
    | ask e k => exact hsafe.1.keeps

end Party

theorem DriverOk.shows (h : DriverOk L d a) {w : Wire} (hw : d.Shown w) : a.thread.state.Shows w :=
  h.rec_keeps (C := fun a => a.thread.state.Shows w) (fun _ _ hi _ => hi.tracks.shows hi.quiet hw)
    fun _ _ _ _ hk => hk.shows w hw

end Action

/-! ### The world -/

/-- Some pair of ghosts explains a lane. -/
def LaneOk (L : Lane) (m : Memory) (agents : Side → Agent) : Prop :=
  ∃ d v, Shared L d v m ∧ DriverOk L d (agents .driver) ∧ DeviceOk L v (agents .device)

/-- No side has faulted, and every lane is explained. -/
structure World.Ok (K : Link) (W : World) : Prop where
  bound : ∀ q ∈ K.channel.queues, ((K.lane q).binding .driver).Bound
  running : ∀ side, W.faulted side = false
  lane : ∀ q ∈ K.channel.queues, LaneOk (K.lane q) W.memory (W.agents q)

theorem shared_start {L : Lane} (hzero : ∀ i < 3, ∀ x, Span.Mem x (L.queue.ring i) → m x = 0) :
    Shared L ⟨.start, .quiet, false⟩ ⟨.start, .quiet, false⟩ m := by
  have hnone : ∀ {α : Type} {n : ℕ} {x : α}, ([] : List α)[n]? = some x → False := by
    intro α n x h
    rw [getElem?_nil] at h
    cases h
  have hlive : ∀ n w, ¬ DriverView.start.Live n w := fun n w h => hnone h.1
  have hholds : ∀ {address i}, i < 3 → Span.Within ⟨address, 2⟩ (L.queue.ring i) →
      Holds m address (writeU16 (UInt16.ofNat 0)) := by
    intro address i hi hin
    refine read_eq fun k byte hk => ?_
    have hlt := lt_length_of_getElem? hk
    rw [writeU16_length] at hlt
    rw [hzero i hi _ (hin.mem ⟨Nat.le_add_right _ _, Nat.add_lt_add_left hlt _⟩)]
    have hbytes : writeU16 (UInt16.ofNat 0) = List.replicate 2 0 := by decide
    rw [hbytes] at hk
    exact (eq_of_mem_replicate (mem_of_getElem? hk)).symm
  refine ⟨?_, ⟨hholds (by omega) (availableIndex_within L), ?_, nofun, nofun⟩,
    ⟨hholds (by omega) (usedIndex_within L), ?_, nofun⟩, ⟨?_, nofun⟩, ?_⟩
  · exact {
      takes := prefix_refl _
      used := prefix_refl _
      window := Nat.zero_le _
      released := nofun
      valid := fun n w h => absurd h (hlive n w)
      compatible := fun n _ w _ _ h => absurd h (hlive n w)
      staged := nofun
      written := nofun
      taking := nofun
      copying := nofun
      copies := nofun
      driverNotifies := rfl
      driverArmed := nofun
      entries_nodup := nodup_nil
      entries_lt := nofun
      entries_response := nofun
      response_le := fun _ _ h => (hnone h).elim
      reading := nofun
      deviceNotifies := rfl
      deviceArmed := nofun }
  · exact fun n w h => (hnone h).elim
  · exact fun i n r w h => (hnone h).elim
  · exact fun n w h => absurd h (hlive n w)
  · exact fun n w k byte h => absurd h (hlive n w)

theorem deviceView_tracks_fresh {b : Binding} {s : State} (h : s.vq = Vq.fresh) :
    DeviceView.start.Tracks b s := by
  refine ⟨by rw [h]; rfl, by rw [h]; rfl, fun slot id hs => ?_, fun n w hp => ?_, nodup_nil,
    nofun, nofun, Nat.zero_le _, fun id hid => ?_, rfl⟩
  · rw [h] at hs
    cases hs
  · cases hp.1
  · rw [h] at hid
    cases hid

section World
variable {K : Link} {W W' : World}

theorem World.Initial.ok (h : W.Initial K) : W.Ok K := by
  refine ⟨fun q hq => ?_, h.running, fun q hq => ?_⟩
  · obtain ⟨s, -, hopen⟩ := h.opened q hq .driver
    exact hopen.bound
  · obtain ⟨s, hagent, hopen⟩ := h.opened q hq .driver
    obtain ⟨s', hagent', hopen'⟩ := h.opened q hq .device
    have hnil : ∀ {b : Binding}, ∀ e ∈ ([] : List Done), Clean b e :=
      fun e he => absurd he not_mem_nil
    refine ⟨_, _, shared_start (h.zeroed q hq), ?_, ?_⟩
    · rw [hagent]
      exact .idle [] s hnil ⟨sound_fresh _ hopen.fresh.1, driverView_tracks_fresh hopen.fresh.1, rfl,
        hopen.fresh.2⟩ rfl
    · rw [hagent']
      exact .idle [] s' hnil ⟨sound_fresh _ hopen'.fresh.1,
        deviceView_tracks_fresh hopen'.fresh.1, rfl, hopen'.fresh.2⟩ rfl

theorem World.Ok.frame (h : W.Ok K) (hiso : K.Isolated) {q : Queue} (hq : q ∈ K.channel.queues)
    (hm : ∀ x, ¬ InLane (K.lane q) x → m x = W.memory x) {q' : Queue} (hq' : q' ∈ K.channel.queues)
    (hne : q' ≠ q) : LaneOk (K.lane q') m (W.agents q') := by
  obtain ⟨d, v, hs, hd, hv⟩ := h.lane q' hq'
  refine ⟨d, v, hs.of_agree (h.bound q' hq') fun x hx => hm x fun hx' => hne ?_, hd, hv⟩
  exact inLane_unique hiso (h.bound q' hq') (h.bound q hq) hx hx'

theorem World.Ok.agent (h : W.Ok K) (hiso : K.Isolated) {q : Queue} (hq : q ∈ K.channel.queues)
    {side : Side} {a : Agent} {flag : Bool}
    (hact : (W.agents q side).act ((K.lane q).binding side) (W.faulted side) W.memory action =
      some (a, m, flag)) :
    World.Ok K ⟨m, update W.faulted side flag, W.setAgent q side a⟩ := by
  have hown : LaneOk (K.lane q) m (update (W.agents q) side a) ∧
      Kept (K.lane q) W.memory m flag := by
    obtain ⟨d, v, hs, hd, hv⟩ := h.lane q hq
    rw [h.running side] at hact
    cases side with
    | driver =>
      obtain ⟨d', hs', hd', hkept⟩ := hd.act (driver_honest (h.bound q hq)) hs hact
      exact ⟨⟨d', v, hs', hd', hv⟩, hkept⟩
    | device =>
      obtain ⟨v', hs', hv', hkept⟩ := hv.act (device_honest (h.bound q hq)) hs hact
      exact ⟨⟨d, v', hs', hd, hv'⟩, hkept⟩
  obtain ⟨hlane, hkept⟩ := hown
  refine ⟨h.bound, fun side' => ?_, fun q' hq' => ?_⟩
  · by_cases hs : side' = side
    · subst hs
      exact (update_self ..).trans hkept.running
    · exact (update_of_ne hs ..).trans (h.running side')
  · by_cases he : q' = q
    · subst he
      have hagents : W.setAgent q' side a q' = update (W.agents q') side a :=
        update_self ..
      exact (congrArg _ hagents).mpr hlane
    · have hagents : W.setAgent q side a q' = W.agents q' := update_of_ne he ..
      exact (congrArg _ hagents).mpr (h.frame hiso hq hkept.outside hq' he)

theorem World.Ok.store (h : W.Ok K) {address : ℕ} {bytes : List UInt8}
    (hmay : W.MayStore K ⟨address, bytes.length⟩) :
    World.Ok K { W with memory := ByteMemory.write W.memory address bytes } := by
  refine ⟨h.bound, h.running, fun q hq => ?_⟩
  obtain ⟨d, v, hs, hd, hv⟩ := h.lane q hq
  obtain ⟨hrings, hchains⟩ := hmay q hq
  have hkeep : ∀ {span : Span}, Span.Apart ⟨address, bytes.length⟩ span → ∀ x, Span.Mem x span →
      ByteMemory.write W.memory address bytes x = W.memory x := fun hapart x hx =>
    write_outside _ _ _ fun hmem => Span.apart_iff_not_mem.mp hapart x hmem hx
  refine ⟨d, v, hs.frame (h.bound q hq) (fun i hi => hkeep (hrings i hi)) ?_, hd, hv⟩
  intro w hw x hx
  -- A wire the ghost counts on is the wire of a chain in a slot of the driver.
  obtain ⟨c, hheld, hwire⟩ := hd.shows hw
  have hv := hs.ledger.shown_valid hw
  have hhead := hv.directDescriptor_lt (head_mem_directDescriptors hv.nonempty hv.first)
  obtain ⟨htable, hsegs⟩ := hchains _ hhead c hheld
  rcases hx with hx | ⟨p, hp, hx⟩
  · exact hkeep (hwire ▸ htable) x hx
  · rw [← hwire] at hp
    exact hkeep (hsegs p hp) x hx

theorem World.Ok.step (h : W.Ok K) (hiso : K.Isolated) {move : Move}
    (hstep : W.step K move = some W') : W'.Ok K := by
  cases move with
  | agent q side action =>
    simp only [World.step, ite_none_right_eq_some, map_eq_some_iff] at hstep
    obtain ⟨hq, ⟨a, m, flag⟩, hact, rfl⟩ := hstep
    exact h.agent hiso hq hact
  | store address bytes =>
    simp only [World.step, ite_none_right_eq_some, some.injEq] at hstep
    obtain ⟨hmay, rfl⟩ := hstep
    exact h.store hmay

theorem World.Ok.run (h : W.Ok K) (hiso : K.Isolated) {moves : List Move}
    (hrun : W.run K moves = some W') : W'.Ok K := by
  induction moves generalizing W with
  | nil =>
    cases hrun
    exact h
  | cons move moves ih =>
    obtain ⟨mid, hstep, hrest⟩ := bind_eq_some_iff.mp hrun
    exact ih (h.step hiso hstep) hrest

theorem LaneOk.clean {L : Lane} {agents : Side → Agent} (h : LaneOk L m agents) (side : Side) :
    ∀ e ∈ (agents side).log, Clean (L.binding side) e := by
  obtain ⟨d, v, -, hd, hv⟩ := h
  cases side with
  | driver => exact hd.clean
  | device => exact hv.clean

/-- In every interleaving of the callbacks of two honest endpoints, no call reports a
fault and neither endpoint's fault flag is ever set. -/
theorem honest_endpoints_never_fault (hiso : K.Isolated) (hinit : W.Initial K) {moves : List Move}
    (hrun : W.run K moves = some W') :
    (∀ side, W'.faulted side = false) ∧ ∀ q ∈ K.channel.queues, ∀ side,
      ∀ e ∈ (W'.agents q side).log,
        e.reply.status ≠ .faulted ∧ e.reply.status ≠ .io ∧ e.after.faulted = false := by
  have hok := hinit.ok.run hiso hrun
  refine ⟨hok.running, fun q hq side e he => ?_⟩
  have hclean := (hok.lane q hq).clean side e he
  exact ⟨hclean.status.1, hclean.status.2, hclean.running⟩

theorem sample_exchange_never_faults :
    ((Sample.ended.agents Sample.queue .driver).log.length = 5 ∧
      (Sample.ended.agents Sample.queue .device).log.length = 4) ∧
      (∀ side, Sample.ended.faulted side = false) ∧ ∀ q ∈ Sample.link.channel.queues, ∀ side,
        ∀ e ∈ (Sample.ended.agents q side).log,
          e.reply.status ≠ .faulted ∧ e.reply.status ≠ .io ∧ e.after.faulted = false :=
  ⟨by decide +kernel, honest_endpoints_never_fault Sample.isolated Sample.initial Sample.run_exchange⟩

end World

end Kobox.Virtqueue
