import Kobox.Virtqueue.Delivery

/-!
# Takes that find something

A publication or completion that has returned to its caller is there for the peer to take.
-/

namespace Kobox.Virtqueue
open ByteMemory Protocol Resumption List Function Option

/-- Whatever memory answers, the call succeeds or faults. -/
abbrev Delivers (p : Op Outcome) : Prop :=
  Always (fun _ => True) (fun o => o.1.status = .ok ∨ o.2.faulted = true) p

/-- A take whose arguments the engine accepts. -/
inductive Takes (b : Binding) (s : State) : Call → Prop where
  | available (id : ChainId) (side : b.side = .device) (free : (s.chains id).state = .free)
      (stored : (s.chains id).segments.isSome = true)
      (room : b.queue.maxChainLength.toNat ≤ (s.chains id).capacity) :
      Takes b s (.takeAvailable (some id))
  | used (side : b.side = .driver) : Takes b s (.takeUsed true)

/-- The load of the peer's index is next, and a new index leads to a success. -/
def Fetches (b : Binding) (s : State) (p : Op Outcome) : Prop :=
  ∃ next, p = pendingIndex b s next ∧ ∀ distance, Delivers (next .ok distance)

section Calls
variable {b : Binding} {s : State} {r : Request}

theorem takeAvailable_fetches {vq : Handle} {generation : UInt64} {id : ChainId}
    (hcheck : check b s vq generation = .ok) (h : Takes b s (.takeAvailable (some id))) :
    Fetches b s (takeAvailable b s vq generation (some id)) := by
  cases h with
  | available _ hside hfree hstored hroom =>
    have hargs : ¬(b.side ≠ .device ∨ (s.chains id).state ≠ .free ∨
        (s.chains id).segments.isNone = true ∨
        (s.chains id).capacity < b.queue.maxChainLength.toNat) := by
      simp [hside, hfree, hroom, isSome_iff_ne_none.mp hstored]
    refine ⟨_, (if_pos hcheck).trans (if_neg hargs), fun distance => ?_⟩
    rw [if_neg (not_not.mpr rfl)]
    refine always_ite (fun _ => .inr rfl) fun _ => ⟨trivial, fun answer => ?_⟩
    cases answer with
    | none => exact .inr rfl
    | some bytes =>
      refine always_ite (fun _ => .inr rfl) fun _ => ?_
      have hfree' : ({ s.chains id with head := readU16 bytes.val } : Chain).state = .free := hfree
      refine Always.bind (readChain_always (fun _ _ _ => trivial) hfree') ?_
      intro o ho
      rcases ho with ⟨c, snapshot, -, -, rfl⟩ | ⟨c, io, -, rfl⟩
      · exact .inl rfl
      · cases io <;> exact .inr rfl

theorem takeUsed_fetches {vq : Handle} {generation : UInt64}
    (hcheck : check b s vq generation = .ok) (hside : b.side = .driver) :
    Fetches b s (takeUsed b s vq generation true) := by
  have hargs : ¬(b.side ≠ .driver ∨ true = false) := by simp [hside]
  refine ⟨_, (if_pos hcheck).trans (if_neg hargs), fun distance => ?_⟩
  rw [if_neg (not_not.mpr rfl)]
  refine ⟨trivial, fun answer => ?_⟩
  cases answer with
  | none => exact .inr rfl
  | some bytes =>
    refine always_ite (fun _ => .inr rfl) fun _ => ?_
    cases s.vq.slots (readU32 bytes.val).toNat with
    | none => exact .inr rfl
    | some id => exact always_ite (fun _ => .inr rfl) fun _ => .inl rfl

theorem perform_fetches (hcheck : check b s r.vq r.generation = .ok) (h : Takes b s r.call) :
    Fetches b s (perform b s r) := by
  obtain ⟨vq, generation, call⟩ := r
  cases h with
  | available id hside hfree hstored hroom =>
    exact takeAvailable_fetches hcheck (.available id hside hfree hstored hroom)
  | used hside => exact takeUsed_fetches hcheck hside

end Calls

/-! ### What is there stays there -/

theorem DriverView.of_notifies (log later : List Done) :
    (of log).notifies <+: (of (log ++ later)).notifies := by
  refine learned_extends (fun v s call out => ?_) log later
  unfold hear
  split <;> first
    | exact prefix_refl _
    | exact prefix_append _ _

theorem DeviceView.of_notifies (log later : List Done) :
    (of log).notifies <+: (of (log ++ later)).notifies := by
  refine learned_extends (fun v s call out => ?_) log later
  unfold hear
  split <;> first
    | exact prefix_refl _
    | exact prefix_append _ _

/-- Something that the peer has published or completed has not been taken. -/
def Backlog (agents : Side → Agent) : Side → Prop
  | .device => (DeviceView.of (agents .device).log).takes.length <
      (DriverView.of (agents .driver).log).notifies.length
  | .driver => (DriverView.of (agents .driver).log).used.length <
      (DeviceView.of (agents .device).log).notifies.length

theorem Backlog.mono {agents agents' : Side → Agent} {side : Side} (h : Backlog agents side)
    (hown : (agents' side).log = (agents side).log)
    (hlogs : ∀ side', (agents side').log <+: (agents' side').log) : Backlog agents' side := by
  cases side with
  | device =>
    obtain ⟨later, hlater⟩ := hlogs .driver
    have hle := (DriverView.of_notifies (agents .driver).log later).length_le
    rw [hlater] at hle
    rw [Backlog, hown]
    exact Nat.lt_of_lt_of_le h hle
  | driver =>
    obtain ⟨later, hlater⟩ := hlogs .device
    have hle := (DeviceView.of_notifies (agents .device).log later).length_le
    rw [hlater] at hle
    rw [Backlog, hown]
    exact Nat.lt_of_lt_of_le h hle

theorem Agent.act_log {b : Binding} {flag flag' : Bool} {m m' : Memory} {a a' : Agent}
    {action : Action} (h : a.act b flag m action = some (a', m', flag')) : a.log <+: a'.log := by
  cases action <;> simp only [Agent.act] at h <;> (repeat' split at h) <;> cases h <;> first
    | exact prefix_refl _
    | exact prefix_append _ _

/-! ### The take in a reachable world -/

def peerIndex (b : Binding) : UInt64 :=
  (if b.side = .driver then b.queue.usedAddress else b.queue.availableAddress) + 2

section World
variable {K : Link} {W W' : World} {q : Queue} {side : Side} {L : Lane} {m : Memory}
  {agents : Side → Agent} {log : List Done} {s : State} {r : Request} {p : Op Outcome}

theorem ofNat_ne_ofNat {a c : ℕ} (hlt : c < a) (hle : a ≤ c + 32768) :
    UInt16.ofNat a ≠ UInt16.ofNat c := by
  intro he
  have hsub := toNat_ofNat_sub_ofNat hlt.le (by omega)
  rw [he, UInt16.sub_self] at hsub
  simp at hsub
  omega

/-- The index in shared memory is ahead of what the caller has taken. -/
theorem LaneOk.peerIndex_ne (hb : (L.binding .driver).Bound) (h : LaneOk L m agents)
    (hbacklog : Backlog agents side) (ha : (agents side).thread = .busy s r p) :
    readU16 (read m (peerIndex (L.binding side)).toNat 2) ≠ s.vq.consumed := by
  obtain ⟨d, v, hs, hd, hv⟩ := h
  obtain ⟨h1, h2, h3, h4, h5, h6⟩ := hs.ledger.order
  have hsize := (L.wellFormed hb).size_le
  have hmax := (L.wellFormed hb).outstanding_le
  cases side with
  | device =>
    have hwires := hs.ledger.driverNotifies
    have hle := hd.ahead.notifies.length_le
    have htakes := congrArg List.length hv.ahead.takes
    have hload : readU16 (read m (L.queue.availableAddress + 2).toNat 2) =
        UInt16.ofNat d.view.wires.length := by
      rw [availableIndex_at hb]
      exact readU16_of_holds hs.available.index
    change List.length _ < _ at hbacklog
    change readU16 (read m (L.queue.availableAddress + 2).toNat 2) ≠ _
    have hconsumed : s.vq.consumed = UInt16.ofNat (DeviceView.of (agents .device).log).takes.length :=
      (hv.tracks ha).consumed
    rw [hload, hconsumed]
    exact ofNat_ne_ofNat (by omega) (by omega)
  | driver =>
    have hcompletions := hs.ledger.deviceNotifies
    have hle := hv.ahead.notifies.length_le
    have hused := congrArg List.length hd.ahead.used
    change List.length _ < _ at hbacklog
    change readU16 (read m (L.queue.usedAddress + 2).toNat 2) ≠ _
    have hconsumed : s.vq.consumed = UInt16.ofNat (DriverView.of (agents .driver).log).used.length :=
      (hd.tracks ha).consumed
    rw [hs.loadUsed hb, hconsumed]
    exact ofNat_ne_ofNat (by omega) (by omega)

/-- The agent is in a take that will succeed, or the call after `log` has. -/
inductive Taking (b : Binding) (side : Side) (log : List Done) (agents : Side → Agent) : Prop where
  | loads (s : State) (r : Request) (p : Op Outcome) (ha : agents side = ⟨log, .busy s r p⟩)
      (hbacklog : Backlog agents side) (h : Fetches b s p) : Taking b side log agents
  | reads (s : State) (r : Request) (p : Op Outcome) (ha : agents side = ⟨log, .busy s r p⟩)
      (h : Delivers p) : Taking b side log agents
  | taken (e : Done) (later : List Done) (ha : (agents side).log = log ++ e :: later)
      (h : e.reply.status = .ok ∨ e.after.faulted = true) : Taking b side log agents

variable {b : Binding}

theorem Fetches.access (h : Fetches b s p) (m : Memory)
    (hindex : readU16 (read m (peerIndex b).toNat 2) ≠ s.vq.consumed) :
    ∃ e k, p = .ask e k ∧ Delivers (k (e.exec m).1) := by
  obtain ⟨next, rfl, hnext⟩ := h
  refine ⟨_, _, rfl, always_ite (fun _ => .inr rfl) fun _ => ?_⟩
  unfold peerIndex at hindex
  rw [if_pos fun hzero => hindex ?_]
  · exact hnext _
  · have hsum := congrArg (· + s.vq.consumed) hzero
    simpa using hsum

theorem act_busy {a : Agent} {action : Action} {m' : Memory} {flag flag' : Bool}
    (hact : Agent.act b flag m ⟨log, .busy s r p⟩ action = some (a, m', flag')) :
    (∃ e k, p = .ask e k ∧ a = ⟨log, .busy s r (k (e.exec m).1)⟩) ∨
      ∃ o, p = .done o ∧ a = ⟨log ++ [⟨r, o.1, s, o.2⟩], .idle o.2⟩ := by
  cases action <;> cases p <;> cases hact
  · exact .inl ⟨_, _, rfl, rfl⟩
  · exact .inr ⟨_, rfl, rfl⟩

theorem Taking.own {a : Agent} {action : Action} {m' : Memory} {flag flag' : Bool}
    (h : Taking b side log agents)
    (hindex : Backlog agents side → ∀ s r p, (agents side).thread = .busy s r p →
      readU16 (read m (peerIndex b).toNat 2) ≠ s.vq.consumed)
    (hact : (agents side).act b flag m action = some (a, m', flag')) :
    Taking b side log (update agents side a) := by
  have hself : update agents side a side = a := update_self ..
  cases h with
  | loads s r p ha hbacklog hp =>
    obtain ⟨e, k, rfl, hk⟩ := hp.access m (hindex hbacklog s r p (by rw [ha]))
    rw [ha] at hact
    rcases act_busy hact with ⟨e', k', heq, rfl⟩ | ⟨o, heq, rfl⟩
    · cases heq
      exact .reads s r _ hself hk
    · cases heq
  | reads s r p ha hp =>
    rw [ha] at hact
    rcases act_busy hact with ⟨e, k, rfl, rfl⟩ | ⟨o, rfl, rfl⟩
    · exact .reads s r _ hself (hp.2 _)
    · exact .taken ⟨r, o.1, s, o.2⟩ [] (by rw [hself]) hp
  | taken e later ha he =>
    obtain ⟨more, hmore⟩ := Agent.act_log hact
    refine .taken e (later ++ more) ?_ he
    rw [hself, ← hmore, ha, append_assoc, cons_append]

/-- What the peer does next. -/
theorem Taking.peer {agents' : Side → Agent} (h : Taking b side log agents)
    (hown : agents' side = agents side)
    (hlogs : ∀ side', (agents side').log <+: (agents' side').log) : Taking b side log agents' := by
  cases h with
  | loads s r p ha hbacklog hp =>
    exact .loads s r p (hown.trans ha) (hbacklog.mono (by rw [hown]) hlogs) hp
  | reads s r p ha hp => exact .reads s r p (hown.trans ha) hp
  | taken e later ha he => exact .taken e later (by rw [hown, ha]) he

theorem Taking.step (hok : W.Ok K) (hq : q ∈ K.channel.queues)
    (h : Taking ((K.lane q).binding side) side log (W.agents q)) {move : Move}
    (hstep : W.step K move = some W') :
    Taking ((K.lane q).binding side) side log (W'.agents q) := by
  cases move with
  | store address bytes =>
    simp only [World.step, ite_none_right_eq_some, some.injEq] at hstep
    obtain ⟨-, rfl⟩ := hstep
    exact h
  | agent q' side' action =>
    simp only [World.step, ite_none_right_eq_some, map_eq_some_iff] at hstep
    obtain ⟨-, ⟨a, m, flag⟩, hact, rfl⟩ := hstep
    by_cases hqueue : q' = q
    · subst hqueue
      have hagents : W.setAgent q' side' a q' = update (W.agents q') side' a :=
        update_self ..
      simp only [hagents]
      by_cases hside : side' = side
      · subst hside
        refine h.own (fun hbacklog s r p hthread => ?_) hact
        exact (hok.lane q' hq).peerIndex_ne (hok.bound q' hq) hbacklog hthread
      · refine h.peer (update_of_ne (Ne.symm hside) ..) fun side'' => ?_
        by_cases hother : side'' = side'
        · subst hother
          rw [update_self]
          exact Agent.act_log hact
        · rw [update_of_ne hother]
    · have hagents : W.setAgent q' side' a q = W.agents q := update_of_ne (Ne.symm hqueue) ..
      simp only [hagents]
      exact h

theorem Taking.run (hok : W.Ok K) (hiso : K.Isolated) (hq : q ∈ K.channel.queues)
    (h : Taking ((K.lane q).binding side) side log (W.agents q)) {moves : List Move}
    (hrun : W.run K moves = some W') :
    Taking ((K.lane q).binding side) side log (W'.agents q) := by
  induction moves generalizing W with
  | nil =>
    cases hrun
    exact h
  | cons move moves ih =>
    obtain ⟨mid, hstep, hrest⟩ := bind_eq_some_iff.mp hrun
    exact ih (hok.step hiso hstep) (h.step hok hq hstep) hrest

/-- A take that is started while a publication or completion that has returned is still to be
taken succeeds in every continuation in which it ends. -/
theorem backlog_is_taken (hiso : K.Isolated) (hinit : W.Initial K) {moves : List Move}
    (hrun : W.run K moves = some W') (hq : q ∈ K.channel.queues)
    (hidle : W'.agents q side = ⟨log, .idle s⟩) (hbacklog : Backlog (W'.agents q) side)
    (hcheck : check ((K.lane q).binding side) s r.vq r.generation = .ok)
    (htakes : Takes ((K.lane q).binding side) s r.call) {more : List Move} {W'' : World}
    (hmore : W'.run K (.agent q side (.call r) :: more) = some W'') {e : Done}
    (hlog : (W''.agents q side).log[log.length]? = some e) : e.reply.status = .ok := by
  have hok := hinit.ok.run hiso hrun
  have hclean := ((hok.run hiso hmore).lane q hq).clean side e (mem_of_getElem? hlog)
  obtain ⟨mid, hstep, hrest⟩ := bind_eq_some_iff.mp hmore
  have hok' := hok.step hiso hstep
  have hrunning : s.faulted = false := by
    rw [← Bool.not_eq_true]
    intro hfaulted
    simp only [check, hfaulted, if_true] at hcheck
    split_ifs at hcheck
  have hmid : Taking ((K.lane q).binding side) side log (mid.agents q) := by
    simp only [World.step, ite_none_right_eq_some, map_eq_some_iff] at hstep
    obtain ⟨-, ⟨a, m, flag⟩, hact, rfl⟩ := hstep
    rw [hidle, hok.running side] at hact
    simp only [Agent.act, with_faulted_eq hrunning, some.injEq, Prod.mk.injEq] at hact
    obtain ⟨rfl, rfl, rfl⟩ := hact
    have hagents : ∀ a, W'.setAgent q side a q = update (W'.agents q) side a :=
      fun a => update_self ..
    simp only [hagents]
    refine .loads s r _ (update_self ..) (hbacklog.mono ?_ fun side' => ?_)
      (perform_fetches hcheck htakes)
    · rw [update_self, hidle]
    · by_cases hside : side' = side
      · subst hside
        rw [update_self, hidle]
      · rw [update_of_ne hside]
  cases hmid.run hok' hiso hq hrest with
  | loads s r p ha | reads s r p ha => simp [ha] at hlog
  | taken e' later' ha he =>
    simp only [ha, getElem?_append_right (Nat.le_refl _), Nat.sub_self, getElem?_cons_zero,
      some.injEq] at hlog
    subst hlog
    exact he.resolve_right (by simp [hclean.running])

end World

def Thread.isIdle : Thread → Bool
  | .idle _ => true
  | .busy .. => false

theorem Thread.eq_idle {t : Thread} (h : t.isIdle = true) : t = .idle t.state := by
  cases t with
  | idle s => rfl
  | busy => cases h

namespace Sample

def fetch : List Move := whole .device (.takeAvailable (some 1)) 4

theorem fetch_runs : (woken.run link fetch).isSome = true := by decide +kernel

end Sample

/-- The device takes the request that the driver has published. -/
theorem sample_backlog_taken :
    ∃ e, (((Sample.woken.run Sample.link Sample.fetch).get Sample.fetch_runs).agents Sample.queue
      .device).log[1]? = some e ∧ e.reply.status = .ok := by
  have hidle : Sample.woken.agents Sample.queue .device =
      ⟨(Sample.woken.agents Sample.queue .device).log,
        .idle (Sample.woken.agents Sample.queue .device).thread.state⟩ := by
    rw [← Thread.eq_idle (by decide +kernel)]
  have hbacklog : (DeviceView.of (Sample.woken.agents Sample.queue .device).log).takes.length <
      (DriverView.of (Sample.woken.agents Sample.queue .driver).log).notifies.length := by
    decide +kernel
  have hlt : 1 < (((Sample.woken.run Sample.link Sample.fetch).get Sample.fetch_runs).agents
      Sample.queue .device).log.length := by decide +kernel
  have hlength : (Sample.woken.agents Sample.queue .device).log.length = 1 := by decide +kernel
  refine ⟨_, getElem?_eq_getElem hlt, ?_⟩
  refine backlog_is_taken Sample.isolated Sample.initial Sample.run_wakeup mem_cons_self hidle
    hbacklog (by decide +kernel) (.available 1 rfl (by decide +kernel) (by decide +kernel)
      (by decide +kernel)) (eq_some_of_isSome Sample.fetch_runs) ?_
  rw [hlength]
  exact getElem?_eq_getElem hlt

end Kobox.Virtqueue
