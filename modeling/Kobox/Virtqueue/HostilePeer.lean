import Kobox.Virtqueue.Execution
import Kobox.Virtqueue.Views

/-!
# A queue object against a hostile peer

A run of one queue object from `kb2_vq_bind` on. At every call shared memory
answers anything, a failure included; between calls the caller changes any chain
object the queue does not own and another queue object may set the fault flag.
-/

namespace Kobox.Virtqueue
open ByteMemory Protocol Resumption SlotTable Option

/-- The calls of one endpoint in turn, with a memory that answers what it likes. Between them the
caller changes chain objects the queue does not hold, and another queue may stop the channel. -/
inductive Runs (b : Binding) (start : State) : List Done → State → Prop where
  | start : Runs b start [] start
  | call {log : List Done} {s : State} (h : Runs b start log s) (r : Request)
      (t : List ((e : Access) × e.call.Answer)) (reply : Reply) (s' : State)
      (hr : Run (perform b s r) t (reply, s')) : Runs b start (log ++ [⟨r, reply, s, s'⟩]) s'
  | caller {log : List Done} {s : State} (h : Runs b start log s) (chains : ChainId → Chain)
      (hkeep : ∀ slot id, s.vq.slots slot = some id → chains id = s.chains id) :
      Runs b start log { s with chains }
  | flag {log : List Done} {s : State} (h : Runs b start log s) :
      Runs b start log { s with faulted := true }

def Opened (b : Binding) (s : State) : Prop :=
  channelInit b.channel = .ok ∧ ∃ queueId capacity trace,
    Run (bind b.channel s.chains false true queueId b.side b.payloadAllowed capacity) trace
      (.ok, false, some (b, s))

def Reachable (b : Binding) (s : State) : Prop := ∃ start log, Opened b start ∧ Runs b start log s

theorem bind_always (channel : ChannelModel) (chains : ChainId → Chain) (faulted arguments : Bool)
    (queueId : UInt32) (side : Side) (payloadAllowed : UInt32 → UInt64 → UInt64 → UInt32 → Bool)
    (capacity : ℕ) :
    Always (fun e : Access => e.call.writes = false)
      (fun o : Status × Bool × Option (Binding × State) => ∀ b s, o.2.2 = some (b, s) →
        b.queue ∈ channel.queues ∧ b.queue.queueId = queueId ∧ s.vq = Vq.fresh ∧
          s.faulted = faulted)
      (bind channel chains faulted arguments queueId side payloadAllowed capacity) := by
  unfold bind
  refine always_ite (fun _ b s h => by cases h) fun _ => ?_
  refine always_ite (fun _ b s h => by cases h) fun _ => ?_
  cases hq : channel.queues.reverse.find? fun q => q.queueId == queueId with
  | none => exact fun b s h => by cases h
  | some queue =>
    refine always_ite (fun _ b s h => by cases h) fun _ => ⟨rfl, fun loaded => ?_⟩
    cases loaded with
    | none => exact fun b s h => by cases h
    | some index =>
      refine always_ite (fun _ b s h => by cases h) fun _ b s h => ?_
      cases h
      refine ⟨List.mem_reverse.mp (List.mem_of_find?_eq_some hq), ?_, rfl, rfl⟩
      have hid := List.find?_some hq
      exact beq_iff_eq.mp hid

theorem channelInit_accepted {channel : ChannelModel} (h : channelInit channel = .ok) :
    Accepted channel.identity channel.queues channel.regions := by
  unfold channelInit at h
  split_ifs at h with hv
  exact channelValidate_accepted (not_not.mp hv)

theorem Opened.bound {b : Binding} {s : State} (h : Opened b s) : b.Bound := by
  obtain ⟨hinit, queueId, capacity, trace, hr⟩ := h
  have hb := ((bind_always _ _ _ _ _ _ _ _).of_run hr).2 b s rfl
  exact ⟨channelInit_accepted hinit, hb.1⟩

theorem Opened.fresh {b : Binding} {s : State} (h : Opened b s) :
    s.vq = Vq.fresh ∧ s.faulted = false := by
  obtain ⟨hinit, queueId, capacity, trace, hr⟩ := h
  exact (((bind_always _ _ _ _ _ _ _ _).of_run hr).2 b s rfl).2.2

theorem Sample.accepted : channelInit Sample.channel = .ok := by decide

theorem Sample.opens (side : Side) : Opened (Sample.binding side) Sample.opened := by
  refine ⟨Sample.accepted, 1, 4, ?_⟩
  cases side with
  | driver => exact ⟨_, run_execute Access.exec (bind _ _ _ _ _ .driver _ _) Sample.memory⟩
  | device => exact ⟨_, run_execute Access.exec (bind _ _ _ _ _ .device _ _) Sample.memory⟩

/-! ### The invariant over runs -/

/-- The tables are sound and, while the channel runs, the counters match them. -/
structure Sound (b : Binding) (s : State) : Prop where
  owns : Owns b s
  counters : s.faulted = false → Counters b s

variable {b : Binding} {s start : State} {log : List Done}

theorem held_fresh (h : s.vq = Vq.fresh) : s.held = fun _ => none := by
  funext x
  rw [State.held, h]
  rfl

theorem sound_fresh (b : Binding) (h : s.vq = Vq.fresh) : Sound b s := by
  have hheld := held_fresh h
  refine ⟨⟨?_, fun id hlast => ?_⟩, fun _ => ?_⟩
  · rw [hheld, h]
    refine ⟨?_, ⟨?_, fun _ _ => rfl⟩, ?_, (count_empty _ _).symm, Nat.zero_le _⟩
    · intro _ _ hn
      cases hn
    · intro _ _ _ hn
      cases hn
    · intro _ _ _ _ _ hn
      cases hn
  · rw [h] at hlast
    cases hlast
  · unfold Counters submittedCount
    rw [hheld, h]
    cases b.side with
    | driver => exact (count_empty _ _).symm
    | device => rfl

theorem Owns.caller (ho : Owns b s) {chains : ChainId → Chain}
    (hkeep : ∀ slot id, s.vq.slots slot = some id → chains id = s.chains id) :
    ({ s with chains } : State).held = s.held ∧ Owns b { s with chains } := by
  have hheld : ({ s with chains } : State).held = s.held := by
    funext slot
    cases hs : s.vq.slots slot with
    | none => simp only [State.held, hs, map_none]
    | some id => simp only [State.held, hs, map_some, hkeep slot id hs]
  refine ⟨hheld, ?_, ho.lastTaken⟩
  rw [hheld]
  exact ho.booked

variable {s' : State}

theorem Counters.congr (hc : Counters b s) (hheld : s'.held = s.held) (hvq : s'.vq = s.vq) :
    Counters b s' := by
  unfold Counters submittedCount at *
  rw [hheld, hvq]
  exact hc

theorem Sound.caller (h : Sound b s) {chains : ChainId → Chain}
    (hkeep : ∀ slot id, s.vq.slots slot = some id → chains id = s.chains id) :
    Sound b { s with chains } := by
  have hcaller := h.owns.caller hkeep
  exact ⟨hcaller.2, fun hf => (h.counters hf).congr hcaller.1 rfl⟩

theorem Transition.sound (hb : b.Bound) (h : Sound b s) {generation : UInt64} {call : Call}
    {reply : Reply} (ht : Transition b s generation call reply s') : Sound b s' :=
  ⟨ht.owns hb h.owns, ht.counters hb h.owns h.counters⟩

theorem Runs.sound (hb : b.Bound) (hstart : Sound b start) (h : Runs b start log s) :
    Sound b s := by
  induction h with
  | start => exact hstart
  | call h r t reply s' hr ih => exact ((perform_behaves hb r).of_run hr).2.sound hb ih
  | caller h chains hkeep ih => exact ih.caller hkeep
  | flag h ih => exact ⟨ih.owns.congr rfl rfl rfl rfl rfl, fun hf => by cases hf⟩

theorem Reachable.bound (h : Reachable b s) : b.Bound := by
  obtain ⟨start, log, hopen, -⟩ := h
  exact hopen.bound

theorem Reachable.sound (h : Reachable b s) : Sound b s := by
  obtain ⟨start, log, hopen, hruns⟩ := h
  exact hruns.sound hopen.bound (sound_fresh b hopen.fresh.1)

/-- Where an accepted chain may lie, and how it lies to itself and to the other owned chains. -/
structure Confined (b : Binding) (s : State) (id : ChainId) : Prop where
  segment : ∀ seg ∈ (s.chains id).segs, seg.length ≠ 0 →
    Granted b seg.address seg.length.toUInt64 seg.rights
  table : (s.chains id).indirectLength ≠ 0 →
    Granted b (s.chains id).indirect (s.chains id).indirectLength.toUInt64 regionRightRead
  order : ∀ (i j : ℕ) (seg earlier : Segment), j < i → (s.chains id).segs[i]? = some seg →
    (s.chains id).segs[j]? = some earlier → earlier.writable ≠ 0 → seg.writable ≠ 0
  apart : ∀ (i j : ℕ) (seg other : Segment), i ≠ j → (s.chains id).segs[i]? = some seg →
    (s.chains id).segs[j]? = some other → seg.writable ≠ 0 → Span.Apart seg.span other.span
  table_apart : ∀ seg ∈ (s.chains id).segs, Span.Apart seg.span (s.chains id).wire.table
  others : ∀ h other, s.vq.slots h = some other → other ≠ id →
    (s.chains id).wire.Clear (s.chains other).wire

theorem toUInt64_ne_zero {x : UInt32} (h : x ≠ 0) : x.toUInt64 ≠ 0 := by
  intro hz
  apply h
  rw [← UInt32.toNat_inj, ← UInt32.toNat_toUInt64, hz]
  rfl

theorem Owns.confined (hb : b.Bound) (ho : Owns b s) {h : ℕ} {id : ChainId}
    (hs : s.vq.slots h = some id) : Confined b s id := by
  have hheld := ho.held_of_slot hs
  have hv := hheld.valid
  refine ⟨fun seg hseg hlen => ?_, fun hz => ?_, ?_, ?_, fun seg hseg => ?_, ?_⟩
  · obtain ⟨i, hi⟩ := List.mem_iff_getElem?.mp hseg
    exact payloadRange_granted hb.accepted (toUInt64_ne_zero hlen) (hv.segment i seg hi).payload
  · exact payloadRange_granted hb.accepted (toUInt64_ne_zero hz) (hv.table hz).payload
  · intro i j seg earlier hji hi hj
    exact (hv.pair i j seg earlier hji hi hj).order
  · intro i j seg other hij hi hj hw
    rcases Nat.lt_or_gt_of_ne hij with hlt | hlt
    · exact ((hv.pair j i other seg hlt hj hi).apart (Or.inr hw)).symm
    · exact (hv.pair i j seg other hlt hi hj).apart (Or.inl hw)
  · obtain ⟨i, hi⟩ := List.mem_iff_getElem?.mp hseg
    exact (hv.segment i seg hi).table
  · intro h' other hs' hne
    have hslots : h ≠ h' := by
      rintro rfl
      rw [hs] at hs'
      exact hne (some.inj hs').symm
    exact ho.booked.clear h h' _ _ hslots (by rw [State.held, hs, map_some])
      (by rw [State.held, hs', map_some])

theorem Transition.accepted_slot {generation : UInt64} {call : Call} {reply : Reply}
    {id : ChainId} (h : Transition b s generation call reply s') (hok : reply.status = .ok)
    (hcall : call = .takeAvailable (some id) ∨ ∃ notify, call = .publish (some id) notify) :
    s'.vq.slots (s'.chains id).head.toNat = some id := by
  cases h with
  | refused _ status hs =>
    dsimp only at hok
    rw [hok] at hs
    cases hs
  | stopped => cases hok
  | failed _ io => cases io <;> cases hok
  | observed _ _ hobs =>
    rcases hcall with rfl | ⟨notify, rfl⟩ <;> cases hobs
  | published id' c notify h =>
    rcases hcall with hcall | ⟨notify, hcall⟩ <;> cases hcall
    simp only [State.produce, claim, Function.update_self]
  | publishFailed => cases hok
  | taken id' c h =>
    rcases hcall with hcall | ⟨notify, hcall⟩ <;> cases hcall
    simp only [State.taken, claim, Function.update_self]
  | takeFailed _ _ io => cases io <;> cases hok
  | moved | handedBack | wrote | completed | returned | released =>
    rcases hcall with hcall | ⟨notify, hcall⟩ <;> cases hcall
  | completeFailed => cases hok

/-- Every chain a queue object accepts is confined to memory it was granted, and every
write it issues, whatever its peer does to memory between two callbacks, goes where its
side may write. -/
theorem hostile_peer_contained (h : Reachable b s) {r : Request}
    {t : List ((e : Access) × e.call.Answer)} {reply : Reply} {s' : State}
    (hr : Run (perform b s r) t (reply, s')) :
    (∀ x ∈ t, Contained b x.1) ∧
      ∀ id, (r.call = .takeAvailable (some id) ∨ ∃ notify, r.call = .publish (some id) notify) →
        reply.status = .ok → Confined b s' id := by
  have hrun := (perform_behaves h.bound r).of_run hr
  refine ⟨fun x hx => (hrun.1 x hx).contained h.sound.owns, fun id hcall hok => ?_⟩
  exact (hrun.2.owns h.bound h.sound.owns).confined h.bound (hrun.2.accepted_slot hok hcall)

theorem sample_take_contained :
    (Sample.run .device Sample.opened Sample.offered (.takeAvailable (some 1))).2.1.1.status = .ok ∧
      Confined (Sample.binding .device)
        (Sample.run .device Sample.opened Sample.offered (.takeAvailable (some 1))).2.1.2 1 :=
  ⟨by decide, (hostile_peer_contained ⟨_, [], Sample.opens .device, .start⟩
    (run_execute Access.exec _ _)).2 1 (Or.inl rfl) (by decide)⟩

/-- The ownership invariant in terms of the fields of `kb2_vq_t`. -/
structure OwnershipInvariant (b : Binding) (s : State) : Prop where
  owned_eq : s.vq.owned =
    ((Finset.range b.queue.queueSize.toNat).filter fun h => (s.vq.slots h).isSome = true).card
  owned_le : s.vq.owned ≤ b.queue.maxOutstanding.toNat
  slot_lt : ∀ h id, s.vq.slots h = some id → h < b.queue.queueSize.toNat
  head : ∀ h id, s.vq.slots h = some id → (s.chains id).head.toNat = h
  state : ∀ h id, s.vq.slots h = some id → b.side.Holds (s.chains id).state
  owner : ∀ h id d, s.vq.slots h = some id →
    ((s.vq.descriptorOwner d).toNat = h + 1 ↔ ∃ x ∈ (s.chains id).directDescriptors, x.toNat = d)
  unowned : ∀ d, (∀ h id, s.vq.slots h = some id →
    ¬ ∃ x ∈ (s.chains id).directDescriptors, x.toNat = d) → s.vq.descriptorOwner d = 0
  apart : ∀ h h' id id', s.vq.slots h = some id → s.vq.slots h' = some id' → h ≠ h' →
    chainsOverlap (s.chains id) (s.chains id') = false
  last : ∀ id, s.vq.lastTaken = some id → owned b s id .accepted = true
  counters : s.faulted = false → match b.side with
    | .driver => (s.vq.produced - s.vq.consumed).toNat =
        ((Finset.range b.queue.queueSize.toNat).filter fun h =>
          (s.held h).any (fun c => c.state == .submitted) = true).card
    | .device => (s.vq.consumed - s.vq.produced).toNat = s.vq.owned

/-- The private tables of a queue object agree after any calls, whatever the peer writes. -/
theorem ownership_invariant (h : Reachable b s) : OwnershipInvariant b s := by
  have hb := h.bound
  obtain ⟨ho, hcounters⟩ := h.sound
  have hheld : ∀ {slot id}, s.vq.slots slot = some id → s.held slot = some (s.chains id) := by
    intro slot id hs
    rw [State.held, hs, map_some]
  have huses : ∀ {slot id}, s.vq.slots slot = some id → ∀ d,
      ((∃ x ∈ (s.chains id).directDescriptors, x.toNat = d) ↔ (s.chains id).Uses d) := by
    intro slot id hs d
    rw [directDescriptors_eq (ho.held_of_slot hs).count_le]
    exact Iff.rfl
  refine ⟨?_, ho.booked.owned_le, fun h id hs => (ho.held_of_slot hs).lt,
    fun h id hs => (ho.held_of_slot hs).head, fun h id hs => (ho.held_of_slot hs).state, ?_, ?_, ?_,
    ?_, hcounters⟩
  · rw [ho.booked.owned_eq, count]
    congr 1
    apply Finset.filter_congr
    intro slot _
    rw [State.held, any_map]
    cases s.vq.slots slot <;> simp
  · intro slot id d hs
    have htag := ownerTag_toNat (ho.booked.slot_lt hb (hheld hs))
    rw [huses hs d]
    constructor
    · intro howner
      -- The entry is not 0, so some chain uses `d`; its tag is this slot's tag.
      by_contra hno
      have hex : ∃ slot' c, s.held slot' = some c ∧ c.Uses d := by
        by_contra hnone
        have hz := ho.booked.books.unused d fun slot' c hc hu => hnone ⟨slot', c, hc, hu⟩
        rw [hz] at howner
        cases howner
      obtain ⟨slot', c, hc, hu⟩ := hex
      have hsame := ho.booked.books.used slot' c d hc hu
      have hslot : slot' = slot := by
        apply ho.booked.tag_inj hb hc (hheld hs)
        apply UInt16.toNat_inj.mp
        rw [← hsame, howner, htag]
      subst hslot
      rw [hheld hs] at hc
      cases hc
      exact hno hu
    · intro hu
      rw [ho.booked.books.used slot _ d (hheld hs) hu, htag]
  · intro d hd
    refine ho.booked.books.unused d fun slot c hc hu => ?_
    obtain ⟨id, hs, rfl⟩ := map_eq_some_iff.mp hc
    exact hd slot id hs ((huses hs d).mpr hu)
  · intro slot slot' id id' hs hs' hne
    exact (chainsOverlap_eq_false_iff (ho.held_of_slot hs).valid.noWraps
      (ho.held_of_slot hs').valid.noWraps).mpr
        (ho.booked.clear slot slot' _ _ hne (hheld hs) (hheld hs'))
  · intro id hlast
    obtain ⟨hside, slot, hs⟩ := ho.lastTaken id hlast
    have hh := ho.held_of_slot hs
    have hstate := hh.state
    rw [hside] at hstate
    exact owned_iff.mpr ⟨hh.valid.head_lt, hstate, hh.head ▸ hs⟩

theorem sample_take_invariant :
    (Sample.run .device Sample.opened Sample.offered (.takeAvailable (some 1))).2.1.2.vq.owned = 1 ∧
      OwnershipInvariant (Sample.binding .device)
        (Sample.run .device Sample.opened Sample.offered (.takeAvailable (some 1))).2.1.2 :=
  ⟨by decide, ownership_invariant ⟨_, _, Sample.opens .device,
    .call .start _ _ _ _ (run_execute Access.exec _ _)⟩⟩

end Kobox.Virtqueue
