import Kobox.Virtqueue.HostileDevice
import Mathlib.Logic.Relation

/-!
# Failure atomicity and the channel's fault flag

An `Endpoint` is one side's channel object: its fault flag, the queue objects bound on it and the
chain objects of its caller. The other objects are part of the surroundings of each.
-/

namespace Kobox.Virtqueue
open Protocol Resumption Function
variable {queueId : UInt32} {side : Side}
  {payloadAllowed : UInt32 → UInt64 → UInt64 → UInt32 → Bool} {capacity : ℕ} {b : Binding}
  {s s' : State} {generation : UInt64} {reply : Reply} {r : Request} {status : Status}
  {channel : ChannelModel} {e e' : Endpoint} {i : ℕ}

theorem Transition.refused_same {call : Call} (h : Transition b s generation call reply s')
    (hr : reply.status.refuses = true) : s' = s := by
  cases h with
  | failed _ io | takeFailed _ _ io => cases io <;> cases hr
  | observed | published | taken | moved | handedBack | wrote | completed | returned | released =>
    cases hr
  | publishFailed | completeFailed => cases hr
  | _ => rfl

theorem Transition.stale_generation {call : Call} (h : Transition b s generation call reply s')
    (hr : reply.status = .stale) : b.channel.identity.generation ≠ generation := by
  cases h with
  | refused _ status _ stale => exact stale hr
  | failed _ io | takeFailed _ _ io => cases io <;> cases hr
  | _ => cases hr

theorem Transition.fault_flagged {call : Call} (h : Transition b s generation call reply s')
    (hr : reply.status = .faulted ∨ reply.status = .io) : s'.faulted = true := by
  cases h with
  | stopped _ hf => exact hf
  | failed | publishFailed | takeFailed | completeFailed => rfl
  | refused _ status hs =>
    dsimp only at hr
    rcases hr with hr | hr <;> rw [hr] at hs <;> cases hs
  | _ => rcases hr with hr | hr <;> cases hr

theorem perform_prompt (hb : b.Bound) (s : State) (hr : r.call.stores = true) :
    Prompt (fun o => o.1.status.refuses = false) (perform b s r) := by
  obtain ⟨vq, generation, call⟩ := r
  have hfault : ∀ s io, (fault s io).1.status.refuses = false := by
    intro s io
    cases io <;> rfl
  cases call with
  | publish chain notify =>
    refine prompt_ite (fun _ => ?_) fun _ => trivial
    cases chain with
    | none => trivial
    | some id =>
      refine prompt_ite (fun _ => trivial) fun harg => prompt_ite (fun _ => trivial) fun _ => ?_
      cases hc : validateChain b s.vq s.chains (s.chains id) with
      | none => trivial
      | some c =>
        obtain ⟨-, hlen, hv, -, rfl⟩ := validateChain_eq_some_iff.mp hc
        exact (publishClaimed_always hb (c := (s.chains id).counted)
          (not_not.mp (not_or.mp harg).1) hlen hv (hfault _ _) (hfault _ _) fun _ => rfl).prompt
  | writeResponse chain source =>
    refine prompt_ite (fun _ => ?_) fun _ => trivial
    cases chain with
    | none => trivial
    | some id =>
      refine prompt_ite (fun _ => trivial) fun harg => ?_
      simp only [not_or, not_and] at harg
      have hbytes : source.size ≤ source.bytes.length := by
        cases source with
        | null size => exact le_of_eq (not_not.mp (harg.2.2.1 rfl))
        | data bytes => exact le_refl _
      refine Always.prompt (Always.bind (copyData_always fun _ => hbytes) ?_)
      intro o ho
      have hstatus : o.1.status.refuses = false := by
        rcases ho with ⟨bytes, rfl⟩ | ⟨io, rfl⟩
        · rfl
        · exact hfault s io
      exact always_ite (fun _ => hstatus) fun _ => hstatus
  | complete chain notify =>
    refine prompt_ite (fun _ => ?_) fun _ => trivial
    cases chain with
    | none => trivial
    | some id =>
      refine prompt_ite (fun _ => trivial) fun _ => Always.prompt (G := fun _ => True) ?_
      refine writeAll_always (fun _ _ => trivial) (hfault _ _) (Always.bind (Q := fun o =>
        o.1.status.refuses = false) (publishIndex_always (fun _ => trivial) trivial trivial
          (hfault _ _) (hfault _ _) fun _ => rfl) fun o ho => ?_)
      exact always_ite (fun _ => ho) fun _ => ho
  | arm ready =>
    refine prompt_ite (fun _ => prompt_ite (fun _ => trivial) fun _ => ?_) fun _ => trivial
    refine ⟨trivial, fun (stored : Bool) => ?_⟩
    cases stored with
    | true =>
      refine ⟨trivial, fun _ => ?_⟩
      exact pendingIndex_always (fun _ => trivial) (fun io => hfault _ io) fun _ _ _ => rfl
    | false => exact hfault _ true
  | peekAvailable | takeAvailable | moveAccepted | returnAvailable | copyRequest | takeUsed |
      copyResponse | release => cases hr

variable {t : List ((e : Access) × e.call.Answer)}

theorem refused_writes_nothing (hb : b.Bound) (hr : Run (perform b s r) t (reply, s'))
    (href : reply.status.refuses = true) : ∀ x ∈ t, x.1.call.writes = false := by
  intro x hx
  by_contra hw
  simp only [Bool.not_eq_false] at hw
  have hstores := (((perform_behaves hb r).of_run hr).1 x hx).stores hw
  have hnil := (perform_prompt hb s hstores).of_run hr (by simp [href])
  rw [hnil] at hx
  exact absurd hx List.not_mem_nil

theorem perform_of_check (h : check b s r.vq r.generation ≠ .ok) :
    perform b s r = finish (check b s r.vq r.generation) s := by
  obtain ⟨vq, generation, call⟩ := r
  cases call <;> exact if_neg h

theorem run_finish (hr : Run (finish status s) t (reply, s')) :
    t = [] ∧ reply = ⟨status, .nothing⟩ ∧ s' = s := by
  cases hr
  exact ⟨rfl, rfl, rfl⟩

theorem stale_asks_nothing (hb : b.Bound) (hr : Run (perform b s r) t (reply, s'))
    (hstale : reply.status = .stale) : t = [] := by
  have hgen := ((perform_behaves hb r).of_run hr).2.stale_generation hstale
  have hcheck : check b s r.vq r.generation ≠ .ok := by
    unfold check
    rw [if_pos hgen]
    split_ifs <;> simp
  rw [perform_of_check hcheck] at hr
  exact (run_finish hr).1

structure Endpoint where
  faulted : Bool
  objects : ℕ → Option (Binding × Vq)
  chains : ChainId → Chain

namespace Endpoint

/-- The state of an object, with the channel's flag and the shared chain objects. -/
def view (e : Endpoint) (vq : Vq) : State := ⟨vq, e.chains, e.faulted⟩

/-- A call on object `i`. -/
inductive Calls (e : Endpoint) (i : ℕ) (r : Request) :
    List ((e : Access) × e.call.Answer) → Reply → Endpoint → Prop where
  | mk (b : Binding) (vq : Vq) (t : List ((e : Access) × e.call.Answer)) (reply : Reply)
      (s' : State) (h : e.objects i = some (b, vq)) (hr : Run (perform b (e.view vq) r) t (reply, s')) :
      Calls e i r t reply ⟨s'.faulted, update e.objects i (some (b, s'.vq)), s'.chains⟩

/-- `kb2_vq_bind` into object `i`. -/
inductive Binds (channel : ChannelModel) (e : Endpoint) (i : ℕ) (arguments : Bool)
    (queueId : UInt32) (side : Side) (payloadAllowed : UInt32 → UInt64 → UInt64 → UInt32 → Bool)
    (capacity : ℕ) : List ((e : Access) × e.call.Answer) → Status → Endpoint → Prop where
  | failed (t : List ((e : Access) × e.call.Answer)) (status : Status) (faulted : Bool)
      (hr : Run (bind channel e.chains e.faulted arguments queueId side payloadAllowed capacity) t
        (status, faulted, none)) :
      Binds channel e i arguments queueId side payloadAllowed capacity t status { e with faulted }
  | bound (t : List ((e : Access) × e.call.Answer)) (status : Status) (faulted : Bool) (b : Binding)
      (s : State)
      (hr : Run (bind channel e.chains e.faulted arguments queueId side payloadAllowed capacity) t
        (status, faulted, some (b, s))) :
      Binds channel e i arguments queueId side payloadAllowed capacity t status
        ⟨faulted, update e.objects i (some (b, s.vq)), e.chains⟩

/-- A call, a bind, a write of the caller to chain objects that no queue holds, or a fault. -/
inductive Step (channel : ChannelModel) (e : Endpoint) : Endpoint → Prop where
  | call (i : ℕ) (r : Request) (t : List ((e : Access) × e.call.Answer)) (reply : Reply)
      (e' : Endpoint) (h : e.Calls i r t reply e') : Step channel e e'
  | bind (i : ℕ) (arguments : Bool) (queueId : UInt32) (side : Side)
      (payloadAllowed : UInt32 → UInt64 → UInt64 → UInt32 → Bool) (capacity : ℕ)
      (t : List ((e : Access) × e.call.Answer)) (status : Status) (e' : Endpoint)
      (h : Binds channel e i arguments queueId side payloadAllowed capacity t status e') :
      Step channel e e'
  | caller (chains : ChainId → Chain)
      (hkeep : ∀ i b vq slot id, e.objects i = some (b, vq) → vq.slots slot = some id →
        chains id = e.chains id) : Step channel e { e with chains }
  | fault : Step channel e { e with faulted := true }

abbrev Reaches (channel : ChannelModel) : Endpoint → Endpoint → Prop :=
  Relation.ReflTransGen (Step channel)

def Live (channel : ChannelModel) (e : Endpoint) : Prop :=
  channelInit channel = .ok ∧ ∃ chains, Reaches channel ⟨false, fun _ => none, chains⟩ e

/-- Every object is a reachable queue object of this channel, and no chain is in two objects. -/
structure Sound (channel : ChannelModel) (e : Endpoint) : Prop where
  object : ∀ i b vq, e.objects i = some (b, vq) → b.channel = channel ∧ Reachable b (e.view vq)
  disjoint : ∀ i j b b' vq vq' slot slot' id, i ≠ j → e.objects i = some (b, vq) →
    e.objects j = some (b', vq') → vq.slots slot = some id → vq'.slots slot' ≠ some id

end Endpoint

theorem Transition.frame {call : Call} (h : Transition b s generation call reply s') {id : ChainId}
    (hstate : (s.chains id).state ≠ .free) (hid : ∀ slot, s.vq.slots slot ≠ some id) :
    s'.chains id = s.chains id ∧ ∀ slot, s'.vq.slots slot ≠ some id := by
  have hfree : ∀ {x}, (s.chains x).state = .free → id ≠ x := by
    rintro x hx rfl
    exact hstate hx
  have howned : ∀ {x state}, owned b s x state = true → id ≠ x := by
    rintro x state hx rfl
    exact hid _ (owned_iff.mp hx).2.2
  have hupdate : ∀ {slot x h}, id ≠ x → update s.vq.slots h (some x) slot ≠ some id := by
    intro slot x h hne
    by_cases hs : slot = h
    · subst hs
      rw [update_self]
      exact fun he => hne (Option.some.inj he).symm
    · rw [update_of_ne hs]
      exact hid slot
  have hnone : ∀ {slot h}, update s.vq.slots h none slot ≠ some id := by
    intro slot h he
    exact hid slot (SlotTable.update_none_eq_some he).2
  cases h with
  | refused | stopped | failed | observed => exact ⟨rfl, hid⟩
  | published x c notify h =>
    exact ⟨update_of_ne (hfree h.free) .., fun _ => hupdate (hfree h.free)⟩
  | publishFailed x c s' h hs =>
    rcases hs with rfl | rfl <;>
      exact ⟨update_of_ne (hfree h.free) .., fun _ => hupdate (hfree h.free)⟩
  | taken x c h =>
    exact ⟨update_of_ne (hfree h.free) .., fun _ => hupdate (hfree h.free)⟩
  | takeFailed x c io side free hc => exact ⟨update_of_ne (hfree free) .., hid⟩
  | moved src dst h hne free stored room =>
    exact ⟨(update_of_ne (howned h.owned) ..).trans (update_of_ne (hfree free) ..),
      fun _ => hupdate (hfree free)⟩
  | handedBack x h | completed x notify h | released x h =>
    exact ⟨update_of_ne (howned h.owned) .., fun _ => hnone⟩
  | wrote x source h => exact ⟨update_of_ne (howned h.owned) .., hid⟩
  | completeFailed x h => exact ⟨rfl, hid⟩
  | returned x length h => exact ⟨update_of_ne (howned h.owned) .., hid⟩

theorem Reachable.call (h : Reachable b s) {t : List ((e : Access) × e.call.Answer)}
    (hr : Run (perform b s r) t (reply, s')) : Reachable b s' := by
  obtain ⟨start, log, hopen, hruns⟩ := h
  exact ⟨start, _, hopen, hruns.call r t reply s' hr⟩

theorem Reachable.surroundings (h : Reachable b s) {chains : ChainId → Chain} {faulted : Bool}
    (hkeep : ∀ slot id, s.vq.slots slot = some id → chains id = s.chains id)
    (hflag : faulted = false → s.faulted = false) : Reachable b ⟨s.vq, chains, faulted⟩ := by
  obtain ⟨start, log, hopen, hruns⟩ := h
  have hcaller := hruns.caller chains hkeep
  cases faulted with
  | true => exact ⟨start, log, hopen, hcaller.flag⟩
  | false =>
    refine ⟨start, log, hopen, ?_⟩
    rw [← hflag rfl]
    exact hcaller

namespace Endpoint

theorem Sound.slot_state (hs : Sound channel e) {vq : Vq} (hi : e.objects i = some (b, vq))
    {slot : ℕ} {id : ChainId} (hslot : vq.slots slot = some id) : (e.chains id).state ≠ .free := by
  intro hfree
  exact (hs.object i b vq hi).2.sound.owns.not_held hfree slot hslot

variable {t : List ((e : Access) × e.call.Answer)}

theorem Sound.call (hs : Sound channel e) (h : e.Calls i r t reply e') : Sound channel e' := by
  obtain ⟨b, vq, t, reply, s', hi, hr⟩ := h
  obtain ⟨hchannel, hreach⟩ := hs.object i b vq hi
  have htr := ((perform_behaves hreach.bound r).of_run hr).2
  -- Chains of the other objects are outside this object's reach.
  have hframe : ∀ {j b' vq' slot id}, j ≠ i → e.objects j = some (b', vq') →
      vq'.slots slot = some id → s'.chains id = e.chains id ∧ ∀ slot, s'.vq.slots slot ≠ some id := by
    intro j b' vq' slot id hne hj hslot
    exact htr.frame (hs.slot_state hj hslot) fun slot' =>
      hs.disjoint j i b' b vq' vq slot slot' id hne hj hi hslot
  have hobject : ∀ {j b' vq'}, update e.objects i (some (b, s'.vq)) j = some (b', vq') →
      (j = i ∧ b' = b ∧ vq' = s'.vq) ∨ (j ≠ i ∧ e.objects j = some (b', vq')) := by
    intro j b' vq' hj
    by_cases hji : j = i
    · subst hji
      rw [update_self] at hj
      cases hj
      exact Or.inl ⟨rfl, rfl, rfl⟩
    · rw [update_of_ne hji] at hj
      exact Or.inr ⟨hji, hj⟩
  constructor
  · intro j b' vq' hj
    rcases hobject hj with ⟨rfl, rfl, rfl⟩ | ⟨hne, hj⟩
    · exact ⟨hchannel, hreach.call hr⟩
    · obtain ⟨hchannel', hreach'⟩ := hs.object j b' vq' hj
      exact ⟨hchannel', hreach'.surroundings (fun slot id hslot => (hframe hne hj hslot).1)
        htr.running_of_running⟩
  · intro j k b' b'' vq' vq'' slot slot' id hjk hj hk hslot
    rcases hobject hj with ⟨rfl, -, rfl⟩ | ⟨hji, hj'⟩
    · rcases hobject hk with ⟨rfl, -, -⟩ | ⟨hki, hk'⟩
      · exact absurd rfl hjk
      · exact fun hslot' => (hframe hki hk' hslot').2 slot hslot
    · rcases hobject hk with ⟨-, -, rfl⟩ | ⟨-, hk'⟩
      · exact (hframe hji hj' hslot).2 slot'
      · exact hs.disjoint j k b' b'' vq' vq'' slot slot' id hjk hj' hk' hslot

theorem bind_flag_always (channel : ChannelModel) (chains : ChainId → Chain)
    (faulted arguments : Bool) (queueId : UInt32) (side : Side)
    (payloadAllowed : UInt32 → UInt64 → UInt64 → UInt32 → Bool) (capacity : ℕ) :
    Always (fun _ : Access => True)
      (fun o : Status × Bool × Option (Binding × State) =>
        (o.2.1 = false → faulted = false) ∧ (o.1 = .faulted ∨ o.1 = .io → o.2.1 = true) ∧
          ∀ b s, o.2.2 = some (b, s) → o.1 = .ok ∧ o.2.1 = false ∧ arguments = true ∧
            b.channel = channel ∧ b.side = side ∧ b.payloadAllowed = payloadAllowed ∧
            s = ⟨Vq.fresh, chains, false⟩)
      (bind channel chains faulted arguments queueId side payloadAllowed capacity) := by
  unfold bind
  refine always_ite (fun _ => ⟨fun h => h, fun h => by simp at h, nofun⟩) fun ha => ?_
  refine always_ite (fun hf => ⟨fun h => h, fun _ => hf, nofun⟩) fun hf => ?_
  simp only [Bool.not_eq_true] at hf
  simp only [Bool.not_eq_false] at ha
  cases channel.queues.reverse.find? fun q => q.queueId == queueId with
  | none => exact ⟨fun h => h, fun h => by simp at h, nofun⟩
  | some queue =>
    refine always_ite (fun _ => ⟨fun h => h, fun h => by simp at h, nofun⟩)
      fun _ => ⟨trivial, fun loaded => ?_⟩
    cases loaded with
    | none => exact ⟨nofun, fun _ => rfl, nofun⟩
    | some index =>
      refine always_ite (fun _ => ⟨nofun, fun _ => rfl, nofun⟩)
        fun _ => ⟨fun h => h, fun h => by simp at h, fun b s h => ?_⟩
      cases h
      exact ⟨rfl, hf, ha, rfl, rfl, rfl, by rw [hf]⟩

theorem Sound.binds (hinit : channelInit channel = .ok) (hs : Sound channel e) {arguments : Bool}
    (h : Binds channel e i arguments queueId side payloadAllowed capacity t status e') :
    Sound channel e' := by
  cases h with
  | failed faulted hr =>
    have hflag := ((bind_flag_always _ _ _ _ _ _ _ _).of_run hr).2.1
    refine ⟨fun j b vq hj => ?_, hs.disjoint⟩
    obtain ⟨hchannel, hreach⟩ := hs.object j b vq hj
    exact ⟨hchannel, hreach.surroundings (fun _ _ _ => rfl) hflag⟩
  | bound faulted b s hr =>
    obtain ⟨hflag, -, hbound⟩ := ((bind_flag_always _ _ _ _ _ _ _ _).of_run hr).2
    obtain ⟨hok, hclear, rfl, rfl, rfl, rfl, rfl⟩ := hbound b s rfl
    dsimp only at hflag hok hclear
    subst hok hclear
    have hwas : e.faulted = false := hflag rfl
    have hobject : ∀ {j b' vq'}, update e.objects i (some (b, Vq.fresh)) j = some (b', vq') →
        (b' = b ∧ vq' = Vq.fresh) ∨ (e.objects j = some (b', vq')) := by
      intro j b' vq' hj
      by_cases hji : j = i
      · subst hji
        rw [update_self] at hj
        cases hj
        exact Or.inl ⟨rfl, rfl⟩
      · rw [update_of_ne hji] at hj
        exact Or.inr hj
    constructor
    · intro j b' vq' hj
      rcases hobject hj with ⟨rfl, rfl⟩ | hj
      · rw [hwas] at hr
        exact ⟨rfl, _, [], ⟨hinit, queueId, capacity, t, hr⟩, .start⟩
      · obtain ⟨hchannel, hreach⟩ := hs.object j b' vq' hj
        exact ⟨hchannel, hreach.surroundings (fun _ _ _ => rfl) fun _ => hwas⟩
    · intro j k b' b'' vq' vq'' slot slot' id hjk hj hk hslot
      rcases hobject hj with ⟨rfl, rfl⟩ | hj
      · cases hslot
      · rcases hobject hk with ⟨rfl, rfl⟩ | hk
        · exact fun hs' => by cases hs'
        · exact hs.disjoint j k b' b'' vq' vq'' slot slot' id hjk hj hk hslot

theorem Live.sound (h : Live channel e) :
    Sound channel e := by
  obtain ⟨hinit, chains, hreach⟩ := h
  induction hreach with
  | refl =>
    refine ⟨?_, ?_⟩
    · intro _ _ _ h
      cases h
    · intro _ _ _ _ _ _ _ _ _ _ h
      cases h
  | tail _ hstep ih =>
    cases hstep with
    | call i r t reply e' h => exact ih.call h
    | bind i arguments queueId side payloadAllowed capacity t status e' h => exact ih.binds hinit h
    | caller chains hkeep =>
      refine ⟨fun i b vq hi => ?_, ih.disjoint⟩
      obtain ⟨hchannel, hobj⟩ := ih.object i b vq hi
      exact ⟨hchannel, hobj.surroundings (fun slot id => hkeep i b vq slot id hi) fun h => h⟩
    | fault =>
      refine ⟨fun i b vq hi => ?_, ih.disjoint⟩
      obtain ⟨hchannel, hobj⟩ := ih.object i b vq hi
      exact ⟨hchannel, hobj.surroundings (fun _ _ _ => rfl) nofun⟩

theorem Calls.refused (hs : Sound channel e) (h : e.Calls i r t reply e')
    (href : reply.status.refuses = true) : e' = e ∧ ∀ x ∈ t, x.1.call.writes = false := by
  obtain ⟨b, vq, t, reply, s', hi, hr⟩ := h
  have hb := (hs.object i b vq hi).2.bound
  refine ⟨?_, refused_writes_nothing hb hr href⟩
  obtain rfl : s' = e.view vq := ((perform_behaves hb r).of_run hr).2.refused_same href
  change Endpoint.mk e.faulted (update e.objects i (some (b, vq))) e.chains = e
  rw [← hi, update_eq_self]

theorem Calls.stopped (hs : Sound channel e) (hf : e.faulted = true) (h : e.Calls i r t reply e')
    (hvq : r.vq = .bound) (hgen : r.generation = channel.identity.generation) :
    t = [] ∧ reply.status = .faulted ∧ e' = e := by
  obtain ⟨b, vq, t, reply, s', hi, hr⟩ := h
  obtain ⟨hchannel, hreach⟩ := hs.object i b vq hi
  have hnonzero := hreach.bound.accepted.generation
  have hcheck : check b (e.view vq) r.vq r.generation = .faulted := by
    have hflag : (e.view vq).faulted = true := hf
    unfold check
    rw [hvq, hgen, ← hchannel, if_neg (by simp [hnonzero]), if_neg (not_not.mpr rfl), if_pos hflag]
  rw [perform_of_check (by rw [hcheck]; decide), hcheck] at hr
  obtain ⟨rfl, rfl, rfl⟩ := run_finish hr
  refine ⟨rfl, rfl, ?_⟩
  change Endpoint.mk e.faulted (update e.objects i (some (b, vq))) e.chains = e
  rw [← hi, update_eq_self]

theorem Binds.stopped (hf : e.faulted = true)
    (h : Binds channel e i true queueId side payloadAllowed capacity t status e') :
    t = [] ∧ status = .faulted ∧ e' = e := by
  have hbind : bind channel e.chains e.faulted true queueId side payloadAllowed capacity =
      .done (.faulted, e.faulted, none) := by
    unfold bind
    rw [if_neg (by decide), if_pos hf]
  cases h with
  | failed faulted hr =>
    rw [hbind] at hr
    cases hr
    exact ⟨rfl, rfl, rfl⟩
  | bound faulted b s hr =>
    rw [hbind] at hr
    cases hr

theorem Binds.flag {arguments : Bool}
    (h : Binds channel e i arguments queueId side payloadAllowed capacity t status e') :
    (e'.faulted = false → e.faulted = false) ∧
      (status = .faulted ∨ status = .io → e'.faulted = true) := by
  cases h with
  | failed faulted hr =>
    have hflag := ((bind_flag_always _ _ _ _ _ _ _ _).of_run hr).2
    exact ⟨hflag.1, hflag.2.1⟩
  | bound faulted b s hr =>
    have hflag := ((bind_flag_always _ _ _ _ _ _ _ _).of_run hr).2
    exact ⟨hflag.1, hflag.2.1⟩

theorem Step.faulted (hs : Sound channel e) (h : Step channel e e') (hf : e.faulted = true) :
    e'.faulted = true := by
  cases h with
  | call i r t reply e' h =>
    obtain ⟨b, vq, t, reply, s', hi, hr⟩ := h
    have htr := ((perform_behaves (hs.object i b vq hi).2.bound r).of_run hr).2
    by_contra hn
    have hclear := htr.running_of_running (Bool.not_eq_true _ ▸ hn)
    change e.faulted = false at hclear
    rw [hf] at hclear
    cases hclear
  | bind i arguments queueId side payloadAllowed capacity t status e' h =>
    by_contra hn
    have hclear := h.flag.1 (Bool.not_eq_true _ ▸ hn)
    rw [hf] at hclear
    cases hclear
  | caller => exact hf
  | fault => rfl

theorem Live.later (h : Live channel e) (hr : Reaches channel e e') : Live channel e' := by
  obtain ⟨hinit, chains, hreach⟩ := h
  exact ⟨hinit, chains, hreach.trans hr⟩

theorem Reaches.faulted (h : Live channel e) (hr : Reaches channel e e') (hf : e.faulted = true) :
    e'.faulted = true := by
  induction hr with
  | refl => exact hf
  | tail hreach hstep ih => exact hstep.faulted (h.later hreach).sound ih

end Endpoint

/-- Refused calls change nothing and write nothing, failed calls set the channel's flag, and
once it is set every call of the current generation on every object, and every bind, is
answered FAULTED without a callback. -/
theorem fault_discipline {channel : ChannelModel} {e : Endpoint} (h : Endpoint.Live channel e) :
    (∀ i r t reply e', e.Calls i r t reply e' →
      (reply.status.refuses = true → e' = e ∧ ∀ x ∈ t, x.1.call.writes = false) ∧
      (reply.status = .stale → t = []) ∧
      (reply.status = .faulted ∨ reply.status = .io → e'.faulted = true)) ∧
    (∀ i arguments queueId side payloadAllowed capacity t status e',
      Endpoint.Binds channel e i arguments queueId side payloadAllowed capacity t status e' →
      status = .faulted ∨ status = .io → e'.faulted = true) ∧
    (e.faulted = true → ∀ later, Endpoint.Reaches channel e later → later.faulted = true ∧
      (∀ i r t reply e', later.Calls i r t reply e' → r.vq = .bound →
        r.generation = channel.identity.generation →
        t = [] ∧ reply.status = .faulted ∧ e' = later) ∧
      ∀ i queueId side payloadAllowed capacity t status e',
        Endpoint.Binds channel later i true queueId side payloadAllowed capacity t status e' →
        t = [] ∧ status = .faulted ∧ e' = later) := by
  refine ⟨fun i r t reply e' hcall => ⟨hcall.refused h.sound, ?_, ?_⟩, ?_, ?_⟩
  · obtain ⟨b, vq, t, reply, s', hi, hr⟩ := hcall
    exact stale_asks_nothing (h.sound.object i b vq hi).2.bound hr
  · obtain ⟨b, vq, t, reply, s', hi, hr⟩ := hcall
    exact ((perform_behaves (h.sound.object i b vq hi).2.bound r).of_run hr).2.fault_flagged
  · intro i arguments queueId side payloadAllowed capacity t status e' hbind
    exact hbind.flag.2
  · intro hf later hreach
    have hlater := Endpoint.Reaches.faulted h hreach hf
    refine ⟨hlater, fun i r t reply e' hcall => hcall.stopped (h.later hreach).sound hlater, ?_⟩
    intro i queueId side payloadAllowed capacity t status e' hbind
    exact hbind.stopped hlater

/-- A channel with one bound device queue, after `kb2_vq_channel_fault`. -/
theorem sample_fault_sticky :
    let e : Endpoint := ⟨true, update (fun _ => none) 0
      (some (Sample.binding .device, Vq.fresh)), Sample.chains⟩
    ∀ later, Endpoint.Reaches Sample.channel e later → later.faulted = true ∧
      ∀ i r t reply e', later.Calls i r t reply e' → r.vq = .bound → r.generation = 7 →
        t = [] ∧ reply.status = .faulted ∧ e' = later := by
  intro e later hreach
  have hbind := run_execute Access.exec (bind Sample.channel Sample.chains false true 1 .device
    Sample.payloadAllowed 4) Sample.memory
  have hlive : Endpoint.Live Sample.channel e :=
    ⟨Sample.accepted, Sample.chains, .tail (.tail .refl (.bind 0 true 1 .device Sample.payloadAllowed
      4 _ _ _ (.bound _ _ _ _ _ hbind))) .fault⟩
  have h := (fault_discipline hlive).2.2 rfl later hreach
  exact ⟨h.1, h.2.1⟩

end Kobox.Virtqueue
