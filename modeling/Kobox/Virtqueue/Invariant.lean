import Kobox.Virtqueue.Transition

/-!
# The invariant of a queue object

A run of a queue object interleaves calls, against any memory, with what its surroundings may do:
the caller changes chain objects the queue does not own, and another queue object of the channel
sets the fault flag.
-/

namespace Kobox.Virtqueue
open ByteMemory Protocol Resumption SlotTable Function Option

variable {b : Binding} {s : State} {id : ChainId} {c : Chain} {state : ChainState}

theorem map_update_of_ne {slot : Option ChainId} {chains : ChainId → Chain} (h : slot ≠ some id) :
    slot.map (update chains id c) = slot.map chains := by
  cases slot with
  | none => rfl
  | some id' =>
    have hne : id' ≠ id := fun he => h (congrArg some he)
    simp only [map_some, update_of_ne hne]

theorem held_setChain_of_not_held (hid : ∀ h, s.vq.slots h ≠ some id) :
    (s.setChain id c).held = s.held := by
  funext h
  exact map_update_of_ne (hid h)

theorem held_claim (hid : ∀ h, s.vq.slots h ≠ some id) :
    (claim s id c state).held =
      update s.held c.head.toNat (some { c with state }) := by
  funext h
  by_cases hh : h = c.head.toNat
  · rw [hh, update_self]
    exact held_claim_self s id c state
  · rw [update_of_ne hh]
    simp only [State.held, claim, update_of_ne hh]
    exact map_update_of_ne (hid h)

/-- The chain `id` is in slot `h` and in no other. -/
structure InSlot (s : State) (id : ChainId) (h : ℕ) : Prop where
  slot : s.vq.slots h = some id
  unique : ∀ h', s.vq.slots h' = some id → h' = h

theorem InSlot.held (hi : InSlot s id (s.chains id).head.toNat) :
    s.held (s.chains id).head.toNat = some (s.chains id) := by
  rw [State.held, hi.slot, map_some]

theorem held_drop (hi : InSlot s id (s.chains id).head.toNat) :
    (drop s id).held = update s.held (s.chains id).head.toNat none := by
  funext h
  by_cases hh : h = (s.chains id).head.toNat
  · subst hh
    simp only [State.held, drop, update_self, map_none]
  · rw [update_of_ne hh]
    simp only [State.held, drop, update_of_ne hh]
    exact map_update_of_ne fun he => hh (hi.unique h he)

theorem held_setChain {h : ℕ} (hi : InSlot s id h) :
    (s.setChain id c).held = update s.held h (some c) := by
  funext h'
  by_cases hh : h' = h
  · subst hh
    simp only [State.held, State.setChain, hi.slot, update_self, map_some]
  · rw [update_of_ne hh]
    exact map_update_of_ne fun he => hh (hi.unique h' he)

theorem held_moved {src dst : ChainId} (hi : InSlot s src (s.chains src).head.toNat)
    (hdst : ∀ h, s.vq.slots h ≠ some dst) (hne : dst ≠ src) :
    (s.moved src dst).held = update s.held (s.chains src).head.toNat
      (some { s.chains src with segments := copySegments (s.chains src) (s.chains dst) }) := by
  funext h
  by_cases hh : h = (s.chains src).head.toNat
  · subst hh
    simp only [State.held, State.moved, update_self, map_some,
      update_of_ne hne]
  · rw [update_of_ne hh]
    simp only [State.held, State.moved, update_of_ne hh]
    rw [map_update_of_ne fun he => hh (hi.unique h he), map_update_of_ne (hdst h)]

/-! ### Ownership is kept -/

theorem Owns.held_of_slot (ho : Owns b s) {h : ℕ} (hs : s.vq.slots h = some id) :
    Held b h (s.chains id) :=
  ho.booked.held h _ (by rw [State.held, hs, map_some])

theorem Owns.inSlot (ho : Owns b s) {h : ℕ} (hs : s.vq.slots h = some id) :
    InSlot s id (s.chains id).head.toNat := by
  have hhead := (ho.held_of_slot hs).head
  refine ⟨hhead ▸ hs, fun h' hs' => ?_⟩
  exact (ho.held_of_slot hs').head.symm

theorem Owns.id_of_head (ho : Owns b s) {h h' : ℕ} {id' : ChainId} (hs : s.vq.slots h = some id)
    (hs' : s.vq.slots h' = some id') (hhead : (s.chains id).head = (s.chains id').head) :
    id = id' := by
  have hslot := (ho.inSlot hs).1
  rw [hhead, (ho.inSlot hs').1] at hslot
  exact (some.inj hslot).symm

theorem Owns.inSlot_of_owned (ho : Owns b s) (h : owned b s id state = true) :
    InSlot s id (s.chains id).head.toNat := ho.inSlot (owned_iff.mp h).2.2

theorem not_holds_free (side : Side) : ¬ side.Holds .free := by
  cases side <;> simp [Side.Holds]

theorem Owns.not_held (ho : Owns b s) (hfree : (s.chains id).state = .free) (h : ℕ) :
    s.vq.slots h ≠ some id := by
  intro hs
  have hstate := (ho.held_of_slot hs).state
  rw [hfree] at hstate
  exact not_holds_free _ hstate

theorem Owns.claim (hb : b.Bound) (ho : Owns b s) (hfree : (s.chains id).state = .free)
    (hroom : s.vq.owned < b.queue.maxOutstanding.toNat) {c₀ : Chain} {chains : ChainId → Chain}
    (hchains : ∀ id', id' ≠ id → chains id' = s.chains id')
    (hc : validateChain b s.vq chains c₀ = some c) (hstate : b.side.Holds state) :
    Owns b (claim s id c state) := by
  obtain ⟨hsegs, hlen, hv, hfresh, rfl⟩ := validateChain_eq_some_iff.mp hc
  have hnot := ho.not_held hfree
  constructor
  · rw [held_claim hnot]
    refine ho.booked.insert hb (c := { c₀.counted with state := state }) ⟨rfl, hstate, hsegs, hlen,
      hv, Nat.zero_le _, Nat.zero_le _, Nat.zero_le _⟩ ?_ hfresh.owner ?_ hroom
    · change (s.vq.slots c₀.head.toNat).map s.chains = none
      rw [hfresh.slot, map_none]
    · intro h c' hc'
      obtain ⟨id', hslot, rfl⟩ := map_eq_some_iff.mp hc'
      have hheld := ho.held_of_slot hslot
      have hne : id' ≠ id := by
        rintro rfl
        exact hnot h hslot
      have hclear := hfresh.clear h hheld.lt id' hslot
      rw [hchains id' hne] at hclear
      exact (chainsOverlap_eq_false_iff (a := c₀.counted) hv.noWraps hheld.valid.noWraps).mp hclear
  · intro id' hlast
    obtain ⟨hside, h, hslot⟩ := ho.lastTaken id' hlast
    refine ⟨hside, h, ?_⟩
    have hne : h ≠ c₀.counted.head.toNat := by
      rintro rfl
      rw [show s.vq.slots c₀.counted.head.toNat = none from hfresh.slot] at hslot
      cases hslot
    simp only [Virtqueue.claim, update_of_ne hne]
    exact hslot

theorem Owns.drop (hb : b.Bound) (ho : Owns b s) (hi : InSlot s id (s.chains id).head.toNat) :
    Owns b (drop s id) := by
  constructor
  · rw [held_drop hi]
    exact ho.booked.erase hb hi.held
  · intro id' hlast
    simp only [Virtqueue.drop] at hlast
    split_ifs at hlast with hid
    obtain ⟨hside, h, hslot⟩ := ho.lastTaken id' hlast
    refine ⟨hside, h, ?_⟩
    have hne : h ≠ (s.chains id).head.toNat := by
      rintro rfl
      rw [hi.slot] at hslot
      exact hid (hlast.trans hslot.symm)
    simp only [Virtqueue.drop, update_of_ne hne]
    exact hslot

theorem Owns.setChain (ho : Owns b s) (hi : InSlot s id (s.chains id).head.toNat)
    (hc : Held b (s.chains id).head.toNat c) (hw : c.wire = (s.chains id).wire) :
    Owns b (s.setChain id c) := by
  constructor
  · rw [held_setChain hi]
    exact ho.booked.replace hi.held hc hw
  · exact ho.lastTaken

theorem Owns.setChain_of_not_held (ho : Owns b s) (hid : ∀ h, s.vq.slots h ≠ some id) :
    Owns b (s.setChain id c) := by
  constructor
  · rw [held_setChain_of_not_held hid]
    exact ho.booked
  · exact ho.lastTaken

theorem copySegments_wire {held room : Chain} (hlen : held.count ≤ held.capacity)
    (hstored : room.segments.isSome) :
    ({ held with segments := copySegments held room } : Chain).wire = held.wire := by
  obtain ⟨storage, hstorage⟩ := isSome_iff_exists.mp hstored
  have hsegs : ({ held with segments := copySegments held room } : Chain).segs = held.segs := by
    simp only [Chain.segs, Chain.storage, copySegments, hstorage, map_some, getD_some]
    exact List.take_left' (segs_length hlen)
  simp only [Chain.wire, hsegs]

theorem copySegments_capacity {held room : Chain} (hlen : held.count ≤ held.capacity)
    (hstored : room.segments.isSome) :
    held.count ≤ ({ held with segments := copySegments held room } : Chain).capacity := by
  obtain ⟨storage, hstorage⟩ := isSome_iff_exists.mp hstored
  simp only [Chain.capacity, Chain.storage, copySegments, hstorage, map_some,
    getD_some, List.length_append]
  exact Nat.le_add_right_of_le (segs_length hlen).ge

theorem Owns.moved {src dst : ChainId} (ho : Owns b s) (h : Holding b s .device src .accepted)
    (hne : dst ≠ src) (free : (s.chains dst).state = .free)
    (stored : (s.chains dst).segments.isSome) : Owns b (s.moved src dst) := by
  have hi := ho.inSlot_of_owned h.owned
  have hheld := ho.held_of_slot hi.slot
  constructor
  · rw [held_moved hi (ho.not_held free) hne]
    refine ho.booked.replace hi.held ⟨hheld.head, hheld.state, ?_, ?_, ?_, hheld.written_le,
      hheld.written_max, hheld.used_le⟩ (copySegments_wire hheld.count_le stored)
    · rw [copySegments, isSome_map]
      exact stored
    · exact copySegments_capacity hheld.count_le stored
    · rw [copySegments_wire hheld.count_le stored]
      exact hheld.valid
  · intro id hlast
    refine ⟨h.side, ?_⟩
    simp only [State.moved] at hlast ⊢
    split_ifs at hlast with hsrc
    · exact ⟨_, by rw [update_self]; exact hlast⟩
    · obtain ⟨-, h', hslot⟩ := ho.lastTaken id hlast
      refine ⟨h', ?_⟩
      have hne' : h' ≠ (s.chains src).head.toNat := by
        rintro rfl
        rw [hi.slot] at hslot
        exact hsrc (hlast.trans hslot.symm)
      rw [update_of_ne hne']
      exact hslot

theorem Owns.congr {s' : State} (ho : Owns b s) (hslots : s'.vq.slots = s.vq.slots)
    (hchains : s'.chains = s.chains) (howner : s'.vq.descriptorOwner = s.vq.descriptorOwner)
    (howned : s'.vq.owned = s.vq.owned) (hlast : s'.vq.lastTaken = s.vq.lastTaken) : Owns b s' := by
  have hheld : s'.held = s.held := by
    funext h
    rw [State.held, State.held, hslots, hchains]
  refine ⟨?_, ?_⟩
  · rw [hheld, howner, howned]
    exact ho.booked
  · rw [hlast, hslots]
    exact ho.lastTaken

theorem Owns.fault (ho : Owns b s) (io : Bool) : Owns b (fault s io).2 :=
  ho.congr rfl rfl rfl rfl rfl

theorem Owns.produce (ho : Owns b s) : Owns b s.produce := ho.congr rfl rfl rfl rfl rfl

section
variable (hb : b.Bound) (ho : Owns b s)
include hb ho

theorem Publishable.claimed (h : Publishable b s id c) : Owns b (claim s id c .submitted) := by
  have hroom : s.vq.owned < b.queue.maxOutstanding.toNat :=
    Nat.lt_of_le_of_ne ho.booked.owned_le h.room
  exact ho.claim hb h.free hroom (fun _ _ => rfl) h.accepted (by rw [h.side]; exact Or.inl rfl)

theorem Acceptable.claimed (h : Acceptable b s id c) : Owns b (claim s id c .accepted) := by
  obtain ⟨snapshot, -, hval⟩ := h.accepted
  exact ho.claim hb h.free h.room (fun _ hne => update_of_ne hne _ _) hval
    (by rw [h.side]; exact rfl)

theorem Owns.taken (h : Acceptable b s id c) : Owns b (s.taken id c) := by
  have hclaim := h.claimed hb ho
  refine ⟨hclaim.booked, fun id' hlast => ⟨h.side, c.head.toNat, ?_⟩⟩
  rw [State.taken] at hlast ⊢
  cases hlast
  exact update_self ..

end

theorem Owns.wrote (ho : Owns b s) (h : Holding b s .device id .accepted) {n : ℕ}
    (room : n ≤ (s.chains id).writable - (s.chains id).written)
    (width : n ≤ uint32Max - (s.chains id).written) : Owns b (s.wrote id n) := by
  have hi := ho.inSlot_of_owned h.owned
  have hheld := ho.held_of_slot hi.slot
  have h1 := hheld.written_le
  have h2 := hheld.written_max
  exact ho.setChain hi ⟨hheld.head, hheld.state, hheld.stored, hheld.count_le, hheld.valid,
    by dsimp only; omega, by dsimp only; omega, hheld.used_le⟩ rfl

theorem Owns.returned (ho : Owns b s) (h : Holding b s .driver id .submitted) {length : UInt32}
    (hle : length.toNat ≤ (s.chains id).writable) : Owns b (s.returned id length) := by
  have hi := ho.inSlot_of_owned h.owned
  have hheld := ho.held_of_slot hi.slot
  have hset := ho.setChain hi (c := { s.chains id with usedLength := length, state := .returned })
    ⟨hheld.head, by rw [h.side]; exact Or.inr rfl, hheld.stored, hheld.count_le, hheld.valid,
      hheld.written_le, hheld.written_max, hle⟩ rfl
  exact hset.congr rfl rfl rfl rfl rfl

theorem Transition.owns (hb : b.Bound) (ho : Owns b s) {generation : UInt64} {call : Call}
    {reply : Reply} {s' : State}
    (h : Transition b s generation call reply s') : Owns b s' := by
  cases h with
  | refused => exact ho
  | stopped => exact ho
  | failed _ io => exact ho.fault io
  | observed => exact ho
  | published id c notify h => exact (h.claimed hb ho).produce
  | publishFailed id c s' h hs =>
    rcases hs with rfl | rfl
    · exact (h.claimed hb ho).fault true
    · exact (h.claimed hb ho).produce.fault true
  | taken id c h => exact ho.taken hb h
  | takeFailed id c io side free hc => exact (ho.setChain_of_not_held (ho.not_held free)).fault io
  | moved src dst h hne free stored room => exact ho.moved h hne free stored
  | handedBack id h last hw => exact (ho.drop hb (ho.inSlot_of_owned h.owned)).congr rfl rfl rfl rfl rfl
  | wrote id source h data room width => exact ho.wrote h room width
  | completed id notify h =>
    have hi := ho.inSlot_of_owned h.owned
    exact ho.produce.drop hb ⟨hi.slot, hi.unique⟩
  | completeFailed id h => exact ho.produce.fault true
  | returned id length h hle pending => exact ho.returned h hle
  | released id h => exact ho.drop hb (ho.inSlot_of_owned h.owned)

/-! ### Counters -/

def submittedCount (b : Binding) (s : State) : ℕ :=
  count b.queue.queueSize.toNat s.held fun c => c.state == .submitted

/-- The distance of the two 16-bit counters is the number of chains the peer may still answer. -/
def Counters (b : Binding) (s : State) : Prop :=
  match b.side with
  | .driver => (s.vq.produced - s.vq.consumed).toNat = submittedCount b s
  | .device => (s.vq.consumed - s.vq.produced).toNat = s.vq.owned

theorem toNat_add_one {x : UInt16} (h : x.toNat ≤ 32768) : (x + 1).toNat = x.toNat + 1 := by
  rw [UInt16.toNat_add]
  change (x.toNat + 1) % 2 ^ 16 = _
  omega

theorem toNat_sub_one {x : UInt16} (h : 0 < x.toNat) : (x - 1).toNat = x.toNat - 1 := by
  have h1 : (1 : UInt16) ≤ x := by
    rw [UInt16.le_iff_toNat_le]
    exact h
  rw [UInt16.toNat_sub_of_le _ _ h1]
  rfl

theorem Owns.owned_le_max (hb : b.Bound) (ho : Owns b s) : s.vq.owned ≤ 32768 :=
  (ho.booked.owned_le.trans hb.wellFormed.outstanding_le).trans hb.wellFormed.size_le

theorem Owns.submitted_le (ho : Owns b s) : submittedCount b s ≤ s.vq.owned := by
  rw [ho.booked.owned_eq]
  exact count_le_of_imp fun _ _ => rfl

theorem Owns.owned_pos (ho : Owns b s) (hi : InSlot s id (s.chains id).head.toNat) :
    0 < s.vq.owned := by
  rw [ho.booked.owned_eq]
  exact count_pos (ho.held_of_slot hi.slot).lt hi.held rfl

theorem Counters.published (hb : b.Bound) (ho : Owns b s) (h : Publishable b s id c)
    (hc : Counters b s) : Counters b (Virtqueue.claim s id c .submitted).produce := by
  obtain ⟨-, -, hv, hfresh, rfl⟩ := validateChain_eq_some_iff.mp h.accepted
  have hmax := ho.submitted_le.trans (ho.owned_le_max hb)
  have hnone : s.held (s.chains id).counted.head.toNat = none := by
    change (s.vq.slots (s.chains id).head.toNat).map s.chains = none
    rw [hfresh.slot, map_none]
  have hlt : (s.chains id).counted.head.toNat < b.queue.queueSize.toNat := hv.head_lt
  simp only [Counters, h.side] at hc ⊢
  change (s.vq.produced + 1 - s.vq.consumed).toNat =
    count _ (Virtqueue.claim s id (s.chains id).counted .submitted).held _
  have hsub : s.vq.produced + 1 - s.vq.consumed = s.vq.produced - s.vq.consumed + 1 := by grind
  rw [hsub, toNat_add_one (hc ▸ hmax), hc, held_claim (ho.not_held h.free),
    count_insert hlt hnone rfl, submittedCount]

theorem Counters.returned (ho : Owns b s) (h : Holding b s .driver id .submitted)
    {length : UInt32} (hc : Counters b s) : Counters b (s.returned id length) := by
  have hi := ho.inSlot_of_owned h.owned
  have hlt := (ho.held_of_slot hi.slot).lt
  have hstate := (owned_iff.mp h.owned).2.1
  have hpos : 0 < submittedCount b s := count_pos hlt hi.held (by simp [hstate])
  simp only [Counters, h.side] at hc ⊢
  change (s.vq.produced - (s.vq.consumed + 1)).toNat = count _ (s.setChain id _).held _
  have hsub : s.vq.produced - (s.vq.consumed + 1) = s.vq.produced - s.vq.consumed - 1 := by grind
  rw [hsub, toNat_sub_one (hc ▸ hpos), hc, held_setChain hi,
    count_remove hlt (by simp [hi.held, hstate]) rfl, submittedCount]

theorem Counters.released (ho : Owns b s) (h : Holding b s .driver id .returned)
    (hc : Counters b s) : Counters b (Virtqueue.drop s id) := by
  have hi := ho.inSlot_of_owned h.owned
  have hlt := (ho.held_of_slot hi.slot).lt
  have hstate := (owned_iff.mp h.owned).2.1
  simp only [Counters, h.side] at hc ⊢
  change (s.vq.produced - s.vq.consumed).toNat = count _ (Virtqueue.drop s id).held _
  rw [hc, held_drop hi, count_keep hlt (by simp [hi.held, hstate]), submittedCount]

theorem Transition.counters (hb : b.Bound) (ho : Owns b s) {generation : UInt64} {call : Call}
    {reply : Reply} {s' : State} (h : Transition b s generation call reply s')
    (hc : s.faulted = false → Counters b s) (hf : s'.faulted = false) : Counters b s' := by
  cases h with
  | refused => exact hc hf
  | stopped => exact hc hf
  | failed => cases hf
  | observed => exact hc hf
  | published id c notify h => exact (hc hf).published hb ho h
  | publishFailed => cases hf
  | taken id c h =>
    have hcount := hc hf
    simp only [Counters, h.side] at hcount ⊢
    change (s.vq.consumed + 1 - s.vq.produced).toNat = s.vq.owned + 1
    have hsub : s.vq.consumed + 1 - s.vq.produced = s.vq.consumed - s.vq.produced + 1 := by grind
    rw [hsub, toNat_add_one (hcount ▸ ho.owned_le_max hb), hcount]
  | takeFailed => cases hf
  | moved src dst h hne free stored room =>
    have hcount := hc hf
    simp only [Counters, h.side] at hcount ⊢
    exact hcount
  | handedBack id h last hw =>
    have hcount := hc hf
    have hpos := ho.owned_pos (ho.inSlot_of_owned h.owned)
    simp only [Counters, h.side] at hcount ⊢
    change (s.vq.consumed - 1 - s.vq.produced).toNat = s.vq.owned - 1
    have hsub : s.vq.consumed - 1 - s.vq.produced = s.vq.consumed - s.vq.produced - 1 := by grind
    rw [hsub, toNat_sub_one (hcount ▸ hpos), hcount]
  | wrote id source h data room width =>
    have hcount := hc hf
    simp only [Counters, h.side] at hcount ⊢
    exact hcount
  | completed id notify h =>
    have hcount := hc hf
    have hpos := ho.owned_pos (ho.inSlot_of_owned h.owned)
    simp only [Counters, h.side] at hcount ⊢
    change (s.vq.consumed - (s.vq.produced + 1)).toNat = s.vq.owned - 1
    have hsub : s.vq.consumed - (s.vq.produced + 1) = s.vq.consumed - s.vq.produced - 1 := by grind
    rw [hsub, toNat_sub_one (hcount ▸ hpos), hcount]
  | completeFailed => cases hf
  | returned id length h hle pending => exact (hc hf).returned ho h
  | released id h => exact (hc hf).released ho h

end Kobox.Virtqueue
