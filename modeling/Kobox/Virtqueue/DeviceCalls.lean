import Kobox.Virtqueue.DeviceSteps
import Kobox.Virtqueue.DriverCalls
import Kobox.Virtqueue.Reading

/-!
# Calls of an honest device
-/

namespace Kobox.Virtqueue
open ByteMemory Protocol Resumption SlotTable List Function
variable {vq : Handle} {generation : UInt64} {w : Wire}

def Call.finishes (call : Call) (v : DeviceView) : List (ℕ × List UInt8) :=
  match call with
  | .complete (some id) _ => [(v.tag id, v.responses (v.tag id))]
  | _ => []

/-- How far the view of the ghost is ahead of the view `base` before the call. -/
structure DeviceView.Ahead (base : DeviceView) (finishes : List (ℕ × List UInt8)) (v : DeviceView) :
    Prop where
  takes : v.takes = base.takes
  completions : v.completions <+: base.completions ++ finishes
  notifies : base.notifies <+: v.notifies
  armed : base.armed = true → v.armed = true

theorem DeviceView.Ahead.refl (base : DeviceView) (finishes : List (ℕ × List UInt8)) :
    base.Ahead finishes base :=
  ⟨rfl, prefix_append _ _, prefix_refl _, fun h => h⟩

/-- The device's side of a lane. -/
abbrev device (L : Lane) : Party DeviceGhost DeviceView DriverGhost where
  lane := L
  side := .device
  view := DeviceGhost.view
  Quiet v := v.phase = .quiet
  start := .start
  hear := .hear
  Tracks v s := v.Tracks (L.binding .device) s
  Shared v d m := Shared L d v m
  Keeps base r _ v := base.Ahead (r.call.finishes base) v.view
  keeps _ _ _ := .refl _ _
  caller ht hkeep := ht.caller hkeep

abbrev DeviceSafe (L : Lane) := (device L).Safe

abbrev DeviceIdle (L : Lane) := (device L).Idle

abbrev DeviceStarts (L : Lane) := (device L).Starts

section Device
variable {L : Lane} {d : DriverGhost} {v : DeviceGhost} {m : Memory} {s : State} {r : Request}

section
variable (hb : (L.binding .driver).Bound)
include hb

theorem pendingIndex_device_safe {base : DeviceView} {Q : Outcome → DeviceGhost → Prop}
    {next : Status → UInt16 → Op Outcome} (hahead : base.Ahead (r.call.finishes base) v.view)
    (hconsumed : s.vq.consumed = UInt16.ofNat v.view.takes.length)
    (hnext : ∀ d m, Shared L d v m → ∀ distance : UInt16,
      distance.toNat = d.view.wires.length - v.view.takes.length → ∃ v', Shared L d v' m ∧
        DeviceSafe L base r Q (next (if distance ≠ 0 then .ok else .empty) distance) v') :
    DeviceSafe L base r Q (pendingIndex (L.binding .device) s next) v := by
  refine pendingIndex_safe rfl ⟨nofun, hahead⟩ fun d m h => ?_
  obtain ⟨h1, h2, h3, h4, h5, h6⟩ := h.ledger.order
  have hsize := (L.wellFormed hb).size_le
  have hmax := (L.wellFormed hb).outstanding_le
  have hdist : (UInt16.ofNat d.view.wires.length - s.vq.consumed).toNat =
      d.view.wires.length - v.view.takes.length := by
    rw [hconsumed]
    exact toNat_ofNat_sub_ofNat h4 (by omega)
  have hload : readU16 (read m (L.queue.availableAddress + 2).toNat 2) =
      UInt16.ofNat d.view.wires.length := by
    rw [availableIndex_at hb]
    exact readU16_of_holds h.available.index
  obtain ⟨v', h', hsafe⟩ := hnext d m h _ hdist
  refine ⟨_, v', hload, ?_, h', hsafe⟩
  rw [not_or, not_and, hdist]
  refine ⟨?_, nofun⟩
  change ¬ L.queue.maxOutstanding.toNat < _
  omega

theorem DeviceIdle.peekAvailable (hi : DeviceIdle L v s) (pending : Bool) :
    DeviceStarts L v s ⟨vq, generation, .peekAvailable pending⟩
      (Virtqueue.peekAvailable (L.binding .device) s vq generation pending) := by
  refine hi.checked (hi.unless (by simp) fun _ => ?_)
  intro d m h
  exact ⟨v, h, pendingIndex_device_safe hb (.refl _ _) hi.tracks.consumed fun d m h _ _ =>
    ⟨v, h, .refl _ _, hi.running, fun d m h => ⟨v, h, hi.quiet, rfl⟩⟩⟩

theorem DeviceIdle.arm (hi : DeviceIdle L v s) (ready : Bool) :
    DeviceStarts L v s ⟨vq, generation, .arm ready⟩
      (Virtqueue.arm (L.binding .device) s vq generation ready) := by
  refine hi.checked (hi.unless (by simp) fun _ => ?_)
  intro d m h
  have hevent := availableEvent_at hb
  refine ⟨v, h, ⟨fun _ x hx => ?_, .refl _ _⟩, fun d m h => ⟨{ v with event := true }, ?_, ?_⟩⟩
  · change Span.Mem x ⟨(availableEvent L.queue).toNat, 2⟩ at hx
    rw [hevent] at hx
    exact inLane_ring (by omega) (availableEvent_within L) hx
  · have hstore := h.storeAvailableEvent hb
    rw [← hevent, ← hi.tracks.consumed] at hstore
    exact hstore
  · have hahead : v.view.Ahead (Call.finishes (.arm ready) v.view)
        (DeviceGhost.view { v with event := true }) := .refl _ _
    refine ⟨⟨nofun, hahead⟩, fun d m h => ⟨_, h, ?_⟩⟩
    refine pendingIndex_device_safe hb hahead hi.tracks.consumed fun d m h distance hdist => ?_
    have hle := h.ledger.takes_le
    by_cases hz : distance ≠ 0
    · rw [if_pos hz]
      exact ⟨_, h, hahead, hi.running, fun d m h => ⟨_, h, hi.quiet, rfl⟩⟩
    · rw [if_neg hz]
      rw [distance_ne_zero, not_not] at hz
      refine ⟨_, h.armDevice rfl ?_,
        ⟨rfl, prefix_append _ _, prefix_refl _, fun _ => rfl⟩, hi.running,
        fun d m h => ⟨_, h, hi.quiet, rfl⟩⟩
      change _ = v.view.takes.length
      change v.view.takes.length ≤ _ at hle
      change distance.toNat = _ - v.view.takes.length at hdist
      omega

theorem Shared.head_load (h : Shared L d v m) (hp : v.phase = .reading w) :
    Holds m (L.availableEntryAt v.view.takes.length) (writeU16 w.head) := by
  obtain ⟨h1, h2, h3, h4, h5, h6⟩ := h.ledger.order
  have hmax := (L.wellFormed hb).outstanding_le
  exact h.available.entry _ w (h.ledger.reading w hp) (by omega)

end

variable {c : Chain}

theorem DeviceIdle.compatible (hi : DeviceIdle L v s)
    (h : Shared L d { v with phase := .reading w } m) {slot : ℕ} (hc : s.held slot = some c) :
    w.Compatible c.wire := by
  obtain ⟨id, hs, rfl⟩ := Option.map_eq_some_iff.mp hc
  have hid := (hi.tracks.slot slot id hs).pending
  have hlive := h.ledger.live_of_pending (h.ledger.takes_wire hid.1) hid.2
  refine h.ledger.compatible _ _ _ _ ?_ (h.ledger.reading_live rfl) hlive
  have hlt : v.view.tag id < v.view.takes.length := lt_length_of_getElem? hid.1
  exact hlt.ne'

theorem Owns.fresh {b : Binding} (ho : Owns b s) (hv : w.Valid b)
    (hc : ∀ slot c, s.held slot = some c → w.Compatible c.wire) :
    s.vq.slots w.head.toNat = none ∧ ∀ e ∈ w.directDescriptors, s.vq.descriptorOwner e.toNat = 0 := by
  constructor
  · cases hs : s.vq.slots w.head.toNat with
    | none => rfl
    | some id =>
      exfalso
      have hheld := ho.held_of_slot hs
      have hcompat := hc _ _ (by rw [State.held, hs, Option.map_some])
      exact hcompat.head_ne hv hheld.valid (UInt16.toNat_inj.mp hheld.head.symm)
  · intro e he
    refine ho.booked.books.unused e.toNat fun slot c hslot hu => ?_
    obtain ⟨e', he', heq⟩ := hu
    rw [UInt16.toNat_inj.mp heq] at he'
    exact (hc slot c hslot).descriptors e he he'

theorem ReadTo.wire {b : Binding} (hv : w.Valid b) {room : ℕ} {inTable : Bool}
    (hr : ReadTo w room w.segments.length inTable c) (hz : w.indirectLength ≠ 0 → inTable = true) :
    c.counted.wire = w := by
  have hsegs : c.segs = w.segments := by
    rw [hr.segs, take_length]
  have hfields : c.indirect = w.indirect ∧ c.indirectLength = w.indirectLength ∧
      c.indirectFirst = w.indirectFirst ∧ c.indirectDescriptor = w.indirectDescriptor := by
    rw [hr.indirect, hr.indirectLength, hr.indirectFirst, hr.indirectDescriptor]
    cases inTable with
    | true => exact ⟨rfl, rfl, rfl, rfl⟩
    | false =>
      have hzero : w.indirectLength = 0 := by
        by_contra hne
        exact absurd (hz hne) (by simp)
      obtain ⟨h1, h2, h3⟩ := hv.noTable hzero
      exact ⟨h1.symm, hzero.symm, h2.symm, h3.symm⟩
  obtain ⟨h1, h2, h3, h4⟩ := hfields
  change (⟨c.head, c.segs, c.indirect, c.indirectLength, c.indirectDescriptor, c.indirectFirst,
    readableBytes c.segs, writableBytes c.segs⟩ : Wire) = w
  rw [hsegs, h1, h2, h3, h4, hr.head, ← hv.readable_eq, ← hv.writable_eq]

theorem DeviceIdle.validates (hi : DeviceIdle L v s) (hv : w.Valid (L.binding .device))
    (hc : ∀ slot c, s.held slot = some c → w.Compatible c.wire) {id : ChainId}
    (hfree : (s.chains id).state = .free) {inTable : Bool}
    (hr : ReadTo w L.queue.maxChainLength.toNat w.segments.length inTable c)
    (hz : w.indirectLength ≠ 0 → inTable = true) :
    validateChain (L.binding .device) s.vq (update s.chains id c) c = some c.counted := by
  have hwire := hr.wire hv hz
  have hfresh := hi.sound.owns.fresh hv hc
  have hlen : w.segments.length ≤ L.queue.maxChainLength.toNat := hv.count_le
  have hnot := hi.sound.owns.not_held hfree
  have hdirect : c.wire.directDescriptors = w.directDescriptors := by
    rw [← hwire]
    rfl
  refine validateChain_eq_some_iff.mpr ⟨hr.stored, ?_, ?_, ⟨?_, ?_, ?_⟩, rfl⟩
  · have hcap := hr.capacity
    rw [hr.count]
    omega
  · rw [hwire]
    exact hv
  · rw [hr.head]
    exact hfresh.1
  · rw [hdirect]
    exact hfresh.2
  · intro slot _ id' hs
    have hne : id' ≠ id := fun he => hnot slot (he ▸ hs)
    rw [update_of_ne hne]
    have hheld := hi.sound.owns.held_of_slot hs
    have hclear := (hc slot _ (by rw [State.held, hs, Option.map_some])).clear
    rw [← hwire] at hclear hv
    exact (chainsOverlap_eq_false_iff (a := c.counted) hv.noWraps hheld.valid.noWraps).mpr hclear

theorem readChain_device_safe (hi : DeviceIdle L v s) (hv : w.Valid (L.binding .device))
    (hc : ∀ slot c, s.held slot = some c → w.Compatible c.wire) {id : ChainId}
    (hfree : (s.chains id).state = .free) (hstored : (s.chains id).segments.isSome)
    (hroom : L.queue.maxChainLength.toNat ≤ (s.chains id).capacity) :
    DeviceSafe L v.view r (fun o v' => v' = { v with phase := .reading w } ∧ ∃ c : Chain, c.wire = w ∧
        o = (⟨.ok, .nothing⟩, s.setChain id c))
      (readChain (L.binding .device) (s.setChain id { s.chains id with head := w.head }) id)
      { v with phase := .reading w } := by
  have hstart : ReadTo w L.queue.maxChainLength.toNat 0 false
      ({ s.chains id with head := w.head } : Chain).cleared :=
    ⟨rfl, hfree, hstored, hroom, rfl, rfl, rfl, rfl, rfl, rfl⟩
  have hloop : DeviceSafe L v.view r (fun o v' => v' = { v with phase := .reading w } ∧ ∃ c inTable,
        ReadTo w L.queue.maxChainLength.toNat w.segments.length inTable c ∧
        (w.indirectLength ≠ 0 → inTable = true) ∧ o = (⟨.ok, .nothing⟩, s.setChain id c))
      (readDescriptors (L.binding .device) id (L.queue.maxChainLength.toNat + 1)
        (s.setChain id ({ s.chains id with head := w.head } : Chain).cleared)
        L.queue.descriptorAddress L.queue.queueSize.toNat w.head false)
      { v with phase := .reading w } := by
    refine readWire_safe hv (Nat.le_refl _) (fun d m h x hx => ?_)
      (fun _ _ _ => ⟨nofun, .refl _ _⟩)
      (fun c inTable hr hz => ⟨rfl, c, inTable, hr, hz, rfl⟩) hstart
    exact h.descriptors.live _ w (h.ledger.reading_live rfl) x hx
  unfold readChain
  simp only [setChain_chains_self, setChain_setChain]
  refine hloop.bind ?_
  rintro o v' ⟨rfl, c, inTable, hr, hz, rfl⟩
  have hval : validateChain (L.binding .device) (s.setChain id c).vq (s.setChain id c).chains
      ((s.setChain id c).chains id) = some c.counted := by
    rw [setChain_chains_self]
    exact hi.validates hv hc hfree hr hz
  rw [if_neg (not_not.mpr rfl), hval]
  refine ⟨rfl, c.counted, hr.wire hv hz, ?_⟩
  rw [setChain_setChain]

theorem DeviceIdle.takeAvailable (hb : (L.binding .driver).Bound) (hi : DeviceIdle L v s)
    (chain : Option ChainId) :
    DeviceStarts L v s ⟨vq, generation, .takeAvailable chain⟩
      (Virtqueue.takeAvailable (L.binding .device) s vq generation chain) := by
  refine hi.chained ?_
  rintro id rfl hargs
  simp only [not_or, not_not, Nat.not_lt] at hargs
  obtain ⟨-, hfree, hstored, hroom⟩ := hargs
  rw [Bool.not_eq_true, Option.isNone_eq_false_iff] at hstored
  have howned : s.vq.owned = v.view.takes.length - v.view.completions.length :=
    hi.tracks.owned_eq (hb.peer .device) (hi.sound.counters hi.running) rfl
  intro d m h
  refine ⟨v, h, pendingIndex_device_safe hb (.refl _ _) hi.tracks.consumed
    fun d m h distance hdist => ?_⟩
  by_cases hlt : v.view.takes.length < d.view.wires.length
  · have hne : distance ≠ 0 := distance_ne_zero.mpr (by omega)
    have hwindow : ¬ (L.binding .device).queue.maxOutstanding.toNat <
        s.vq.owned + distance.toNat := by
      obtain ⟨h1, h2, h3, h4, h5, h6⟩ := h.ledger.order
      change ¬ L.queue.maxOutstanding.toNat < _
      omega
    obtain ⟨w, h'⟩ := h.seePublication hi.quiet hlt
    rw [if_pos hne, if_neg (not_not.mpr rfl), if_neg hwindow]
    refine ⟨_, h', safe_read ⟨nofun, .refl _ _⟩ fun d m h =>
      ⟨writeU16 w.head, _, ?_, h, fun answer hanswer => ?_⟩⟩
    · have hholds := h.head_load hb rfl
      have haddr := availableEntry_at hb .device v.view.takes.length
      rw [← hi.tracks.consumed] at haddr
      rw [← haddr] at hholds
      exact hholds
    · have hhead : readU16 answer.val = w.head := by
        rw [hanswer]
        exact (congrArg readU16 (append_nil _).symm).trans (readU16_writeU16 _ [])
      have hv : w.Valid (L.binding .device) :=
        (h.ledger.valid _ w (h.ledger.reading_live rfl)).peer .device
      have hc : ∀ slot c, s.held slot = some c → w.Compatible c.wire :=
        fun slot c hslot => hi.compatible h hslot
      have hfresh := hi.sound.owns.fresh hv hc
      have hpass : ¬ ((L.binding .device).queue.queueSize.toNat ≤ w.head.toNat ∨
          (s.vq.slots w.head.toNat).isSome = true ∨ s.vq.descriptorOwner w.head.toNat ≠ 0) := by
        have hmem := head_mem_directDescriptors hv.nonempty hv.first
        rw [hfresh.1, hfresh.2 _ hmem]
        simpa using hv.head_lt
      simp only [hhead, setChain_vq]
      rw [if_neg hpass]
      refine (readChain_device_safe hi hv hc hfree hstored hroom).bind ?_
      rintro o v' ⟨rfl, c, hwire, rfl⟩
      rw [if_neg (not_not.mpr rfl)]
      refine ⟨.refl _ _, hi.running, fun d m h => ⟨_, h.take rfl id, rfl, ?_⟩⟩
      have hend : ((claim (s.setChain id c) id ((s.setChain id c).chains id) .accepted).chains
          id).wire = w := by
        simp only [claim, update_self, setChain_chains_self]
        exact hwire
      exact congrArg (v.view.take id) hend.symm
  · have hz : ¬ distance ≠ 0 := by
      rw [distance_ne_zero]
      omega
    rw [if_neg hz]
    exact ⟨v, h, hi.refuse (by simp)⟩

theorem DeviceIdle.moveAccepted (hi : DeviceIdle L v s) (source destination : Option ChainId) :
    DeviceStarts L v s ⟨vq, generation, .moveAccepted source destination⟩
      (Virtqueue.moveAccepted (L.binding .device) s vq generation source destination) := by
  refine hi.checked ?_
  cases source with
  | none => exact hi.finish (by simp)
  | some src =>
    cases destination with
    | none => exact hi.finish (by simp)
    | some dst =>
      refine hi.unless (by simp) fun _ => ?_
      intro d m h
      exact ⟨v, h, .refl _ _, hi.running, fun d m h => ⟨_, h.move src dst, hi.quiet, rfl⟩⟩

theorem DeviceIdle.returnAvailable (hi : DeviceIdle L v s) (chain : Option ChainId) :
    DeviceStarts L v s ⟨vq, generation, .returnAvailable chain⟩
      (Virtqueue.returnAvailable (L.binding .device) s vq generation chain) := by
  refine hi.chained ?_
  rintro id rfl hargs
  simp only [not_or, not_not, Bool.not_eq_false] at hargs
  obtain ⟨-, howned, hlast, -⟩ := hargs
  have hid := hi.tracks.slot _ id (owned_iff.mp howned).2.2
  intro d m h
  have hpending : v.view.tag id ∉ v.entries.map Prod.fst := by
    rw [v.entries_of_quiet hi.quiet]
    exact hid.pending.2
  exact ⟨v, h, .refl _ _, hi.running, fun d m h =>
    ⟨_, h.giveBack (hi.tracks.last id hlast) hpending hi.quiet, hi.quiet, rfl⟩⟩

/-! ### Payload -/

theorem DeviceIdle.copyRequest (hi : DeviceIdle L v s) (chain : Option ChainId) (offset size : ℕ)
    (out : Bool) :
    DeviceStarts L v s ⟨vq, generation, .copyRequest chain offset size out⟩
      (Virtqueue.copyRequest (L.binding .device) s vq generation chain offset size out) := by
  refine hi.chained ?_
  rintro id rfl hargs
  simp only [not_or, not_not, Bool.not_eq_false, Nat.not_lt] at hargs
  obtain ⟨-, howned, -, hoffset, hsize⟩ := hargs
  have hheld := hi.sound.owns.held_of_slot (owned_iff.mp howned).2.2
  have htotal : (s.chains id).readable = readableBytes (s.chains id).segs :=
    hheld.valid.readable_eq
  intro d m h
  refine ⟨v, h, copyData_request_safe (fun _ _ => ⟨nofun, .refl _ _⟩) (by omega) fun bytes => ?_⟩
  exact ⟨.refl _ _, hi.running, fun d m h => ⟨v, h, hi.quiet, rfl⟩⟩

theorem DeviceView.respond_nil (v : DeviceView) (n : ℕ) : v.respond n [] = v := by
  unfold DeviceView.respond
  rw [append_nil, update_eq_self]

theorem DeviceView.respond_respond (v : DeviceView) (n : ℕ) (bytes more : List UInt8) :
    (v.respond n bytes).respond n more = v.respond n (bytes ++ more) := by
  simp only [DeviceView.respond, update_self, update_idem, append_assoc]

theorem Wire.Valid.segment_address (hv : w.Valid (L.binding .driver)) {p : Segment}
    (hp : p ∈ w.segments) {offset size : ℕ} (h : offset + size ≤ p.length.toNat) :
    (p.address + UInt64.ofNat offset).toNat = p.address.toNat + offset :=
  Segment.address_toNat (hv.noWraps.2 p hp) (by omega)

theorem Wire.Valid.write_within (hv : w.Valid (L.binding .driver)) {p : Segment}
    (hp : p ∈ w.segments) {offset size : ℕ} (h : offset + size ≤ p.length.toNat) :
    Span.Within ⟨(p.address + UInt64.ofNat offset).toNat, size⟩ p.span := by
  rw [hv.segment_address hp h]
  simp only [Segment.span, Span.Within]
  omega

def DeviceGhost.respond (v : DeviceGhost) (n : ℕ) (bytes : List UInt8) : DeviceGhost :=
  { v with view := v.view.respond n bytes }

theorem DeviceGhost.respond_nil (v : DeviceGhost) (n : ℕ) : v.respond n [] = v := by
  rw [DeviceGhost.respond, DeviceView.respond_nil]

variable (hb : (L.binding .driver).Bound) (hi : DeviceIdle L v s)
include hb hi

theorem DeviceIdle.writeResponse (chain : Option ChainId) (source : Source) :
    DeviceStarts L v s ⟨vq, generation, .writeResponse chain source⟩
      (Virtqueue.writeResponse (L.binding .device) s vq generation chain source) := by
  refine hi.chained ?_
  rintro id rfl hargs
  simp only [not_or, not_not, Bool.not_eq_false, Nat.not_lt] at hargs
  obtain ⟨-, howned, hdata, hroom, hwidth⟩ := hargs
  have hslot := (owned_iff.mp howned).2.2
  have hid := hi.tracks.slot _ id hslot
  have hheld := hi.sound.owns.held_of_slot hslot
  have hv : (s.chains id).wire.Valid (L.binding .driver) := hheld.valid.peer .driver
  have htotal : (s.chains id).writable = writableBytes (s.chains id).segs :=
    hheld.valid.writable_eq
  have hlen : source.bytes.length = source.size := by
    cases source with
    | null size => exact (by simpa [Source.isNull, Source.size] using hdata : size = 0).symm
    | data bytes => rfl
  have hwritten := hheld.written_le
  have hmax := hheld.written_max
  have hcopy : DeviceSafe L v.view ⟨vq, generation, .writeResponse (some id) source⟩
      (fun o v' => o = (⟨.ok, .nothing⟩, s) ∧ v' = v.respond (v.view.tag id) source.bytes)
      (copyData s 1 true (s.chains id).segs (s.chains id).written source.bytes
        source.bytes.length) (v.respond (v.view.tag id) []) := by
    refine copyData_write_safe (fun done part p offset hp hpw hoff hloc hfits hle => ?_)
      (fun p hp => ?_) (fun _ hp => hp) (fun k => by rw [Nat.zero_add]) (Nat.zero_add _)
      (?_ : 0 + (s.chains id).written = (v.view.responses (v.view.tag id)).length + 0) (by omega)
      (Nat.le_of_eq ((Nat.zero_add _).trans hlen)) ⟨rfl, rfl⟩
    · have hin := hv.write_within (L := L) hp hoff
      constructor
      · refine ⟨fun _ x hx => inLane_segment hb hv hp hin hx, ?_⟩
        exact ⟨rfl, prefix_append _ _, prefix_refl _, fun ha => ha⟩
      · intro d m h
        have hresponse : (v.respond (v.view.tag id) done).view.responses (v.view.tag id) =
            v.view.responses (v.view.tag id) ++ done := DeviceView.respond_self ..
        have hbefore : ((v.respond (v.view.tag id) done).view.responses (v.view.tag id)).length =
            (v.view.responses (v.view.tag id)).length + done.length := by
          rw [hresponse, length_append]
        have hstep := h.respond hb hi.quiet hid.pending.1 hid.pending.2 hp hpw hin
          (fun i hi => ?_) ?_ ?_
        · rw [DeviceGhost.respond, ← DeviceView.respond_respond]
          exact hstep
        · rw [hbefore, hv.segment_address hp hoff]
          exact hloc i hi
        · rw [hbefore]
          exact hfits.trans (Nat.le_of_eq htotal.symm)
        · rw [hbefore, ← hid.written]
          omega
    · obtain ⟨i, hp⟩ := mem_iff_getElem?.mp hp
      exact (hheld.valid.segment i p hp).writable
    · rw [hid.written, Nat.zero_add, Nat.add_zero]
  rw [v.respond_nil, hlen] at hcopy
  intro d m h
  refine ⟨v, h, hcopy.bind ?_⟩
  rintro o v' ⟨rfl, rfl⟩
  dsimp only
  rw [if_pos rfl]
  exact ⟨⟨rfl, prefix_append _ _, prefix_refl _, fun ha => ha⟩, hi.running,
    fun d m h => ⟨_, h, hi.quiet, rfl⟩⟩

theorem DeviceIdle.complete (chain : Option ChainId) (notify : Bool) :
    DeviceStarts L v s ⟨vq, generation, .complete chain notify⟩
      (Virtqueue.complete (L.binding .device) s vq generation chain notify) := by
  refine hi.chained ?_
  rintro id rfl hargs
  simp only [not_or, not_not, Bool.not_eq_false] at hargs
  have hslot := (owned_iff.mp hargs.2.1).2.2
  have hid := hi.tracks.slot _ id hslot
  have hentry := usedEntry_at hb .device v.view.completions.length
  rw [← hi.tracks.produced] at hentry
  intro d m h
  refine ⟨v, h, ⟨fun _ x hx => ?_, .refl _ _⟩, fun d m h =>
    ⟨{ v with phase := .completing (v.view.tag id) }, ?_, ?_⟩⟩
  · change Span.Mem x ⟨(L.queue.usedAddress + 4 +
      8 * ringSlot (L.binding .device) s.vq.produced).toNat, 8⟩ at hx
    rw [hentry] at hx
    exact inLane_ring (by omega) (usedEntry_within hb _) hx
  · have hwrite := h.writeElement hb hi.quiet hid.pending.1 hid.pending.2
    rw [← hentry, ← hid.written] at hwrite
    exact hwrite
  · have hahead : v.view.Ahead (Call.finishes (.complete (some id) notify) v.view)
        (v.view.finish (v.view.tag id)) :=
      ⟨rfl, prefix_refl _, prefix_refl _, fun ha => ha⟩
    have hpublish : DeviceSafe L v.view ⟨vq, generation, .complete (some id) notify⟩
        (fun o v' => ∃ flag, o = (⟨.ok, .flag flag⟩, s.produce) ∧
          v' = ⟨v.view.complete id flag, .quiet, v.event⟩)
        (publishIndex s L.queue.usedAddress (usedEvent L.queue))
        { v with phase := .completing (v.view.tag id) } := by
      refine publishIndex_safe (k := ⟨v.view.finish (v.view.tag id), .notifying, v.event⟩)
        ⟨fun _ x hx => ?_, .refl _ _⟩ (fun d m h => ?_) ⟨nofun, hahead⟩ ⟨nofun, hahead⟩
        fun d m h => ⟨_, h.decide_completion rfl fun hthreshold => ?_, _, rfl, rfl⟩
      · change Span.Mem x ⟨(L.queue.usedAddress + 2).toNat, 2⟩ at hx
        rw [usedIndex_at hb] at hx
        exact inLane_ring (by omega) (usedIndex_within L) hx
      · have hstore := h.storeUsedIndex hb rfl
        rw [← usedIndex_at hb, ← ofNat_succ, ← hi.tracks.produced] at hstore
        exact hstore
      · change _ = UInt16.ofNat v.view.notifies.length at hthreshold
        rw [usedEvent_at hb, hthreshold, hi.tracks.notifies, hi.tracks.produced, ofNat_succ]
        exact decide_eq_true (needs_event _)
    refine hpublish.bind ?_
    rintro o v' ⟨flag, rfl, rfl⟩
    dsimp only
    rw [if_pos rfl]
    exact ⟨⟨rfl, prefix_refl _, prefix_append _ _, fun ha => ha⟩, hi.running,
      fun d m h => ⟨_, h, rfl, rfl⟩⟩

theorem DeviceIdle.perform (r : Request) :
    DeviceStarts L v s r (Virtqueue.perform (L.binding .device) s r) := by
  obtain ⟨vq, generation, call⟩ := r
  have hside : (L.binding .device).side ≠ .driver := by
    change Side.device ≠ .driver
    simp
  cases call with
  | peekAvailable pending => exact hi.peekAvailable hb pending
  | takeAvailable chain => exact hi.takeAvailable hb chain
  | moveAccepted source destination => exact hi.moveAccepted source destination
  | returnAvailable chain => exact hi.returnAvailable chain
  | copyRequest chain offset size out => exact hi.copyRequest chain offset size out
  | writeResponse chain source => exact hi.writeResponse hb chain source
  | complete chain notify => exact hi.complete hb chain notify
  | arm ready => exact hi.arm hb ready
  | takeUsed chainOut =>
    exact hi.checked (hi.unless (by simp) fun hn => absurd (Or.inl hside) hn)
  | publish chain | copyResponse chain | release chain =>
    exact hi.chained fun _ _ hn => absurd (Or.inl hside) hn

end Device

end Kobox.Virtqueue
