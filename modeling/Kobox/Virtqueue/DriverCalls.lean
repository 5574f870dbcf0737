import Kobox.Virtqueue.DriverSteps
import Kobox.Virtqueue.Party

/-!
# Calls of an honest driver
-/

namespace Kobox.Virtqueue
open ByteMemory Protocol Resumption List Function
variable {c : Chain} {status : Status} {Q : Outcome → DriverGhost → Prop} {n : ℕ} {w : Wire}
  {vq : Handle} {generation : UInt64}

def State.Shows (s : State) (w : Wire) : Prop := ∃ c, s.held w.head.toNat = some c ∧ c.wire = w

def Call.offers (call : Call) (s : State) : List Wire :=
  match call with
  | .publish (some id) _ => [(s.chains id).wire]
  | _ => []

/-- How far the ghost's view `v` is ahead of the view `base` before a call that offers `offers`. -/
structure DriverView.Ahead (base : DriverView) (offers : List Wire) (v : DriverView) : Prop where
  wires : v.wires <+: base.wires ++ offers
  used : v.used = base.used
  copies : v.copies = base.copies
  notifies : base.notifies <+: v.notifies
  armed : base.armed = true → v.armed = true

theorem DriverView.Ahead.refl (base : DriverView) (offers : List Wire) : base.Ahead offers base :=
  ⟨prefix_append _ _, rfl, rfl, prefix_refl _, fun h => h⟩

/-- Inside a call the private state shows what the ghost does, and the view gains only what the call
offers. -/
structure DriverKeeps (base : DriverView) (r : Request) (s : State) (d : DriverGhost) : Prop where
  shows : ∀ w, d.Shown w → s.Shows w
  ahead : base.Ahead (r.call.offers s) d.view

theorem DriverView.Tracks.shows {b : Binding} {s : State} {d : DriverGhost}
    (ht : d.view.Tracks b s) (hq : d.phase = .quiet) (hw : d.Shown w) : s.Shows w := by
  rcases hw with ⟨n, hn⟩ | hw
  · obtain ⟨id, hs, htag⟩ := ht.live n w hn
    have hlive := (ht.slot _ id hs).live
    rw [htag] at hlive
    refine ⟨s.chains id, by rw [State.held, hs, Option.map_some], ?_⟩
    exact Option.some.inj (hlive.1.symm.trans hn.1)
  · rw [hq] at hw
    cases hw

/-- The driver's side of a lane. -/
abbrev driver (L : Lane) : Party DriverGhost DriverView DeviceGhost where
  lane := L
  side := .driver
  view := DriverGhost.view
  Quiet d := d.phase = .quiet
  start := .start
  hear := .hear
  Tracks v s := v.Tracks (L.binding .driver) s
  Shared := Shared L
  Keeps := DriverKeeps
  keeps _ ht hq := ⟨fun _ => ht.shows hq, .refl _ _⟩
  caller ht hkeep := ht.caller hkeep

abbrev DriverSafe (L : Lane) := (driver L).Safe

abbrev DriverIdle (L : Lane) := (driver L).Idle

abbrev DriverStarts (L : Lane) := (driver L).Starts

section Driver
variable {L : Lane} {d : DriverGhost} {v : DeviceGhost} {m : Memory} {s : State} {r : Request}

theorem DriverIdle.shows (hi : DriverIdle L d s) (hw : d.Shown w) : s.Shows w :=
  hi.tracks.shows hi.quiet hw

theorem State.Shows.setChain (h : s.Shows w) (id : ChainId) (hc : c.wire = (s.chains id).wire) :
    (s.setChain id c).Shows w := by
  obtain ⟨c', hheld, hwire⟩ := h
  obtain ⟨id', hs, rfl⟩ := Option.map_eq_some_iff.mp hheld
  refine ⟨_, by rw [State.held, setChain_vq, hs, Option.map_some], ?_⟩
  by_cases he : id' = id
  · subst he
    rw [setChain_chains_self, hc, hwire]
  · exact (congrArg Chain.wire (update_of_ne he ..)).trans hwire

theorem Owns.compatible {b : Binding} (hb : b.Bound) (ho : Owns b s) {h h' : ℕ} {c' : Chain}
    (hc : s.held h = some c) (hc' : s.held h' = some c') (hne : h ≠ h') :
    c.wire.Compatible c'.wire := by
  refine ⟨fun e he he' => hne ?_, ho.booked.clear h h' c c' hne hc hc'⟩
  have htag := ho.booked.books.used h c e.toNat hc ⟨e, he, rfl⟩
  have htag' := ho.booked.books.used h' c' e.toNat hc' ⟨e, he', rfl⟩
  exact ho.booked.tag_inj hb hc hc' (htag.symm.trans htag')

section
variable (hb : (L.binding .driver).Bound)
include hb

theorem writeDescriptors_safe (hv : w.Valid (L.binding .driver)) {next : Op Outcome}
    {view : DriverView} {event : Bool} (hshow : ∀ w', (∃ n, view.Live n w') ∨ w = w' → s.Shows w')
    (hnext : DriverSafe L view r Q next ⟨view, .staging w (w.descriptors L.queue), event⟩)
    {rest written : List (UInt64 × List UInt8)} (hw : written ++ rest = w.descriptors L.queue) :
    DriverSafe L view r Q (writeAll s rest next) ⟨view, .staging w written, event⟩ := by
  induction rest generalizing written with
  | nil =>
    rw [append_nil] at hw
    rw [hw]
    exact hnext
  | cons x rest ih =>
    obtain ⟨address, bytes⟩ := x
    have hprefix : written ++ [(address, bytes)] <+: w.descriptors L.queue :=
      ⟨rest, by rw [← hw, append_assoc]; rfl⟩
    have hmem : (address, bytes) ∈ w.descriptors L.queue :=
      hprefix.subset (mem_append_right _ (mem_singleton_self _))
    refine ⟨⟨fun _ x hx => ?_, fun w' hw' => hshow w' ?_, .refl _ _⟩, fun v m h =>
      ⟨_, h.writeDescriptor hb rfl hprefix, ih ?_⟩⟩
    · rcases descriptors_place hb hv hmem with ⟨e, he, hspan⟩ | ⟨-, hin⟩
      · have hx' : Span.Mem x (writeSpan (address, bytes)) := hx
        rw [hspan] at hx'
        exact inLane_ring (by omega) (mainEntry_within (hv.directDescriptor_lt he)) hx'
      · exact inLane_table hb hv hin hx
    · rcases hw' with hw' | hw'
      · exact Or.inl hw'
      · exact Or.inr (Option.some.inj hw')
    · rw [← hw, append_assoc]
      rfl

theorem publishIndex_driver_safe {view : DriverView} {event : Bool} (id : ChainId)
    (hproduced : s.vq.produced = UInt16.ofNat view.wires.length)
    (hnotifies : view.notifies.length = view.wires.length)
    (hshow : ∀ w', (∃ n, view.Live n w') ∨ w = w' → s.Shows w') (hoffers : r.call.offers s = [w])
    (hdone : ∀ notify, Q (⟨.ok, .flag notify⟩, s.produce) ⟨view.publish id w notify, .quiet, event⟩) :
    DriverSafe L view r Q (publishIndex s L.queue.availableAddress (availableEvent L.queue))
      ⟨view, .entered w, event⟩ := by
  have hshow' : ∀ w', DriverGhost.Shown ⟨view.offer id w, .notifying, event⟩ w' → s.Shows w' := by
    rintro w' (⟨n, hn⟩ | hw')
    · rcases DriverView.live_offer _ hn with hn | ⟨-, rfl⟩
      · exact hshow w' (Or.inl ⟨n, hn⟩)
      · exact hshow w' (Or.inr rfl)
    · cases hw'
  have hoffers' : r.call.offers s.produce = [w] := hoffers
  have hahead : view.Ahead (r.call.offers s.produce) (view.offer id w) := by
    refine ⟨?_, rfl, rfl, prefix_refl _, fun ha => ha⟩
    rw [hoffers']
    exact prefix_refl _
  refine publishIndex_safe ⟨fun _ x hx => ?_, fun w' hw' => hshow w' ?_, .refl _ _⟩
    (fun v m h => ?_) ⟨nofun, hshow', hahead⟩ ⟨nofun, hshow', hahead⟩
    fun v m h => ⟨_, h.decide_notify rfl fun hthreshold => ?_, hdone _⟩
  · change Span.Mem x ⟨(L.queue.availableAddress + 2).toNat, 2⟩ at hx
    rw [availableIndex_at hb] at hx
    exact inLane_ring (by omega) (availableIndex_within L) hx
  · rcases hw' with hw' | hw'
    · exact Or.inl hw'
    · exact Or.inr (Option.some.inj hw')
  · have hstore := h.storeIndex hb rfl id
    rw [← availableIndex_at hb, ← ofNat_succ, ← hproduced] at hstore
    exact hstore
  · change _ = UInt16.ofNat view.notifies.length at hthreshold
    rw [availableEvent_at hb, hthreshold, hnotifies, hproduced, ofNat_succ]
    exact decide_eq_true (needs_event _)

theorem DriverIdle.claimed (hi : DriverIdle L d s) {id : ChainId}
    (h : Publishable (L.binding .driver) s id c) :
    (∀ n w, d.view.Live n w → c.wire.Compatible w) ∧
      ∀ w, (∃ n, d.view.Live n w) ∨ c.wire = w → (claim s id c .submitted).Shows w := by
  have ho := h.claimed hb hi.sound.owns
  have hself := held_claim_self s id c .submitted
  have hheld : (claim s id c .submitted).held =
      update s.held c.head.toNat (some { c with state := .submitted }) :=
    held_claim (hi.sound.owns.not_held h.free)
  have hslot : s.vq.slots c.head.toNat = none := by
    obtain ⟨-, -, -, hfresh, rfl⟩ := validateChain_eq_some_iff.mp h.accepted
    exact hfresh.slot
  have hother : ∀ n w, d.view.Live n w → w.head.toNat ≠ c.head.toNat ∧
      (claim s id c .submitted).Shows w := by
    intro n w hw
    obtain ⟨c', hc', hwire⟩ := hi.shows (Or.inl ⟨n, hw⟩)
    have hne : w.head.toNat ≠ c.head.toNat := by
      intro he
      rw [he, State.held, hslot] at hc'
      cases hc'
    refine ⟨hne, c', ?_, hwire⟩
    rw [hheld, update_of_ne hne]
    exact hc'
  constructor
  · intro n w hw
    obtain ⟨hne, c', hc', rfl⟩ := hother n w hw
    have hcompat := ho.compatible hb hself hc' hne.symm
    exact hcompat
  · rintro w (⟨n, hw⟩ | rfl)
    · exact (hother n w hw).2
    · exact ⟨_, hself, rfl⟩

theorem DriverIdle.publish (hi : DriverIdle L d s) (chain : Option ChainId) (notify : Bool) :
    DriverStarts L d s ⟨vq, generation, .publish chain notify⟩
      (Virtqueue.publish (L.binding .driver) s vq generation chain notify) := by
  refine hi.chained ?_
  rintro id rfl hargs
  refine hi.unless (by simp) fun hroom => ?_
  simp only [not_or, not_not, Bool.not_eq_false] at hargs
  cases hval : validateChain (L.binding .driver) s.vq s.chains (s.chains id) with
  | none => exact hi.finish (by simp)
  | some c =>
    have hpub : Publishable (L.binding .driver) s id c :=
      ⟨rfl, hi.running, hargs.2.1, hroom, hval⟩
    obtain ⟨hcompat, hshow⟩ := hi.claimed hb hpub
    have hheld := (hpub.claimed hb hi.sound.owns).booked.held _ _
      (held_claim_self s id c .submitted)
    have hv : c.wire.Valid (L.binding .driver) := hheld.valid
    have hopen := hi.tracks.open_lt hb hi.sound.owns (hi.sound.counters hi.running) rfl hroom
    have hproduced : (claim s id c .submitted).vq.produced = UInt16.ofNat d.view.wires.length :=
      hi.tracks.produced
    intro v m h
    refine ⟨⟨d.view, .staging c.wire [], d.event⟩, h.stage hi.quiet hv hcompat hopen, ?_⟩
    have hwrites : descriptorWrites (L.binding .driver) c = c.wire.descriptors L.queue :=
      descriptorWrites_eq hheld.count_le
    change DriverSafe L _ _ _ (publishClaimed (L.binding .driver) (claim s id c .submitted) c) _
    rw [publishClaimed, writeAll_append, hwrites]
    refine writeDescriptors_safe hb hv hshow ?_ (nil_append _)
    have hentry := availableEntry_at hb .driver d.view.wires.length
    rw [← hproduced] at hentry
    have hwire : ((claim s id c .submitted).chains id).wire = c.wire := by
      simp only [claim, update_self]
      rfl
    have hoffers : Call.offers (.publish (some id) notify) (claim s id c .submitted) = [c.wire] :=
      congrArg (fun w => [w]) hwire
    refine ⟨⟨fun _ x hx => ?_, fun w hw => hshow w ?_, .refl _ _⟩, fun v m h =>
      ⟨⟨d.view, .entered c.wire, d.event⟩, ?_, publishIndex_driver_safe hb id hproduced
        hi.tracks.notifies hshow hoffers fun flag => ?_⟩⟩
    · change Span.Mem x ⟨(L.queue.availableAddress + 4 +
        2 * ringSlot (L.binding .driver) (claim s id c .submitted).vq.produced).toNat, 2⟩ at hx
      rw [hentry] at hx
      exact inLane_ring (by omega) (availableEntry_within hb _) hx
    · rcases hw with hw | hw
      · exact Or.inl hw
      · exact Or.inr (Option.some.inj hw)
    · have hwrite := h.writeEntry hb rfl
      rw [← hentry] at hwrite
      exact hwrite
    · refine ⟨⟨fun w hw => hshow w ?_, ?_, rfl, rfl, prefix_append _ _, fun ha => ha⟩,
        hi.running, fun v m h => ⟨_, h, rfl, ?_⟩⟩
      · rcases hw with ⟨n, hn⟩ | hw
        · rcases DriverView.live_offer id (w := c.wire) hn with hn | ⟨-, rfl⟩
          · exact Or.inl ⟨n, hn⟩
          · exact Or.inr rfl
        · cases hw
      · change d.view.wires ++ [c.wire] <+:
          d.view.wires ++ Call.offers (.publish (some id) notify) (claim s id c .submitted)
        rw [hoffers]
      · exact congrArg (fun w => d.view.publish id w flag) hwire.symm

/-! ### Taking completions -/

theorem Shared.loadUsed (h : Shared L d v m) :
    readU16 (read m (L.queue.usedAddress + 2).toNat 2) =
      UInt16.ofNat v.view.completions.length := by
  rw [usedIndex_at hb]
  exact readU16_of_holds h.used.index

theorem pendingIndex_driver_safe {next : Status → UInt16 → Op Outcome}
    (hconsumed : s.vq.consumed = UInt16.ofNat d.view.used.length)
    (hproduced : s.vq.produced = UInt16.ofNat d.view.wires.length) {base : DriverView}
    (hguard : (driver L).Guard base r ⟨s, .loadAcquire (L.queue.usedAddress + 2)⟩ d)
    (hnext : ∀ v m, Shared L d v m → ∀ distance : UInt16,
      distance.toNat = v.view.completions.length - d.view.used.length → ∃ d', Shared L d' v m ∧
        DriverSafe L base r Q (next (if distance ≠ 0 then .ok else .empty) distance) d') :
    DriverSafe L base r Q (pendingIndex (L.binding .driver) s next) d := by
  refine pendingIndex_safe rfl hguard fun v m h => ?_
  obtain ⟨h1, h2, h3, h4, h5, h6⟩ := h.ledger.order
  have hsize := (L.wellFormed hb).size_le
  have hmax := (L.wellFormed hb).outstanding_le
  have hdist : (UInt16.ofNat v.view.completions.length - s.vq.consumed).toNat =
      v.view.completions.length - d.view.used.length := by
    rw [hconsumed]
    exact toNat_ofNat_sub_ofNat h1 (by omega)
  have hown : (s.vq.produced - s.vq.consumed).toNat =
      d.view.wires.length - d.view.used.length := by
    rw [hconsumed, hproduced]
    exact toNat_ofNat_sub_ofNat (by omega) (by omega)
  obtain ⟨d', h', hsafe⟩ := hnext v m h _ hdist
  refine ⟨_, d', h.loadUsed hb, ?_, h', hsafe⟩
  rw [not_or, not_and, UInt16.lt_iff_toNat_lt, hdist, hown]
  change ¬ L.queue.maxOutstanding.toNat < _ ∧ _
  omega

end

theorem distance_ne_zero {distance : UInt16} : distance ≠ 0 ↔ distance.toNat ≠ 0 := by
  rw [ne_eq, ne_eq, ← UInt16.toNat_inj]
  rfl

theorem Ledger.not_used (h : Ledger L d v) {r : List UInt8}
    (hget : v.view.completions[d.view.used.length]? = some (n, r)) :
    n ∉ d.view.used.map Prod.fst := by
  have hnodup : ((v.view.completions.map fun c => (c.1, c.2.length)).map Prod.fst).Nodup := by
    rw [map_map]
    have hall := h.entries_nodup
    rw [DeviceGhost.entries, map_append] at hall
    exact (nodup_append.mp hall).1
  have htake := ((h.used_take hget).map Prod.fst).sublist.nodup hnodup
  rw [map_append] at htake
  intro hmem
  exact (nodup_append.mp htake).2.2 n hmem n (mem_singleton_self n) rfl

theorem Shared.completion (hb : (L.binding .driver).Bound) (h : Shared L d v m) {r : List UInt8}
    (hget : v.view.completions[d.view.used.length]? = some (n, r)) :
    ∃ w, d.view.Live n w ∧ n ∉ d.view.used.map Prod.fst ∧
      Holds m (L.usedEntryAt d.view.used.length) (usedElement w.head r.length) ∧
      r.length ≤ w.writable ∧ r.length ≤ uint32Max := by
  obtain ⟨h1, h2, h3, h4, h5, h6⟩ := h.ledger.order
  have hmax := (L.wellFormed hb).outstanding_le
  have hmem := mem_of_getElem? hget
  have hn := h.ledger.completed_lt hmem
  have hnot := h.ledger.not_used hget
  obtain ⟨w, htake⟩ : ∃ w, v.view.takes[n]? = some w := ⟨_, getElem?_eq_getElem hn⟩
  have hw := h.ledger.takes_wire htake
  have hlen := h.ledger.response_le n w htake
  rw [← h.ledger.entries_response n r (mem_entries hmem)] at hlen
  refine ⟨w, h.ledger.live_of_not_used hw hnot, hnot, ?_, hlen⟩
  refine h.used.entry _ n r w ?_ hw (by omega)
  rw [DeviceGhost.entries, getElem?_append_left (lt_length_of_getElem? hget)]
  exact hget

theorem DriverIdle.submitted (hi : DriverIdle L d s) (hw : d.view.Live n w)
    (hn : n ∉ d.view.used.map Prod.fst) :
    ∃ id, s.vq.slots w.head.toNat = some id ∧ d.view.tag id = n ∧ (s.chains id).wire = w ∧
      owned (L.binding .driver) s id .submitted = true := by
  obtain ⟨id, hslot, rfl⟩ := hi.tracks.live n w hw
  have hid := hi.tracks.slot _ id hslot
  have hwire : (s.chains id).wire = w := Option.some.inj (hid.live.1.symm.trans hw.1)
  have hstate : (s.chains id).state = .submitted := by
    rcases hid.state with hs | hs
    · exact hs.1
    · exact absurd (mem_map.mpr ⟨_, hs.2, rfl⟩) hn
  have hheld := hi.sound.owns.held_of_slot hslot
  refine ⟨id, hslot, rfl, hwire, owned_iff.mpr ⟨?_, hstate, ?_⟩⟩
  · rw [hheld.head]
    exact hheld.lt
  · rw [hheld.head]
    exact hslot

theorem usedElement_head (head : UInt16) (length : ℕ) :
    readU32 (usedElement head length) = head.toUInt32 := readU32_writeU32 _ _

theorem usedElement_size (head : UInt16) (length : ℕ) :
    readU32 ((usedElement head length).drop 4) = UInt32.ofNat length := by
  rw [usedElement, drop_left' (writeU32_length _)]
  exact (congrArg readU32 (append_nil _).symm).trans (readU32_writeU32 _ [])

theorem DriverIdle.takeUsed (hb : (L.binding .driver).Bound) (hi : DriverIdle L d s)
    (chainOut : Bool) :
    DriverStarts L d s ⟨vq, generation, .takeUsed chainOut⟩
      (Virtqueue.takeUsed (L.binding .driver) s vq generation chainOut) := by
  refine hi.checked (hi.unless (by simp) fun hargs => ?_)
  intro v m h
  refine ⟨d, h, pendingIndex_driver_safe hb hi.tracks.consumed hi.tracks.produced
    (hi.guard_read rfl) fun v m h distance hdist => ?_⟩
  by_cases hlt : d.view.used.length < v.view.completions.length
  · have hne : distance ≠ 0 := distance_ne_zero.mpr (by omega)
    obtain ⟨n, r, h'⟩ := h.seeCompletion hi.quiet hlt
    rw [if_pos hne, if_neg (not_not.mpr rfl)]
    have hshow : ∀ w, DriverGhost.Shown { d with phase := .taking n r } w → s.Shows w := by
      rintro w (hw | hw)
      · exact hi.shows (Or.inl hw)
      · cases hw
    refine ⟨_, h', safe_read ⟨nofun, hshow, .refl _ _⟩ fun v m h => ?_⟩
    obtain ⟨w, hlive, hnot, hholds, hroom, hwidth⟩ :=
      h.completion hb (h.ledger.taking n r rfl)
    obtain ⟨id, hslot, htag, hwire, howned⟩ := hi.submitted hlive hnot
    have hv := h.ledger.valid n w hlive
    have hhead : w.head.toUInt32.toNat = w.head.toNat := UInt16.toNat_toUInt32 _
    have hlength : (UInt32.ofNat r.length).toNat = r.length :=
      UInt32.toNat_ofNat_of_lt' (Nat.lt_succ_of_le hwidth)
    have hread : read m (L.queue.usedAddress + 4 +
        8 * ringSlot (L.binding .driver) s.vq.consumed).toNat 8 = usedElement w.head r.length := by
      rw [hi.tracks.consumed, usedEntry_at hb, ← usedElement_length w.head r.length]
      exact hholds
    have hfits : ¬ (owned (L.binding .driver) s id .submitted = false ∨
        (s.chains id).writable < (UInt32.ofNat r.length).toNat) := by
      have hle : r.length ≤ (s.chains id).writable := by
        have hw : (s.chains id).writable = w.writable := congrArg Wire.writable hwire
        rwa [hw]
      rw [howned, hlength]
      simpa using hle
    refine ⟨_, _, hread, h, fun element helement => ?_⟩
    have hbound : ¬ (L.binding .driver).queue.queueSize.toNat ≤ w.head.toNat :=
      Nat.not_le_of_lt hv.head_lt
    simp only [helement, usedElement_head, usedElement_size, hhead, if_neg hbound, hslot,
      if_neg hfits]
    refine ⟨⟨fun w' hw' => ?_, .refl _ _⟩, hi.running,
      fun v m h => ⟨_, h.takeCompletion rfl htag, rfl, ?_⟩⟩
    · have hshown := (hshow w' hw').setChain id
        (c := { s.chains id with usedLength := UInt32.ofNat r.length, state := .returned }) rfl
      exact hshown
    · have hlen : ((s.returned id (UInt32.ofNat r.length)).chains id).usedLength.toNat =
          r.length := by
        simp only [State.returned, State.setChain, update_self]
        exact hlength
      exact congrArg (d.view.takeUsed id) hlen.symm
  · have hz : ¬ distance ≠ 0 := by
      rw [distance_ne_zero]
      omega
    rw [if_neg hz]
    exact ⟨d, h, hi.refuse (by simp)⟩

theorem DriverIdle.copyResponse (hi : DriverIdle L d s) (chain : Option ChainId) (offset size : ℕ)
    (out : Bool) :
    DriverStarts L d s ⟨vq, generation, .copyResponse chain offset size out⟩
      (Virtqueue.copyResponse (L.binding .driver) s vq generation chain offset size out) := by
  refine hi.chained ?_
  rintro id rfl hargs
  simp only [not_or, Bool.not_eq_false, not_not, Nat.not_lt] at hargs
  obtain ⟨-, howned, -, hoffset, hsize⟩ := hargs
  obtain ⟨-, hstate, hslot⟩ := owned_iff.mp howned
  have hid := hi.tracks.slot _ id hslot
  have hheld := hi.sound.owns.held_of_slot hslot
  have hused : (d.view.tag id, (s.chains id).usedLength.toNat) ∈ d.view.used := by
    rcases hid.state with hs | hs
    · rw [hstate] at hs
      exact absurd hs.1 (by simp)
    · exact hs.2
  intro v m h
  obtain ⟨r, hlen, h'⟩ := h.beginCopy hi.quiet hused
  have hshow : ∀ w, DriverGhost.Shown { d with phase := .copying (d.view.tag id) r } w →
      s.Shows w := by
    rintro w (hw | hw)
    · exact hi.shows (Or.inl hw)
    · cases hw
  have hle : offset + size ≤ r.length := by omega
  refine ⟨_, h', copyData_read_safe (fun v m h k byte hk => ?_) (fun p hp => ?_)
    hheld.valid.noWraps.2 ?_ (fun _ _ => ⟨nofun, hshow, .refl _ _⟩) hle
    ⟨⟨hshow, .refl _ _⟩, hi.running, fun v m h => ⟨_, h.endCopy rfl rfl hle, rfl, ?_⟩⟩⟩
  · have hr := h.ledger.copying _ _ rfl
    have hlt := h.ledger.completed_lt hr
    rw [h.ledger.entries_response _ _ (mem_entries hr)] at hk
    exact h.responses _ _ k byte hid.live hlt hk
  · obtain ⟨i, hp⟩ := mem_iff_getElem?.mp hp
    exact (hheld.valid.segment i p hp).writable
  · rw [hlen]
    exact hheld.used_le.trans (Nat.le_of_eq hheld.valid.writable_eq)
  · rfl

theorem DriverIdle.release (hi : DriverIdle L d s) (chain : Option ChainId) :
    DriverStarts L d s ⟨vq, generation, .release chain⟩
      (Virtqueue.release (L.binding .driver) s vq generation chain) := by
  refine hi.chained ?_
  rintro id rfl hargs
  simp only [not_or, Bool.not_eq_false, not_not] at hargs
  have hholding : Holding (L.binding .driver) s .driver id .returned := ⟨rfl, hi.running, hargs.2⟩
  have htracks := hi.tracks.release hi.sound.owns hholding
  intro v m h
  have hused : d.view.tag id ∈ d.view.used.map Prod.fst := by
    refine htracks.released _ ?_
    exact mem_append_right _ (mem_singleton_self _)
  refine ⟨_, h.release hused, ⟨fun w hw => ?_, prefix_append _ _, rfl, rfl,
    prefix_refl _, fun ha => ha⟩, hi.running,
    fun v m h => ⟨_, h, hi.quiet, rfl⟩⟩
  rcases hw with ⟨n, hn⟩ | hw
  · obtain ⟨id', hs, htag⟩ := htracks.live n w hn
    have hlive := (htracks.slot _ id' hs).live
    rw [htag] at hlive
    exact ⟨_, by rw [State.held, hs, Option.map_some],
      Option.some.inj (hlive.1.symm.trans hn.1)⟩
  · rw [hi.quiet] at hw
    cases hw

theorem DriverIdle.arm (hb : (L.binding .driver).Bound) (hi : DriverIdle L d s) (ready : Bool) :
    DriverStarts L d s ⟨vq, generation, .arm ready⟩
      (Virtqueue.arm (L.binding .driver) s vq generation ready) := by
  refine hi.checked (hi.unless (by simp) fun _ => ?_)
  intro v m h
  have hevent := usedEvent_at hb
  refine ⟨d, h, ⟨fun _ x hx => ?_, fun _ => hi.shows, .refl _ _⟩, fun v m h =>
    ⟨{ d with event := true }, ?_, ?_⟩⟩
  · change Span.Mem x ⟨(usedEvent L.queue).toNat, 2⟩ at hx
    rw [hevent] at hx
    exact inLane_ring (by omega) (usedEvent_within L) hx
  · have hstore := h.storeUsedEvent hb
    rw [← hevent, ← hi.tracks.consumed] at hstore
    exact hstore
  · have hi' : DriverIdle L { d with event := true } s := ⟨hi.sound, hi.tracks, hi.quiet, hi.running⟩
    refine ⟨hi'.guard_read rfl, fun v m h => ⟨_, h, ?_⟩⟩
    refine pendingIndex_driver_safe (d := { d with event := true }) hb hi.tracks.consumed
      hi.tracks.produced (hi'.guard_read rfl) fun v m h distance hdist => ?_
    have hle := h.ledger.used_le
    by_cases hz : distance ≠ 0
    · rw [if_pos hz]
      exact ⟨_, h, ⟨fun _ => hi'.shows, .refl _ _⟩, hi.running, fun v m h => ⟨_, h, hi.quiet, rfl⟩⟩
    · rw [if_neg hz]
      rw [distance_ne_zero, not_not] at hz
      refine ⟨_, h.armDriver rfl ?_, ⟨fun w hw => hi'.shows hw, prefix_append _ _, rfl, rfl,
        prefix_refl _, fun _ => rfl⟩, hi.running,
        fun v m h => ⟨_, h, hi.quiet, rfl⟩⟩
      change _ = d.view.used.length
      change d.view.used.length ≤ _ at hle
      change distance.toNat = _ - d.view.used.length at hdist
      omega

theorem DriverIdle.perform (hb : (L.binding .driver).Bound) (hi : DriverIdle L d s) (r : Request) :
    DriverStarts L d s r (Virtqueue.perform (L.binding .driver) s r) := by
  obtain ⟨vq, generation, call⟩ := r
  have hside : (L.binding .driver).side ≠ .device := by
    change Side.driver ≠ .device
    simp
  cases call with
  | publish chain notify => exact hi.publish hb chain notify
  | takeUsed chainOut => exact hi.takeUsed hb chainOut
  | copyResponse chain offset size out => exact hi.copyResponse chain offset size out
  | release chain => exact hi.release chain
  | arm ready => exact hi.arm hb ready
  | peekAvailable pending =>
    exact hi.checked (hi.unless (by simp) fun hn => absurd (Or.inl hside) hn)
  | takeAvailable chain | returnAvailable chain | copyRequest chain | writeResponse chain
  | complete chain =>
    exact hi.chained fun _ _ hn => absurd (Or.inl hside) hn
  | moveAccepted source destination =>
    refine hi.checked ?_
    cases source with
    | none => exact hi.finish (by simp)
    | some src =>
      cases destination with
      | none => exact hi.finish (by simp)
      | some dst =>
        exact hi.unless (by simp) fun hn => absurd (Or.inl hside) hn

end Driver

end Kobox.Virtqueue
