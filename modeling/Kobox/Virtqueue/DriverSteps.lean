import Kobox.Virtqueue.Ledger

/-!
# Steps of the driver's ghost
-/

namespace Kobox.Virtqueue
open ByteMemory Protocol List
variable {a n : ℕ} {x : UInt64 × List UInt8} {r : List UInt8} {id : ChainId}

section Driver
variable {L : Lane} {d : DriverGhost} {v : DeviceGhost} {m : Memory} {w : Wire}

theorem write_frame {m : Memory} {bs : List UInt8} {s : Span} (h : Span.Apart ⟨a, bs.length⟩ s)
    (x : ℕ) (hx : Span.Mem x s) : write m a bs x = m x :=
  write_outside m a bs fun hw => Span.apart_iff_not_mem.mp h x hw hx

section
variable (hb : (L.binding .driver).Bound)
include hb

theorem descriptors_apart_ring (hv : w.Valid (L.binding .driver)) (hx : x ∈ w.descriptors L.queue)
    {i : ℕ} (hi : i < 3) (hne : i ≠ 0) : Span.Apart (writeSpan x) (L.queue.ring i) := by
  rcases descriptors_place hb hv hx with ⟨e, he, hspan⟩ | ⟨-, hin⟩
  · rw [hspan]
    exact (rings_apart hb (by omega) hi hne.symm).mono (mainEntry_within (hv.directDescriptor_lt he))
      (.refl _)
  · exact (table_apart_ring hb hv hb.queue_mem hi).mono hin (.refl _)

theorem descriptors_apart_segment (hv : w.Valid (L.binding .driver)) {w' : Wire}
    (hv' : w'.Valid (L.binding .driver)) {s : Segment} (hs : s ∈ w'.segments)
    (hclear : Span.Apart w.table s.span) (hx : x ∈ w.descriptors L.queue) :
    Span.Apart (writeSpan x) s.span := by
  rcases descriptors_place hb hv hx with ⟨e, he, hspan⟩ | ⟨-, hin⟩
  · rw [hspan]
    exact (segment_apart_ring hb hv' hs hb.queue_mem (by omega)).symm.mono
      (mainEntry_within (hv.directDescriptor_lt he)) (.refl _)
  · exact hclear.mono hin (.refl _)

theorem Shared.descriptors_of_ring (h : Shared L d v m) {bs : List UInt8} {i : ℕ} (hi : i < 3)
    (hne : i ≠ 0) (hin : Span.Within ⟨a, bs.length⟩ (L.queue.ring i)) :
    DescriptorImage L d (write m a bs) ∧ ResponseImage d v (write m a bs) := by
  constructor
  · refine h.descriptors.frame hb h.ledger fun x hx => ?_
    rcases hx with hx | ⟨w, hw, hx⟩
    · exact write_frame ((rings_apart hb hi (by omega) hne).mono hin (.refl _)) x hx
    · exact write_frame ((table_apart_ring hb (h.ledger.shown_valid hw) hb.queue_mem hi).symm.mono
        hin (.refl _)) x hx
  · refine h.responses.frame h.ledger fun x hx => ?_
    obtain ⟨n, w, hw, s, hs, -, hx⟩ := hx
    exact write_frame ((segment_apart_ring hb (h.ledger.valid n w hw) hs hb.queue_mem hi).symm.mono
      hin (.refl _)) x hx

end

/-! ### Publication -/

theorem DriverGhost.reserved_eq (hp : d.phase.wire = some w) :
    d.reserved = d.view.wires.length + 1 := by
  unfold DriverGhost.reserved
  cases hphase : d.phase with
  | staging => rfl
  | entered => rfl
  | quiet | notifying | taking | copying =>
    rw [hphase] at hp
    cases hp

theorem Ledger.decided (h : Ledger L d v) (hp : d.phase.wire = some w) :
    d.view.notifies.length = d.view.wires.length := by
  have hn := h.driverNotifies
  cases hphase : d.phase with
  | staging =>
    rw [hphase] at hn
    exact hn
  | entered =>
    rw [hphase] at hn
    exact hn
  | quiet | notifying | taking | copying =>
    rw [hphase] at hp
    cases hp

theorem Shared.stage (h : Shared L d v m) (hq : d.phase = .quiet)
    (hv : w.Valid (L.binding .driver)) (hc : ∀ n w', d.view.Live n w' → w.Compatible w')
    (hroom : d.view.wires.length < d.view.used.length + L.queue.maxOutstanding.toNat) :
    Shared L { d with phase := .staging w [] } v m := by
  have hnotifies := h.ledger.driverNotifies
  rw [hq] at hnotifies
  refine ⟨{ h.ledger with
    window := hroom
    staged := ?_
    written := ?_
    taking := nofun
    copying := nofun
    driverNotifies := hnotifies }, ⟨h.available.index, fun n w' hw hn => ?_, nofun,
      h.available.event⟩, ⟨h.used.index, h.used.entry, h.used.event⟩, ⟨h.descriptors.live, nofun⟩,
    h.responses⟩
  · intro w' hw'
    obtain rfl : w = w' := Option.some.inj hw'
    exact ⟨hv, hc⟩
  · intro w' ws he
    cases he
    exact nil_prefix
  · refine h.available.entry n w' hw (Nat.le_trans ?_ hn)
    rw [DriverGhost.reserved, hq]
    exact Nat.le_add_right _ _

theorem Shared.writeDescriptor (hb : (L.binding .driver).Bound) (h : Shared L d v m)
    {ws : List (UInt64 × List UInt8)} (hp : d.phase = .staging w ws)
    (hx : ws ++ [x] <+: w.descriptors L.queue) :
    Shared L { d with phase := .staging w (ws ++ [x]) } v (write m x.1.toNat x.2) := by
  have hwire : d.phase.wire = some w := by rw [hp]; rfl
  have hstaged := h.ledger.staged w hwire
  have hmem : x ∈ w.descriptors L.queue :=
    hx.subset (mem_append_right _ (mem_singleton_self x))
  have hring : ∀ i < 3, i ≠ 0 → ∀ y, Span.Mem y (L.queue.ring i) → write m x.1.toNat x.2 y = m y :=
    fun i hi hne => write_frame (descriptors_apart_ring hb hstaged.1 hmem hi hne)
  have hpair : ∀ y ∈ ws, Span.Apart (writeSpan x) (writeSpan y) := by
    intro y hy
    obtain ⟨rest, hrest⟩ := hx
    have hall := descriptors_pairwise hb hstaged.1
    rw [← hrest, append_assoc] at hall
    exact ((pairwise_append.mp hall).2.2 y hy x (mem_append_left _
      (mem_singleton_self x))).symm
  have hreserved := d.reserved_eq hwire
  have hwindow := h.ledger.window
  rw [hreserved] at hwindow
  have havail := h.available.frame hb (hring 1 (by omega) (by omega))
  have hused := h.used.frame hb (hring 2 (by omega) (by omega))
  refine ⟨{ h.ledger with
    window := hwindow
    staged := ?_
    written := ?_
    taking := nofun
    copying := nofun
    driverNotifies := h.ledger.decided hwire },
    ⟨havail.index, fun n w' hw hn => ?_, nofun, havail.event⟩,
    ⟨hused.index, hused.entry, hused.event⟩, ⟨fun n w' hw y hy => ?_, fun y hy => ?_⟩, ?_⟩
  · intro w' hw'
    obtain rfl : w = w' := Option.some.inj hw'
    exact hstaged
  · intro w' ws' he
    cases he
    exact hx
  · exact havail.entry n w' hw (hreserved ▸ hn)
  · exact (h.descriptors.live n w' hw y hy).write_apart
      ((hstaged.2 n w' hw).descriptors_apart hb hstaged.1 (h.ledger.valid n w' hw) hmem hy)
  · rcases mem_append.mp hy with hy | hy
    · refine (h.descriptors.written y ?_).write_apart (hpair y hy)
      rw [hp]
      exact hy
    · rw [mem_singleton.mp hy]
      exact holds_write ..
  · have hresponses : ResponseImage d v (write m x.1.toNat x.2) := by
      refine h.responses.frame h.ledger fun y hy => ?_
      obtain ⟨n, w', hw', s, hs, -, hy⟩ := hy
      exact write_frame (descriptors_apart_segment hb hstaged.1 (h.ledger.valid n w' hw') hs
        ((hstaged.2 n w' hw').clear.right s hs) hmem) y hy
    exact hresponses

theorem Shared.writeEntry (hb : (L.binding .driver).Bound) (h : Shared L d v m)
    (hp : d.phase = .staging w (w.descriptors L.queue)) :
    Shared L { d with phase := .entered w } v
      (write m (L.availableEntryAt d.view.wires.length) (writeU16 w.head)) := by
  have hwire : d.phase.wire = some w := by rw [hp]; rfl
  have hstaged := h.ledger.staged w hwire
  have hreserved := d.reserved_eq hwire
  have hwindow := h.ledger.window
  rw [hreserved] at hwindow
  have hin : Span.Within ⟨L.availableEntryAt d.view.wires.length, (writeU16 w.head).length⟩
      (L.queue.ring 1) := availableEntry_within hb _
  have hother := h.descriptors_of_ring hb (by omega) (by omega) hin
  have hused := h.used.frame hb
    (write_frame (m := m) ((rings_apart hb (i := 1) (j := 2) (by omega) (by omega) (by omega)).mono
      hin (.refl _)))
  have hlt := Nat.mod_lt d.view.wires.length (L.wellFormed hb).size_pos
  refine ⟨{ h.ledger with
    window := hwindow
    staged := ?_
    written := nofun
    taking := nofun
    copying := nofun
    driverNotifies := h.ledger.decided hwire },
    ⟨h.available.index.write_apart ?_, fun n w' hw hn => ?_, ?_,
      fun he => (h.available.event he).write_apart ?_⟩,
    ⟨hused.index, hused.entry, hused.event⟩, ⟨hother.1.live, fun y hy => ?_⟩, hother.2⟩
  · intro w' hw'
    obtain rfl : w = w' := Option.some.inj hw'
    exact hstaged
  · simp only [writeU16_length, Lane.availableEntryAt, Lane.availableIndexAt, Span.Apart]
    omega
  · refine (h.available.entry n w' hw (hreserved ▸ hn)).write_apart ?_
    have hne : n % L.queue.queueSize.toNat ≠ d.view.wires.length % L.queue.queueSize.toNat := by
      have hlen := lt_length_of_getElem? hw
      have hn' : d.view.wires.length + 1 ≤ n + L.queue.queueSize.toNat := hn
      exact mod_ne_of_lt hlen (by omega)
    simp only [writeU16_length, Lane.availableEntryAt, Span.Apart]
    omega
  · intro w' hw'
    cases hw'
    exact holds_write ..
  · simp only [writeU16_length, Lane.availableEntryAt, Lane.usedEventAt, Span.Apart]
    omega
  · refine hother.1.written y ?_
    rw [hp]
    exact hy

def DriverView.offer (v : DriverView) (id : ChainId) (w : Wire) : DriverView :=
  { v with wires := v.wires ++ [w], tag := Function.update v.tag id v.wires.length }

theorem DriverView.live_offer {v : DriverView} (id : ChainId) {w w' : Wire}
    (h : (v.offer id w).Live n w') : v.Live n w' ∨ (n = v.wires.length ∧ w' = w) := by
  rcases getElem?_append_single.mp h.1 with hw | ⟨hn, hw⟩
  · exact Or.inl ⟨hw, h.2⟩
  · exact Or.inr ⟨hn, hw.symm⟩

theorem Shared.storeIndex (hb : (L.binding .driver).Bound) (h : Shared L d v m)
    (hp : d.phase = .entered w) (id : ChainId) :
    Shared L { d with view := d.view.offer id w, phase := .notifying } v
      (write m L.availableIndexAt (writeU16 (UInt16.ofNat (d.view.wires.length + 1)))) := by
  have hwire : d.phase.wire = some w := by rw [hp]; rfl
  have hstaged := h.ledger.staged w hwire
  have hreserved := d.reserved_eq hwire
  have hwindow := h.ledger.window
  rw [hreserved] at hwindow
  have hlen : (d.view.offer id w).wires.length = d.view.wires.length + 1 := by
    rw [DriverView.offer, length_append, length_singleton]
  have hin : Span.Within ⟨L.availableIndexAt,
      (writeU16 (UInt16.ofNat (d.view.wires.length + 1))).length⟩ (L.queue.ring 1) :=
    availableIndex_within L
  have hother := h.descriptors_of_ring hb (by omega) (by omega) hin
  have hused := h.used.frame hb
    (write_frame (m := m) ((rings_apart hb (i := 1) (j := 2) (by omega) (by omega) (by omega)).mono
      hin (.refl _)))
  have hentry : ∀ n, Span.Apart ⟨L.availableIndexAt,
      (writeU16 (UInt16.ofNat (d.view.wires.length + 1))).length⟩ ⟨L.availableEntryAt n, 2⟩ := by
    intro n
    simp only [writeU16_length, Lane.availableEntryAt, Lane.availableIndexAt, Span.Apart]
    omega
  refine ⟨{ h.ledger with
    takes := h.ledger.takes.trans (prefix_append _ _)
    window := ?_
    valid := ?_
    compatible := ?_
    staged := by rintro _ ⟨⟩
    written := by rintro _ _ ⟨⟩
    taking := by rintro _ _ ⟨⟩
    copying := by rintro _ _ ⟨⟩
    driverNotifies := ?_
    reading := ?_ }, ⟨?_, fun n w' hw hn => ?_, by rintro _ ⟨⟩, fun he => ?_⟩,
    ⟨hused.index, fun i n r w' hi hw hn => ?_, hused.event⟩,
    ⟨fun n w' hw y hy => ?_, by rintro _ ⟨⟩⟩, fun n w' k byte hw hn hk => ?_⟩
  · change (d.view.offer id w).wires.length + 0 ≤ _
    rw [hlen]
    exact hwindow
  · intro n w' hw
    rcases DriverView.live_offer id hw with hw | ⟨-, rfl⟩
    · exact h.ledger.valid n w' hw
    · exact hstaged.1
  · intro n n' w₁ w₂ hne h₁ h₂
    rcases DriverView.live_offer id h₁ with hl₁ | ⟨hn₁, hw₁⟩
    · rcases DriverView.live_offer id h₂ with hl₂ | ⟨-, hw₂⟩
      · exact h.ledger.compatible n n' w₁ w₂ hne hl₁ hl₂
      · rw [hw₂]
        exact (hstaged.2 n w₁ hl₁).symm
    · rw [hw₁]
      rcases DriverView.live_offer id h₂ with hl₂ | ⟨hn₂, -⟩
      · exact hstaged.2 n' w₂ hl₂
      · exact absurd (hn₁.trans hn₂.symm) hne
  · change d.view.notifies.length + 1 = _
    rw [hlen]
    rw [h.ledger.decided hwire]
  · intro w' hr
    exact getElem?_append_single.mpr (Or.inl (h.ledger.reading w' hr))
  · change Holds _ _ (writeU16 (UInt16.ofNat (d.view.offer id w).wires.length))
    rw [hlen]
    exact holds_write ..
  · have hn' : d.view.wires.length + 1 ≤ n + L.queue.queueSize.toNat := by
      change (d.view.offer id w).wires.length + 0 ≤ _ at hn
      omega
    rcases getElem?_append_single.mp hw with hw | ⟨rfl, rfl⟩
    · exact (h.available.entry n w' hw (hreserved ▸ hn')).write_apart (hentry n)
    · exact (h.available.entered w hp).write_apart (hentry _)
  · refine (h.available.event he).write_apart ?_
    have hpos := (L.wellFormed hb).size_pos
    simp only [writeU16_length, Lane.availableIndexAt, Lane.usedEventAt, Span.Apart]
    omega
  · have hlt := h.ledger.entries_lt n (mem_map.mpr ⟨_, mem_of_getElem? hi, rfl⟩)
    rcases getElem?_append_single.mp hw with hw | ⟨rfl, -⟩
    · exact hused.entry i n r w' hi hw hn
    · exact absurd (Nat.lt_of_lt_of_le hlt h.ledger.takes_le) (Nat.lt_irrefl _)
  · rcases DriverView.live_offer id hw with hw | ⟨-, rfl⟩
    · exact hother.1.live n w' hw y hy
    · refine hother.1.written y ?_
      rw [hp]
      exact hy
  · rcases DriverView.live_offer id hw with hw | ⟨rfl, -⟩
    · exact hother.2 n w' k byte hw hn hk
    · exact absurd (Nat.lt_of_lt_of_le hn h.ledger.takes_le) (Nat.lt_irrefl _)

theorem readU16_of_holds {x : UInt16} (h : Holds m a (writeU16 x)) :
    readU16 (read m a 2) = x := by
  unfold Holds at h
  rw [writeU16_length] at h
  rw [h]
  exact (congrArg readU16 (append_nil _).symm).trans (readU16_writeU16 _ [])

theorem Shared.event_load (h : Shared L d v m) (he : v.event = true) :
    readU16 (read m L.availableEventAt 2) = UInt16.ofNat v.view.takes.length :=
  readU16_of_holds (h.used.event he)

/-- `vring_need_event` for one step: the threshold is the old index. -/
theorem needs_event (n : ℕ) : (UInt16.ofNat (n + 1) - UInt16.ofNat n - 1 <
    UInt16.ofNat (n + 1) - UInt16.ofNat n) := by
  rw [← ofNat_succ]
  have h : UInt16.ofNat n + 1 - UInt16.ofNat n = 1 := by grind
  rw [h]
  decide

theorem Shared.decide_notify (h : Shared L d v m) (hp : d.phase = .notifying) {notify : Bool}
    (hn : readU16 (read m L.availableEventAt 2) = UInt16.ofNat d.view.notifies.length →
      notify = true) :
    Shared L { d with view := { d.view with notifies := d.view.notifies ++ [notify] },
                      phase := .quiet } v m := by
  have hnotifies := h.ledger.driverNotifies
  have hwindow := h.ledger.window
  rw [DriverGhost.reserved, hp] at hwindow
  rw [hp] at hnotifies
  refine ⟨{ h.ledger with
    window := hwindow
    staged := nofun
    written := nofun
    taking := nofun
    copying := nofun
    driverNotifies := ?_
    deviceArmed := ?_ }, ⟨h.available.index, fun n w hw hle => ?_, nofun, h.available.event⟩,
    ⟨h.used.index, h.used.entry, h.used.event⟩, ⟨h.descriptors.live, nofun⟩, h.responses⟩
  · change (d.view.notifies ++ [notify]).length + 0 = _
    rw [length_append, length_singleton]
    exact hnotifies
  · intro harmed
    obtain ⟨he, hf⟩ := h.ledger.deviceArmed harmed
    refine ⟨he, fun f hget => ?_⟩
    rcases getElem?_append_single.mp hget with hget | ⟨heq, rfl⟩
    · exact hf f hget
    · apply hn
      rw [h.event_load he, heq]
  · refine h.available.entry n w hw ?_
    rw [DriverGhost.reserved, hp]
    exact hle

/-! ### Taking completions -/

/-- Nothing is being published in the phase. -/
structure DriverPhase.Receives (phase : DriverPhase) : Prop where
  wire : phase.wire = none
  extra : phase.extra = 0
  undecided : phase.undecided = 0

theorem DriverPhase.Receives.written_eq {phase : DriverPhase} (h : phase.Receives) (q : Queue) :
    phase.written q = [] := by
  have hwire := h.wire
  cases phase with
  | staging | entered => cases hwire
  | quiet | notifying | taking | copying => rfl

theorem Shared.setPhase (h : Shared L d v m) (hold : d.phase.Receives) (phase : DriverPhase)
    (hnew : phase.Receives)
    (htaking : ∀ n r, phase = .taking n r → v.view.completions[d.view.used.length]? = some (n, r))
    (hcopying : ∀ n r, phase = .copying n r → (n, r) ∈ v.view.completions) :
    Shared L { d with phase } v m := by
  have hreserved : ({ d with phase } : DriverGhost).reserved = d.reserved := by
    rw [DriverGhost.reserved, DriverGhost.reserved, hold.extra, hnew.extra]
  have hwindow := h.ledger.window
  have hnotifies := h.ledger.driverNotifies
  rw [← hreserved] at hwindow
  rw [hold.undecided, ← hnew.undecided] at hnotifies
  refine ⟨{ h.ledger with
    window := hwindow
    staged := fun w hw => ?_
    written := fun w ws hw => ?_
    taking := htaking
    copying := hcopying
    driverNotifies := hnotifies }, ⟨h.available.index, fun k w hw hle => ?_, fun w hw => ?_,
      h.available.event⟩, ⟨h.used.index, h.used.entry, h.used.event⟩,
    ⟨h.descriptors.live, fun x hx => ?_⟩, h.responses⟩
  · cases hnew.wire.symm.trans hw
  · cases hnew.wire.symm.trans (congrArg DriverPhase.wire hw)
  · exact h.available.entry k w hw (hreserved ▸ hle)
  · cases hnew.wire.symm.trans (congrArg DriverPhase.wire hw)
  · rw [show phase.written L.queue = [] from hnew.written_eq _] at hx
    cases hx

theorem Shared.seeCompletion (h : Shared L d v m) (hq : d.phase = .quiet)
    (hlt : d.view.used.length < v.view.completions.length) :
    ∃ n r, Shared L { d with phase := .taking n r } v m := by
  obtain ⟨⟨n, r⟩, hget⟩ : ∃ c, v.view.completions[d.view.used.length]? = some c :=
    ⟨_, getElem?_eq_getElem hlt⟩
  have hold : d.phase.Receives := hq ▸ ⟨rfl, rfl, rfl⟩
  refine ⟨n, r, h.setPhase hold _ ⟨rfl, rfl, rfl⟩ (fun n' r' he => ?_) nofun⟩
  cases he
  exact hget

theorem Ledger.used_take (h : Ledger L d v)
    (hget : v.view.completions[d.view.used.length]? = some (n, r)) :
    d.view.used ++ [(n, r.length)] <+: v.view.completions.map fun c => (c.1, c.2.length) := by
  obtain ⟨rest, hrest⟩ := h.used
  have hmap : (v.view.completions.map fun c => (c.1, c.2.length))[d.view.used.length]? =
      some (n, r.length) := by
    rw [getElem?_map, hget]
    rfl
  rw [← hrest, getElem?_append_right (Nat.le_refl _), Nat.sub_self] at hmap
  cases rest with
  | nil => cases hmap
  | cons c rest =>
    obtain rfl : c = (n, r.length) := Option.some.inj hmap
    refine ⟨rest, ?_⟩
    rw [← hrest, append_assoc]
    rfl

section
variable (h : Shared L d v m)
include h

theorem Shared.takeCompletion (hp : d.phase = .taking n r) (hid : d.view.tag id = n) :
    Shared L ⟨d.view.takeUsed id r.length, .quiet, false⟩ v m := by
  have hget := h.ledger.taking n r hp
  have hwindow := h.ledger.wires_le
  have hold : d.phase.Receives := hp ▸ ⟨rfl, rfl, rfl⟩
  have h := h.setPhase hold .quiet ⟨rfl, rfl, rfl⟩ nofun nofun
  refine ⟨{ h.ledger with
    used := ?_
    window := ?_
    released := fun k hk => ?_
    taking := nofun
    driverArmed := nofun }, ⟨h.available.index, h.available.entry, nofun, nofun⟩,
    ⟨h.used.index, h.used.entry, h.used.event⟩, ⟨h.descriptors.live, nofun⟩, h.responses⟩
  · change d.view.used ++ [(d.view.tag id, r.length)] <+: _
    rw [hid]
    exact h.ledger.used_take hget
  · change d.view.wires.length ≤ (d.view.used ++ [_]).length + _
    rw [length_append, length_singleton]
    omega
  · change k ∈ (d.view.used ++ [_]).map Prod.fst
    rw [map_append]
    exact mem_append_left _ (h.ledger.released k hk)

theorem Shared.beginCopy (hq : d.phase = .quiet) {length : ℕ} (hu : (n, length) ∈ d.view.used) :
    ∃ r, r.length = length ∧ Shared L { d with phase := .copying n r } v m := by
  obtain ⟨r, hr, hlen⟩ := h.ledger.used_completed hu
  have hold : d.phase.Receives := hq ▸ ⟨rfl, rfl, rfl⟩
  refine ⟨r, hlen, h.setPhase hold _ ⟨rfl, rfl, rfl⟩ nofun fun n' r' he => ?_⟩
  cases he
  exact hr

theorem Shared.endCopy (hp : d.phase = .copying n r) (hid : d.view.tag id = n) {offset size : ℕ}
    (hle : offset + size ≤ r.length) :
    Shared L { d with view := d.view.copy id offset size ((r.drop offset).take size),
                      phase := .quiet } v m := by
  have hr := h.ledger.copying n r hp
  have hold : d.phase.Receives := hp ▸ ⟨rfl, rfl, rfl⟩
  have h := h.setPhase hold .quiet ⟨rfl, rfl, rfl⟩ nofun nofun
  refine ⟨{ h.ledger with copies := fun c hc => ?_ },
    ⟨h.available.index, h.available.entry, nofun, h.available.event⟩,
    ⟨h.used.index, h.used.entry, h.used.event⟩, ⟨h.descriptors.live, nofun⟩, h.responses⟩
  rcases mem_append.mp hc with hc | hc
  · exact h.ledger.copies c hc
  · rw [mem_singleton.mp hc]
    exact ⟨r, hid ▸ hr, hle, rfl⟩

theorem Shared.release (hu : d.view.tag id ∈ d.view.used.map Prod.fst) :
    Shared L { d with view := d.view.release id } v m := by
  have hlive : ∀ {n w}, (d.view.release id).Live n w → d.view.Live n w :=
    fun hl => ⟨hl.1, fun hr => hl.2 (mem_append_left _ hr)⟩
  refine ⟨{ h.ledger with
    released := fun n hn => ?_
    valid := fun n w hw => h.ledger.valid n w (hlive hw)
    compatible := fun n n' w w' hne hw hw' =>
      h.ledger.compatible n n' w w' hne (hlive hw) (hlive hw')
    staged := fun w hw => ⟨(h.ledger.staged w hw).1, fun n w' hw' =>
      (h.ledger.staged w hw).2 n w' (hlive hw')⟩ },
    ⟨h.available.index, h.available.entry, h.available.entered, h.available.event⟩,
    ⟨h.used.index, h.used.entry, h.used.event⟩,
    ⟨fun n w hw => h.descriptors.live n w (hlive hw), h.descriptors.written⟩,
    fun n w k byte hw => h.responses n w k byte (hlive hw)⟩
  rcases mem_append.mp hn with hn | hn
  · exact h.ledger.released n hn
  · rw [mem_singleton.mp hn]
    exact hu

end

theorem Shared.storeUsedEvent (hb : (L.binding .driver).Bound) (h : Shared L d v m) :
    Shared L { d with event := true } v
      (write m L.usedEventAt (writeU16 (UInt16.ofNat d.view.used.length))) := by
  have hin : Span.Within ⟨L.usedEventAt, (writeU16 (UInt16.ofNat d.view.used.length)).length⟩
      (L.queue.ring 1) := usedEvent_within L
  have hother := h.descriptors_of_ring hb (by omega) (by omega) hin
  have hused := h.used.frame hb
    (write_frame (m := m) ((rings_apart hb (i := 1) (j := 2) (by omega) (by omega) (by omega)).mono
      hin (.refl _)))
  have hpos := (L.wellFormed hb).size_pos
  have hentry : ∀ n, Span.Apart ⟨L.usedEventAt,
      (writeU16 (UInt16.ofNat d.view.used.length)).length⟩ ⟨L.availableEntryAt n, 2⟩ := by
    intro n
    have hlt := Nat.mod_lt n hpos
    simp only [writeU16_length, Lane.availableEntryAt, Lane.usedEventAt, Span.Apart]
    omega
  refine ⟨{ h.ledger with driverArmed := fun ha => ⟨rfl, (h.ledger.driverArmed ha).2⟩ },
    ⟨h.available.index.write_apart ?_, fun n w hw hn =>
      (h.available.entry n w hw hn).write_apart (hentry n),
      fun w hw => (h.available.entered w hw).write_apart (hentry _), fun _ => holds_write ..⟩,
    ⟨hused.index, hused.entry, hused.event⟩, ⟨hother.1.live, hother.1.written⟩, hother.2⟩
  simp only [writeU16_length, Lane.availableIndexAt, Lane.usedEventAt, Span.Apart]
  omega

theorem Shared.armDriver (h : Shared L d v m) (he : d.event = true)
    (hempty : v.view.completions.length = d.view.used.length) :
    Shared L { d with view := { d.view with armed := true } } v m := by
  refine ⟨{ h.ledger with driverArmed := fun _ => ⟨he, fun f hf => ?_⟩ },
    ⟨h.available.index, h.available.entry, h.available.entered, h.available.event⟩,
    ⟨h.used.index, h.used.entry, h.used.event⟩, ⟨h.descriptors.live, h.descriptors.written⟩,
    h.responses⟩
  have hlt := lt_length_of_getElem? hf
  have hn := h.ledger.deviceNotifies
  change d.view.used.length < _ at hlt
  omega

end Driver

end Kobox.Virtqueue
