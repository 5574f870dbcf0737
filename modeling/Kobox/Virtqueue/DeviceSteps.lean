import Kobox.Virtqueue.DriverSteps

/-!
# Steps of the device's ghost
-/

namespace Kobox.Virtqueue
open ByteMemory Protocol List Option

section Device
variable {L : Lane} {d : DriverGhost} {v : DeviceGhost} {m : Memory} {w : Wire}

theorem DeviceGhost.entries_of_quiet (hq : v.phase = .quiet) : v.entries = v.view.completions := by
  rw [DeviceGhost.entries, hq]
  exact append_nil _

theorem DeviceGhost.entries_of_reading (hp : v.phase = .reading w) :
    v.entries = v.view.completions := by
  rw [DeviceGhost.entries, hp]
  exact append_nil _

/-! ### Acceptance -/

theorem Shared.seePublication (h : Shared L d v m) (hq : v.phase = .quiet)
    (hlt : v.view.takes.length < d.view.wires.length) :
    ∃ w, Shared L d { v with phase := .reading w } m := by
  obtain ⟨w, hget⟩ : ∃ w, d.view.wires[v.view.takes.length]? = some w :=
    ⟨_, getElem?_eq_getElem hlt⟩
  have hentries := v.entries_of_quiet hq
  have hentries' : DeviceGhost.entries { v with phase := .reading w } = v.view.completions :=
    append_nil _
  have hnotifies := h.ledger.deviceNotifies
  rw [hq] at hnotifies
  refine ⟨w, { h.ledger with
    entries_nodup := ?_
    entries_lt := ?_
    entries_response := ?_
    reading := ?_
    deviceNotifies := hnotifies },
    ⟨h.available.index, h.available.entry, h.available.entered, h.available.event⟩,
    ⟨h.used.index, ?_, h.used.event⟩, h.descriptors, h.responses⟩
  · rw [hentries', ← hentries]
    exact h.ledger.entries_nodup
  · rw [hentries', ← hentries]
    exact h.ledger.entries_lt
  · rw [hentries', ← hentries]
    exact h.ledger.entries_response
  · intro w' hw'
    cases hw'
    exact hget
  · rw [hentries', ← hentries]
    exact h.used.entry

theorem Ledger.next_not_completed (h : Ledger L d v) :
    v.view.takes.length ∉ v.view.completions.map Prod.fst := by
  intro hmem
  obtain ⟨⟨n, r⟩, hc, hn⟩ := mem_map.mp hmem
  have hlt := h.completed_lt hc
  dsimp only at hn
  omega

theorem Ledger.reading_live (h : Ledger L d v) (hp : v.phase = .reading w) :
    d.view.Live v.view.takes.length w :=
  h.live_of_pending (h.reading w hp) h.next_not_completed

theorem Shared.take (h : Shared L d v m) (hp : v.phase = .reading w) (id : ChainId) :
    Shared L d ⟨v.view.take id w, .quiet, false⟩ m := by
  have hget := h.ledger.reading w hp
  have hentries := v.entries_of_reading hp
  have hentries' : DeviceGhost.entries ⟨v.view.take id w, .quiet, false⟩ = v.view.completions :=
    append_nil _
  have hlt := h.ledger.entries_lt
  have hnotifies := h.ledger.deviceNotifies
  rw [hp] at hnotifies
  have hlen : (v.view.take id w).takes.length = v.view.takes.length + 1 := by
    rw [DeviceView.take, length_append, length_singleton]
  refine ⟨{ h.ledger with
    takes := ?_
    entries_nodup := ?_
    entries_lt := ?_
    entries_response := ?_
    response_le := ?_
    reading := by rintro _ ⟨⟩
    deviceNotifies := hnotifies
    deviceArmed := by rintro ⟨⟩ },
    ⟨h.available.index, h.available.entry, h.available.entered, h.available.event⟩,
    ⟨h.used.index, ?_, by rintro ⟨⟩⟩, h.descriptors, ?_⟩
  · obtain ⟨rest, hrest⟩ := h.ledger.takes
    rw [← hrest, getElem?_append_right (Nat.le_refl _), Nat.sub_self] at hget
    cases rest with
    | nil => cases hget
    | cons w' rest =>
      obtain rfl : w' = w := some.inj hget
      refine ⟨rest, ?_⟩
      rw [← hrest, DeviceView.take, append_assoc]
      rfl
  · rw [hentries', ← hentries]
    exact h.ledger.entries_nodup
  · rw [hentries', ← hentries]
    intro n hn
    exact Nat.lt_of_lt_of_le (hlt n hn) (by rw [hlen]; omega)
  · rw [hentries', ← hentries]
    intro n r hmem
    have hn := hlt n (mem_map.mpr ⟨_, hmem, rfl⟩)
    exact (h.ledger.entries_response n r hmem).trans (DeviceView.take_responses_of_lt _ _ _ hn).symm
  · intro n w' hw'
    rcases getElem?_append_single.mp hw' with hw' | ⟨rfl, -⟩
    · have hresponse := DeviceView.take_responses_of_lt v.view id w (lt_length_of_getElem? hw')
      change ((v.view.take id w).responses n).length ≤ _ ∧ _
      rw [hresponse]
      exact h.ledger.response_le n w' hw'
    · have hresponse := DeviceView.take_responses_self v.view id w
      change ((v.view.take id w).responses v.view.takes.length).length ≤ _ ∧
        ((v.view.take id w).responses v.view.takes.length).length ≤ _
      rw [hresponse]
      exact ⟨Nat.zero_le _, Nat.zero_le _⟩
  · rw [hentries', ← hentries]
    exact h.used.entry
  · intro n w' k byte hw' hn hk
    change n < (v.view.take id w).takes.length at hn
    change ((v.view.take id w).responses n)[k]? = some byte at hk
    by_cases he : n = v.view.takes.length
    · rw [he, DeviceView.take_responses_self] at hk
      cases hk
    · have hn' : n < v.view.takes.length := by omega
      rw [DeviceView.take_responses_of_lt _ _ _ hn'] at hk
      exact h.responses n w' k byte hw' hn' hk

theorem Shared.move (h : Shared L d v m) (src dst : ChainId) :
    Shared L d { v with view := v.view.move src dst } m :=
  ⟨{ h.ledger with takes := h.ledger.takes }, h.available,
    ⟨h.used.index, h.used.entry, h.used.event⟩, h.descriptors, h.responses⟩

theorem Shared.giveBack (h : Shared L d v m) {n : ℕ} (hn : n + 1 = v.view.takes.length)
    (hpending : n ∉ v.entries.map Prod.fst) (hq : v.phase = .quiet) :
    Shared L d { v with view := v.view.giveBack, event := false } m := by
  have hlen : v.view.giveBack.takes.length = n := by
    rw [DeviceView.giveBack, length_dropLast]
    omega
  have hprefix : v.view.giveBack.takes <+: v.view.takes := dropLast_prefix _
  refine ⟨{ h.ledger with
    takes := hprefix.trans h.ledger.takes
    entries_lt := fun k hk => ?_
    response_le := fun k w hw => ?_
    reading := fun w hw => ?_
    deviceArmed := by rintro ⟨⟩ }, h.available, ⟨h.used.index, h.used.entry, by rintro ⟨⟩⟩, h.descriptors,
    fun k w i byte hw hk => h.responses k w i byte hw ?_⟩
  · have hlt := h.ledger.entries_lt k hk
    have hne : k ≠ n := fun he => hpending (he ▸ hk)
    change k < v.view.giveBack.takes.length
    omega
  · obtain ⟨rest, hrest⟩ := hprefix
    refine h.ledger.response_le k w ?_
    rw [← hrest, getElem?_append_left (lt_length_of_getElem? hw)]
    exact hw
  · rw [hq] at hw
    cases hw
  · change k < v.view.giveBack.takes.length at hk
    omega

def DeviceView.respond (v : DeviceView) (n : ℕ) (bytes : List UInt8) : DeviceView :=
  { v with responses := Function.update v.responses n (v.responses n ++ bytes) }

theorem DeviceView.respond_self (v : DeviceView) (n : ℕ) (bytes : List UInt8) :
    (v.respond n bytes).responses n = v.responses n ++ bytes := Function.update_self ..

theorem DeviceView.respond_of_ne (v : DeviceView) {n k : ℕ} (bytes : List UInt8) (h : k ≠ n) :
    (v.respond n bytes).responses k = v.responses k := Function.update_of_ne h ..

theorem Ledger.segment_apart_table (h : Ledger L d v) {n : ℕ} (hw : d.view.Live n w) {p : Segment}
    (hp : p ∈ w.segments) {w' : Wire} (hw' : d.Shown w') : Span.Apart p.span w'.table := by
  rcases hw' with ⟨n', hn'⟩ | hs
  · by_cases he : n' = n
    · subst he
      obtain rfl : w' = w := some.inj (hn'.1.symm.trans hw.1)
      obtain ⟨i, hi⟩ := mem_iff_getElem?.mp hp
      exact ((h.valid n' w' hw).segment i p hi).table
    · exact ((h.compatible n n' w w' (Ne.symm he) hw hn').clear.left p hp)
  · exact (((h.staged w' hs).2 n w hw).clear.right p hp).symm

section
variable (hb : (L.binding .driver).Bound) (h : Shared L d v m)
include hb h

theorem Shared.respond {n : ℕ} (hq : v.phase = .quiet) (hw : v.view.takes[n]? = some w)
    (hpending : n ∉ v.view.completions.map Prod.fst) {p : Segment} (hp : p ∈ w.segments)
    (hpw : p.writable ≠ 0) {a : ℕ} {bytes : List UInt8}
    (hin : Span.Within ⟨a, bytes.length⟩ p.span)
    (hloc : ∀ i < bytes.length, locate w.segments ((v.view.responses n).length + i) = a + i)
    (hroom : (v.view.responses n).length + bytes.length ≤ w.writable)
    (hwidth : (v.view.responses n).length + bytes.length ≤ uint32Max) :
    Shared L d { v with view := v.view.respond n bytes } (write m a bytes) := by
  have hlive : d.view.Live n w := h.ledger.live_of_pending (h.ledger.takes_wire hw) hpending
  have hv := h.ledger.valid n w hlive
  have hentries := v.entries_of_quiet hq
  have hentries' : DeviceGhost.entries { v with view := v.view.respond n bytes } =
      v.view.completions := DeviceGhost.entries_of_quiet hq
  have hring : ∀ i < 3, ∀ x, Span.Mem x (L.queue.ring i) → write m a bytes x = m x :=
    fun i hi => write_frame ((segment_apart_ring hb hv hp hb.queue_mem hi).mono hin (.refl _))
  have hused := h.used.frame hb (hring 2 (by omega))
  refine ⟨{ h.ledger with
    entries_nodup := ?_
    entries_lt := ?_
    entries_response := ?_
    response_le := ?_ }, h.available.frame hb (hring 1 (by omega)),
    ⟨hused.index, ?_, hused.event⟩, h.descriptors.frame hb h.ledger fun x hx => ?_, ?_⟩
  · rw [hentries', ← hentries]
    exact h.ledger.entries_nodup
  · rw [hentries', ← hentries]
    exact h.ledger.entries_lt
  · rw [hentries', ← hentries]
    intro k r hk
    have hne : k ≠ n := by
      rintro rfl
      rw [hentries] at hk
      exact hpending (mem_map.mpr ⟨_, hk, rfl⟩)
    exact (h.ledger.entries_response k r hk).trans (v.view.respond_of_ne bytes hne).symm
  · intro k w' hw'
    change v.view.takes[k]? = some w' at hw'
    change ((v.view.respond n bytes).responses k).length ≤ _ ∧
      ((v.view.respond n bytes).responses k).length ≤ _
    by_cases he : k = n
    · subst he
      obtain rfl : w' = w := some.inj (hw'.symm.trans hw)
      rw [DeviceView.respond_self, length_append]
      exact ⟨hroom, hwidth⟩
    · rw [DeviceView.respond_of_ne _ _ he]
      exact h.ledger.response_le k w' hw'
  · rw [hentries', ← hentries]
    exact hused.entry
  · rcases hx with hx | ⟨w', hw', hx⟩
    · exact hring 0 (by omega) x hx
    · exact write_frame ((h.ledger.segment_apart_table hlive hp hw').mono hin (.refl _)) x hx
  · intro k w' i byte hw' hk hi
    change ((v.view.respond n bytes).responses k)[i]? = some byte at hi
    by_cases he : k = n
    · subst he
      obtain rfl : w' = w := some.inj (hw'.1.symm.trans hlive.1)
      rw [DeviceView.respond_self] at hi
      have htotal : writableBytes w'.segments = w'.writable := hv.writable_eq.symm
      by_cases hold : i < (v.view.responses k).length
      · rw [getElem?_append_left hold] at hi
        rw [write_outside, h.responses k w' i byte hw' hk hi]
        rintro ⟨hlo, hhi⟩
        dsimp only at hlo hhi
        have hat := hloc (locate w'.segments i - a) (by omega)
        refine locate_inj hv ?_ (by omega) (by omega) (hat.trans (Nat.add_sub_cancel' hlo))
        omega
      · rw [getElem?_append_right (Nat.le_of_not_lt hold)] at hi
        have hlt := lt_length_of_getElem? hi
        have hat := hloc (i - (v.view.responses k).length) hlt
        rw [Nat.add_sub_cancel' (Nat.le_of_not_lt hold)] at hat
        rw [hat, write_inside m a bytes hlt]
        exact (List.getElem?_eq_some_iff.mp hi).2
    · rw [DeviceView.respond_of_ne _ _ he] at hi
      obtain ⟨p', hp', hpw', hin'⟩ := locate_mem (h.ledger.response_place hw' hk hi)
      have hapart := (h.ledger.compatible n k w w' (Ne.symm he) hlive hw').clear.segments p hp p' hp'
        (Or.inl hpw)
      rw [write_frame (hapart.mono hin hin') _ ⟨Nat.le_refl _, Nat.lt_succ_self _⟩]
      exact h.responses k w' i byte hw' hk hi

theorem Shared.available_of_used {a : ℕ} {bs : List UInt8}
    (hin : Span.Within ⟨a, bs.length⟩ (L.queue.ring 2)) : AvailableImage L d (write m a bs) :=
  h.available.frame hb (write_frame ((rings_apart hb (i := 2) (j := 1) (by omega) (by omega)
    (by omega)).mono hin (.refl _)))

theorem Shared.writeElement {n : ℕ} (hq : v.phase = .quiet) (hw : v.view.takes[n]? = some w)
    (hpending : n ∉ v.view.completions.map Prod.fst) :
    Shared L d { v with phase := .completing n }
      (write m (L.usedEntryAt v.view.completions.length)
        (usedElement w.head (v.view.responses n).length)) := by
  have hentries := v.entries_of_quiet hq
  have hentries' : DeviceGhost.entries { v with phase := .completing n } =
      v.view.completions ++ [(n, v.view.responses n)] := rfl
  have hnotifies := h.ledger.deviceNotifies
  rw [hq] at hnotifies
  have hin : Span.Within ⟨L.usedEntryAt v.view.completions.length,
      (usedElement w.head (v.view.responses n).length).length⟩ (L.queue.ring 2) := by
    rw [usedElement_length]
    exact usedEntry_within hb _
  have hother := h.descriptors_of_ring hb (by omega) (by omega) hin
  have hlt := Nat.mod_lt v.view.completions.length (L.wellFormed hb).size_pos
  have hold := h.ledger.entries_nodup
  have hlts := h.ledger.entries_lt
  have hresp := h.ledger.entries_response
  rw [hentries] at hold hlts hresp
  refine ⟨{ h.ledger with
    entries_nodup := ?_
    entries_lt := ?_
    entries_response := ?_
    reading := nofun
    deviceNotifies := hnotifies }, h.available_of_used hb hin,
    ⟨h.used.index.write_apart ?_, ?_, fun he => (h.used.event he).write_apart ?_⟩, hother.1,
    hother.2⟩
  · rw [hentries', map_append, map_singleton, ← concat_eq_append]
    exact hold.concat hpending
  · rw [hentries', map_append]
    intro k hk
    rcases mem_append.mp hk with hk | hk
    · exact hlts k hk
    · rw [mem_singleton.mp hk]
      exact lt_length_of_getElem? hw
  · rw [hentries']
    intro k r hk
    rcases mem_append.mp hk with hk | hk
    · exact hresp k r hk
    · obtain ⟨rfl, rfl⟩ := Prod.mk.inj (mem_singleton.mp hk)
      rfl
  · simp only [usedElement_length, writeU16_length, Lane.usedEntryAt, Lane.usedIndexAt, Span.Apart]
    omega
  · rw [hentries']
    intro i k r w' hi hw' hn
    rw [length_append, length_singleton] at hn
    rcases getElem?_append_single.mp hi with hi | ⟨rfl, he⟩
    · have hlen := lt_length_of_getElem? hi
      refine (h.used.entry i k r w' (hentries ▸ hi) hw' (by rw [hentries]; omega)).write_apart ?_
      have hne : i % L.queue.queueSize.toNat ≠
          v.view.completions.length % L.queue.queueSize.toNat := mod_ne_of_lt hlen (by omega)
      simp only [usedElement_length, Lane.usedEntryAt, Span.Apart]
      omega
    · obtain ⟨rfl, rfl⟩ := Prod.mk.inj he
      obtain rfl : w' = w := some.inj (hw'.symm.trans (h.ledger.takes_wire hw))
      exact holds_write ..
  · simp only [usedElement_length, writeU16_length, Lane.usedEntryAt, Lane.availableEventAt,
      Span.Apart]
    omega

end

def DeviceView.finish (v : DeviceView) (n : ℕ) : DeviceView :=
  { v with completions := v.completions ++ [(n, v.responses n)] }

theorem Shared.storeUsedIndex (hb : (L.binding .driver).Bound) (h : Shared L d v m) {n : ℕ}
    (hp : v.phase = .completing n) :
    Shared L d { v with view := v.view.finish n, phase := .notifying }
      (write m L.usedIndexAt (writeU16 (UInt16.ofNat (v.view.completions.length + 1)))) := by
  have hentries : v.entries = v.view.completions ++ [(n, v.view.responses n)] := by
    rw [DeviceGhost.entries, hp]
  have hentries' : DeviceGhost.entries { v with view := v.view.finish n, phase := .notifying } =
      v.view.completions ++ [(n, v.view.responses n)] := append_nil _
  have hlen : (v.view.finish n).completions.length = v.view.completions.length + 1 := by
    rw [DeviceView.finish, length_append, length_singleton]
  have hnotifies := h.ledger.deviceNotifies
  rw [hp] at hnotifies
  have hin : Span.Within ⟨L.usedIndexAt,
      (writeU16 (UInt16.ofNat (v.view.completions.length + 1))).length⟩ (L.queue.ring 2) :=
    usedIndex_within L
  have hother := h.descriptors_of_ring hb (by omega) (by omega) hin
  refine ⟨{ h.ledger with
    used := h.ledger.used.trans ?_
    taking := fun k r hk => getElem?_append_single.mpr (Or.inl (h.ledger.taking k r hk))
    copying := fun k r hk => mem_append_left _ (h.ledger.copying k r hk)
    copies := fun c hc => ?_
    entries_nodup := ?_
    entries_lt := ?_
    entries_response := ?_
    reading := by rintro _ ⟨⟩
    deviceNotifies := ?_ }, h.available_of_used hb hin, ⟨?_, ?_, fun he => ?_⟩, hother.1, hother.2⟩
  · change _ <+: (v.view.completions ++ [(n, v.view.responses n)]).map _
    rw [map_append]
    exact prefix_append _ _
  · obtain ⟨r, hr, hc⟩ := h.ledger.copies c hc
    exact ⟨r, mem_append_left _ hr, hc⟩
  · rw [hentries', ← hentries]
    exact h.ledger.entries_nodup
  · rw [hentries', ← hentries]
    exact h.ledger.entries_lt
  · rw [hentries', ← hentries]
    exact h.ledger.entries_response
  · change v.view.notifies.length + 1 = (v.view.finish n).completions.length
    rw [hlen]
    exact congrArg (· + 1) hnotifies
  · change Holds _ _ (writeU16 (UInt16.ofNat (v.view.finish n).completions.length))
    rw [hlen]
    exact holds_write ..
  · rw [hentries', ← hentries]
    intro i k r w hi hw hn
    refine (h.used.entry i k r w hi hw hn).write_apart ?_
    simp only [writeU16_length, usedElement_length, Lane.usedEntryAt, Lane.usedIndexAt, Span.Apart]
    omega
  · refine (h.used.event he).write_apart ?_
    have hpos := (L.wellFormed hb).size_pos
    simp only [writeU16_length, Lane.usedIndexAt, Lane.availableEventAt, Span.Apart]
    omega

theorem Shared.usedEvent_load (h : Shared L d v m) (he : d.event = true) :
    readU16 (read m L.usedEventAt 2) = UInt16.ofNat d.view.used.length :=
  readU16_of_holds (h.available.event he)

theorem Shared.decide_completion (h : Shared L d v m) (hp : v.phase = .notifying) {notify : Bool}
    (hn : readU16 (read m L.usedEventAt 2) = UInt16.ofNat v.view.notifies.length →
      notify = true) :
    Shared L d { v with view := { v.view with notifies := v.view.notifies ++ [notify] },
                        phase := .quiet } m := by
  have hentries : v.entries = v.view.completions := by
    rw [DeviceGhost.entries, hp]
    exact append_nil _
  have hentries' : DeviceGhost.entries { v with
      view := { v.view with notifies := v.view.notifies ++ [notify] }, phase := .quiet } =
      v.view.completions := append_nil _
  have hnotifies := h.ledger.deviceNotifies
  rw [hp] at hnotifies
  refine ⟨{ h.ledger with
    driverArmed := ?_
    entries_nodup := ?_
    entries_lt := ?_
    entries_response := ?_
    reading := by rintro _ ⟨⟩
    deviceNotifies := ?_ }, h.available, ⟨h.used.index, ?_, h.used.event⟩, h.descriptors,
    h.responses⟩
  · intro harmed
    obtain ⟨he, hf⟩ := h.ledger.driverArmed harmed
    refine ⟨he, fun f hget => ?_⟩
    rcases getElem?_append_single.mp hget with hget | ⟨heq, rfl⟩
    · exact hf f hget
    · apply hn
      rw [h.usedEvent_load he, heq]
  · rw [hentries', ← hentries]
    exact h.ledger.entries_nodup
  · rw [hentries', ← hentries]
    exact h.ledger.entries_lt
  · rw [hentries', ← hentries]
    exact h.ledger.entries_response
  · change (v.view.notifies ++ [notify]).length + 0 = _
    rw [length_append, length_singleton]
    exact hnotifies
  · rw [hentries', ← hentries]
    exact h.used.entry

theorem Shared.storeAvailableEvent (hb : (L.binding .driver).Bound) (h : Shared L d v m) :
    Shared L d { v with event := true }
      (write m L.availableEventAt (writeU16 (UInt16.ofNat v.view.takes.length))) := by
  have hin : Span.Within ⟨L.availableEventAt, (writeU16 (UInt16.ofNat v.view.takes.length)).length⟩
      (L.queue.ring 2) := availableEvent_within L
  have hother := h.descriptors_of_ring hb (by omega) (by omega) hin
  have hpos := (L.wellFormed hb).size_pos
  refine ⟨{ h.ledger with deviceArmed := fun ha => ⟨rfl, (h.ledger.deviceArmed ha).2⟩ },
    h.available_of_used hb hin,
    ⟨h.used.index.write_apart ?_, fun i n r w hi hw hn =>
      (h.used.entry i n r w hi hw hn).write_apart ?_, fun _ => holds_write ..⟩, hother.1, hother.2⟩
  · simp only [writeU16_length, Lane.usedIndexAt, Lane.availableEventAt, Span.Apart]
    omega
  · have hlt := Nat.mod_lt i hpos
    simp only [writeU16_length, usedElement_length, Lane.usedEntryAt, Lane.availableEventAt,
      Span.Apart]
    omega

theorem Shared.armDevice (h : Shared L d v m) (he : v.event = true)
    (hempty : d.view.wires.length = v.view.takes.length) :
    Shared L d { v with view := { v.view with armed := true } } m := by
  refine ⟨{ h.ledger with deviceArmed := fun _ => ⟨he, fun f hf => ?_⟩ }, h.available,
    ⟨h.used.index, h.used.entry, h.used.event⟩, h.descriptors, h.responses⟩
  have hlt := lt_length_of_getElem? hf
  have hn := h.ledger.driverNotifies
  change v.view.takes.length < _ at hlt
  omega

end Device

end Kobox.Virtqueue
