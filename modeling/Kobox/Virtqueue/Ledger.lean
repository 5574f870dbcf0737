import Kobox.Virtqueue.HostilePeer
import Kobox.Virtqueue.Lane

/-!
# What two honest endpoints agree on

Each endpoint carries a ghost value: its view, the phase of the call it is in, and whether its
event field in shared memory is current. `Shared` relates the two ghosts to one another and to
shared memory, and every memory callback of either endpoint keeps it.
-/

namespace Kobox.Virtqueue
open ByteMemory Protocol List
variable {n : ℕ} {w : Wire}

/-! ### Ghosts -/

/-- Where a driver is inside a call. -/
inductive DriverPhase where
  | quiet
  /-- `publish` has claimed the chain and made these descriptor writes. -/
  | staging (w : Wire) (written : List (UInt64 × List UInt8))
  /-- All descriptors and the ring entry are written, the index is not stored. -/
  | entered (w : Wire)
  /-- The index is stored, the event field is not loaded. -/
  | notifying
  /-- `take_used` has seen the completion of `n`. -/
  | taking (n : ℕ) (response : List UInt8)
  /-- `copy_response` reads the response of `n`. -/
  | copying (n : ℕ) (response : List UInt8)

namespace DriverPhase

def wire : DriverPhase → Option Wire
  | .staging w _ => some w
  | .entered w => some w
  | _ => none

def written (q : Queue) : DriverPhase → List (UInt64 × List UInt8)
  | .staging _ written => written
  | .entered w => w.descriptors q
  | _ => []

def extra : DriverPhase → ℕ
  | .staging _ _ => 1
  | .entered _ => 1
  | _ => 0

def undecided : DriverPhase → ℕ
  | .notifying => 1
  | _ => 0

end DriverPhase

structure DriverGhost where
  view : DriverView
  phase : DriverPhase
  event : Bool

def DriverGhost.reserved (d : DriverGhost) : ℕ := d.view.wires.length + d.phase.extra

inductive DevicePhase where
  | quiet
  /-- `take_available` has seen the publication of `w`. -/
  | reading (w : Wire)
  /-- `complete` has written the used element of `n`, the index is not stored. -/
  | completing (n : ℕ)
  | notifying

def DevicePhase.undecided : DevicePhase → ℕ
  | .notifying => 1
  | _ => 0

structure DeviceGhost where
  view : DeviceView
  phase : DevicePhase
  event : Bool

def DeviceGhost.entries (v : DeviceGhost) : List (ℕ × List UInt8) :=
  v.view.completions ++
    match v.phase with
    | .completing n => [(n, v.view.responses n)]
    | _ => []

/-- What the two sides have done so far agrees: takes are publications in order, used entries are
completions in order, and the wires that are out do not meet. -/
structure Ledger (L : Lane) (d : DriverGhost) (v : DeviceGhost) : Prop where
  takes : v.view.takes <+: d.view.wires
  used : d.view.used <+: v.view.completions.map fun c => (c.1, c.2.length)
  window : d.reserved ≤ d.view.used.length + L.queue.maxOutstanding.toNat
  released : ∀ n ∈ d.view.released, n ∈ d.view.used.map Prod.fst
  valid : ∀ n w, d.view.Live n w → w.Valid (L.binding .driver)
  compatible : ∀ n n' w w', n ≠ n' → d.view.Live n w → d.view.Live n' w' → w.Compatible w'
  staged : ∀ w, d.phase.wire = some w →
    w.Valid (L.binding .driver) ∧ ∀ n w', d.view.Live n w' → w.Compatible w'
  written : ∀ w ws, d.phase = .staging w ws → ws <+: w.descriptors L.queue
  taking : ∀ n r, d.phase = .taking n r → v.view.completions[d.view.used.length]? = some (n, r)
  copying : ∀ n r, d.phase = .copying n r → (n, r) ∈ v.view.completions
  copies : ∀ c ∈ d.view.copies, ∃ r, (c.number, r) ∈ v.view.completions ∧
    c.offset + c.size ≤ r.length ∧ c.bytes = (r.drop c.offset).take c.size
  driverNotifies : d.view.notifies.length + d.phase.undecided = d.view.wires.length
  driverArmed : d.view.armed = true → d.event = true ∧
    ∀ f, v.view.notifies[d.view.used.length]? = some f → f = true
  entries_nodup : (v.entries.map Prod.fst).Nodup
  entries_lt : ∀ n ∈ v.entries.map Prod.fst, n < v.view.takes.length
  entries_response : ∀ n r, (n, r) ∈ v.entries → r = v.view.responses n
  response_le : ∀ n w, v.view.takes[n]? = some w →
    (v.view.responses n).length ≤ w.writable ∧ (v.view.responses n).length ≤ uint32Max
  reading : ∀ w, v.phase = .reading w → d.view.wires[v.view.takes.length]? = some w
  deviceNotifies : v.view.notifies.length + v.phase.undecided = v.view.completions.length
  deviceArmed : v.view.armed = true → v.event = true ∧
    ∀ f, d.view.notifies[v.view.takes.length]? = some f → f = true

/-! ### Shared memory -/

namespace Lane

def availableIndexAt (L : Lane) : ℕ := L.queue.availableAddress.toNat + 2

def availableEntryAt (L : Lane) (n : ℕ) : ℕ :=
  L.queue.availableAddress.toNat + 4 + 2 * (n % L.queue.queueSize.toNat)

def usedEventAt (L : Lane) : ℕ :=
  L.queue.availableAddress.toNat + 4 + 2 * L.queue.queueSize.toNat

def usedIndexAt (L : Lane) : ℕ := L.queue.usedAddress.toNat + 2

def usedEntryAt (L : Lane) (i : ℕ) : ℕ :=
  L.queue.usedAddress.toNat + 4 + 8 * (i % L.queue.queueSize.toNat)

def availableEventAt (L : Lane) : ℕ :=
  L.queue.usedAddress.toNat + 4 + 8 * L.queue.queueSize.toNat

end Lane

def usedElement (head : UInt16) (length : ℕ) : List UInt8 :=
  writeU32 head.toUInt32 ++ writeU32 (UInt32.ofNat length)

/-- The available ring in memory: the index, the entries that are not overwritten yet, and the
event. -/
structure AvailableImage (L : Lane) (d : DriverGhost) (m : Memory) : Prop where
  index : Holds m L.availableIndexAt (writeU16 (UInt16.ofNat d.view.wires.length))
  entry : ∀ n w, d.view.wires[n]? = some w → d.reserved ≤ n + L.queue.queueSize.toNat →
    Holds m (L.availableEntryAt n) (writeU16 w.head)
  entered : ∀ w, d.phase = .entered w →
    Holds m (L.availableEntryAt d.view.wires.length) (writeU16 w.head)
  event : d.event = true → Holds m L.usedEventAt (writeU16 (UInt16.ofNat d.view.used.length))

/-- The used ring in memory, likewise. -/
structure UsedImage (L : Lane) (d : DriverGhost) (v : DeviceGhost) (m : Memory) : Prop where
  index : Holds m L.usedIndexAt (writeU16 (UInt16.ofNat v.view.completions.length))
  entry : ∀ i n r w, v.entries[i]? = some (n, r) → d.view.wires[n]? = some w →
    v.entries.length ≤ i + L.queue.queueSize.toNat →
    Holds m (L.usedEntryAt i) (usedElement w.head r.length)
  event : v.event = true →
    Holds m L.availableEventAt (writeU16 (UInt16.ofNat v.view.takes.length))

/-- The descriptors of every wire that is out are in memory. -/
structure DescriptorImage (L : Lane) (d : DriverGhost) (m : Memory) : Prop where
  live : ∀ n w, d.view.Live n w → ∀ x ∈ w.descriptors L.queue, Holds m x.1.toNat x.2
  written : ∀ x ∈ d.phase.written L.queue, Holds m x.1.toNat x.2

def ResponseImage (d : DriverGhost) (v : DeviceGhost) (m : Memory) : Prop :=
  ∀ n w k byte, d.view.Live n w → n < v.view.takes.length →
    (v.view.responses n)[k]? = some byte → m (locate w.segments k) = byte

/-- The invariant of a lane: the ledger, and the memory that goes with it. -/
structure Shared (L : Lane) (d : DriverGhost) (v : DeviceGhost) (m : Memory) : Prop where
  ledger : Ledger L d v
  available : AvailableImage L d m
  used : UsedImage L d v m
  descriptors : DescriptorImage L d m
  responses : ResponseImage d v m

/-! ### Order of the counters -/

section Ledger
variable {L : Lane} {d : DriverGhost} {v : DeviceGhost} {m m' : Memory}

theorem Ledger.takes_le (h : Ledger L d v) : v.view.takes.length ≤ d.view.wires.length :=
  h.takes.length_le

theorem Ledger.used_le (h : Ledger L d v) : d.view.used.length ≤ v.view.completions.length := by
  have hle := h.used.length_le
  rwa [length_map] at hle

theorem completions_le_entries (v : DeviceGhost) :
    v.view.completions.length ≤ v.entries.length := by
  rw [DeviceGhost.entries, length_append]
  exact Nat.le_add_right _ _

theorem mem_entries {r : List UInt8} (h : (n, r) ∈ v.view.completions) :
    (n, r) ∈ v.entries := mem_append_left _ h

section
variable (h : Ledger L d v)
include h

theorem Ledger.entries_le : v.entries.length ≤ v.view.takes.length := by
  rw [← length_map (f := Prod.fst)]
  exact length_le_of_nodup h.entries_nodup h.entries_lt

theorem Ledger.wires_le : d.view.wires.length ≤ d.view.used.length + L.queue.maxOutstanding.toNat :=
  (Nat.le_add_right _ _).trans h.window

theorem Ledger.order :
    d.view.used.length ≤ v.view.completions.length ∧
      v.view.completions.length ≤ v.entries.length ∧
      v.entries.length ≤ v.view.takes.length ∧ v.view.takes.length ≤ d.view.wires.length ∧
      d.view.wires.length ≤ d.reserved ∧
      d.reserved ≤ d.view.used.length + L.queue.maxOutstanding.toNat :=
  ⟨h.used_le, completions_le_entries v, h.entries_le, h.takes_le, Nat.le_add_right _ _, h.window⟩

theorem Ledger.used_completed {length : ℕ} (hu : (n, length) ∈ d.view.used) :
    ∃ r, (n, r) ∈ v.view.completions ∧ r.length = length := by
  obtain ⟨⟨k, r⟩, hmem, he⟩ := mem_map.mp (h.used.subset hu)
  obtain ⟨rfl, rfl⟩ := Prod.mk.inj he
  exact ⟨r, hmem, rfl⟩

theorem Ledger.completed_lt {r : List UInt8} (hc : (n, r) ∈ v.view.completions) :
    n < v.view.takes.length :=
  h.entries_lt n (mem_map.mpr ⟨_, mem_entries hc, rfl⟩)

theorem Ledger.live_of_not_used (hw : d.view.wires[n]? = some w)
    (hn : n ∉ d.view.used.map Prod.fst) : d.view.Live n w :=
  ⟨hw, fun hr => hn (h.released n hr)⟩

theorem Ledger.live_of_pending (hw : d.view.wires[n]? = some w)
    (hn : n ∉ v.view.completions.map Prod.fst) : d.view.Live n w := by
  refine h.live_of_not_used hw fun hu => hn ?_
  obtain ⟨⟨k, length⟩, hmem, rfl⟩ := mem_map.mp hu
  obtain ⟨r, hr, -⟩ := h.used_completed hmem
  exact mem_map.mpr ⟨_, hr, rfl⟩

theorem Ledger.takes_wire (hw : v.view.takes[n]? = some w) :
    d.view.wires[n]? = some w := getElem?_mono h.takes hw

theorem Ledger.used_nodup : (d.view.used.map Prod.fst).Nodup := by
  have hcompleted : (v.view.completions.map Prod.fst).Nodup :=
    h.entries_nodup.sublist ((sublist_append_left _ _).map _)
  refine hcompleted.sublist ?_
  have hused := (h.used.map Prod.fst).sublist
  rwa [map_map] at hused

end

/-! ### Ring positions -/

theorem mod_ne_of_lt {p k : ℕ} (h : n < p) (h' : p < n + k) : n % k ≠ p % k := by
  intro he
  have hzero := Nat.sub_mod_eq_zero_of_mod_eq he.symm
  rw [Nat.mod_eq_of_lt (by omega)] at hzero
  omega

theorem ringSlot_ofNat (hb : (L.binding .driver).Bound) (side : Side) (n : ℕ) :
    (ringSlot (L.binding side) (UInt16.ofNat n)).toNat = n % L.queue.queueSize.toNat := by
  have hw := L.wellFormed hb
  obtain ⟨k, hk⟩ := hw.size_pow
  have hdvd : L.queue.queueSize.toNat ∣ 65536 := by
    have hk' : k ≤ 16 := by
      by_contra hlt
      have hpow : 2 ^ 16 ≤ 2 ^ k := Nat.pow_le_pow_right (by omega) (by omega)
      have hle := hw.size_le
      omega
    rw [hk]
    exact pow_dvd_pow 2 hk'
  refine (ringSlot_toNat (b := L.binding side) hw _).trans ?_
  rw [UInt16.toNat_ofNat']
  exact Nat.mod_mod_of_dvd n hdvd

section Addresses
variable (hb : (L.binding .driver).Bound)
include hb

theorem availableEntry_at (side : Side) (n : ℕ) :
    (L.queue.availableAddress + 4 + 2 * ringSlot (L.binding side) (UInt16.ofNat n)).toNat =
      L.availableEntryAt n := by
  have h := availableEntry_toNat (b := L.binding side) (L.wellFormed hb) (UInt16.ofNat n)
  have hslot := ringSlot_toNat (b := L.binding side) (L.wellFormed hb) (UInt16.ofNat n)
  rw [← hslot, ringSlot_ofNat hb] at h
  exact h

theorem usedEntry_at (side : Side) (n : ℕ) :
    (L.queue.usedAddress + 4 + 8 * ringSlot (L.binding side) (UInt16.ofNat n)).toNat =
      L.usedEntryAt n := by
  have h := usedEntry_toNat (b := L.binding side) (L.wellFormed hb) (UInt16.ofNat n)
  have hslot := ringSlot_toNat (b := L.binding side) (L.wellFormed hb) (UInt16.ofNat n)
  rw [← hslot, ringSlot_ofNat hb] at h
  exact h

theorem availableIndex_at : (L.queue.availableAddress + 2).toNat = L.availableIndexAt :=
  availableIndex_toNat (L.wellFormed hb)

theorem usedIndex_at : (L.queue.usedAddress + 2).toNat = L.usedIndexAt :=
  usedIndex_toNat (L.wellFormed hb)

theorem availableEvent_at : (availableEvent L.queue).toNat = L.availableEventAt :=
  availableEvent_toNat (L.wellFormed hb)

theorem usedEvent_at : (usedEvent L.queue).toNat = L.usedEventAt :=
  usedEvent_toNat (L.wellFormed hb)

theorem availableEntry_within (n : ℕ) :
    Span.Within ⟨L.availableEntryAt n, 2⟩ (L.queue.ring 1) := by
  have hlt := Nat.mod_lt n (L.wellFormed hb).size_pos
  rw [ring_one]
  simp only [Span.Within, Lane.availableEntryAt]
  omega

theorem usedEntry_within (n : ℕ) : Span.Within ⟨L.usedEntryAt n, 8⟩ (L.queue.ring 2) := by
  have hlt := Nat.mod_lt n (L.wellFormed hb).size_pos
  rw [ring_two]
  simp only [Span.Within, Lane.usedEntryAt]
  omega

theorem rings_apart {i j : ℕ} (hi : i < 3) (hj : j < 3) (hne : i ≠ j) :
    Span.Apart (L.queue.ring i) (L.queue.ring j) := by
  have h := (L.wellFormed hb).ring_apart
  rcases Nat.lt_or_gt_of_ne hne with hlt | hlt
  · exact (h j hj i hlt).symm
  · exact h i hi j hlt

end Addresses

theorem availableIndex_within (L : Lane) :
    Span.Within ⟨L.availableIndexAt, 2⟩ (L.queue.ring 1) := by
  rw [ring_one]
  simp only [Span.Within, Lane.availableIndexAt]
  omega

theorem usedEvent_within (L : Lane) : Span.Within ⟨L.usedEventAt, 2⟩ (L.queue.ring 1) := by
  rw [ring_one]
  simp only [Span.Within, Lane.usedEventAt]
  omega

theorem usedIndex_within (L : Lane) : Span.Within ⟨L.usedIndexAt, 2⟩ (L.queue.ring 2) := by
  rw [ring_two]
  simp only [Span.Within, Lane.usedIndexAt]
  omega

theorem availableEvent_within (L : Lane) :
    Span.Within ⟨L.availableEventAt, 2⟩ (L.queue.ring 2) := by
  rw [ring_two]
  simp only [Span.Within, Lane.availableEventAt]
  omega

theorem usedElement_length (head : UInt16) (length : ℕ) : (usedElement head length).length = 8 := by
  rw [usedElement, length_append, writeU32_length, writeU32_length]

/-! ### Frames -/

def DriverGhost.Shown (d : DriverGhost) (w : Wire) : Prop :=
  (∃ n, d.view.Live n w) ∨ d.phase.wire = some w

theorem Ledger.shown_valid (h : Ledger L d v) (hw : d.Shown w) :
    w.Valid (L.binding .driver) := by
  rcases hw with ⟨n, hn⟩ | hs
  · exact h.valid n w hn
  · exact (h.staged w hs).1

theorem Ledger.written_mem (h : Ledger L d v) {x : UInt64 × List UInt8}
    (hx : x ∈ d.phase.written L.queue) :
    ∃ w, d.phase.wire = some w ∧ x ∈ w.descriptors L.queue := by
  cases hp : d.phase with
  | staging w ws =>
    rw [hp] at hx
    exact ⟨w, rfl, (h.written w ws hp).subset hx⟩
  | entered w =>
    rw [hp] at hx
    exact ⟨w, rfl, hx⟩
  | quiet | notifying | taking | copying =>
    rw [hp] at hx
    exact absurd hx not_mem_nil

section
variable (hb : (L.binding .driver).Bound)
include hb

theorem AvailableImage.frame (h : AvailableImage L d m)
    (hm : ∀ x, Span.Mem x (L.queue.ring 1) → m' x = m x) : AvailableImage L d m' := by
  refine ⟨h.index.congr fun x hx => ?_, fun n w hw hn => (h.entry n w hw hn).congr fun x hx => ?_,
    fun w hw => (h.entered w hw).congr fun x hx => ?_, fun he => (h.event he).congr fun x hx => ?_⟩
  all_goals rw [writeU16_length] at hx; apply hm
  · exact (availableIndex_within L).mem hx
  · exact (availableEntry_within hb n).mem hx
  · exact (availableEntry_within hb _).mem hx
  · exact (usedEvent_within L).mem hx

theorem UsedImage.frame (h : UsedImage L d v m)
    (hm : ∀ x, Span.Mem x (L.queue.ring 2) → m' x = m x) : UsedImage L d v m' := by
  refine ⟨h.index.congr fun x hx => ?_,
    fun i n r w hi hw hn => (h.entry i n r w hi hw hn).congr fun x hx => ?_,
    fun he => (h.event he).congr fun x hx => ?_⟩
  · rw [writeU16_length] at hx
    exact hm x ((usedIndex_within L).mem hx)
  · rw [usedElement_length] at hx
    exact hm x ((usedEntry_within hb i).mem hx)
  · rw [writeU16_length] at hx
    exact hm x ((availableEvent_within L).mem hx)

theorem descriptors_mem (hv : w.Valid (L.binding .driver)) {y : UInt64 × List UInt8}
    (hy : y ∈ w.descriptors L.queue) {x : ℕ} (hx : Span.Mem x (writeSpan y)) :
    Span.Mem x (L.queue.ring 0) ∨ Span.Mem x w.table := by
  rcases descriptors_place hb hv hy with ⟨e, he, hspan⟩ | ⟨-, hin⟩
  · rw [hspan] at hx
    exact Or.inl ((mainEntry_within (hv.directDescriptor_lt he)).mem hx)
  · exact Or.inr (hin.mem hx)

theorem DescriptorImage.frame (hl : Ledger L d v) (h : DescriptorImage L d m)
    (hm : ∀ x, (Span.Mem x (L.queue.ring 0) ∨ ∃ w, d.Shown w ∧ Span.Mem x w.table) → m' x = m x) :
    DescriptorImage L d m' := by
  refine ⟨fun n w hw y hy => (h.live n w hw y hy).congr fun x hx => hm x ?_,
    fun y hy => (h.written y hy).congr fun x hx => hm x ?_⟩
  · rcases descriptors_mem hb (hl.valid n w hw) hy hx with hx | hx
    · exact Or.inl hx
    · exact Or.inr ⟨w, Or.inl ⟨n, hw⟩, hx⟩
  · obtain ⟨w, hw, hy⟩ := hl.written_mem hy
    rcases descriptors_mem hb (hl.staged w hw).1 hy hx with hx | hx
    · exact Or.inl hx
    · exact Or.inr ⟨w, Or.inr hw, hx⟩

end

theorem Ledger.response_place (hl : Ledger L d v) {k : ℕ} {byte : UInt8} (hw : d.view.Live n w)
    (hn : n < v.view.takes.length) (hk : (v.view.responses n)[k]? = some byte) :
    k < writableBytes w.segments := by
  have htake : v.view.takes[n]? = some w := by
    obtain ⟨rest, hrest⟩ := hl.takes
    have hwire := hw.1
    rwa [← hrest, getElem?_append_left hn] at hwire
  have hlt := lt_length_of_getElem? hk
  rw [← (hl.valid n w hw).writable_eq]
  exact Nat.lt_of_lt_of_le hlt (hl.response_le n w htake).1

theorem ResponseImage.frame (hl : Ledger L d v) (h : ResponseImage d v m)
    (hm : ∀ x, (∃ n w, d.view.Live n w ∧ ∃ s ∈ w.segments, s.writable ≠ 0 ∧ Span.Mem x s.span) →
      m' x = m x) : ResponseImage d v m' := by
  intro n w k byte hw hn hk
  obtain ⟨s, hs, hwr, hin⟩ := locate_mem (hl.response_place hw hn hk)
  rw [hm _ ⟨n, w, hw, s, hs, hwr, hin.mem ⟨Nat.le_refl _, Nat.lt_succ_self _⟩⟩]
  exact h n w k byte hw hn hk

theorem Shared.frame (hb : (L.binding .driver).Bound) (h : Shared L d v m)
    (hring : ∀ i < 3, ∀ x, Span.Mem x (L.queue.ring i) → m' x = m x)
    (hwire : ∀ w, d.Shown w → ∀ x,
      (Span.Mem x w.table ∨ ∃ s ∈ w.segments, Span.Mem x s.span) → m' x = m x) :
    Shared L d v m' := by
  refine ⟨h.ledger, h.available.frame hb (hring 1 (by omega)), h.used.frame hb (hring 2 (by omega)),
    h.descriptors.frame hb h.ledger fun x hx => ?_, h.responses.frame h.ledger fun x hx => ?_⟩
  · rcases hx with hx | ⟨w, hw, hx⟩
    · exact hring 0 (by omega) x hx
    · exact hwire w hw x (Or.inl hx)
  · obtain ⟨n, w, hw, s, hs, -, hx⟩ := hx
    exact hwire w (Or.inl ⟨n, hw⟩) x (Or.inr ⟨s, hs, hx⟩)

end Ledger

end Kobox.Virtqueue
