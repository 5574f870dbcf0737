import Kobox.Virtqueue.Transition

/-!
# A queue between two endpoints
-/

namespace Kobox.Virtqueue
open ByteMemory Protocol List
variable {j i : ℕ} {s : Segment}

structure Lane where
  channel : ChannelModel
  queue : Queue
  payloadAllowed : UInt32 → UInt64 → UInt64 → UInt32 → Bool

def Lane.binding (L : Lane) (side : Side) : Binding :=
  ⟨L.channel, L.queue, L.payloadAllowed, side⟩

variable {side : Side}

theorem Wire.Valid.peer {L : Lane} {w : Wire} (h : w.Valid (L.binding side)) (side' : Side) :
    w.Valid (L.binding side') := by
  refine ⟨h.nonempty, h.count_le, h.head_lt, fun hz => ?_, h.noTable, h.first, fun i s hs => ?_,
    h.pair, h.readable_eq, h.writable_eq, h.writable_ne, h.role⟩
  · obtain ⟨h1, h2, h3, h4, h5, h6, h7⟩ := h.table hz
    exact ⟨h1, h2, h3, h4, h5, h6, h7⟩
  · obtain ⟨h1, h2, h3, h4, h5⟩ := h.segment i s hs
    exact ⟨h1, h2, h3, h4, h5⟩

theorem Binding.Bound.peer {L : Lane} (h : (L.binding side).Bound) (side' : Side) :
    (L.binding side').Bound := ⟨h.accepted, h.queue_mem⟩

theorem Lane.wellFormed {L : Lane} (h : (L.binding side).Bound) :
    L.queue.WellFormed := h.wellFormed

namespace Wire

def entry (q : Queue) (w : Wire) (i : ℕ) (s : Segment) : UInt64 × List UInt8 :=
  let flags : UInt16 := if s.writable ≠ 0 then descWrite else 0
  let table := if w.directCount ≤ i then w.indirect else q.descriptorAddress
  let flags := if i + 1 < w.segments.length then flags ||| descNext else flags
  let next : UInt16 :=
    if i + 1 < w.segments.length then
      if i + 1 = w.directCount then w.indirectDescriptor
      else (w.segments[i + 1]?.map (·.descriptor)).getD 0
    else 0
  (descriptorAt table s.descriptor, descriptorBytes s.address s.length flags next)

def reference (q : Queue) (w : Wire) : UInt64 × List UInt8 :=
  (descriptorAt q.descriptorAddress w.indirectDescriptor,
    descriptorBytes w.indirect w.indirectLength descIndirect 0)

def descriptors (q : Queue) (w : Wire) : List (UInt64 × List UInt8) :=
  (w.segments.zipIdx.map fun (s, i) => w.entry q i s) ++
    if w.indirectLength ≠ 0 then [w.reference q] else []

theorem mem_descriptors {q : Queue} {w : Wire} {x : UInt64 × List UInt8} :
    x ∈ w.descriptors q ↔ (∃ i s, w.segments[i]? = some s ∧ x = w.entry q i s) ∨
      (w.indirectLength ≠ 0 ∧ x = w.reference q) := by
  unfold descriptors
  rw [mem_append]
  apply or_congr
  · rw [mem_map]
    constructor
    · rintro ⟨⟨s, i⟩, hmem, rfl⟩
      exact ⟨i, s, mk_mem_zipIdx_iff_getElem?.mp hmem, rfl⟩
    · rintro ⟨i, s, hi, rfl⟩
      exact ⟨(s, i), mk_mem_zipIdx_iff_getElem?.mpr hi, rfl⟩
  · by_cases hz : w.indirectLength = 0 <;> simp [hz]

end Wire

theorem descriptorWrites_eq {b : Binding} {c : Chain} (hlen : c.count ≤ c.capacity) :
    descriptorWrites b c = c.wire.descriptors b.queue := by
  have hcount := segs_length hlen
  have hdirect := wire_directCount hlen
  unfold descriptorWrites Wire.descriptors
  congr 1
  apply map_congr_left
  rintro ⟨s, i⟩ -
  simp only [segmentWrite, Wire.entry, hdirect]
  change _ = (descriptorAt (if c.directCount ≤ i then c.indirect else b.queue.descriptorAddress) _,
    descriptorBytes s.address s.length
      (if i + 1 < c.segs.length then _ else _)
      (if i + 1 < c.segs.length then
        if i + 1 = c.directCount then c.indirectDescriptor
        else (c.segs[i + 1]?.map (·.descriptor)).getD 0
      else 0))
  rw [hcount]

/-! ### Where descriptors lie -/

def Lane.mainEntry (L : Lane) (d : ℕ) : Span := ⟨L.queue.descriptorAddress.toNat + 16 * d, 16⟩

def Wire.ownEntry (w : Wire) (j : ℕ) : Span := ⟨w.indirect.toNat + 16 * j, 16⟩

section Places
variable {L : Lane} {w w' : Wire}

theorem mainEntry_within {d : ℕ} (hd : d < L.queue.queueSize.toNat) :
    Span.Within (L.mainEntry d) (L.queue.ring 0) := by
  rw [ring_zero]
  simp only [Lane.mainEntry, Span.Within]
  omega

theorem ownEntry_within (hj : j < w.indirectLength.toNat / descSize) :
    Span.Within (w.ownEntry j) w.table := by
  have hdesc : descSize = 16 := rfl
  rw [hdesc] at hj
  simp only [Wire.ownEntry, Wire.table, Span.Within]
  omega

theorem mainEntry_apart {d d' : ℕ} (h : d ≠ d') :
    Span.Apart (L.mainEntry d) (L.mainEntry d') := by
  simp only [Lane.mainEntry, Span.Apart]
  omega

theorem ownEntry_apart {j' : ℕ} (h : j ≠ j') : Span.Apart (w.ownEntry j) (w.ownEntry j') := by
  simp only [Wire.ownEntry, Span.Apart]
  omega

def writeSpan (x : UInt64 × List UInt8) : Span := ⟨x.1.toNat, x.2.length⟩

theorem Wire.Valid.directDescriptor_lt (hv : w.Valid (L.binding .driver)) {d : UInt16}
    (hd : d ∈ w.directDescriptors) : d.toNat < L.queue.queueSize.toNat := by
  rcases mem_directDescriptors.mp hd with ⟨hz, rfl⟩ | ⟨i, s, hi, hs, rfl⟩
  · exact (hv.table hz).descriptor_lt
  · exact ((hv.segment i s hs).direct hi).1

theorem entry_direct (hb : (L.binding .driver).Bound) (hv : w.Valid (L.binding .driver))
    (hs : w.segments[i]? = some s) (hi : i < w.directCount) :
    writeSpan (w.entry L.queue i s) = L.mainEntry s.descriptor.toNat := by
  have hlt : s.descriptor.toNat < L.queue.queueSize.toNat := ((hv.segment i s hs).direct hi).1
  simp only [writeSpan, Wire.entry, descriptorBytes_length, if_neg (Nat.not_le_of_lt hi)]
  rw [descriptorAt_toNat (ring_zero_lt (L.wellFormed hb)) hlt]
  rfl

theorem Wire.Valid.hasTable (hv : w.Valid (L.binding .driver)) (hs : w.segments[i]? = some s)
    (hi : w.directCount ≤ i) : w.indirectLength ≠ 0 := by
  intro hz
  have hlt := (hv.segment i s hs).inTable hi
  rw [hz] at hlt
  exact absurd hlt (by simp)

theorem entry_inTable (hv : w.Valid (L.binding .driver)) (hs : w.segments[i]? = some s)
    (hi : w.directCount ≤ i) :
    writeSpan (w.entry L.queue i s) = w.ownEntry s.descriptor.toNat := by
  have hlt := (hv.segment i s hs).inTable hi
  simp only [writeSpan, Wire.entry, descriptorBytes_length, if_pos hi]
  rw [descriptorAt_toNat (hv.table_lt (hv.hasTable hs hi)) hlt]
  rfl

section
variable (hb : (L.binding .driver).Bound) (hv : w.Valid (L.binding .driver))
include hb hv

theorem reference_span (hz : w.indirectLength ≠ 0) :
    writeSpan (w.reference L.queue) = L.mainEntry w.indirectDescriptor.toNat := by
  have hlt : w.indirectDescriptor.toNat < L.queue.queueSize.toNat := (hv.table hz).descriptor_lt
  simp only [writeSpan, Wire.reference, descriptorBytes_length]
  rw [descriptorAt_toNat (ring_zero_lt (L.wellFormed hb)) hlt]
  rfl

theorem descriptors_place {x : UInt64 × List UInt8} (hx : x ∈ w.descriptors L.queue) :
    (∃ d ∈ w.directDescriptors, writeSpan x = L.mainEntry d.toNat) ∨
      (w.indirectLength ≠ 0 ∧ Span.Within (writeSpan x) w.table) := by
  rcases Wire.mem_descriptors.mp hx with ⟨i, s, hs, rfl⟩ | ⟨hz, rfl⟩
  · by_cases hi : i < w.directCount
    · exact Or.inl ⟨s.descriptor, mem_directDescriptors.mpr (Or.inr ⟨i, s, hi, hs, rfl⟩),
        entry_direct hb hv hs hi⟩
    · have hle := Nat.le_of_not_lt hi
      refine Or.inr ⟨hv.hasTable hs hle, ?_⟩
      rw [entry_inTable hv hs hle]
      exact ownEntry_within ((hv.segment i s hs).inTable hle)
  · exact Or.inl ⟨w.indirectDescriptor, mem_directDescriptors.mpr (Or.inl ⟨hz, rfl⟩),
      reference_span hb hv hz⟩

theorem table_granted (hz : w.indirectLength ≠ 0) :
    Granted (L.binding .driver) w.indirect w.indirectLength.toUInt64 regionRightRead := by
  refine payloadRange_granted hb.accepted (fun h => hz ?_) (hv.table hz).payload
  rw [toNat_eq_zero_iff, UInt32.toNat_toUInt64] at h
  rw [← UInt32.toNat_inj]
  exact h

theorem segment_granted (hs : s ∈ w.segments) (hz : s.length ≠ 0) :
    Granted (L.binding .driver) s.address s.length.toUInt64 s.rights := by
  obtain ⟨i, hi⟩ := mem_iff_getElem?.mp hs
  refine payloadRange_granted hb.accepted (fun h => hz ?_) (hv.segment i s hi).payload
  rw [toNat_eq_zero_iff, UInt32.toNat_toUInt64] at h
  rw [← UInt32.toNat_inj]
  exact h

end

theorem apart_of_size_zero {s t : Span} (h : s.size = 0) : Span.Apart s t := Or.inl h

theorem table_apart_ring (hb : (L.binding .driver).Bound) (hv : w.Valid (L.binding .driver))
    {q : Queue} (hq : q ∈ L.channel.queues) (hi : i < 3) :
    Span.Apart w.table (q.ring i) := by
  by_cases hz : w.indirectLength = 0
  · exact apart_of_size_zero (by rw [Wire.table, hz]; rfl)
  · have h := (table_granted hb hv hz).rings q hq i hi
    rwa [UInt32.toNat_toUInt64] at h

theorem segment_apart_ring (hb : (L.binding .driver).Bound) (hv : w.Valid (L.binding .driver))
    (hs : s ∈ w.segments) {q : Queue} (hq : q ∈ L.channel.queues) (hi : i < 3) :
    Span.Apart s.span (q.ring i) := by
  by_cases hz : s.length = 0
  · exact apart_of_size_zero (by rw [Segment.span, hz]; rfl)
  · have h := (segment_granted hb hv hs hz).rings q hq i hi
    rwa [UInt32.toNat_toUInt64] at h

/-! ### Descriptors are apart from each other -/

/-- Two wires that can be outstanding together. -/
structure Wire.Compatible (w w' : Wire) : Prop where
  descriptors : ∀ d ∈ w.directDescriptors, d ∉ w'.directDescriptors
  clear : w.Clear w'

theorem Wire.Compatible.symm (h : w.Compatible w') : w'.Compatible w :=
  ⟨fun d hd hd' => h.descriptors d hd' hd, h.clear.symm⟩

theorem Wire.Compatible.head_ne {b b' : Binding} (h : w.Compatible w') (hv : w.Valid b)
    (hv' : w'.Valid b') : w.head ≠ w'.head := by
  intro he
  have hmem := head_mem_directDescriptors hv.nonempty hv.first
  rw [he] at hmem
  exact h.descriptors _ hmem (head_mem_directDescriptors hv'.nonempty hv'.first)

variable (hb : (L.binding .driver).Bound) (hv : w.Valid (L.binding .driver))
include hb hv

theorem Wire.Compatible.descriptors_apart (hv' : w'.Valid (L.binding .driver))
    (h : w.Compatible w') {x y : UInt64 × List UInt8} (hx : x ∈ w.descriptors L.queue)
    (hy : y ∈ w'.descriptors L.queue) : Span.Apart (writeSpan x) (writeSpan y) := by
  rcases descriptors_place hb hv hx with ⟨d, hd, hxd⟩ | ⟨-, hxt⟩
  · rcases descriptors_place hb hv' hy with ⟨d', hd', hyd⟩ | ⟨-, hyt⟩
    · rw [hxd, hyd]
      refine mainEntry_apart fun he => h.descriptors d hd ?_
      rwa [UInt16.toNat_inj.mp he]
    · rw [hxd]
      exact (table_apart_ring hb hv' hb.queue_mem (by omega)).symm.mono
        (mainEntry_within (hv.directDescriptor_lt hd)) hyt
  · rcases descriptors_place hb hv' hy with ⟨d', hd', hyd⟩ | ⟨-, hyt⟩
    · rw [hyd]
      exact (table_apart_ring hb hv hb.queue_mem (by omega)).mono hxt
        (mainEntry_within (hv'.directDescriptor_lt hd'))
    · exact h.clear.tables.mono hxt hyt

theorem mainEntry_apart_own {d : ℕ} (hd : d < L.queue.queueSize.toNat)
    (hj : j < w.indirectLength.toNat / descSize) : Span.Apart (L.mainEntry d) (w.ownEntry j) :=
  (table_apart_ring hb hv hb.queue_mem (by omega)).symm.mono (mainEntry_within hd)
    (ownEntry_within hj)

theorem entries_apart {p : Segment} (hj : j < i) (hs : w.segments[i]? = some s)
    (hp : w.segments[j]? = some p) :
    Span.Apart (writeSpan (w.entry L.queue j p)) (writeSpan (w.entry L.queue i s)) := by
  have hdistinct := (hv.pair i j s p hj hs hp).distinct
  by_cases hi : i < w.directCount
  · have hj' : j < w.directCount := by omega
    rw [entry_direct hb hv hs hi, entry_direct hb hv hp hj']
    refine mainEntry_apart fun he => hdistinct ?_ (UInt16.toNat_inj.mp he).symm
    omega
  · have hi' := Nat.le_of_not_lt hi
    have hs' := (hv.segment i s hs).inTable hi'
    rw [entry_inTable hv hs hi']
    by_cases hj' : j < w.directCount
    · rw [entry_direct hb hv hp hj']
      exact mainEntry_apart_own hb hv ((hv.segment j p hp).direct hj').1 hs'
    · rw [entry_inTable hv hp (Nat.le_of_not_lt hj')]
      refine ownEntry_apart fun he => hdistinct ?_ (UInt16.toNat_inj.mp he).symm
      omega

theorem reference_apart (hs : w.segments[i]? = some s) (hz : w.indirectLength ≠ 0) :
    Span.Apart (writeSpan (w.entry L.queue i s)) (writeSpan (w.reference L.queue)) := by
  have hlt : w.indirectDescriptor.toNat < L.queue.queueSize.toNat := (hv.table hz).descriptor_lt
  rw [reference_span hb hv hz]
  by_cases hi : i < w.directCount
  · rw [entry_direct hb hv hs hi]
    exact mainEntry_apart fun he => ((hv.segment i s hs).direct hi).2 hz (UInt16.toNat_inj.mp he)
  · have hi' := Nat.le_of_not_lt hi
    rw [entry_inTable hv hs hi']
    exact (mainEntry_apart_own hb hv hlt ((hv.segment i s hs).inTable hi')).symm

theorem descriptors_pairwise :
    (w.descriptors L.queue).Pairwise fun x y => Span.Apart (writeSpan x) (writeSpan y) := by
  unfold Wire.descriptors
  refine pairwise_append.mpr ⟨?_, ?_, fun x hx y hy => ?_⟩
  · rw [pairwise_map, pairwise_iff_getElem]
    intro j i hj hi hji
    have hlen : w.segments.zipIdx.length = w.segments.length := length_zipIdx
    simp only [getElem_zipIdx, Nat.zero_add]
    exact entries_apart hb hv hji (getElem?_eq_getElem (by omega))
      (getElem?_eq_getElem (by omega))
  · split_ifs
    · exact pairwise_singleton ..
    · exact List.Pairwise.nil
  · obtain ⟨⟨s, i⟩, hmem, rfl⟩ := mem_map.mp hx
    have hs := mk_mem_zipIdx_iff_getElem?.mp hmem
    by_cases hz : w.indirectLength = 0
    · simp [hz] at hy
    · simp only [ne_eq, hz, not_false_eq_true, if_true, mem_singleton] at hy
      rw [hy]
      exact reference_apart hb hv hs hz

end Places

def locate : List Segment → ℕ → ℕ
  | [], k => k
  | s :: rest, k =>
    if s.writable = 0 then locate rest k
    else if k < s.length.toNat then s.address.toNat + k
    else locate rest (k - s.length.toNat)

theorem locate_spec {segs : List Segment} {k : ℕ} (hk : k < writableBytes segs) :
    ∃ j s offset, segs[j]? = some s ∧ s.writable ≠ 0 ∧ offset < s.length.toNat ∧
      locate segs k = s.address.toNat + offset ∧ k = writableBytes (segs.take j) + offset := by
  induction segs generalizing k with
  | nil => exact absurd hk (Nat.not_lt_zero k)
  | cons p rest ih =>
    rw [writableBytes_cons] at hk
    by_cases hp : p.writable = 0
    · simp only [hp, ne_eq, not_true_eq_false, if_false, Nat.zero_add] at hk
      obtain ⟨j, s, offset, hs, hw, hlt, hloc, hsum⟩ := ih hk
      refine ⟨j + 1, s, offset, by simpa using hs, hw, hlt, ?_, ?_⟩
      · rw [locate, if_pos hp, hloc]
      · simp only [take_succ_cons, writableBytes_cons, hp, ne_eq, not_true_eq_false, if_false]
        omega
    · simp only [hp, ne_eq, not_false_eq_true, if_true] at hk
      by_cases hlt : k < p.length.toNat
      · refine ⟨0, p, k, rfl, hp, hlt, ?_, ?_⟩
        · rw [locate, if_neg hp, if_pos hlt]
        · rw [take_zero]
          exact (Nat.zero_add k).symm
      · obtain ⟨j, s, offset, hs, hw, hoff, hloc, hsum⟩ := ih (k := k - p.length.toNat) (by omega)
        refine ⟨j + 1, s, offset, by simpa using hs, hw, hoff, ?_, ?_⟩
        · rw [locate, if_neg hp, if_neg hlt, hloc]
        · simp only [take_succ_cons, writableBytes_cons, hp, ne_eq, not_false_eq_true, if_true]
          omega

theorem locate_mem {segs : List Segment} {k : ℕ} (hk : k < writableBytes segs) :
    ∃ s ∈ segs, s.writable ≠ 0 ∧ Span.Within ⟨locate segs k, 1⟩ s.span := by
  obtain ⟨j, s, offset, hs, hw, hlt, hloc, -⟩ := locate_spec hk
  refine ⟨s, mem_of_getElem? hs, hw, ?_⟩
  rw [hloc]
  simp only [Segment.span, Span.Within]
  omega

theorem locate_inj {b : Binding} {w : Wire} (hv : w.Valid b) {k k' : ℕ} (hne : k ≠ k')
    (hk : k < writableBytes w.segments) (hk' : k' < writableBytes w.segments) :
    locate w.segments k ≠ locate w.segments k' := by
  obtain ⟨j, s, offset, hs, hw, hlt, hloc, hsum⟩ := locate_spec hk
  obtain ⟨j', s', offset', hs', hw', hlt', hloc', hsum'⟩ := locate_spec hk'
  rw [hloc, hloc']
  rcases Nat.lt_trichotomy j j' with hj | rfl | hj
  · have hapart := (hv.pair j' j s' s hj hs' hs).apart (Or.inl hw')
    simp only [Segment.span, Span.Apart] at hapart
    omega
  · rw [hs] at hs'
    cases hs'
    omega
  · have hapart := (hv.pair j j' s s' hj hs hs').apart (Or.inl hw)
    simp only [Segment.span, Span.Apart] at hapart
    omega

/-- Addresses a lane's endpoints may write: its rings and what the policy allows its queue. -/
def InLane (L : Lane) (x : ℕ) : Prop :=
  (∃ i < 3, Span.Mem x (L.queue.ring i)) ∨
    ∃ address size rights, Granted (L.binding .driver) address size rights ∧
      Span.Mem x ⟨address.toNat, size.toNat⟩

section InLane
variable {L : Lane} {w : Wire}

theorem inLane_ring (hi : i < 3) {s : Span} (h : Span.Within s (L.queue.ring i)) {x : ℕ}
    (hx : Span.Mem x s) : InLane L x := Or.inl ⟨i, hi, h.mem hx⟩

theorem inLane_table (hb : (L.binding .driver).Bound) (hv : w.Valid (L.binding .driver)) {s : Span}
    (h : Span.Within s w.table) {x : ℕ} (hx : Span.Mem x s) : InLane L x := by
  have hmem := h.mem hx
  by_cases hz : w.indirectLength = 0
  · have hsize : w.table.size = 0 := by
      rw [Wire.table, hz]
      rfl
    unfold Span.Mem at hmem
    omega
  · refine Or.inr ⟨_, _, _, table_granted hb hv hz, ?_⟩
    rw [UInt32.toNat_toUInt64]
    exact hmem

theorem inLane_segment (hb : (L.binding .driver).Bound) (hv : w.Valid (L.binding .driver))
    {p : Segment} (hp : p ∈ w.segments) {s : Span} (h : Span.Within s p.span) {x : ℕ}
    (hx : Span.Mem x s) : InLane L x := by
  have hmem := h.mem hx
  by_cases hz : p.length = 0
  · have hsize : p.span.size = 0 := by
      rw [Segment.span, hz]
      rfl
    unfold Span.Mem at hmem
    omega
  · refine Or.inr ⟨_, _, _, segment_granted hb hv hp hz, ?_⟩
    rw [UInt32.toNat_toUInt64]
    exact hmem

end InLane

end Kobox.Virtqueue
