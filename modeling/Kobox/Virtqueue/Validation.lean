import Kobox.Protocol.Accepted
import Kobox.Virtqueue.Chains

/-!
# What `validate_chain` accepts
-/

namespace Kobox.Virtqueue
open ByteMemory Protocol List
variable {rights : UInt32} {done : List Segment} {seen : Bool} {w : Wire} {i : ℕ} {b : Binding}
  {vq : Vq} {c : Chain} {s : Segment}

def Segment.span (s : Segment) : Span := ⟨s.address.toNat, s.length.toNat⟩

def NoWrap (s : Span) : Prop := s.size ≠ 0 → s.base + s.size < 2 ^ 64

/-- A published chain as the peer can read it. -/
structure Wire where
  head : UInt16
  segments : List Segment
  indirect : UInt64
  indirectLength : UInt32
  indirectDescriptor : UInt16
  indirectFirst : ℕ
  readable : ℕ
  writable : ℕ
  deriving DecidableEq, Repr

def Chain.wire (c : Chain) : Wire where
  head := c.head
  segments := c.segs
  indirect := c.indirect
  indirectLength := c.indirectLength
  indirectDescriptor := c.indirectDescriptor
  indirectFirst := c.indirectFirst
  readable := c.readable
  writable := c.writable

namespace Wire

def directCount (w : Wire) : ℕ :=
  if w.indirectLength ≠ 0 then w.indirectFirst else w.segments.length

def table (w : Wire) : Span := ⟨w.indirect.toNat, w.indirectLength.toNat⟩

def directDescriptors (w : Wire) : List UInt16 :=
  (if w.indirectLength ≠ 0 then [w.indirectDescriptor] else []) ++
    (w.segments.take w.directCount).map (·.descriptor)

/-- Nothing of one wire that somebody writes meets anything of the other. -/
structure Clear (w w' : Wire) : Prop where
  tables : Span.Apart w.table w'.table
  left : ∀ s ∈ w.segments, Span.Apart s.span w'.table
  right : ∀ s ∈ w'.segments, Span.Apart w.table s.span
  segments : ∀ s ∈ w.segments, ∀ s' ∈ w'.segments, s.writable ≠ 0 ∨ s'.writable ≠ 0 →
    Span.Apart s.span s'.span

theorem Clear.symm {w' : Wire} (h : Clear w w') : Clear w' w :=
  ⟨h.tables.symm, fun s hs => (h.right s hs).symm, fun s hs => (h.left s hs).symm,
    fun s hs s' hs' hw => (h.segments s' hs' s hs hw.symm).symm⟩

end Wire

def readableBytes (segs : List Segment) : ℕ :=
  ((segs.filter fun s => s.writable = 0).map fun s => s.length.toNat).sum

def writableBytes (segs : List Segment) : ℕ :=
  ((segs.filter fun s => s.writable ≠ 0).map fun s => s.length.toNat).sum

/-- What `payloadRange` grants for a nonempty range. -/
structure Granted (b : Binding) (address size : UInt64) (rights : UInt32) : Prop where
  lt : address.toNat + size.toNat < 2 ^ 64
  region : ∃ r ∈ b.channel.regions, Span.Within ⟨address.toNat, size.toNat⟩ r.span ∧
    r.rights &&& rights = rights
  rings : ∀ q ∈ b.channel.queues, ∀ i < 3, Span.Apart ⟨address.toNat, size.toNat⟩ (q.ring i)
  allowed : b.payloadAllowed b.queue.queueId address size rights = true

theorem rangeValid_eq : rangeValid = u64RangeValid := rfl

theorem toNat_eq_zero_iff {x : UInt64} : x = 0 ↔ x.toNat = 0 := by
  rw [← UInt64.toNat_inj]
  rfl

theorem overlaps_eq_false_iff {a n b m : UInt64} (h : NoWrap ⟨a.toNat, n.toNat⟩)
    (h' : NoWrap ⟨b.toNat, m.toNat⟩) :
    overlaps a n b m = false ↔ Span.Apart ⟨a.toNat, n.toNat⟩ ⟨b.toNat, m.toNat⟩ := by
  unfold NoWrap at h h'
  dsimp only at h h'
  simp only [overlaps, Bool.and_eq_false_iff, bne_eq_false_iff_eq, decide_eq_false_iff_not,
    Span.Apart, toNat_eq_zero_iff]
  by_cases hn : n.toNat = 0
  · simp [hn]
  · by_cases hm : m.toNat = 0
    · simp [hm]
    · rw [UInt64.lt_iff_toNat_lt, UInt64.lt_iff_toNat_lt, toNat_add_of_lt (h hn),
        toNat_add_of_lt (h' hm)]
      omega

theorem ringBase_eq (q : Queue) (hi : i < 3) : ringBase q i = queueRangeBase q i := by
  have hi' : i = 0 ∨ i = 1 ∨ i = 2 := by omega
  rcases hi' with rfl | rfl | rfl <;> rfl

theorem ringSize_eq (q : Queue) (hi : i < 3) : ringSize q i = queueRangeLength q i := by
  have hi' : i = 0 ∨ i = 1 ∨ i = 2 := by omega
  rcases hi' with rfl | rfl | rfl <;> rfl

theorem payloadRange_granted {address size : UInt64}
    (hc : Accepted b.channel.identity b.channel.queues b.channel.regions) (hsize : size ≠ 0)
    (h : payloadRange b address size rights = true) : Granted b address size rights := by
  unfold payloadRange at h
  rw [if_neg hsize] at h
  split_ifs at h with hvalid hregion hrings
  simp only [Bool.not_eq_true, Bool.not_eq_false', rangeValid_eq] at hvalid
  have hlt := (u64RangeValid_iff address size).mp hvalid
  refine ⟨hlt.2, ?_, ?_, h⟩
  · simp only [Bool.not_eq_true, Bool.not_eq_false', any_eq_true, Bool.and_eq_true,
      decide_eq_true_eq, beq_iff_eq] at hregion
    obtain ⟨r, hr, ⟨hbase, hend⟩, hrights⟩ := hregion
    have hrlt := hc.region_lt r hr
    rw [UInt64.le_iff_toNat_le, toNat_add_of_lt hlt.2, toNat_add_of_lt hrlt] at hend
    rw [UInt64.le_iff_toNat_le] at hbase
    exact ⟨r, hr, ⟨hbase, hend⟩, hrights⟩
  · intro q hq i hi
    simp only [Bool.not_eq_true, any_eq_false, mem_range] at hrings
    have hno := hrings q hq i hi
    rw [ringBase_eq q hi, ringSize_eq q hi] at hno
    exact (overlaps_eq_false_iff (fun _ => hlt.2) (fun _ => (hc.queue q hq).ring_lt i hi)).mp hno

theorem payloadRange_noWrap {address size : UInt64} (h : payloadRange b address size rights = true) :
    NoWrap ⟨address.toNat, size.toNat⟩ := by
  intro hsize
  unfold payloadRange at h
  rw [if_neg (fun hz => hsize (toNat_eq_zero_iff.mp hz))] at h
  split_ifs at h with hvalid
  simp only [Bool.not_eq_true, Bool.not_eq_false', rangeValid_eq] at hvalid
  exact ((u64RangeValid_iff address size).mp hvalid).2

/-! ### Valid wires -/

namespace Wire

def first (w : Wire) : Option UInt16 :=
  if w.directCount ≠ 0 then w.segments[0]?.map (·.descriptor) else some w.indirectDescriptor

/-- The conditions on a wire with an indirect table, before its segments. -/
structure TableOk (b : Binding) (w : Wire) : Prop where
  aligned : w.indirect &&& 15 = 0
  multiple : w.indirectLength.toNat % descSize = 0
  length_le : w.indirectLength.toNat / descSize ≤ b.queue.maxIndirectLength.toNat
  first_lt : w.indirectFirst < w.segments.length
  descriptor_lt : w.indirectDescriptor.toNat < b.queue.queueSize.toNat
  entry : w.segments[w.indirectFirst]?.map (·.descriptor) = some 0
  payload : payloadRange b w.indirect w.indirectLength.toUInt64 regionRightRead = true

/-- The conditions on segment `i` by itself. -/
structure SegmentOk (b : Binding) (w : Wire) (i : ℕ) (s : Segment) : Prop where
  writable : s.writable = 0 ∨ s.writable = 1
  payload : payloadRange b s.address s.length.toUInt64 s.rights = true
  table : Span.Apart s.span w.table
  inTable : w.directCount ≤ i → s.descriptor.toNat < w.indirectLength.toNat / descSize
  direct : i < w.directCount → s.descriptor.toNat < b.queue.queueSize.toNat ∧
    (w.indirectLength ≠ 0 → s.descriptor ≠ w.indirectDescriptor)

/-- The conditions on segment `i` and an earlier segment `j`. -/
structure PairOk (w : Wire) (i j : ℕ) (s p : Segment) : Prop where
  order : p.writable ≠ 0 → s.writable ≠ 0
  distinct : (w.directCount ≤ j ↔ w.directCount ≤ i) → s.descriptor ≠ p.descriptor
  apart : s.writable ≠ 0 ∨ p.writable ≠ 0 → Span.Apart s.span p.span

/-- What `validate_chain` demands of a wire, the private tables of the queue apart. -/
structure Valid (b : Binding) (w : Wire) : Prop where
  nonempty : w.segments ≠ []
  count_le : w.segments.length ≤ b.queue.maxChainLength.toNat
  head_lt : w.head.toNat < b.queue.queueSize.toNat
  table : w.indirectLength ≠ 0 → TableOk b w
  noTable : w.indirectLength = 0 →
    w.indirect = 0 ∧ w.indirectFirst = 0 ∧ w.indirectDescriptor = 0
  first : w.first = some w.head
  segment : ∀ i s, w.segments[i]? = some s → SegmentOk b w i s
  pair : ∀ i j s p, j < i → w.segments[i]? = some s → w.segments[j]? = some p → PairOk w i j s p
  readable_eq : w.readable = readableBytes w.segments
  writable_eq : w.writable = writableBytes w.segments
  writable_ne : w.writable ≠ 0
  role : if b.queue.role = queueRoleRequest then w.readable ≠ 0 else w.readable = 0

end Wire

/-- The conditions of `validate_chain` on the queue's private tables. -/
structure Fresh (b : Binding) (vq : Vq) (chains : ChainId → Chain) (c : Chain) : Prop where
  slot : vq.slots c.head.toNat = none
  owner : ∀ d ∈ c.wire.directDescriptors, vq.descriptorOwner d.toNat = 0
  clear : ∀ h < b.queue.queueSize.toNat, ∀ id, vq.slots h = some id →
    chainsOverlap c (chains id) = false

def Chain.counted (c : Chain) : Chain :=
  { c with readable := readableBytes c.segs, writable := writableBytes c.segs, written := 0,
           usedLength := 0 }

theorem readableBytes_cons (s : Segment) (segs : List Segment) : readableBytes (s :: segs) =
    (if s.writable ≠ 0 then 0 else s.length.toNat) + readableBytes segs := by
  unfold readableBytes
  by_cases h : s.writable = 0 <;> simp [h]

theorem writableBytes_cons (s : Segment) (segs : List Segment) : writableBytes (s :: segs) =
    (if s.writable ≠ 0 then s.length.toNat else 0) + writableBytes segs := by
  unfold writableBytes
  by_cases h : s.writable = 0 <;> simp [h]

def SegmentsPass (b : Binding) (vq : Vq) (c : Chain) (done segs : List Segment) (seen : Bool) :
    Prop :=
  ∀ k s, segs[k]? = some s →
    segmentValid b vq c (done ++ segs.take k)
      (seen || (segs.take k).any fun s => s.writable ≠ 0) s = true

theorem segmentsPass_cons {segs : List Segment} :
    SegmentsPass b vq c done (s :: segs) seen ↔ segmentValid b vq c done seen s = true ∧
      SegmentsPass b vq c (done ++ [s]) segs (seen || decide (s.writable ≠ 0)) := by
  constructor
  · intro h
    refine ⟨by simpa using h 0 s rfl, fun k t hk => ?_⟩
    have hs := h (k + 1) t (by simpa using hk)
    simpa [Bool.or_assoc] using hs
  · intro h k t hk
    cases k with
    | zero =>
      obtain rfl : s = t := by simpa using hk
      simpa using h.1
    | succ k =>
      have hs := h.2 k t (by simpa using hk)
      simpa [Bool.or_assoc] using hs

theorem validateSegments_eq_some_iff {segs : List Segment} {r w r' w' : ℕ} :
    validateSegments b vq c done segs seen r w = some (r', w') ↔
      SegmentsPass b vq c done segs seen ∧ r' = r + readableBytes segs ∧
        w' = w + writableBytes segs := by
  induction segs generalizing done seen r w with
  | nil =>
    simp only [validateSegments, Option.some.injEq, Prod.mk.injEq, SegmentsPass,
      getElem?_nil, reduceCtorEq, false_implies, implies_true, true_and, readableBytes,
      writableBytes, filter_nil, map_nil, sum_nil, Nat.add_zero, eq_comm]
  | cons s segs ih =>
    rw [validateSegments, segmentsPass_cons, readableBytes_cons, writableBytes_cons]
    by_cases hv : segmentValid b vq c done seen s = true
    · by_cases hw : s.writable = 0
      · simp only [hv, hw, ih, if_true, ne_eq, not_true_eq_false, if_false, decide_false,
          Bool.or_false, true_and, Nat.zero_add, Nat.add_assoc]
      · simp only [hv, hw, ih, if_true, ne_eq, not_false_eq_true, decide_true, Bool.or_true,
          true_and, Nat.zero_add, Nat.add_assoc]
    · simp only [hv, Bool.false_eq_true, if_false, reduceCtorEq, false_and]

theorem segs_length (h : c.count ≤ c.capacity) : c.segs.length = c.count := by
  rw [Chain.segs, length_take]
  exact Nat.min_eq_left h

theorem wire_directCount (h : c.count ≤ c.capacity) :
    c.wire.directCount = c.directCount := by
  simp only [Wire.directCount, Chain.directCount, Chain.wire, segs_length h]

theorem segmentValid_payload (h : segmentValid b vq c done seen s = true) :
    payloadRange b s.address s.length.toUInt64 s.rights = true := by
  simp only [segmentValid, Bool.and_eq_true, Bool.not_eq_true', Bool.or_eq_false_iff,
    Bool.not_eq_false'] at h
  exact h.1.1.1.2

theorem span_noWrap (h : payloadRange b s.address s.length.toUInt64 rights = true) :
    NoWrap s.span := by
  have hw := payloadRange_noWrap h
  rwa [UInt32.toNat_toUInt64] at hw

theorem not_one_lt_iff {x : UInt16} : ¬ 1 < x ↔ x = 0 ∨ x = 1 := by
  have h0 : x = 0 ↔ x.toNat = 0 := by
    rw [← UInt16.toNat_inj]
    rfl
  have h1 : x = 1 ↔ x.toNat = 1 := by
    rw [← UInt16.toNat_inj]
    rfl
  rw [h0, h1, UInt16.lt_iff_toNat_lt]
  change ¬ 1 < x.toNat ↔ _
  omega

theorem descriptorTest_iff {d : ℕ} {length : UInt32} {reference : UInt16} :
    (if decide (d ≤ i) = true then decide (s.descriptor.toNat < length.toNat / descSize)
      else !(decide (b.queue.queueSize.toNat ≤ s.descriptor.toNat) ||
        vq.descriptorOwner s.descriptor.toNat != 0 ||
        length != 0 && s.descriptor == reference)) = true ↔
      (d ≤ i → s.descriptor.toNat < length.toNat / descSize) ∧
      (i < d → s.descriptor.toNat < b.queue.queueSize.toNat ∧
        (length ≠ 0 → s.descriptor ≠ reference)) ∧
      (i < d → vq.descriptorOwner s.descriptor.toNat = 0) := by
  by_cases hd : d ≤ i
  · have hlt : ¬ i < d := by omega
    simp [hd, hlt]
  · have hlt : i < d := by omega
    simp only [hd, hlt, decide_false, Bool.false_eq_true, if_false, Bool.not_eq_true',
      Bool.or_eq_false_iff, decide_eq_false_iff_not, bne_eq_false_iff_eq, Bool.and_eq_false_iff,
      beq_eq_false_iff_ne, false_implies, true_and, forall_const, Nat.not_le, ne_eq]
    tauto

theorem pairTest_iff {j : ℕ} {p : Segment}
    (hoverlap : overlaps s.address s.length.toUInt64 p.address p.length.toUInt64 = false ↔
      Span.Apart s.span p.span) :
    (p.writable ≠ 0 → s.writable ≠ 0) ∧
      (¬ decide (w.directCount ≤ j) = decide (w.directCount ≤ i) ∨
        ¬ s.descriptor = p.descriptor) ∧
      (s.writable = 0 ∧ p.writable = 0 ∨
        overlaps s.address s.length.toUInt64 p.address p.length.toUInt64 = false) ↔
      Wire.PairOk w i j s p := by
  rw [hoverlap, decide_eq_decide]
  constructor
  · rintro ⟨horder, hdistinct, hapart⟩
    refine ⟨horder, fun he => hdistinct.resolve_left (not_not_intro he), fun hw => ?_⟩
    rcases hapart with ⟨hs, hp⟩ | hapart
    · exact absurd hw (by simp [hs, hp])
    · exact hapart
  · rintro ⟨horder, hdistinct, hapart⟩
    refine ⟨horder, ?_, ?_⟩
    · by_cases he : w.directCount ≤ j ↔ w.directCount ≤ i
      · exact Or.inr (hdistinct he)
      · exact Or.inl he
    · by_cases hw : s.writable = 0 ∧ p.writable = 0
      · exact Or.inl hw
      · exact Or.inr (hapart (by tauto))

theorem segmentValid_iff (hlen : c.count ≤ c.capacity) (hi : c.segs[i]? = some s)
    (htable : NoWrap c.wire.table) (hsegs : ∀ p ∈ c.segs, NoWrap p.span) :
    segmentValid b vq c (c.segs.take i) ((c.segs.take i).any fun s => s.writable ≠ 0) s = true ↔
      Wire.SegmentOk b c.wire i s ∧
        (i < c.wire.directCount → vq.descriptorOwner s.descriptor.toNat = 0) ∧
        ∀ j p, j < i → c.segs[j]? = some p → Wire.PairOk c.wire i j s p := by
  have hilt : i < c.segs.length := (List.getElem?_eq_some_iff.mp hi).1
  have hdone : (c.segs.take i).length = i := by
    rw [List.length_take]
    omega
  have hs := hsegs s (List.mem_of_getElem? hi)
  have hoverlap (p : Segment) (hp : p ∈ c.segs) :
      overlaps s.address s.length.toUInt64 p.address p.length.toUInt64 = false ↔
        Span.Apart s.span p.span := by
    have h := overlaps_eq_false_iff (a := s.address) (n := s.length.toUInt64) (b := p.address)
      (m := p.length.toUInt64)
    simp only [UInt32.toNat_toUInt64] at h
    exact h hs (hsegs p hp)
  have htab : overlaps s.address s.length.toUInt64 c.indirect c.indirectLength.toUInt64 = false ↔
      Span.Apart s.span c.wire.table := by
    have h := overlaps_eq_false_iff (a := s.address) (n := s.length.toUInt64) (b := c.indirect)
      (m := c.indirectLength.toUInt64)
    simp only [UInt32.toNat_toUInt64] at h
    exact h hs htable
  have hearlier (q : Segment × ℕ → Bool) : ((c.segs.take i).zipIdx.all q = true) ↔
      ∀ j p, j < i → c.segs[j]? = some p → q (p, j) = true := by
    rw [List.all_eq_true]
    constructor
    · intro h j p hj hp
      exact h (p, j) (List.mk_mem_zipIdx_iff_getElem?.mpr (by rw [List.getElem?_take_of_lt hj, hp]))
    · rintro h ⟨p, j⟩ hmem
      have hp := List.mk_mem_zipIdx_iff_getElem?.mp hmem
      have hj : j < i := by
        have := (List.getElem?_eq_some_iff.mp hp).1
        omega
      exact h j p hj (by rwa [List.getElem?_take_of_lt hj] at hp)
  have hseen : ((c.segs.take i).any fun s => decide (s.writable ≠ 0)) = false ↔
      ∀ j p, j < i → c.segs[j]? = some p → p.writable = 0 := by
    simp only [List.any_eq_false, decide_eq_true_eq, ne_eq, Decidable.not_not]
    constructor
    · intro h j p hj hp
      exact h p (mem_take_of_lt hp hj)
    · intro h p hp
      obtain ⟨j, hj⟩ := List.mem_iff_getElem?.mp hp
      have hlt : j < i := by
        have := (List.getElem?_eq_some_iff.mp hj).1
        omega
      exact h j p hlt (by rwa [List.getElem?_take_of_lt hlt] at hj)
  rw [segmentValid, Bool.and_eq_true, Bool.and_eq_true, hearlier, ← wire_directCount hlen, hdone]
  simp only [descriptorTest_iff, Bool.not_eq_true', Bool.or_eq_false_iff, Bool.and_eq_false_iff,
    Bool.not_eq_false', decide_eq_false_iff_not, not_one_lt_iff, htab, hseen, beq_eq_false_iff_ne,
    bne_eq_false_iff_eq, ne_eq]
  constructor
  · rintro ⟨⟨⟨⟨⟨hwritable, horder⟩, hpayload⟩, htable⟩, hin, hdirect, howner⟩, hpairs⟩
    refine ⟨⟨hwritable, hpayload, htable, hin, hdirect⟩, howner, fun j p hj hp => ?_⟩
    have hpair := hpairs j p hj hp
    refine (pairTest_iff (hoverlap p (List.mem_of_getElem? hp))).mp ⟨?_, hpair⟩
    intro hpw hsw
    exact hpw (horder.resolve_left (not_not_intro hsw) j p hj hp)
  · rintro ⟨⟨hwritable, hpayload, htable, hin, hdirect⟩, howner, hpairs⟩
    refine ⟨⟨⟨⟨⟨hwritable, ?_⟩, hpayload⟩, htable⟩, hin, hdirect, howner⟩, fun j p hj hp => ?_⟩
    · by_cases hsw : s.writable = 0
      · exact Or.inr fun j p hj hp => by_contra fun hpw => (hpairs j p hj hp).order hpw hsw
      · exact Or.inl hsw
    · exact ((pairTest_iff (hoverlap p (List.mem_of_getElem? hp))).mpr (hpairs j p hj hp)).2

theorem indirectValid_iff (hlen : c.count ≤ c.capacity) :
    indirectValid b vq c = true ↔
      (c.indirectLength ≠ 0 → Wire.TableOk b c.wire ∧
        vq.descriptorOwner c.indirectDescriptor.toNat = 0) ∧
      (c.indirectLength = 0 →
        c.indirect = 0 ∧ c.indirectFirst = 0 ∧ c.indirectDescriptor = 0) := by
  unfold indirectValid
  by_cases hz : c.indirectLength = 0
  · simp [hz, and_assoc]
  · have hd : c.directCount = c.indirectFirst := by simp [Chain.directCount, hz]
    simp only [hz, ne_eq, not_false_eq_true, if_true, Bool.not_eq_true', Bool.or_eq_false_iff,
      bne_eq_false_iff_eq, decide_eq_false_iff_not, Bool.not_eq_false', Nat.not_lt, Nat.not_le,
      hd, forall_const, false_implies, and_true]
    constructor
    · rintro ⟨⟨⟨⟨⟨⟨⟨h1, h2⟩, h3⟩, h4⟩, h5⟩, h6⟩, h7⟩, h8⟩
      exact ⟨⟨h1, h2, h3, by rw [Chain.wire, segs_length hlen]; exact h4, h5, h7, h8⟩, h6⟩
    · rintro ⟨⟨h1, h2, h3, h4, h5, h7, h8⟩, h6⟩
      exact ⟨⟨⟨⟨⟨⟨⟨h1, h2⟩, h3⟩, by rw [← segs_length hlen]; exact h4⟩, h5⟩, h6⟩, h7⟩, h8⟩

theorem table_noWrap (h : w.indirectLength ≠ 0 → Wire.TableOk b w) :
    NoWrap w.table := by
  by_cases hz : w.indirectLength = 0
  · intro hn
    exact absurd (by simp [Wire.table, hz]) hn
  · have hw := payloadRange_noWrap (h hz).payload
    rwa [UInt32.toNat_toUInt64] at hw

theorem mem_directDescriptors {d : UInt16} : d ∈ w.directDescriptors ↔
    (w.indirectLength ≠ 0 ∧ d = w.indirectDescriptor) ∨
      ∃ i s, i < w.directCount ∧ w.segments[i]? = some s ∧ s.descriptor = d := by
  unfold Wire.directDescriptors
  rw [mem_append]
  apply or_congr
  · by_cases hz : w.indirectLength = 0 <;> simp [hz]
  · rw [mem_map]
    constructor
    · rintro ⟨s, hs, hd⟩
      obtain ⟨i, hi⟩ := mem_iff_getElem?.mp hs
      have hlt : i < w.directCount := by
        have := (List.getElem?_eq_some_iff.mp hi).1
        rw [length_take] at this
        omega
      exact ⟨i, s, hlt, by rwa [getElem?_take_of_lt hlt] at hi, hd⟩
    · rintro ⟨i, s, hlt, hi, hd⟩
      exact ⟨s, mem_take_of_lt hi hlt, hd⟩

theorem head_mem_directDescriptors (hne : w.segments ≠ []) (hfirst : w.first = some w.head) :
    w.head ∈ w.directDescriptors := by
  rw [mem_directDescriptors]
  unfold Wire.first at hfirst
  split_ifs at hfirst with hd
  · rw [Option.map_eq_some_iff] at hfirst
    obtain ⟨s, hs, hdesc⟩ := hfirst
    exact Or.inr ⟨0, s, by omega, hs, hdesc⟩
  · refine Or.inl ⟨fun hz => ?_, (Option.some.inj hfirst).symm⟩
    have hlen : 0 < w.segments.length := length_pos_iff.mpr hne
    simp only [Wire.directCount, hz, ne_eq, not_true_eq_false, if_false] at hd
    omega

theorem validateChain_tests {chains : ChainId → Chain} {c' : Chain} :
    validateChain b vq chains c = some c' ↔
      (c.segments.isSome ∧ c.count ≠ 0 ∧ c.count ≤ c.capacity ∧
        c.count ≤ b.queue.maxChainLength.toNat ∧ c.head.toNat < b.queue.queueSize.toNat ∧
        vq.slots c.head.toNat = none ∧ vq.descriptorOwner c.head.toNat = 0) ∧
      indirectValid b vq c = true ∧ c.first = some c.head ∧
      SegmentsPass b vq c [] c.segs false ∧
      (writableBytes c.segs ≠ 0 ∧ if b.queue.role = queueRoleRequest then readableBytes c.segs ≠ 0
        else readableBytes c.segs = 0) ∧
      (∀ h < b.queue.queueSize.toNat, ∀ id, vq.slots h = some id →
        chainsOverlap c (chains id) = false) ∧
      c' = c.counted := by
  have hclear : (¬ ((List.range b.queue.queueSize.toNat).any fun head =>
      (vq.slots head).any fun id => chainsOverlap c (chains id)) = true) ↔
      ∀ h < b.queue.queueSize.toNat, ∀ id, vq.slots h = some id →
        chainsOverlap c (chains id) = false := by
    simp only [Bool.not_eq_true, any_eq_false, mem_range, Option.any_eq_true,
      not_exists, not_and]
  have htotal (r w : ℕ) : (¬ (w == 0 || if b.queue.role = queueRoleRequest then r == 0
      else r != 0) = true) ↔
      w ≠ 0 ∧ if b.queue.role = queueRoleRequest then r ≠ 0 else r = 0 := by
    by_cases hrole : b.queue.role = queueRoleRequest <;> simp [hrole]
  unfold validateChain
  rw [Option.ite_none_left_eq_some, Option.ite_none_left_eq_some, Option.ite_none_left_eq_some]
  apply and_congr
  · cases c.segments <;> simp [and_assoc]
  apply and_congr (by simp)
  apply and_congr (by simp)
  cases hvs : validateSegments b vq c [] c.segs false 0 0 with
  | none =>
    have hno : ¬ SegmentsPass b vq c [] c.segs false := by
      intro hpass
      have := (validateSegments_eq_some_iff (r := 0) (w := 0)).mpr ⟨hpass, rfl, rfl⟩
      rw [hvs] at this
      cases this
    simp [hno]
  | some totals =>
    obtain ⟨readable, writable⟩ := totals
    obtain ⟨hpass, hr, hw⟩ := validateSegments_eq_some_iff.mp hvs
    rw [Nat.zero_add] at hr hw
    subst hr hw
    simp only [Option.ite_none_left_eq_some, hclear, htotal, hpass, true_and, Option.some.injEq]
    exact and_congr Iff.rfl (and_congr Iff.rfl eq_comm)

theorem first_eq (h : c.count ≤ c.capacity) : c.wire.first = c.first := by
  rw [Wire.first, Chain.first, wire_directCount h]
  rfl

theorem validateChain_eq_some_iff {chains : ChainId → Chain} {c' : Chain} :
    validateChain b vq chains c = some c' ↔
      c.segments.isSome ∧ c.count ≤ c.capacity ∧ c.counted.wire.Valid b ∧
        Fresh b vq chains c ∧ c' = c.counted := by
  rw [validateChain_tests]
  constructor
  · rintro ⟨⟨hsegs, hcount, hcap, hmax, hlt, hslot, howner⟩, hindirect, hfirst, hpass,
      ⟨hwritable, hrole⟩, hclear, hc'⟩
    have htable := (indirectValid_iff hcap).mp hindirect
    have hnowrap : ∀ p ∈ c.segs, NoWrap p.span := by
      intro p hp
      obtain ⟨i, hi⟩ := mem_iff_getElem?.mp hp
      exact span_noWrap (segmentValid_payload (hpass i p hi))
    have hturn : ∀ i s, c.segs[i]? = some s → Wire.SegmentOk b c.wire i s ∧
        (i < c.wire.directCount → vq.descriptorOwner s.descriptor.toNat = 0) ∧
        ∀ j p, j < i → c.segs[j]? = some p → Wire.PairOk c.wire i j s p := by
      intro i s hi
      exact (segmentValid_iff hcap hi (table_noWrap fun hz => (htable.1 hz).1) hnowrap).mp
        (hpass i s hi)
    have hne : c.segs ≠ [] := by
      intro hnil
      have := segs_length hcap
      rw [hnil] at this
      exact hcount this.symm
    refine ⟨hsegs, hcap, ?_, ?_, hc'⟩
    · refine ⟨hne, ?_, hlt, fun hz => ?_, htable.2, ?_, fun i s hi => ?_, fun i j s p hj hi hp => ?_,
        rfl, rfl, hwritable, hrole⟩
      · change c.segs.length ≤ _
        rw [segs_length hcap]
        exact hmax
      · obtain ⟨h1, h2, h3, h4, h5, h6, h7⟩ := (htable.1 hz).1
        exact ⟨h1, h2, h3, h4, h5, h6, h7⟩
      · exact (first_eq hcap).trans hfirst
      · obtain ⟨h1, h2, h3, h4, h5⟩ := (hturn i s hi).1
        exact ⟨h1, h2, h3, h4, h5⟩
      · obtain ⟨h1, h2, h3⟩ := (hturn i s hi).2.2 j p hj hp
        exact ⟨h1, h2, h3⟩
    · refine ⟨hslot, fun d hd => ?_, hclear⟩
      rcases mem_directDescriptors.mp hd with ⟨hz, rfl⟩ | ⟨i, s, hi, hs, rfl⟩
      · exact (htable.1 hz).2
      · exact (hturn i s hs).2.1 hi
  · rintro ⟨hsegs, hcap, hvalid, hfresh, hc'⟩
    have hhead : c.head ∈ c.wire.directDescriptors :=
      head_mem_directDescriptors (w := c.wire) hvalid.nonempty hvalid.first
    have htable : c.indirectLength ≠ 0 → Wire.TableOk b c.wire := by
      intro hz
      obtain ⟨h1, h2, h3, h4, h5, h6, h7⟩ := hvalid.table hz
      exact ⟨h1, h2, h3, h4, h5, h6, h7⟩
    refine ⟨⟨hsegs, ?_, hcap, ?_, hvalid.head_lt, hfresh.slot, hfresh.owner _ hhead⟩, ?_, ?_, ?_,
      ⟨hvalid.writable_ne, hvalid.role⟩, hfresh.clear, hc'⟩
    · rw [← segs_length hcap]
      exact fun hz => hvalid.nonempty (length_eq_zero_iff.mp hz)
    · rw [← segs_length hcap]
      exact hvalid.count_le
    · refine (indirectValid_iff hcap).mpr ⟨fun hz => ⟨htable hz, ?_⟩, hvalid.noTable⟩
      exact hfresh.owner _ (mem_directDescriptors.mpr (Or.inl ⟨hz, rfl⟩))
    · exact (first_eq hcap).symm.trans hvalid.first
    · intro i s hi
      have hnowrap : ∀ p ∈ c.segs, NoWrap p.span := by
        intro p hp
        obtain ⟨k, hk⟩ := mem_iff_getElem?.mp hp
        exact span_noWrap (hvalid.segment k p hk).payload
      rw [nil_append, Bool.false_or]
      refine (segmentValid_iff hcap hi (table_noWrap htable) hnowrap).mpr ⟨?_, fun hd => ?_,
        fun j p hj hp => ?_⟩
      · obtain ⟨h1, h2, h3, h4, h5⟩ := hvalid.segment i s hi
        exact ⟨h1, h2, h3, h4, h5⟩
      · exact hfresh.owner _ (mem_directDescriptors.mpr (Or.inr ⟨i, s, hd, hi, rfl⟩))
      · obtain ⟨h1, h2, h3⟩ := hvalid.pair i j s p hj hi hp
        exact ⟨h1, h2, h3⟩

end Kobox.Virtqueue
