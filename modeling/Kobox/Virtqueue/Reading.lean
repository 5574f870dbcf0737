import Kobox.Virtqueue.SafeParts

/-!
# Reading a published chain back (`read_chain`)
-/

namespace Kobox.Virtqueue
open ByteMemory Protocol Resumption List
variable {w : Wire} {k : ℕ} {inTable : Bool} {c : Chain}

def entryFlags (writable more : Bool) : UInt16 :=
  if more then (if writable then descWrite else 0) ||| descNext
  else if writable then descWrite else 0

section
variable (writable more : Bool)
include writable more

theorem entryFlags_known :
    entryFlags writable more &&& ~~~(descNext ||| descWrite ||| descIndirect) = 0 := by
  revert writable more
  decide

theorem entryFlags_indirect : entryFlags writable more &&& descIndirect = 0 := by
  revert writable more
  decide

theorem entryFlags_write : entryFlags writable more &&& descWrite ≠ 0 ↔ writable = true := by
  revert writable more
  decide

theorem entryFlags_next : entryFlags writable more &&& descNext = 0 ↔ more = false := by
  revert writable more
  decide

end

/-! ### Progress of the loop -/

def Wire.indexAt (w : Wire) (k : ℕ) : UInt16 := (w.segments[k]?.map (·.descriptor)).getD 0

def Wire.nextIndex (w : Wire) (i : ℕ) : UInt16 :=
  if i + 1 = w.directCount then w.indirectDescriptor else w.indexAt (i + 1)

theorem entry_bytes (q : Queue) (w : Wire) (i : ℕ) (p : Segment) :
    (w.entry q i p).2 = descriptorBytes p.address p.length
      (entryFlags (decide (p.writable ≠ 0)) (decide (i + 1 < w.segments.length)))
      (if i + 1 < w.segments.length then w.nextIndex i else 0) := by
  by_cases hw : p.writable = 0 <;> by_cases hm : i + 1 < w.segments.length <;>
    simp [Wire.entry, entryFlags, Wire.nextIndex, Wire.indexAt, hw, hm]

/-- The chain object once the first `k` segments of `w` are read, `inTable` telling whether the
reference to the wire's own table has been read as well. -/
structure ReadTo (w : Wire) (room k : ℕ) (inTable : Bool) (c : Chain) : Prop where
  head : c.head = w.head
  free : c.state = .free
  stored : c.segments.isSome
  capacity : room ≤ c.capacity
  count : c.count = k
  segs : c.segs = w.segments.take k
  indirect : c.indirect = if inTable then w.indirect else 0
  indirectLength : c.indirectLength = if inTable then w.indirectLength else 0
  indirectFirst : c.indirectFirst = if inTable then w.indirectFirst else 0
  indirectDescriptor : c.indirectDescriptor = if inTable then w.indirectDescriptor else 0

theorem ReadTo.push {room : ℕ} {p : Segment} (h : ReadTo w room k inTable c)
    (hp : w.segments[k]? = some p) (hk : k < room) :
    ReadTo w room (k + 1) inTable
      { c with segments := c.segments.map (·.set c.count p), count := c.count + 1 } := by
  obtain ⟨storage, hstorage⟩ := Option.isSome_iff_exists.mp h.stored
  have hcap := h.capacity
  have hsegs := h.segs
  simp only [Chain.capacity, Chain.segs, Chain.storage, hstorage, Option.getD_some, h.count] at hcap hsegs
  refine ⟨h.head, h.free, ?_, ?_, congrArg (· + 1) h.count, ?_, h.indirect, h.indirectLength,
    h.indirectFirst, h.indirectDescriptor⟩
  · rw [Option.isSome_map]
    exact h.stored
  · simp only [Chain.capacity, Chain.storage, hstorage, Option.map_some, Option.getD_some,
      length_set]
    exact hcap
  · simp only [Chain.segs, Chain.storage, hstorage, Option.map_some, Option.getD_some, h.count]
    rw [take_add_one, take_add_one, take_set_of_le (Nat.le_refl k), hsegs, hp,
      getElem?_set_self (by omega)]

theorem ReadTo.enter {room : ℕ} (h : ReadTo w room w.directCount false c)
    (hz : w.indirectLength ≠ 0) :
    ReadTo w room w.directCount true
      { c with
        indirect := w.indirect
        indirectLength := w.indirectLength
        indirectFirst := c.count
        indirectDescriptor := w.indirectDescriptor } := by
  refine ⟨h.head, h.free, h.stored, h.capacity, h.count, h.segs, rfl, rfl, ?_, rfl⟩
  change c.count = w.indirectFirst
  rw [h.count, Wire.directCount, if_pos hz]

/-- What the loop reads next after `k` segments: a main-table segment, the reference, or a segment
of the wire's own table. -/
inductive Stop (w : Wire) : ℕ → Bool → UInt16 → Prop where
  | direct (k : ℕ) (p : Segment) (hk : k < w.directCount) (hp : w.segments[k]? = some p) :
      Stop w k false p.descriptor
  | reference (hz : w.indirectLength ≠ 0) : Stop w w.directCount false w.indirectDescriptor
  | inTable (k : ℕ) (p : Segment) (hk : w.directCount ≤ k) (hp : w.segments[k]? = some p) :
      Stop w k true p.descriptor

theorem Wire.Valid.start {b : Binding} (hv : w.Valid b) : Stop w 0 false w.head := by
  have hfirst := hv.first
  unfold Wire.first at hfirst
  by_cases hd : w.directCount ≠ 0
  · rw [if_pos hd, Option.map_eq_some_iff] at hfirst
    obtain ⟨p, hp, hhead⟩ := hfirst
    rw [← hhead]
    exact .direct 0 p (by omega) hp
  · rw [if_neg hd] at hfirst
    have hz : w.indirectLength ≠ 0 := by
      intro hz
      have hlen := length_pos_iff.mpr hv.nonempty
      simp only [Wire.directCount, hz, ne_eq, not_true_eq_false, if_false] at hd
      omega
    rw [not_not] at hd
    have hstop := Stop.reference hz
    rw [hd, Option.some.inj hfirst] at hstop
    exact hstop

theorem stop_next (hmode : inTable = decide (w.directCount ≤ k)) (hmore : k + 1 < w.segments.length)
    (hz : w.directCount < w.segments.length → w.indirectLength ≠ 0) :
    Stop w (k + 1) inTable (w.nextIndex k) := by
  obtain ⟨p, hp⟩ : ∃ p, w.segments[k + 1]? = some p := ⟨_, getElem?_eq_getElem hmore⟩
  have hindex : w.indexAt (k + 1) = p.descriptor := by
    rw [Wire.indexAt, hp]
    rfl
  unfold Wire.nextIndex
  by_cases hd : k + 1 = w.directCount
  · rw [if_pos hd, hd]
    have hfalse : inTable = false := by
      rw [hmode, decide_eq_false_iff_not]
      omega
    rw [hfalse]
    exact .reference (hz (by omega))
  · rw [if_neg hd, hindex]
    by_cases hk : w.directCount ≤ k
    · rw [hmode, decide_eq_true hk]
      exact .inTable (k + 1) p (by omega) hp
    · rw [hmode, decide_eq_false hk]
      exact .direct (k + 1) p (by omega) hp

section Loop
variable {G O : Type} {I : G → O → Memory → Prop} {guard : Access → G → Prop}
  {Q : Outcome → G → Prop} {s : State} {l : G} {L : Lane} {w : Wire} {id : ChainId} {room : ℕ}

theorem not_seen {b : Binding} (hv : w.Valid b) (hr : ReadTo w room k inTable c) {index : UInt16}
    (hstop : Stop w k inTable index) :
    ¬ ((c.segs.drop (if inTable then c.indirectFirst else 0)).any fun p => p.descriptor == index) =
      true := by
  rw [Bool.not_eq_true, any_eq_false]
  intro p hp
  obtain ⟨j, hj⟩ := mem_iff_getElem?.mp hp
  rw [getElem?_drop, hr.segs] at hj
  have hlt : (if inTable then c.indirectFirst else 0) + j < k := by
    have hlen := lt_length_of_getElem? hj
    rw [length_take] at hlen
    omega
  rw [getElem?_take_of_lt hlt] at hj
  rw [beq_iff_eq]
  cases hstop with
  | direct k q hk hq =>
    simp only [Bool.false_eq_true, if_false, Nat.zero_add] at hj hlt
    exact Ne.symm ((hv.pair k j q p hlt hq hj).distinct (by omega))
  | reference hz =>
    simp only [Bool.false_eq_true, if_false, Nat.zero_add] at hj hlt
    exact ((hv.segment j p hj).direct hlt).2 hz
  | inTable k q hk hq =>
    simp only [if_true] at hj hlt
    have hz : w.indirectLength ≠ 0 := by
      intro hz
      have hin := (hv.segment k q hq).inTable hk
      rw [hz] at hin
      exact absurd hin (by simp)
    have hfirst : c.indirectFirst = w.directCount := by
      rw [hr.indirectFirst, if_pos rfl, Wire.directCount, if_pos hz]
    rw [hfirst] at hj hlt
    exact Ne.symm ((hv.pair k _ q p hlt hq hj).distinct (by omega))

section Turn
variable (hv : w.Valid (L.binding .device)) (hroom : L.queue.maxChainLength.toNat ≤ room)
  (hheld : ∀ o m, I l o m → ∀ x ∈ w.descriptors L.queue, Holds m x.1.toNat x.2)
  (hguard : ∀ s address size, guard ⟨s, .read address size⟩ l)
include hv hroom hheld hguard

variable {fuel : ℕ}

theorem readSegment_safe {table : UInt64} {limit : ℕ} {p : Segment}
    (hr : ReadTo w room k inTable c) (hp : w.segments[k]? = some p)
    (hstop : Stop w k inTable p.descriptor)
    (htable : table = if w.directCount ≤ k then w.indirect else L.queue.descriptorAddress)
    (hlimit : p.descriptor.toNat < limit)
    (hlast : k + 1 = w.segments.length → ∀ c', ReadTo w room (k + 1) inTable c' →
      Q (⟨.ok, .nothing⟩, s.setChain id c') l)
    (hmore : k + 1 < w.segments.length → ∀ c', ReadTo w room (k + 1) inTable c' →
      Safe Access.exec I guard Q (readDescriptors (L.binding .device) id fuel (s.setChain id c')
        table limit (w.nextIndex k) inTable) l) :
    Safe Access.exec I guard Q (readDescriptors (L.binding .device) id (fuel + 1) (s.setChain id c)
      table limit p.descriptor inTable) l := by
  have hk : k < w.segments.length := lt_length_of_getElem? hp
  have hmax : w.segments.length ≤ L.queue.maxChainLength.toNat := hv.count_le
  have hpush := hr.push hp (by omega)
  have hfits : ¬ (limit ≤ p.descriptor.toNat ∨
      (L.binding .device).queue.maxChainLength.toNat ≤ c.count ∨ c.capacity ≤ c.count) := by
    have hcap := hr.capacity
    change ¬ (_ ∨ L.queue.maxChainLength.toNat ≤ c.count ∨ _)
    rw [hr.count]
    omega
  unfold readDescriptors
  simp only [setChain_chains_self, if_neg hfits]
  refine safe_read (hguard _ _ _) fun o m hI => ⟨(w.entry L.queue k p).2, l, ?_, hI,
    fun answer hanswer => ?_⟩
  · have hholds := hheld o m hI _ (Wire.mem_descriptors.mpr (Or.inl ⟨k, p, hp, rfl⟩))
    rw [htable]
    exact hholds
  · have hseg : (⟨p.address, p.length, p.descriptor,
        if entryFlags (decide (p.writable ≠ 0)) (decide (k + 1 < w.segments.length)) &&& descWrite ≠ 0
          then 1 else 0⟩ : Segment) = p := by
      have hwritable : (if p.writable ≠ 0 then (1 : UInt16) else 0) = p.writable := by
        rcases (hv.segment k p hp).writable with h0 | h1
        · rw [h0]
          rfl
        · rw [h1]
          rfl
      simp only [entryFlags_write, decide_eq_true_eq, hwritable]
    have hnew := not_seen hv hr hstop
    rw [entry_bytes] at hanswer
    simp only [hanswer, descriptorBytes_address, descriptorBytes_size, descriptorBytes_flags,
      descriptorBytes_next, entryFlags_known, entryFlags_indirect, ne_eq, not_true_eq_false,
      if_false, if_neg hnew, setChain_setChain, entryFlags_next]
    simp only [← ne_eq, hseg]
    by_cases hm : k + 1 < w.segments.length
    · simp only [hm, decide_true, Bool.true_eq_false, if_false, if_true]
      exact hmore hm _ hpush
    · simp only [hm, decide_false, if_true]
      exact hlast (by omega) _ hpush

theorem readReference_safe (hz : w.indirectLength ≠ 0) (hr : ReadTo w room w.directCount false c)
    (hnext : ∀ c', ReadTo w room w.directCount true c' →
      Safe Access.exec I guard Q (readDescriptors (L.binding .device) id fuel (s.setChain id c')
        w.indirect (w.indirectLength.toNat / descSize) 0 true) l) :
    Safe Access.exec I guard Q (readDescriptors (L.binding .device) id (fuel + 1) (s.setChain id c)
      L.queue.descriptorAddress L.queue.queueSize.toNat w.indirectDescriptor false) l := by
  have ht := hv.table hz
  have hdirect : w.directCount = w.indirectFirst := by
    rw [Wire.directCount, if_pos hz]
  have hmax : w.segments.length ≤ L.queue.maxChainLength.toNat := hv.count_le
  have hfits : ¬ (L.queue.queueSize.toNat ≤ w.indirectDescriptor.toNat ∨
      (L.binding .device).queue.maxChainLength.toNat ≤ c.count ∨ c.capacity ≤ c.count) := by
    have hcap := hr.capacity
    have hlt := ht.first_lt
    have hdesc : w.indirectDescriptor.toNat < L.queue.queueSize.toNat := ht.descriptor_lt
    change ¬ (_ ∨ L.queue.maxChainLength.toNat ≤ c.count ∨ _)
    rw [hr.count]
    omega
  have hpass : ¬ (false = true ∨ descIndirect &&& descNext ≠ 0 ∨ w.indirect &&& 15 ≠ 0 ∨
      w.indirectLength = 0 ∨ w.indirectLength.toNat % descSize ≠ 0 ∨
      (L.binding .device).queue.maxIndirectLength.toNat < w.indirectLength.toNat / descSize ∨
      payloadRange (L.binding .device) w.indirect w.indirectLength.toUInt64 regionRightRead =
        false) := by
    have hle := Nat.not_lt_of_le ht.length_le
    have hno : descIndirect &&& descNext = 0 := by decide
    simp [hno, ht.aligned, hz, ht.multiple, hle, ht.payload]
  unfold readDescriptors
  simp only [setChain_chains_self, if_neg hfits]
  refine safe_read (hguard _ _ _) fun o m hI => ⟨(w.reference L.queue).2, l, ?_, hI,
    fun answer hanswer => ?_⟩
  · exact hheld o m hI _ (Wire.mem_descriptors.mpr (Or.inr ⟨hz, rfl⟩))
  · have hnew := not_seen hv hr (.reference hz)
    have hknown : descIndirect &&& ~~~(descNext ||| descWrite ||| descIndirect) = 0 := by decide
    have hind : descIndirect &&& descIndirect ≠ 0 := by decide
    rw [Wire.reference] at hanswer
    simp only [hanswer, descriptorBytes_address, descriptorBytes_size, descriptorBytes_flags, hknown,
      ne_eq, not_true_eq_false, if_false, if_neg hnew]
    rw [if_pos hind, if_neg hpass]
    simp only [setChain_setChain]
    exact hnext _ (hr.enter hz)

theorem readDescriptors_safe
    (hdone : ∀ c inTable, ReadTo w room w.segments.length inTable c →
      (w.indirectLength ≠ 0 → inTable = true) → Q (⟨.ok, .nothing⟩, s.setChain id c) l)
    {index : UInt16} (hr : ReadTo w room k inTable c) (hstop : Stop w k inTable index)
    (hfuel : w.segments.length + (if inTable then 0 else 1) ≤ fuel + k) :
    Safe Access.exec I guard Q (readDescriptors (L.binding .device) id fuel (s.setChain id c)
      (if inTable then w.indirect else L.queue.descriptorAddress)
      (if inTable then w.indirectLength.toNat / descSize else L.queue.queueSize.toNat) index
      inTable) l := by
  have hz : w.directCount < w.segments.length → w.indirectLength ≠ 0 := by
    intro hlt hz
    rw [Wire.directCount, if_neg (not_not.mpr hz)] at hlt
    exact absurd hlt (Nat.lt_irrefl _)
  induction fuel generalizing k inTable index c with
  | zero =>
    exfalso
    cases hstop with
    | direct k p hk hp =>
      have hlt := lt_length_of_getElem? hp
      simp only [Bool.false_eq_true, if_false] at hfuel
      omega
    | reference hne =>
      have hlt := (hv.table hne).first_lt
      simp only [Bool.false_eq_true, if_false, Wire.directCount, if_pos hne] at hfuel
      omega
    | inTable k p hk hp =>
      have hlt := lt_length_of_getElem? hp
      simp only [if_true] at hfuel
      omega
  | succ fuel ih =>
    cases hstop with
    | direct k p hk hp =>
      have hmode : false = decide (w.directCount ≤ k) := (decide_eq_false (by omega)).symm
      simp only [Bool.false_eq_true, if_false] at hfuel ⊢
      refine readSegment_safe hv hroom hheld hguard hr hp (.direct k p hk hp)
        (by rw [if_neg (by omega)]) ((hv.segment k p hp).direct hk).1 (fun hl c' hr' => ?_)
        fun hm c' hr' => ?_
      · refine hdone c' false (hl ▸ hr') fun hne => ?_
        have hlt := (hv.table hne).first_lt
        rw [Wire.directCount, if_pos hne] at hk
        omega
      · have hsafe := ih hr' (stop_next hmode hm hz) (by simp only [Bool.false_eq_true, if_false]; omega)
        simp only [Bool.false_eq_true, if_false] at hsafe
        exact hsafe
    | reference hne =>
      have ht := hv.table hne
      have hdirect : w.directCount = w.indirectFirst := by
        rw [Wire.directCount, if_pos hne]
      obtain ⟨p, hp, hdesc⟩ := Option.map_eq_some_iff.mp ht.entry
      simp only [Bool.false_eq_true, if_false] at hfuel ⊢
      refine readReference_safe hv hroom hheld hguard hne hr fun c' hr' => ?_
      have hstop : Stop w w.directCount true p.descriptor :=
        .inTable _ p (Nat.le_refl _) (hdirect ▸ hp)
      have hsafe := ih hr' hstop (by simp only [if_true]; omega)
      simp only [if_true, hdesc] at hsafe
      exact hsafe
    | inTable k p hk hp =>
      have hmode : true = decide (w.directCount ≤ k) := (decide_eq_true hk).symm
      simp only [if_true] at hfuel ⊢
      refine readSegment_safe hv hroom hheld hguard hr hp (.inTable k p hk hp)
        (by rw [if_pos hk]) ((hv.segment k p hp).inTable hk) (fun hl c' hr' => ?_)
        fun hm c' hr' => ?_
      · exact hdone c' true (hl ▸ hr') fun _ => rfl
      · have hsafe := ih hr' (stop_next hmode hm hz) (by simp only [if_true]; omega)
        simp only [if_true] at hsafe
        exact hsafe

theorem readWire_safe
    (hdone : ∀ c inTable, ReadTo w room w.segments.length inTable c →
      (w.indirectLength ≠ 0 → inTable = true) → Q (⟨.ok, .nothing⟩, s.setChain id c) l)
    (hr : ReadTo w room 0 false c) :
    Safe Access.exec I guard Q (readDescriptors (L.binding .device) id
      (L.queue.maxChainLength.toNat + 1) (s.setChain id c) L.queue.descriptorAddress
      L.queue.queueSize.toNat w.head false) l := by
  have hmax : w.segments.length ≤ L.queue.maxChainLength.toNat := hv.count_le
  have hsafe := readDescriptors_safe hv hroom hheld hguard hdone hr hv.start
    (Nat.succ_le_succ hmax)
  simp only [Bool.false_eq_true, if_false] at hsafe
  exact hsafe

end Turn

end Loop

end Kobox.Virtqueue
