import Kobox.Virtqueue.Walking

/-!
# Sums that do not wrap

The tests of the engine are evaluated with a sum that has no value when it wraps. They have a value
all the same: what is compared has been checked before. Where the source ends a loop early, the
loops here go on.
-/

namespace Kobox.Virtqueue
open ByteMemory Protocol Resumption List
variable {s : Segment} {vq : Vq} {chain : Chain} {b : Binding}

namespace Exact

def add (a n : UInt64) : Option UInt64 :=
  if a.toNat + n.toNat < 2 ^ 64 then some (a + n) else none

def any {α : Type} (test : α → Option Bool) (l : List α) : Option Bool :=
  (l.mapM test).map fun results => results.any fun result => result

def overlaps (a n b m : UInt64) : Option Bool :=
  if n = 0 ∨ m = 0 then some false
  else (add b m).bind fun bEnd => (add a n).map fun aEnd => a < bEnd && b < aEnd

def inRegion (address size : UInt64) (rights : UInt32) (r : Region) : Option Bool :=
  (add address size).bind fun stop => (add r.transportBase r.length).map fun regionEnd =>
    r.transportBase ≤ address && stop ≤ regionEnd && r.rights &&& rights == rights

def meetsRings (address size : UInt64) (q : Queue) : Option Bool :=
  any (fun ring => overlaps address size (ringBase q ring) (ringSize q ring)) (List.range 3)

def payloadRange (b : Binding) (address size : UInt64) (rights : UInt32) : Option Bool :=
  if size = 0 then some true
  else if !rangeValid address size then some false
  else
    (any (inRegion address size rights) b.channel.regions).bind fun found =>
      if !found then some false
      else
        (any (meetsRings address size) b.channel.queues).map fun meets =>
          if meets then false else b.payloadAllowed b.queue.queueId address size rights

def meetsTable (s : Segment) (c : Chain) : Option Bool :=
  overlaps s.address s.length.toUInt64 c.indirect c.indirectLength.toUInt64

def meetsSegment (s p : Segment) : Option Bool :=
  if s.writable ≠ 0 ∨ p.writable ≠ 0 then
    overlaps s.address s.length.toUInt64 p.address p.length.toUInt64
  else some false

def chainsOverlap (a b : Chain) : Option Bool :=
  (overlaps a.indirect a.indirectLength.toUInt64 b.indirect b.indirectLength.toUInt64).bind
    fun tables =>
      (any (fun left => (meetsTable left b).bind fun table =>
        (any (meetsSegment left) b.segs).map fun pairs => table || pairs) a.segs).bind fun left =>
          (any (fun right => overlaps a.indirect a.indirectLength.toUInt64 right.address
            right.length.toUInt64) b.segs).map fun right => tables || left || right

def descriptorValid (b : Binding) (vq : Vq) (chain : Chain) (inTable : Bool) (s : Segment) : Bool :=
  if inTable then
    s.descriptor.toNat < chain.indirectLength.toNat / descSize
  else
    !(b.queue.queueSize.toNat ≤ s.descriptor.toNat || vq.descriptorOwner s.descriptor.toNat != 0 ||
      (chain.indirectLength != 0 && s.descriptor == chain.indirectDescriptor))

def clashes (chain : Chain) (inTable : Bool) (s : Segment) (earlier : Segment × ℕ) : Option Bool :=
  (meetsSegment s earlier.1).map fun meets =>
    (decide (chain.directCount ≤ earlier.2) == inTable && s.descriptor == earlier.1.descriptor) ||
      meets

def segmentValid (b : Binding) (vq : Vq) (chain : Chain) (done : List Segment)
    (seenWritable : Bool) (s : Segment) : Option Bool :=
  let inTable := decide (chain.directCount ≤ done.length)
  if 1 < s.writable || (s.writable == 0 && seenWritable) then some false
  else
    (payloadRange b s.address s.length.toUInt64 s.rights).bind fun allowed =>
      if !allowed then some false
      else
        (meetsTable s chain).bind fun inside =>
          (any (clashes chain inTable s) done.zipIdx).map fun clash =>
            !inside && descriptorValid b vq chain inTable s && !clash

def validateSegments (b : Binding) (vq : Vq) (chain : Chain) :
    List Segment → List Segment → Bool → ℕ → ℕ → Option (Option (ℕ × ℕ))
  | _, [], _, readable, writable => some (some (readable, writable))
  | done, s :: rest, seenWritable, readable, writable =>
    (segmentValid b vq chain done seenWritable s).bind fun valid =>
      if valid then
        if s.writable ≠ 0 then
          validateSegments b vq chain (done ++ [s]) rest true readable (writable + s.length.toNat)
        else
          validateSegments b vq chain (done ++ [s]) rest seenWritable (readable + s.length.toNat)
            writable
      else some none

def indirectValid (b : Binding) (vq : Vq) (chain : Chain) : Option Bool :=
  if chain.indirectLength ≠ 0 then
    (payloadRange b chain.indirect chain.indirectLength.toUInt64 regionRightRead).map fun allowed =>
      !(chain.indirect &&& 15 != 0 || chain.indirectLength.toNat % descSize != 0 ||
        b.queue.maxIndirectLength.toNat < chain.indirectLength.toNat / descSize ||
        chain.count ≤ chain.directCount ||
        b.queue.queueSize.toNat ≤ chain.indirectDescriptor.toNat ||
        vq.descriptorOwner chain.indirectDescriptor.toNat != 0 ||
        chain.segs[chain.directCount]?.map (·.descriptor) != some 0 || !allowed)
  else some (!(chain.indirect != 0 || chain.indirectFirst != 0 || chain.indirectDescriptor != 0))

def meetsHeld (vq : Vq) (chains : ChainId → Chain) (chain : Chain) (head : ℕ) : Option Bool :=
  match vq.slots head with
  | none => some false
  | some id => chainsOverlap chain (chains id)

def validateChain (b : Binding) (vq : Vq) (chains : ChainId → Chain) (chain : Chain) :
    Option (Option Chain) :=
  if chain.segments.isNone || chain.count == 0 || chain.capacity < chain.count ||
      b.queue.maxChainLength.toNat < chain.count ||
      b.queue.queueSize.toNat ≤ chain.head.toNat || (vq.slots chain.head.toNat).isSome ||
      vq.descriptorOwner chain.head.toNat != 0 then some none
  else
    (indirectValid b vq chain).bind fun table =>
      if !table then some none
      else if chain.first != some chain.head then some none
      else
        (validateSegments b vq chain [] chain.segs false 0 0).bind fun totals =>
          match totals with
          | none => some none
          | some (readable, writable) =>
            if writable == 0 ||
                (if b.queue.role = queueRoleRequest then readable == 0 else readable != 0) then
              some none
            else
              (any (meetsHeld vq chains chain) (List.range b.queue.queueSize.toNat)).map
                fun meets =>
                  if meets then none
                  else some { chain with readable, writable, written := 0, usedLength := 0 }

/-! ### The tests have values -/

theorem refuse_eq {α : Type} {bad : Prop} [Decidable bad] {result : Option α} {refusal value : α}
    (h : ¬bad → result = some value) :
    (if bad then some refusal else result) = some (if bad then refusal else value) := by
  split_ifs with hbad
  · rfl
  · exact h hbad

theorem any_eq {α : Type} {test : α → Option Bool} {f : α → Bool} {l : List α}
    (h : ∀ x ∈ l, test x = some (f x)) : any test l = some (l.any f) := by
  have hmap : l.mapM test = some (l.map f) := by
    induction l with
    | nil => rfl
    | cons x rest ih =>
      rw [forall_mem_cons] at h
      rw [mapM_cons, h.1, ih h.2]
      rfl
  rw [any, hmap, Option.map_some, any_map]
  rfl

theorem overlaps_eq {a n b m : UInt64} (h : NoWrap ⟨a.toNat, n.toNat⟩)
    (h' : NoWrap ⟨b.toNat, m.toNat⟩) :
    overlaps a n b m = some (Virtqueue.overlaps a n b m) := by
  rw [overlaps, Virtqueue.overlaps]
  split_ifs with hempty
  · rcases hempty with hn | hm
    · rw [hn]
      rfl
    · rw [hm]
      simp
  · rw [not_or] at hempty
    have hn : n.toNat ≠ 0 := fun hz => hempty.1 (toNat_eq_zero_iff.mpr hz)
    have hm : m.toNat ≠ 0 := fun hz => hempty.2 (toNat_eq_zero_iff.mpr hz)
    have hb : add b m = some (b + m) := if_pos (h' hm)
    have ha : add a n = some (a + n) := if_pos (h hn)
    have hn' : (n != 0) = true := bne_iff_ne.mpr hempty.1
    have hm' : (m != 0) = true := bne_iff_ne.mpr hempty.2
    rw [ha, hb, hn', hm']
    rfl

theorem overlaps_span_eq {a b : UInt64} {n m : UInt32} (h : NoWrap ⟨a.toNat, n.toNat⟩)
    (h' : NoWrap ⟨b.toNat, m.toNat⟩) :
    overlaps a n.toUInt64 b m.toUInt64 =
      some (Virtqueue.overlaps a n.toUInt64 b m.toUInt64) := by
  refine overlaps_eq ?_ ?_
  · rw [UInt32.toNat_toUInt64]
    exact h
  · rw [UInt32.toNat_toUInt64]
    exact h'

theorem meetsTable_eq {c : Chain} (hs : NoWrap s.span) (hc : NoWrap c.wire.table) :
    meetsTable s c = some (Virtqueue.overlaps s.address s.length.toUInt64 c.indirect
      c.indirectLength.toUInt64) := overlaps_span_eq hs hc

theorem meetsSegment_eq {p : Segment} (hs : NoWrap s.span) (hp : NoWrap p.span) :
    meetsSegment s p = some ((s.writable != 0 || p.writable != 0) &&
      Virtqueue.overlaps s.address s.length.toUInt64 p.address p.length.toUInt64) := by
  rw [meetsSegment]
  split_ifs with hwritten
  · have hwritten' : (s.writable != 0 || p.writable != 0) = true := by
      rw [Bool.or_eq_true, bne_iff_ne, bne_iff_ne]
      exact hwritten
    rw [overlaps_span_eq hs hp, hwritten', Bool.true_and]
  · have hwritten' : (s.writable != 0 || p.writable != 0) = false := by
      rw [Bool.eq_false_iff, ne_eq, Bool.or_eq_true, bne_iff_ne, bne_iff_ne]
      exact hwritten
    rw [hwritten', Bool.false_and]

theorem chainsOverlap_eq {a b : Chain} (ha : a.wire.NoWraps) (hb : b.wire.NoWraps) :
    chainsOverlap a b = some (Virtqueue.chainsOverlap a b) := by
  have hleft : ∀ left ∈ a.segs, ((meetsTable left b).bind fun table =>
      (any (meetsSegment left) b.segs).map fun pairs => table || pairs) =
        some (Virtqueue.overlaps left.address left.length.toUInt64 b.indirect
          b.indirectLength.toUInt64 || b.segs.any fun right =>
            (left.writable != 0 || right.writable != 0) &&
              Virtqueue.overlaps left.address left.length.toUInt64 right.address
                right.length.toUInt64) := by
    intro left hmem
    have hpairs : ∀ right ∈ b.segs, meetsSegment left right =
        some ((left.writable != 0 || right.writable != 0) && Virtqueue.overlaps left.address
          left.length.toUInt64 right.address right.length.toUInt64) :=
      fun right hright => meetsSegment_eq (ha.2 left hmem) (hb.2 right hright)
    rw [meetsTable_eq (ha.2 left hmem) hb.1, any_eq hpairs]
    rfl
  have htables : overlaps a.indirect a.indirectLength.toUInt64 b.indirect
      b.indirectLength.toUInt64 = some (Virtqueue.overlaps a.indirect a.indirectLength.toUInt64
        b.indirect b.indirectLength.toUInt64) := overlaps_span_eq ha.1 hb.1
  have hright : ∀ right ∈ b.segs, overlaps a.indirect a.indirectLength.toUInt64 right.address
      right.length.toUInt64 = some (Virtqueue.overlaps a.indirect a.indirectLength.toUInt64
        right.address right.length.toUInt64) :=
    fun right hmem => overlaps_span_eq ha.1 (hb.2 right hmem)
  rw [chainsOverlap, htables, any_eq hleft, any_eq hright]
  rfl

section Bound
variable {b : Binding} (hb : b.Bound)
include hb

theorem payloadRange_eq (address size : UInt64) (rights : UInt32) :
    payloadRange b address size rights = some (Virtqueue.payloadRange b address size rights) := by
  rw [payloadRange, Virtqueue.payloadRange]
  refine refuse_eq fun _ => refuse_eq fun hvalid => ?_
  simp only [Bool.not_eq_true, Bool.not_eq_false', rangeValid_eq] at hvalid
  have hlt := ((u64RangeValid_iff address size).mp hvalid).2
  have hregion : ∀ r ∈ b.channel.regions, inRegion address size rights r =
      some (r.transportBase ≤ address && address + size ≤ r.transportBase + r.length &&
        r.rights &&& rights == rights) := by
    intro r hr
    have haddress : add address size = some (address + size) := if_pos hlt
    have hend : add r.transportBase r.length = some (r.transportBase + r.length) :=
      if_pos (hb.accepted.region_lt r hr)
    rw [inRegion, haddress, hend]
    rfl
  have hrings : ∀ q ∈ b.channel.queues, meetsRings address size q =
      some ((List.range 3).any fun ring =>
        Virtqueue.overlaps address size (ringBase q ring) (ringSize q ring)) := by
    intro q hq
    refine any_eq fun ring hring => overlaps_eq (fun _ => hlt) fun _ => ?_
    have hring := mem_range.mp hring
    rw [ringBase_eq q hring, ringSize_eq q hring]
    exact (hb.accepted.queue q hq).ring_lt ring hring
  rw [any_eq hregion, any_eq hrings, Option.bind_some, Option.map_some]
  split_ifs <;> rfl

theorem segmentValid_eq {done : List Segment} {seen : Bool} (hdone : ∀ p ∈ done, NoWrap p.span)
    (htable : NoWrap chain.wire.table) :
    segmentValid b vq chain done seen s =
      some (Virtqueue.segmentValid b vq chain done seen s) := by
  rw [segmentValid, Virtqueue.segmentValid, payloadRange_eq hb]
  cases hkind : 1 < s.writable || (s.writable == 0 && seen) with
  | true => simp
  | false =>
    cases hallowed : Virtqueue.payloadRange b s.address s.length.toUInt64 s.rights with
    | false => simp
    | true =>
      have hs := span_noWrap hallowed
      have hclash : ∀ earlier ∈ done.zipIdx,
          clashes chain (decide (chain.directCount ≤ done.length)) s earlier =
            some ((decide (chain.directCount ≤ earlier.2) ==
              decide (chain.directCount ≤ done.length) && s.descriptor == earlier.1.descriptor) ||
              ((s.writable != 0 || earlier.1.writable != 0) &&
                Virtqueue.overlaps s.address s.length.toUInt64 earlier.1.address
                  earlier.1.length.toUInt64)) := by
        intro earlier hmem
        have hp := hdone earlier.1 (fst_mem_of_mem_zipIdx hmem)
        rw [clashes, meetsSegment_eq hs hp]
        rfl
      rw [meetsTable_eq hs htable, any_eq hclash, ← not_any_eq_all_not]
      rfl

theorem validateSegments_eq {done segs : List Segment} {seen : Bool} {readable writable : ℕ}
    (hdone : ∀ p ∈ done, NoWrap p.span) (htable : NoWrap chain.wire.table) :
    validateSegments b vq chain done segs seen readable writable =
      some (Virtqueue.validateSegments b vq chain done segs seen readable writable) := by
  induction segs generalizing done seen readable writable with
  | nil => rfl
  | cons s rest ih =>
    rw [validateSegments, Virtqueue.validateSegments, segmentValid_eq hb hdone htable,
      Option.bind_some]
    cases hvalid : Virtqueue.segmentValid b vq chain done seen s with
    | false => rfl
    | true =>
      have hnext : ∀ p ∈ done ++ [s], NoWrap p.span := by
        intro p hp
        rcases mem_append.mp hp with hp | hp
        · exact hdone p hp
        · rw [mem_singleton.mp hp]
          exact span_noWrap (segmentValid_payload hvalid)
      rw [if_pos rfl, if_pos rfl]
      split_ifs
      · exact ih hnext
      · exact ih hnext

theorem indirectValid_eq (vq : Vq) (chain : Chain) :
    indirectValid b vq chain = some (Virtqueue.indirectValid b vq chain) := by
  rw [indirectValid, Virtqueue.indirectValid, payloadRange_eq hb]
  split_ifs <;> rfl

end Bound

theorem table_noWrap_of_indirectValid (h : Virtqueue.indirectValid b vq chain = true) :
    NoWrap chain.wire.table := by
  by_cases hlength : chain.indirectLength = 0
  · intro hsize
    have hzero : chain.wire.table.size = chain.indirectLength.toNat := rfl
    rw [hzero, hlength] at hsize
    exact absurd rfl hsize
  · rw [Virtqueue.indirectValid, if_pos hlength] at h
    simp only [Bool.not_eq_true', Bool.or_eq_false_iff, Bool.not_eq_false'] at h
    have hwrap := payloadRange_noWrap h.2
    rw [UInt32.toNat_toUInt64] at hwrap
    exact hwrap

theorem segments_noWrap {segs : List Segment} {totals : ℕ × ℕ}
    (h : Virtqueue.validateSegments b vq chain [] segs false 0 0 = some totals) :
    ∀ s ∈ segs, NoWrap s.span := by
  intro s hs
  obtain ⟨k, hk⟩ := mem_iff_getElem?.mp hs
  exact span_noWrap (segmentValid_payload ((validateSegments_eq_some_iff.mp h).1 k s hk))

theorem validateChain_eq (hb : b.Bound) {chains : ChainId → Chain}
    (hheld : ∀ head id, vq.slots head = some id → (chains id).wire.NoWraps) (chain : Chain) :
    validateChain b vq chains chain = some (Virtqueue.validateChain b vq chains chain) := by
  have hmeets : ∀ head ∈ List.range b.queue.queueSize.toNat, chain.wire.NoWraps →
      meetsHeld vq chains chain head =
        some ((vq.slots head).any fun id => Virtqueue.chainsOverlap chain (chains id)) := by
    intro head _ hwraps
    rw [meetsHeld]
    cases hslot : vq.slots head with
    | none => rfl
    | some id => exact chainsOverlap_eq hwraps (hheld head id hslot)
  rw [validateChain, Virtqueue.validateChain, indirectValid_eq hb, Option.bind_some]
  refine refuse_eq fun _ => refuse_eq fun htable => refuse_eq fun _ => ?_
  rw [Bool.not_eq_true, Bool.not_eq_false'] at htable
  have hwrap := table_noWrap_of_indirectValid htable
  have hnone : ∀ p ∈ ([] : List Segment), NoWrap p.span := fun p hp => absurd hp not_mem_nil
  rw [validateSegments_eq hb hnone hwrap, Option.bind_some]
  cases htotals : Virtqueue.validateSegments b vq chain [] chain.segs false 0 0 with
  | none => rfl
  | some totals =>
    have hwraps : chain.wire.NoWraps := ⟨hwrap, segments_noWrap htotals⟩
    refine refuse_eq fun _ => ?_
    rw [any_eq fun head hhead => hmeets head hhead hwraps]
    rfl

end Exact

theorem Reachable.validateChain_exact {s : State} (h : Reachable b s) {id : ChainId}
    (hfree : (s.chains id).state = .free) (c : Chain) :
    Exact.validateChain b s.vq (Function.update s.chains id c) c =
      some (validateChain b s.vq (Function.update s.chains id c) c) := by
  refine Exact.validateChain_eq h.bound (fun head id' hslot => ?_) c
  have hne : id' ≠ id := by
    intro heq
    rw [heq] at hslot
    exact h.sound.owns.not_held hfree head hslot
  rw [Function.update_of_ne hne]
  exact (h.sound.owns.held_of_slot hslot).valid.noWraps

/-- `read_chain` ends inside the tables for every memory, also one that changes between the
reads, and what is compared there and in `publish` does not wrap. -/
theorem hostile_walk_bounded {b : Binding} {s : State} (h : Reachable b s) :
    (∀ (start : State) (id : ChainId) (extra : ℕ),
      readDescriptors b id (b.queue.maxChainLength.toNat + 1 + extra)
          (start.setChain id (start.chains id).cleared) b.queue.descriptorAddress
          b.queue.queueSize.toNat (start.chains id).head false =
        readDescriptors b id (b.queue.maxChainLength.toNat + 1)
          (start.setChain id (start.chains id).cleared) b.queue.descriptorAddress
          b.queue.queueSize.toNat (start.chains id).head false) ∧
    (∀ (M : Type) (backend : (e : Access) → M → e.call.Answer × M) (m : M) (start : State)
        (id : ChainId),
      let run := execute backend (readChain b start id) m
      run.1.length ≤ b.queue.maxChainLength.toNat + 1 ∧
        Walked b id (start.chains id).capacity (run.1.map Sigma.fst) ∧
          (run.2.1.2.chains id).Stores b (start.chains id).capacity) ∧
    (∀ address size rights, Exact.payloadRange b address size rights =
      some (payloadRange b address size rights)) ∧
    ∀ id, (s.chains id).state = .free →
      Exact.validateChain b s.vq s.chains (s.chains id) =
        some (validateChain b s.vq s.chains (s.chains id)) ∧
      ∀ (M : Type) (backend : (e : Access) → M → e.call.Answer × M) (m : M) (c : Chain),
        c.state = .free →
        let read := (execute backend (readDescriptors b id (b.queue.maxChainLength.toNat + 1)
          (s.setChain id c.cleared) b.queue.descriptorAddress b.queue.queueSize.toNat c.head
          false) m).2.1
        read.1.status = .ok →
          Exact.validateChain b read.2.vq read.2.chains (read.2.chains id) =
            some (validateChain b read.2.vq read.2.chains (read.2.chains id)) := by
  refine ⟨?_, ?_, Exact.payloadRange_eq h.bound, ?_⟩
  · intro start id extra
    refine readDescriptors_fuel ?_ extra
    rw [setChain_chains_self, turnsLeft, if_neg Bool.false_ne_true]
    exact Nat.succ_le_succ (Nat.sub_le _ _)
  · intro M backend m start id run
    have hrun := (readChain_traced h.bound start id).of_run (run_execute backend _ m)
    rw [length_map] at hrun
    exact hrun
  · intro id hfree
    constructor
    · have hexact := h.validateChain_exact hfree (s.chains id)
      rw [Function.update_eq_self] at hexact
      exact hexact
    · intro M backend m c hc read hok
      have hcleared : c.cleared.state = .free := hc
      -- Every access is allowed here; only the state at the end matters.
      obtain ⟨c', -, hread | ⟨io, hread⟩⟩ := ((readDescriptors_always (G := fun _ => True)
        (fun _ _ _ => trivial) hcleared).of_run (run_execute backend _ m)).2
      · rw [show read = _ from hread, setChain_vq, setChain_chains_self]
        exact h.validateChain_exact hfree c'
      · rw [show read = _ from hread] at hok
        cases io <;> cases hok

namespace Sample

def looped : Memory :=
  ByteMemory.write memory 0x1020 (descriptorBytes 0x1100 3 descNext 2)

end Sample

theorem looped_walk_bounded :
    (execute Access.exec (readChain (Sample.binding .device)
      (Sample.opened.setChain 1 { Sample.chains 1 with head := 2 }) 1) Sample.looped).1.length ≤
        5 := by
  have hreachable : Reachable (Sample.binding .device) Sample.opened :=
    ⟨_, [], Sample.opens .device, .start⟩
  obtain ⟨-, hwalk, -, -⟩ := hostile_walk_bounded hreachable
  exact (hwalk Memory Access.exec Sample.looped _ 1).1

end Kobox.Virtqueue
