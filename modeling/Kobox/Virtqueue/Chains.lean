import Kobox.Virtqueue.Types

/-!
# Virtqueue engine: chain validation and ownership (`protocol/src/virtqueue.c:38-269`)
-/

namespace Kobox.Virtqueue
open Protocol Function

def rangeValid (address size : UInt64) : Bool := size != 0 && address ≤ uint64Max - size

def overlaps (a n b m : UInt64) : Bool := n != 0 && m != 0 && a < b + m && b < a + n

def ringBase (q : Queue) (ring : ℕ) : UInt64 :=
  if ring = 0 then q.descriptorAddress else if ring = 1 then q.availableAddress else q.usedAddress

def ringSize (q : Queue) (ring : ℕ) : UInt64 :=
  if ring = 0 then q.queueSize.toUInt64 * 16
  else 6 + q.queueSize.toUInt64 * (if ring = 1 then 2 else 8)

def payloadRange (b : Binding) (address size : UInt64) (rights : UInt32) : Bool :=
  if size = 0 then true
  else if !rangeValid address size then false
  else if !(b.channel.regions.any fun r =>
      r.transportBase ≤ address && address + size ≤ r.transportBase + r.length &&
        r.rights &&& rights == rights) then false
  else if b.channel.queues.any fun q => (List.range 3).any fun ring =>
      overlaps address size (ringBase q ring) (ringSize q ring) then false
  else b.payloadAllowed b.queue.queueId address size rights

/-- The chain a pointer denotes is held in `state` by this queue. -/
def owned (b : Binding) (s : State) (id : ChainId) (state : ChainState) : Bool :=
  (s.chains id).head.toNat < b.queue.queueSize.toNat && (s.chains id).state == state &&
    s.vq.slots (s.chains id).head.toNat == some id

def chainsOverlap (a b : Chain) : Bool :=
  overlaps a.indirect a.indirectLength.toUInt64 b.indirect b.indirectLength.toUInt64 ||
    (a.segs.any fun left =>
      overlaps left.address left.length.toUInt64 b.indirect b.indirectLength.toUInt64 ||
        b.segs.any fun right => (left.writable != 0 || right.writable != 0) &&
          overlaps left.address left.length.toUInt64 right.address right.length.toUInt64) ||
    b.segs.any fun right =>
      overlaps a.indirect a.indirectLength.toUInt64 right.address right.length.toUInt64

def Segment.rights (s : Segment) : UInt32 :=
  if s.writable ≠ 0 then regionRightWrite else regionRightRead

/-- One turn of the segment loop of `validate_chain`: `done` are the segments
before `s`, so its index is their number. -/
def segmentValid (b : Binding) (vq : Vq) (chain : Chain) (done : List Segment)
    (seenWritable : Bool) (s : Segment) : Bool :=
  let inTable := decide (chain.directCount ≤ done.length)
  !(1 < s.writable || (s.writable == 0 && seenWritable) ||
      !payloadRange b s.address s.length.toUInt64 s.rights ||
      overlaps s.address s.length.toUInt64 chain.indirect chain.indirectLength.toUInt64) &&
    (if inTable then
      s.descriptor.toNat < chain.indirectLength.toNat / descSize
    else
      !(b.queue.queueSize.toNat ≤ s.descriptor.toNat || vq.descriptorOwner s.descriptor.toNat != 0 ||
        (chain.indirectLength != 0 && s.descriptor == chain.indirectDescriptor))) &&
    done.zipIdx.all fun (previous, j) =>
      !((decide (chain.directCount ≤ j) == inTable && s.descriptor == previous.descriptor) ||
        ((s.writable != 0 || previous.writable != 0) &&
          overlaps s.address s.length.toUInt64 previous.address previous.length.toUInt64))

/-- The segment loop: the readable and writable byte totals, or a refusal. -/
def validateSegments (b : Binding) (vq : Vq) (chain : Chain) :
    List Segment → List Segment → Bool → ℕ → ℕ → Option (ℕ × ℕ)
  | _, [], _, readable, writable => some (readable, writable)
  | done, s :: rest, seenWritable, readable, writable =>
    if segmentValid b vq chain done seenWritable s then
      if s.writable ≠ 0 then
        validateSegments b vq chain (done ++ [s]) rest true readable (writable + s.length.toNat)
      else
        validateSegments b vq chain (done ++ [s]) rest seenWritable (readable + s.length.toNat)
          writable
    else none

/-- The checks of `validate_chain` on the indirect table, before the segments. -/
def indirectValid (b : Binding) (vq : Vq) (chain : Chain) : Bool :=
  if chain.indirectLength ≠ 0 then
    !(chain.indirect &&& 15 != 0 || chain.indirectLength.toNat % descSize != 0 ||
      b.queue.maxIndirectLength.toNat < chain.indirectLength.toNat / descSize ||
      chain.count ≤ chain.directCount ||
      b.queue.queueSize.toNat ≤ chain.indirectDescriptor.toNat ||
      vq.descriptorOwner chain.indirectDescriptor.toNat != 0 ||
      chain.segs[chain.directCount]?.map (·.descriptor) != some 0 ||
      !payloadRange b chain.indirect chain.indirectLength.toUInt64 regionRightRead)
  else
    !(chain.indirect != 0 || chain.indirectFirst != 0 || chain.indirectDescriptor != 0)

def Chain.first (c : Chain) : Option UInt16 :=
  if c.directCount ≠ 0 then c.segs[0]?.map (·.descriptor) else some c.indirectDescriptor

/-- `validate_chain`: the chain with its totals set, or `none` for a refusal. -/
def validateChain (b : Binding) (vq : Vq) (chains : ChainId → Chain) (chain : Chain) :
    Option Chain :=
  if chain.segments.isNone || chain.count == 0 || chain.capacity < chain.count ||
      b.queue.maxChainLength.toNat < chain.count ||
      b.queue.queueSize.toNat ≤ chain.head.toNat || (vq.slots chain.head.toNat).isSome ||
      vq.descriptorOwner chain.head.toNat != 0 then none
  else if !indirectValid b vq chain then none
  else if chain.first != some chain.head then none
  else match validateSegments b vq chain [] chain.segs false 0 0 with
    | none => none
    | some (readable, writable) =>
      if writable == 0 ||
          (if b.queue.role = queueRoleRequest then readable == 0 else readable != 0) then none
      else if (List.range b.queue.queueSize.toNat).any fun head =>
          (vq.slots head).any fun id => chainsOverlap chain (chains id) then none
      else some { chain with readable, writable, written := 0, usedLength := 0 }

/-- Main-table descriptors of a chain in the order `claim` and `drop` visit them. -/
def Chain.directDescriptors (c : Chain) : List UInt16 :=
  (if c.indirectLength ≠ 0 then [c.indirectDescriptor] else []) ++
    (c.segs.take c.directCount).map (·.descriptor)

def setOwner (value : UInt16) (owner : ℕ → UInt16) (ds : List UInt16) : ℕ → UInt16 :=
  ds.foldl (fun owner d => update owner d.toNat value) owner

def claim (s : State) (id : ChainId) (chain : Chain) (state : ChainState) : State where
  vq := { s.vq with
    slots := update s.vq.slots chain.head.toNat (some id)
    owned := s.vq.owned + 1
    descriptorOwner := setOwner (chain.head + 1) s.vq.descriptorOwner chain.directDescriptors }
  chains := update s.chains id { chain with state }
  faulted := s.faulted

def drop (s : State) (id : ChainId) : State :=
  let chain := s.chains id
  { vq := { s.vq with
      descriptorOwner := setOwner 0 s.vq.descriptorOwner chain.directDescriptors
      slots := update s.vq.slots chain.head.toNat none
      lastTaken := if s.vq.lastTaken = some id then none else s.vq.lastTaken
      owned := s.vq.owned - 1 }
    chains := update s.chains id { chain with state := .free }
    faulted := s.faulted }

end Kobox.Virtqueue
