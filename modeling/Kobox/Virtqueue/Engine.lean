import Kobox.Virtqueue.Chains

/-!
# Virtqueue engine: operations (`protocol/src/virtqueue.c:81-637`)

Every public operation is a program over the memory callbacks. An argument
pointer that only has to be non-NULL (`notify`, `pending`, `ready`, `chain_out`,
`out`) is a `Bool`, a chain pointer is an optional identity, and what would be
stored through an out pointer is part of the reply.
-/

namespace Kobox.Virtqueue
open Protocol Resumption

/-- What the `vq` argument points to: nothing, a queue with no channel, or the bound queue. -/
inductive Handle where
  | null
  | unbound
  | bound
  deriving DecidableEq, Repr

def fault (s : State) (io : Bool) : Outcome :=
  (⟨if io then .io else .faulted, .nothing⟩, { s with faulted := true })

def check (b : Binding) (s : State) (vq : Handle) (generation : UInt64) : Status :=
  if vq ≠ .bound ∨ generation = 0 then .invalid
  else if b.channel.identity.generation ≠ generation then .stale
  else if s.faulted then .faulted
  else .ok

/-- The opening of every operation: a status of `check` other than OK is returned. -/
def checked (b : Binding) (s : State) (vq : Handle) (generation : UInt64) (body : Op Outcome) :
    Op Outcome :=
  if check b s vq generation = .ok then body else finish (check b s vq generation) s

def ringSlot (b : Binding) (index : UInt16) : UInt64 :=
  (index.toUInt32 &&& (b.queue.queueSize - 1)).toUInt64

/-- Where the device stores the available index at which it wants a notification. -/
def availableEvent (q : Queue) : UInt64 := q.usedAddress + 4 + q.queueSize.toUInt64 * 8

/-- Where the driver stores the used index at which it wants a notification. -/
def usedEvent (q : Queue) : UInt64 := q.availableAddress + 4 + q.queueSize.toUInt64 * 2

def publishIndex (s : State) (ring event : UInt64) : Op Outcome :=
  let old := s.vq.produced
  let next := old + 1
  .ask ⟨s, .storeRelease (ring + 2) next⟩ fun (stored : Bool) =>
    if stored then
      let s := { s with vq := { s.vq with produced := next } }
      .ask ⟨s, .fence⟩ fun _ =>
        .ask ⟨s, .loadAcquire event⟩ fun (loaded : Option UInt16) =>
          match loaded with
          | none => .done (fault s true)
          | some threshold => .done (⟨.ok, .flag (next - threshold - 1 < next - old)⟩, s)
    else .done (fault s true)

def segmentWrite (b : Binding) (chain : Chain) (i : ℕ) (s : Segment) : UInt64 × List UInt8 :=
  let flags : UInt16 := if s.writable ≠ 0 then descWrite else 0
  let table := if chain.directCount ≤ i then chain.indirect else b.queue.descriptorAddress
  let flags := if i + 1 < chain.count then flags ||| descNext else flags
  let next : UInt16 :=
    if i + 1 < chain.count then
      if i + 1 = chain.directCount then chain.indirectDescriptor
      else (chain.segs[i + 1]?.map (·.descriptor)).getD 0
    else 0
  (descriptorAt table s.descriptor, descriptorBytes s.address s.length flags next)

def descriptorWrites (b : Binding) (chain : Chain) : List (UInt64 × List UInt8) :=
  (chain.segs.zipIdx.map fun (s, i) => segmentWrite b chain i s) ++
    if chain.indirectLength ≠ 0 then
      [(descriptorAt b.queue.descriptorAddress chain.indirectDescriptor,
        descriptorBytes chain.indirect chain.indirectLength descIndirect 0)]
    else []

/-- Perform the writes in order; the first failure faults the channel. -/
def writeAll (s : State) : List (UInt64 × List UInt8) → Op Outcome → Op Outcome
  | [], next => next
  | (address, bytes) :: rest, next =>
    .ask ⟨s, .write address bytes⟩ fun (written : Bool) =>
      if written then writeAll s rest next else .done (fault s true)

def publishClaimed (b : Binding) (s : State) (chain : Chain) : Op Outcome :=
  writeAll s (descriptorWrites b chain ++
      [(b.queue.availableAddress + 4 + 2 * ringSlot b s.vq.produced, writeU16 chain.head)])
    (publishIndex s b.queue.availableAddress (availableEvent b.queue))

def publish (b : Binding) (s : State) (vq : Handle) (generation : UInt64)
    (chain : Option ChainId) (notify : Bool) : Op Outcome :=
  checked b s vq generation <|
    match chain with
    | none => finish .invalid s
    | some id =>
      if b.side ≠ .driver ∨ (s.chains id).state ≠ .free ∨ notify = false then finish .invalid s
      else if s.vq.owned = b.queue.maxOutstanding.toNat then finish .full s
      else match validateChain b s.vq s.chains (s.chains id) with
        | none => finish .invalid s
        | some chain => publishClaimed b (claim s id chain .submitted) chain

/-- The descriptor loop of `read_chain`. The fuel is what the loop can still
read: a descriptor for each free place in the chain and, before the indirect
table is entered, the reference to it. At fuel 0 the chain is full and the
source's own test refuses it. -/
def readDescriptors (b : Binding) (id : ChainId) :
    ℕ → State → UInt64 → ℕ → UInt16 → Bool → Op Outcome
  | 0, s, _, _, _, _ => .done (fault s false)
  | fuel + 1, s, table, limit, index, indirect =>
    let chain := s.chains id
    if limit ≤ index.toNat ∨ b.queue.maxChainLength.toNat ≤ chain.count ∨
        chain.capacity ≤ chain.count then .done (fault s false)
    else
      .ask ⟨s, .read (descriptorAt table index) descSize⟩
        fun (answer : Option { bytes : List UInt8 // bytes.length = descSize }) =>
        match answer with
        | none => .done (fault s true)
        | some bytes =>
          let address := readU64 bytes.val
          let length := readU32 (bytes.val.drop 8)
          let flags := readU16 (bytes.val.drop 12)
          let next := readU16 (bytes.val.drop 14)
          let first := if indirect then chain.indirectFirst else 0
          if flags &&& ~~~(descNext ||| descWrite ||| descIndirect) ≠ 0 then .done (fault s false)
          else if (chain.segs.drop first).any fun seg => seg.descriptor == index then
            .done (fault s false)
          else if flags &&& descIndirect ≠ 0 then
            -- WRITE and, with NEXT clear, the next field are ignored on an indirect reference.
            if indirect ∨ flags &&& descNext ≠ 0 ∨ address &&& 15 ≠ 0 ∨ length = 0 ∨
                length.toNat % descSize ≠ 0 ∨
                b.queue.maxIndirectLength.toNat < length.toNat / descSize ∨
                payloadRange b address length.toUInt64 regionRightRead = false then
              .done (fault s false)
            else
              readDescriptors b id fuel
                (s.setChain id { chain with
                  indirect := address
                  indirectLength := length
                  indirectFirst := chain.count
                  indirectDescriptor := index })
                address (length.toNat / descSize) 0 true
          else
            let seg : Segment := ⟨address, length, index, if flags &&& descWrite ≠ 0 then 1 else 0⟩
            let s := s.setChain id { chain with
              segments := chain.segments.map (·.set chain.count seg)
              count := chain.count + 1 }
            if flags &&& descNext = 0 then finish .ok s
            else readDescriptors b id fuel s table limit next indirect

def Chain.cleared (c : Chain) : Chain :=
  { c with count := 0, indirect := 0, indirectLength := 0, indirectFirst := 0,
           indirectDescriptor := 0 }

def readChain (b : Binding) (s : State) (id : ChainId) : Op Outcome :=
  (readDescriptors b id (b.queue.maxChainLength.toNat + 1)
      (s.setChain id (s.chains id).cleared) b.queue.descriptorAddress b.queue.queueSize.toNat
      (s.chains id).head false).bind fun (reply, s) =>
    if reply.status ≠ .ok then .done (reply, s)
    else match validateChain b s.vq s.chains (s.chains id) with
      | some chain => finish .ok (s.setChain id chain)
      | none => .done (fault s false)

/-- Entries the peer has published past `consumed`; `next` gets the status and the distance. -/
def pendingIndex (b : Binding) (s : State) (next : Status → UInt16 → Op Outcome) : Op Outcome :=
  let peerRing := if b.side = .driver then b.queue.usedAddress else b.queue.availableAddress
  .ask ⟨s, .loadAcquire (peerRing + 2)⟩ fun (loaded : Option UInt16) =>
    match loaded with
    | none => .done (fault s true)
    | some index =>
      let distance := index - s.vq.consumed
      if b.queue.maxOutstanding.toNat < distance.toNat ∨
          (b.side = .driver ∧ s.vq.produced - s.vq.consumed < distance) then .done (fault s false)
      else next (if distance ≠ 0 then .ok else .empty) distance

def peekAvailable (b : Binding) (s : State) (vq : Handle) (generation : UInt64)
    (pending : Bool) : Op Outcome :=
  checked b s vq generation <|
    if b.side ≠ .device ∨ pending = false then finish .invalid s
    else pendingIndex b s fun status _ => .done (⟨.ok, .flag (status == .ok)⟩, s)

def takeAvailable (b : Binding) (s : State) (vq : Handle) (generation : UInt64)
    (chain : Option ChainId) : Op Outcome :=
  checked b s vq generation <|
    match chain with
    | none => finish .invalid s
    | some id =>
      if b.side ≠ .device ∨ (s.chains id).state ≠ .free ∨ (s.chains id).segments.isNone ∨
          (s.chains id).capacity < b.queue.maxChainLength.toNat then finish .invalid s
      else pendingIndex b s fun status distance =>
        if status ≠ .ok then finish status s
        else if b.queue.maxOutstanding.toNat < s.vq.owned + distance.toNat then
          .done (fault s false)
        else
          .ask ⟨s, .read (b.queue.availableAddress + 4 + 2 * ringSlot b s.vq.consumed) 2⟩
            fun (answer : Option { bytes : List UInt8 // bytes.length = 2 }) =>
            match answer with
            | none => .done (fault s true)
            | some bytes =>
              let head := readU16 bytes.val
              let s := s.setChain id { s.chains id with head }
              if b.queue.queueSize.toNat ≤ head.toNat ∨ (s.vq.slots head.toNat).isSome ∨
                  s.vq.descriptorOwner head.toNat ≠ 0 then .done (fault s false)
              else (readChain b s id).bind fun (reply, s) =>
                if reply.status ≠ .ok then .done (reply, s)
                else
                  let s := claim s id (s.chains id) .accepted
                  finish .ok { s with vq := { s.vq with
                    consumed := s.vq.consumed + 1
                    lastTaken := some id } }

def copySegments (source destination : Chain) : Option (List Segment) :=
  destination.segments.map fun storage => source.segs ++ storage.drop source.count

def moveAccepted (b : Binding) (s : State) (vq : Handle) (generation : UInt64)
    (source destination : Option ChainId) : Op Outcome :=
  checked b s vq generation <|
    match source, destination with
    | some src, some dst =>
      let held := s.chains src
      let room := s.chains dst
      if b.side ≠ .device ∨ owned b s src .accepted = false ∨ dst = src ∨ room.state ≠ .free ∨
          room.segments.isNone ∨ room.capacity < held.count then finish .invalid s
      else
        finish .ok { s with
          vq := { s.vq with
            slots := Function.update s.vq.slots held.head.toNat (some dst)
            lastTaken := if s.vq.lastTaken = some src then some dst else s.vq.lastTaken }
          chains := Function.update
            (Function.update s.chains dst { held with segments := copySegments held room }) src
            { held with state := .free } }
    | _, _ => finish .invalid s

def returnAvailable (b : Binding) (s : State) (vq : Handle) (generation : UInt64)
    (chain : Option ChainId) : Op Outcome :=
  checked b s vq generation <|
    match chain with
    | none => finish .invalid s
    | some id =>
      if b.side ≠ .device ∨ owned b s id .accepted = false ∨ s.vq.lastTaken ≠ some id ∨
          (s.chains id).written ≠ 0 then finish .invalid s
      else
        let s := drop s id
        finish .ok { s with vq := { s.vq with consumed := s.vq.consumed - 1 } }

/-! ### Payload -/

/-- `copy_data` over the remaining segments. `bytes` is what is still to be
written, or what has been read so far. -/
def copyData (s : State) (writable : UInt16) (write : Bool) :
    List Segment → ℕ → List UInt8 → ℕ → Op Outcome
  | [], _, bytes, size =>
    if size ≠ 0 then .done (fault s false)
    else .done (⟨.ok, if write then .nothing else .bytes bytes⟩, s)
  | seg :: rest, offset, bytes, size =>
    if size = 0 then .done (⟨.ok, if write then .nothing else .bytes bytes⟩, s)
    else if seg.writable ≠ writable then copyData s writable write rest offset bytes size
    else if seg.length.toNat ≤ offset then
      copyData s writable write rest (offset - seg.length.toNat) bytes size
    else
      let part := min (seg.length.toNat - offset) size
      let address := seg.address + UInt64.ofNat offset
      if write then
        .ask ⟨s, .write address (bytes.take part)⟩ fun (written : Bool) =>
          if written then copyData s writable write rest 0 (bytes.drop part) (size - part)
          else .done (fault s true)
      else
        .ask ⟨s, .read address part⟩
          fun (answer : Option { bytes : List UInt8 // bytes.length = part }) =>
          match answer with
          | none => .done (fault s true)
          | some piece => copyData s writable write rest 0 (bytes ++ piece.val) (size - part)

def copyRequest (b : Binding) (s : State) (vq : Handle) (generation : UInt64)
    (chain : Option ChainId) (offset size : ℕ) (out : Bool) : Op Outcome :=
  checked b s vq generation <|
    match chain with
    | none => finish .invalid s
    | some id =>
      let c := s.chains id
      if b.side ≠ .device ∨ owned b s id .accepted = false ∨ (out = false ∧ size ≠ 0) ∨
          c.readable < offset ∨ c.readable - offset < size then finish .invalid s
      else copyData s 0 false c.segs offset [] size

/-- The `bytes` and `size` arguments of `kb2_vq_write_response`. -/
inductive Source where
  | null (size : ℕ)
  | data (bytes : List UInt8)
  deriving DecidableEq, Repr

def Source.size : Source → ℕ
  | .null size => size
  | .data bytes => bytes.length

def Source.bytes : Source → List UInt8
  | .null _ => []
  | .data bytes => bytes

def Source.isNull : Source → Bool
  | .null _ => true
  | .data _ => false

def writeResponse (b : Binding) (s : State) (vq : Handle) (generation : UInt64)
    (chain : Option ChainId) (source : Source) : Op Outcome :=
  checked b s vq generation <|
    match chain with
    | none => finish .invalid s
    | some id =>
      let c := s.chains id
      if b.side ≠ .device ∨ owned b s id .accepted = false ∨ (source.isNull ∧ source.size ≠ 0) ∨
          c.writable - c.written < source.size ∨ uint32Max - c.written < source.size then
        finish .invalid s
      else (copyData s 1 true c.segs c.written source.bytes source.size).bind fun (reply, s) =>
        if reply.status = .ok then
          .done (reply, s.setChain id
            { s.chains id with written := (s.chains id).written + source.size })
        else .done (reply, s)

def complete (b : Binding) (s : State) (vq : Handle) (generation : UInt64)
    (chain : Option ChainId) (notify : Bool) : Op Outcome :=
  checked b s vq generation <|
    match chain with
    | none => finish .invalid s
    | some id =>
      if b.side ≠ .device ∨ owned b s id .accepted = false ∨ notify = false then
        finish .invalid s
      else
        let c := s.chains id
        writeAll s [(b.queue.usedAddress + 4 + 8 * ringSlot b s.vq.produced,
            writeU32 c.head.toUInt32 ++ writeU32 (UInt32.ofNat c.written))]
          ((publishIndex s b.queue.usedAddress (usedEvent b.queue)).bind fun (reply, s) =>
            if reply.status = .ok then .done (reply, drop s id) else .done (reply, s))

def takeUsed (b : Binding) (s : State) (vq : Handle) (generation : UInt64) (chainOut : Bool) :
    Op Outcome :=
  checked b s vq generation <|
    if b.side ≠ .driver ∨ chainOut = false then finish .invalid s
    else pendingIndex b s fun status _ =>
      if status ≠ .ok then finish status s
      else
        .ask ⟨s, .read (b.queue.usedAddress + 4 + 8 * ringSlot b s.vq.consumed) 8⟩
          fun (answer : Option { bytes : List UInt8 // bytes.length = 8 }) =>
          match answer with
          | none => .done (fault s true)
          | some bytes =>
            let head := readU32 bytes.val
            let length := readU32 (bytes.val.drop 4)
            if b.queue.queueSize.toNat ≤ head.toNat then .done (fault s false)
            else match s.vq.slots head.toNat with
              | none => .done (fault s false)
              | some id =>
                if owned b s id .submitted = false ∨ (s.chains id).writable < length.toNat then
                  .done (fault s false)
                else
                  .done (⟨.ok, .chain id⟩,
                    { s.setChain id { s.chains id with usedLength := length, state := .returned } with
                      vq := { s.vq with consumed := s.vq.consumed + 1 } })

def copyResponse (b : Binding) (s : State) (vq : Handle) (generation : UInt64)
    (chain : Option ChainId) (offset size : ℕ) (out : Bool) : Op Outcome :=
  checked b s vq generation <|
    match chain with
    | none => finish .invalid s
    | some id =>
      let c := s.chains id
      if b.side ≠ .driver ∨ owned b s id .returned = false ∨ (out = false ∧ size ≠ 0) ∨
          c.usedLength.toNat < offset ∨ c.usedLength.toNat - offset < size then
        finish .invalid s
      else copyData s 1 false c.segs offset [] size

def release (b : Binding) (s : State) (vq : Handle) (generation : UInt64)
    (chain : Option ChainId) : Op Outcome :=
  checked b s vq generation <|
    match chain with
    | none => finish .invalid s
    | some id =>
      if b.side ≠ .driver ∨ owned b s id .returned = false then finish .invalid s
      else finish .ok (drop s id)

def arm (b : Binding) (s : State) (vq : Handle) (generation : UInt64) (ready : Bool) :
    Op Outcome :=
  checked b s vq generation <|
    if ready = false then finish .invalid s
    else
      let event := if b.side = .driver then usedEvent b.queue else availableEvent b.queue
      .ask ⟨s, .storeRelease event s.vq.consumed⟩ fun (stored : Bool) =>
        if stored then
          .ask ⟨s, .fence⟩ fun _ =>
            pendingIndex b s fun status _ => .done (⟨.ok, .flag (status == .ok)⟩, s)
        else .done (fault s true)

/-- The public operations on a queue object with their arguments. -/
inductive Call where
  | publish (chain : Option ChainId) (notify : Bool)
  | peekAvailable (pending : Bool)
  | takeAvailable (chain : Option ChainId)
  | moveAccepted (source destination : Option ChainId)
  | returnAvailable (chain : Option ChainId)
  | copyRequest (chain : Option ChainId) (offset size : ℕ) (out : Bool)
  | writeResponse (chain : Option ChainId) (source : Source)
  | complete (chain : Option ChainId) (notify : Bool)
  | takeUsed (chainOut : Bool)
  | copyResponse (chain : Option ChainId) (offset size : ℕ) (out : Bool)
  | release (chain : Option ChainId)
  | arm (ready : Bool)
  deriving DecidableEq, Repr

structure Request where
  vq : Handle
  generation : UInt64
  call : Call
  deriving DecidableEq, Repr

def perform (b : Binding) (s : State) (r : Request) : Op Outcome :=
  match r.call with
  | .publish chain notify => publish b s r.vq r.generation chain notify
  | .peekAvailable pending => peekAvailable b s r.vq r.generation pending
  | .takeAvailable chain => takeAvailable b s r.vq r.generation chain
  | .moveAccepted source destination => moveAccepted b s r.vq r.generation source destination
  | .returnAvailable chain => returnAvailable b s r.vq r.generation chain
  | .copyRequest chain offset size out => copyRequest b s r.vq r.generation chain offset size out
  | .writeResponse chain source => writeResponse b s r.vq r.generation chain source
  | .complete chain notify => complete b s r.vq r.generation chain notify
  | .takeUsed chainOut => takeUsed b s r.vq r.generation chainOut
  | .copyResponse chain offset size out => copyResponse b s r.vq r.generation chain offset size out
  | .release chain => release b s r.vq r.generation chain
  | .arm ready => arm b s r.vq r.generation ready

def channelInit (channel : ChannelModel) : Status :=
  if channelValidate channel.identity channel.queues channel.regions ≠ .ok then .invalid else .ok

/-- `kb2_vq_bind`. `arguments` is the first test of the source (every pointer and
callback is non-NULL and the side is one of the two); the chain objects stay the
caller's. -/
def bind (channel : ChannelModel) (chains : ChainId → Chain) (faulted arguments : Bool)
    (queueId : UInt32) (side : Side) (payloadAllowed : UInt32 → UInt64 → UInt64 → UInt32 → Bool)
    (capacity : ℕ) : Op (Status × Bool × Option (Binding × State)) :=
  if arguments = false then .done (.invalid, faulted, none)
  else if faulted then .done (.faulted, faulted, none)
  else
    -- The loop keeps the last queue with this id.
    match channel.queues.reverse.find? fun q => q.queueId == queueId with
    | none => .done (.invalid, faulted, none)
    | some queue =>
      if capacity < queue.queueSize.toNat then .done (.invalid, faulted, none)
      else
        let s : State := ⟨Vq.fresh, chains, faulted⟩
        let ownedRing := if side = .driver then queue.availableAddress else queue.usedAddress
        .ask ⟨s, .loadAcquire (ownedRing + 2)⟩ fun (loaded : Option UInt16) =>
          match loaded with
          | none => .done (.io, true, none)
          | some index =>
            if index ≠ 0 then .done (.faulted, true, none)
            else .done (.ok, faulted, some (⟨channel, queue, payloadAllowed, side⟩, s))

end Kobox.Virtqueue
