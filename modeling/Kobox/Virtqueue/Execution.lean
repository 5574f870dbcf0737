import Kobox.Virtqueue.Codec
import Kobox.Virtqueue.Engine

/-!
# Callbacks on a memory

`exec` is the memory backend whose callbacks never fail. The last section is a
channel of two queues on which concrete runs are evaluated.
-/

namespace Kobox.Virtqueue
open ByteMemory Protocol Resumption

def MemoryCall.exec : (c : MemoryCall) → Memory → c.Answer × Memory
  | .read address size, m => (some ⟨ByteMemory.read m address.toNat size, read_length m _ _⟩, m)
  | .write address bytes, m => (true, ByteMemory.write m address.toNat bytes)
  | .loadAcquire address, m => (some (readU16 (ByteMemory.read m address.toNat 2)), m)
  | .storeRelease address value, m => (true, ByteMemory.write m address.toNat (writeU16 value))
  | .fence, m => ((), m)

def Access.exec (e : Access) (m : Memory) : e.call.Answer × Memory := e.call.exec m

/-! ### A small channel -/

namespace Sample

def queue : Queue where
  queueId := 1
  role := queueRoleRequest
  queueSize := 4
  flags := 0
  descriptorAddress := 0x1000
  availableAddress := 0x1040
  usedAddress := 0x1050
  availableNotificationId := 1
  usedNotificationId := 2
  maxChainLength := 4
  maxIndirectLength := 4
  maxOutstanding := 2

def events : Queue :=
  { queue with
    queueId := 2
    role := queueRoleEvent
    descriptorAddress := 0x1800
    availableAddress := 0x1840
    usedAddress := 0x1850
    availableNotificationId := 3
    usedNotificationId := 4 }

def channel : ChannelModel where
  identity := ⟨transportFeaturesRequired, 1, 7, 1, channelFlagData⟩
  queues := [queue, events]
  regions := [⟨1, regionRightRead ||| regionRightWrite, 0x1000, 0x1000⟩]

/-- The payload of `queue` lies below 0x1400, that of `events` above. -/
def payloadAllowed (queueId : UInt32) (address length : UInt64) (_ : UInt32) : Bool :=
  if queueId = 1 then address.toNat + length.toNat ≤ 0x1400
  else queueId == 2 && 0x1400 ≤ address.toNat

def binding (side : Side) : Binding := ⟨channel, queue, payloadAllowed, side⟩

def request : Chain where
  segments := some [⟨0x1100, 3, 2, 0⟩, ⟨0x1200, 4, 0, 1⟩]
  count := 2
  head := 2
  indirect := 0
  indirectLength := 0
  indirectDescriptor := 0
  indirectFirst := 0
  readable := 0
  writable := 0
  written := 0
  usedLength := 0
  state := .free

/-- Both payloads cross from one segment into the next. -/
def split : Chain :=
  { request with
    segments := some [⟨0x1100, 3, 2, 0⟩, ⟨0x1110, 2, 1, 0⟩, ⟨0x1200, 2, 0, 1⟩, ⟨0x1210, 2, 3, 1⟩]
    count := 4 }

def chains (id : ChainId) : Chain :=
  if id = 0 then request
  else if id = 2 then split
  else { request with segments := some (List.replicate 4 ⟨0, 0, 0, 0⟩), count := 0, head := 0 }

def opened : State := ⟨Vq.fresh, chains, false⟩

def memory : Memory := fun _ => 0

def run (side : Side) (s : State) (m : Memory) (call : Call) :
    List ((e : Access) × e.call.Answer) × Outcome × Memory :=
  execute Access.exec (perform (binding side) s ⟨.bound, 7, call⟩) m

def offered : Memory := (run .driver opened memory (.publish (some 0) true)).2.2

def answered : Memory :=
  ByteMemory.write (ByteMemory.write offered 0x1052 [1, 0]) 0x1054 [2, 0, 0, 0, 3, 0, 0, 0]

end Sample

end Kobox.Virtqueue
