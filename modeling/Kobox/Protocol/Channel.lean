import Kobox.Library.ByteMemory

/-!
# The channel model and its validation (`protocol/src/protocol.c`)

The C arrays with their counts are lists, and the NULL tests on the three pointers have no
counterpart. Sums of addresses wrap in 64 bits here as in the source.
-/

namespace Kobox.Protocol

inductive Status where
  | ok
  | invalidArgument
  | bufferTooSmall
  | overflow
  | malformed
  | schemaMismatch
  deriving DecidableEq, Repr

structure Channel where
  featureBits : UInt64
  channelId : UInt64
  generation : UInt64
  protocolId : UInt32
  flags : UInt32
  deriving DecidableEq, Repr

structure Queue where
  queueId : UInt32
  role : UInt32
  queueSize : UInt32
  flags : UInt32
  descriptorAddress : UInt64
  availableAddress : UInt64
  usedAddress : UInt64
  availableNotificationId : UInt32
  usedNotificationId : UInt32
  maxChainLength : UInt32
  maxIndirectLength : UInt32
  maxOutstanding : UInt32
  deriving DecidableEq, Repr

structure Region where
  regionId : UInt32
  rights : UInt32
  transportBase : UInt64
  length : UInt64
  deriving DecidableEq, Repr

/-! ### Constants (`protocol_layout.h`) -/

def minQueues : ℕ := 1
def maxQueues : ℕ := 1024
def maxRegions : ℕ := 1024
def queueSizeMin : UInt32 := 1
def queueSizeMax : UInt32 := 32768
def transportFeaturesRequired : UInt64 := 805306368
def channelFlagManagement : UInt32 := 1
def channelFlagData : UInt32 := 2
def queueRoleEvent : UInt32 := 1
def queueRoleRequest : UInt32 := 2
def channelRequestQueuesMin : ℕ := 1
def channelEventQueuesMax : ℕ := 1
def regionRightRead : UInt32 := 1
def regionRightWrite : UInt32 := 2
def uint64Max : UInt64 := 0xFFFFFFFFFFFFFFFF
def uint32Max : ℕ := 0xFFFFFFFF

def u64RangeValid (base length : UInt64) : Bool :=
  length != 0 && base ≤ uint64Max - length

def rangesOverlap (leftBase leftLength rightBase rightLength : UInt64) : Bool :=
  leftBase < rightBase + rightLength && rightBase < leftBase + leftLength

def rangeHasRights (base length : UInt64) (requiredRights : UInt32) (regions : List Region) :
    Bool :=
  u64RangeValid base length && regions.any fun region =>
    region.rights &&& requiredRights == requiredRights && region.transportBase ≤ base &&
      base + length ≤ region.transportBase + region.length

/-- Length of the descriptor table (0), available ring (1) or used ring (2). -/
def queueRangeLength (queue : Queue) : ℕ → UInt64
  | 0 => queue.queueSize.toUInt64 * 16
  | 1 => 6 + queue.queueSize.toUInt64 * 2
  | 2 => 6 + queue.queueSize.toUInt64 * 8
  | _ => 0

def queueRangeBase (queue : Queue) : ℕ → UInt64
  | 0 => queue.descriptorAddress
  | 1 => queue.availableAddress
  | 2 => queue.usedAddress
  | _ => 0

def regionValid (earlier : List Region) (region : Region) : Bool :=
  !(region.regionId == 0 || region.rights == 0 ||
      region.rights &&& ~~~(regionRightRead ||| regionRightWrite) != 0 ||
      !u64RangeValid region.transportBase region.length) &&
    earlier.all fun other => !(region.regionId == other.regionId ||
      rangesOverlap region.transportBase region.length other.transportBase other.length)

def validateRegions (regions : List Region) : Bool :=
  regions.zipIdx.all fun (region, left) => regionValid (regions.take left) region

def queueIdentityUnique (earlier : List Queue) (queue : Queue) : Bool :=
  (earlier.all fun previous =>
    !(queue.queueId == previous.queueId ||
      queue.availableNotificationId == previous.availableNotificationId ||
      queue.availableNotificationId == previous.usedNotificationId ||
      queue.usedNotificationId == previous.availableNotificationId ||
      queue.usedNotificationId == previous.usedNotificationId)) &&
    queue.availableNotificationId != queue.usedNotificationId

/-- No range of `queue` meets one of an earlier queue or an earlier one of its own. -/
def queueRangesUnique (earlier : List Queue) (queue : Queue) : Bool :=
  (List.range 3).all fun currentRange =>
    let clear (previous : Queue) (previousRange : ℕ) : Bool :=
      !rangesOverlap (queueRangeBase queue currentRange) (queueRangeLength queue currentRange)
        (queueRangeBase previous previousRange) (queueRangeLength previous previousRange)
    (earlier.all fun previous => (List.range 3).all (clear previous)) &&
      (List.range currentRange).all (clear queue)

def queueValid (regions : List Region) (earlier : List Queue) (queue : Queue) : Bool :=
  let ringRights := regionRightRead ||| regionRightWrite
  !(queue.queueId == 0 || queue.flags != 0 ||
      (queue.role != queueRoleEvent && queue.role != queueRoleRequest) ||
      queue.queueSize < queueSizeMin || queueSizeMax < queue.queueSize ||
      queue.queueSize &&& (queue.queueSize - 1) != 0 ||
      queue.availableNotificationId == 0 || queue.usedNotificationId == 0 ||
      queue.maxChainLength == 0 || queue.queueSize < queue.maxChainLength ||
      queue.maxIndirectLength == 0 || queueSizeMax < queue.maxIndirectLength ||
      queue.maxOutstanding == 0 || queue.queueSize < queue.maxOutstanding ||
      !queueIdentityUnique earlier queue) &&
    !(queue.descriptorAddress &&& 15 != 0 || queue.availableAddress &&& 1 != 0 ||
      queue.usedAddress &&& 3 != 0 ||
      !rangeHasRights queue.descriptorAddress (queueRangeLength queue 0) ringRights regions ||
      !rangeHasRights queue.availableAddress (queueRangeLength queue 1) ringRights regions ||
      !rangeHasRights queue.usedAddress (queueRangeLength queue 2) ringRights regions ||
      !queueRangesUnique earlier queue)

def validateQueues (queues : List Queue) (regions : List Region) : Bool :=
  (queues.zipIdx.all fun (queue, index) => queueValid regions (queues.take index) queue) &&
    -- The role is EVENT or REQUEST by now, so what is not an event queue is a request queue.
    queues.countP (fun queue => queue.role == queueRoleEvent) ≤ channelEventQueuesMax &&
    channelRequestQueuesMin ≤ queues.countP (fun queue => queue.role != queueRoleEvent)

def validateChannelModel (channel : Channel) (queues : List Queue) (regions : List Region) :
    Bool :=
  !(queues.length < minQueues || maxQueues < queues.length || regions.length == 0 ||
      maxRegions < regions.length || channel.featureBits != transportFeaturesRequired ||
      channel.channelId == 0 || channel.generation == 0 || channel.protocolId == 0 ||
      (channel.flags != channelFlagManagement && channel.flags != channelFlagData)) &&
    validateRegions regions && validateQueues queues regions

def channelValidate (channel : Channel) (queues : List Queue) (regions : List Region) : Status :=
  if validateChannelModel channel queues regions then .ok else .malformed

end Kobox.Protocol
