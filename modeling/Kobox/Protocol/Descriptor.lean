import Kobox.Library.Format
import Kobox.Protocol.Words

/-!
# Channel descriptors (`protocol/src/protocol.c`)

The encoder is the list of its stores into a cleared buffer, in program order. It sets the encoded
size before it looks at the buffer's size and at the model, so that its result has all three
outputs. What the decoder leaves in its outputs when it fails is not kept.
-/

namespace Kobox.Protocol.Descriptor
open ByteMemory

/-! ### Layout (`protocol_layout.h`) -/

def headerSize : ℕ := 96
def queueDescriptorSize : ℕ := 64
def regionDescriptorSize : ℕ := 32

def abiIdentity : List UInt8 := [0x64, 0x65, 0x76, 0x00]

def schemaDigest : List UInt8 :=
  [0xf8, 0x55, 0x61, 0x67, 0x8b, 0x4a, 0x58, 0x93, 0x61, 0xae, 0xb4, 0xd4, 0x29, 0x31, 0x21, 0x7c,
    0x2c, 0x7c, 0x58, 0xdc, 0xb3, 0x0a, 0xf4, 0xca, 0xc8, 0xae, 0x74, 0x15, 0xb0, 0xb1, 0xc4, 0x23]

/-- A channel with its queues and regions. -/
structure Model where
  channel : Channel
  queues : List Queue
  regions : List Region
  deriving DecidableEq, Repr

/-! ### Encoding -/

def encodedSize (queueCount regionCount : ℕ) : Except Status ℕ :=
  if queueCount < minQueues ∨ queueCount > maxQueues ∨ regionCount = 0 ∨ regionCount > maxRegions then
    .error .invalidArgument
  else match (addSize headerSize queueCount queueDescriptorSize).bind fun size =>
      addSize size regionCount regionDescriptorSize with
    | none => .error .overflow
    | some size => if size > uint32Max then .error .overflow else .ok size

def encodeQueue (record : ℕ) (queue : Queue) : List Store :=
  [⟨record, storeU32 queue.queueId⟩, ⟨record + 4, storeU32 queue.role⟩,
    ⟨record + 8, storeU32 queue.queueSize⟩, ⟨record + 12, storeU32 queue.flags⟩,
    ⟨record + 16, storeU64 queue.descriptorAddress⟩,
    ⟨record + 24, storeU64 queue.availableAddress⟩, ⟨record + 32, storeU64 queue.usedAddress⟩,
    ⟨record + 40, storeU32 queue.availableNotificationId⟩,
    ⟨record + 44, storeU32 queue.usedNotificationId⟩,
    ⟨record + 48, storeU32 queue.maxChainLength⟩,
    ⟨record + 52, storeU32 queue.maxIndirectLength⟩,
    ⟨record + 56, storeU32 queue.maxOutstanding⟩]

def encodeRegion (record : ℕ) (region : Region) : List Store :=
  [⟨record, storeU32 region.regionId⟩, ⟨record + 4, storeU32 region.rights⟩,
    ⟨record + 8, storeU64 region.transportBase⟩, ⟨record + 16, storeU64 region.length⟩]

def Model.regionTableOffset (model : Model) : ℕ :=
  headerSize + model.queues.length * queueDescriptorSize

def Model.size (model : Model) : ℕ :=
  model.regionTableOffset + model.regions.length * regionDescriptorSize

def encodeHeader (model : Model) : List Store :=
  [⟨0, storeU32 (.ofNat model.size)⟩, ⟨4, abiIdentity⟩, ⟨8, schemaDigest⟩,
    ⟨40, storeU64 model.channel.featureBits⟩, ⟨48, storeU64 model.channel.channelId⟩,
    ⟨56, storeU64 model.channel.generation⟩, ⟨64, storeU32 model.channel.protocolId⟩,
    ⟨68, storeU32 model.channel.flags⟩, ⟨72, storeU32 (.ofNat model.queues.length)⟩,
    ⟨76, storeU32 (.ofNat model.regions.length)⟩, ⟨80, storeU32 (.ofNat headerSize)⟩,
    ⟨84, storeU32 (.ofNat model.regionTableOffset)⟩]

def encodeModel (model : Model) : List Store :=
  encodeHeader model ++
    tableImage queueDescriptorSize encodeQueue model.queues headerSize ++
    tableImage regionDescriptorSize encodeRegion model.regions model.regionTableOffset

/-- `kb2_protocol_channel_encode`: the status, the buffer and the encoded size. -/
def channelEncode (buffer : List UInt8) (encodedSizeOut : ℕ) (model : Model) :
    Status × List UInt8 × ℕ :=
  match encodedSize model.queues.length model.regions.length with
  | .error status => (status, buffer, encodedSizeOut)
  | .ok size =>
    if buffer.length < size then (.bufferTooSmall, buffer, size)
    else if validateChannelModel model.channel model.queues model.regions = false then
      (.malformed, buffer, size)
    else
      (.ok, read (storeAll (cleared buffer size) (encodeModel model)) 0 buffer.length, size)

def decodeQueue (memory : Memory) (record : ℕ) : Option Queue :=
  if loadU32 memory (record + 60) ≠ 0 then none
  else some
    { queueId := loadU32 memory record
      role := loadU32 memory (record + 4)
      queueSize := loadU32 memory (record + 8)
      flags := loadU32 memory (record + 12)
      descriptorAddress := loadU64 memory (record + 16)
      availableAddress := loadU64 memory (record + 24)
      usedAddress := loadU64 memory (record + 32)
      availableNotificationId := loadU32 memory (record + 40)
      usedNotificationId := loadU32 memory (record + 44)
      maxChainLength := loadU32 memory (record + 48)
      maxIndirectLength := loadU32 memory (record + 52)
      maxOutstanding := loadU32 memory (record + 56) }

def decodeRegion (memory : Memory) (record : ℕ) : Option Region :=
  if loadU64 memory (record + 24) ≠ 0 then none
  else some
    { regionId := loadU32 memory record
      rights := loadU32 memory (record + 4)
      transportBase := loadU64 memory (record + 8)
      length := loadU64 memory (record + 16) }

def decodeChannel (memory : Memory) : Channel where
  featureBits := loadU64 memory 40
  channelId := loadU64 memory 48
  generation := loadU64 memory 56
  protocolId := loadU32 memory 64
  flags := loadU32 memory 68

/-- The records and the last check, after the checks of the header. -/
def decodeTables (memory : Memory) (queueCount regionCount regionTableOffset : ℕ) :
    Except Status Model :=
  match (List.range queueCount).mapM (fun i =>
      decodeQueue memory (headerSize + i * queueDescriptorSize)) with
  | none => .error .malformed
  | some queues =>
    match (List.range regionCount).mapM (fun i =>
        decodeRegion memory (regionTableOffset + i * regionDescriptorSize)) with
    | none => .error .malformed
    | some regions =>
      if validateChannelModel (decodeChannel memory) queues regions = false then .error .malformed
      else .ok ⟨decodeChannel memory, queues, regions⟩

def channelDecode (buffer : List UInt8) (queueCapacity regionCapacity : ℕ) :
    Except Status Model :=
  let memory := ofList buffer
  let queueCount := (loadU32 memory 72).toNat
  let regionCount := (loadU32 memory 76).toNat
  let queueTableOffset := (loadU32 memory 80).toNat
  let regionTableOffset := (loadU32 memory 84).toNat
  if buffer.length < headerSize then .error .bufferTooSmall
  else if read memory 4 4 ≠ abiIdentity ∨ read memory 8 32 ≠ schemaDigest then
    .error .schemaMismatch
  else if loadU32 memory 88 ≠ 0 ∨ loadU32 memory 92 ≠ 0 then .error .malformed
  else match encodedSize queueCount regionCount with
    | .error _ => .error .malformed
    | .ok expectedSize =>
      if (loadU32 memory 0).toNat ≠ expectedSize ∨ queueTableOffset ≠ headerSize ∨
          regionTableOffset ≠ queueTableOffset + queueCount * queueDescriptorSize then
        .error .malformed
      else if buffer.length < expectedSize ∨ queueCapacity < queueCount ∨
          regionCapacity < regionCount then .error .bufferTooSmall
      else decodeTables memory queueCount regionCount regionTableOffset

end Kobox.Protocol.Descriptor
