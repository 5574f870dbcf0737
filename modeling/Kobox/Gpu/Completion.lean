import Kobox.Gpu.Descriptor

/-!
# Completions (`protocol/src/gpu_completion.c` and `protocol/src/gpu_session.c`)

An encoder returns the buffer after its stores and the encoded size. A decoder gets the session
and the generation that the caller expects, or the opcode it asked for.
-/

namespace Kobox.Gpu
open ByteMemory Protocol

/-! ### Constants (`gpu_layout.h`) -/

def completionHeaderSize : ℕ := 104

def statusOk : UInt32 := 0

def statusDeviceLost : UInt32 := 15

def dispositionCompleted : UInt32 := 1

def mappingCacheUc : UInt32 := 2

/-- `KB2_GPU_SPAN_RIGHT_READ | KB2_GPU_SPAN_RIGHT_WRITE`. -/
def knownRights : UInt64 := 3

def opcodeSessionOpen : UInt32 := 2

def opcodeSessionClose : UInt32 := 3

def sessionOpenResponseSize : ℕ := 32

/-- What a header says of the layout behind it. The span table is empty and stands with the
attachment table at `tableOffset`. -/
structure Frame where
  size : ℕ
  argumentCount : ℕ
  attachmentCount : ℕ
  inlineLength : ℕ
  tableOffset : ℕ
  inlineOffset : ℕ

def identityStores (size : ℕ) (sessionId : UInt64) (status : UInt32) : List Store :=
  [⟨0, storeU32 (.ofNat size)⟩, ⟨4, abiIdentity⟩, ⟨8, schemaDigest⟩, ⟨40, storeU64 sessionId⟩,
    ⟨48, storeU32 status⟩, ⟨52, storeU32 dispositionCompleted⟩]

def offsetStores (tableOffset inlineOffset : ℕ) : List Store :=
  [⟨72, storeU32 (.ofNat completionHeaderSize)⟩, ⟨76, storeU32 (.ofNat tableOffset)⟩,
    ⟨80, storeU32 (.ofNat tableOffset)⟩, ⟨84, storeU32 (.ofNat inlineOffset)⟩]

/-- The comparisons of a header with the sizes, counts and offsets that its decoder expects. -/
def frameMatches (memory : Memory) (frame : Frame) : Bool :=
  (loadU32 memory 0).toNat == frame.size && loadU32 memory 52 == dispositionCompleted &&
    (loadU32 memory 56).toNat == frame.argumentCount && loadU32 memory 60 == 0 &&
    (loadU32 memory 64).toNat == frame.attachmentCount &&
    (loadU32 memory 68).toNat == frame.inlineLength &&
    (loadU32 memory 72).toNat == completionHeaderSize &&
    (loadU32 memory 76).toNat == frame.tableOffset &&
    (loadU32 memory 80).toNat == frame.tableOffset &&
    (loadU32 memory 84).toNat == frame.inlineOffset && loadU32 memory 88 == 0 &&
    loadU32 memory 92 == 0 && loadU64 memory 96 == 0

def argumentMatches (memory : Memory) (record : ℕ) (argument : Argument) : Bool :=
  decodeArgument memory record == argument && loadU32 memory (record + 28) == 0

def attachmentMatches (memory : Memory) (record : ℕ) (attachment : Attachment) : Bool :=
  decodeAttachment memory record == attachment && loadU32 memory (record + 44) == 0

def emit (buffer : List UInt8) (size : ℕ) (stores : List Store) :
    Except Status (List UInt8 × ℕ) :=
  if buffer.length < size then .error .bufferTooSmall
  else .ok (read (storeAll (cleared buffer size) stores) 0 buffer.length, size)

structure InlineCompletion where
  sessionId : UInt64
  status : UInt32
  recordSchemaId : UInt32
  data : List UInt8
  deriving DecidableEq, Repr

namespace InlineCompletion

def valid (completion : InlineCompletion) : Bool :=
  completion.sessionId != 0 && completion.status ≤ statusDeviceLost &&
    completion.data.length ≤ maxInlineBytes &&
    (if completion.data.length ≠ 0 then completion.recordSchemaId != 0
      else completion.recordSchemaId == 0) &&
    (completion.status == statusOk || completion.data.length == 0)

def frame (length : ℕ) : Frame :=
  let offset := completionHeaderSize + if length ≠ 0 then argumentDescriptorSize else 0
  { size := offset + length
    argumentCount := if length ≠ 0 then 1 else 0
    attachmentCount := 0
    inlineLength := length
    tableOffset := offset
    inlineOffset := offset }

def stores (completion : InlineCompletion) : List Store :=
  let frame := frame completion.data.length
  identityStores frame.size completion.sessionId completion.status ++
    [⟨56, storeU32 (.ofNat frame.argumentCount)⟩, ⟨68, storeU32 (.ofNat frame.inlineLength)⟩] ++
    offsetStores frame.tableOffset frame.inlineOffset ++
    if completion.data.length ≠ 0 then
      [⟨104, storeU32 1⟩, ⟨108, storeU32 argumentInline⟩, ⟨112, storeU32 flagOutput⟩,
        ⟨116, storeU32 completion.recordSchemaId⟩,
        ⟨128, storeU32 (.ofNat completion.data.length)⟩, ⟨frame.inlineOffset, completion.data⟩]
    else []

def encode (buffer : List UInt8) (completion : InlineCompletion) :
    Except Status (List UInt8 × ℕ) :=
  if completion.valid = false then .error .malformed
  else emit buffer (frame completion.data.length).size completion.stores

def fields (memory : Memory) : InlineCompletion :=
  let length := (loadU32 memory 68).toNat
  { sessionId := loadU64 memory 40
    status := loadU32 memory 48
    recordSchemaId := if length ≠ 0 then loadU32 memory 116 else 0
    data := read memory (frame length).inlineOffset length }

def decode (expectedSession : UInt64) (bytes : List UInt8) : Except Status InlineCompletion :=
  let memory := ofList bytes
  if expectedSession = 0 then .error .invalidArgument
  else if bytes.length < completionHeaderSize then .error .bufferTooSmall
  else if identityMatches memory = false then .error .schemaMismatch
  else
    let length := (loadU32 memory 68).toNat
    let frame := frame length
    if length > maxInlineBytes ∨ loadU64 memory 40 ≠ expectedSession ∨
        bytes.length ≠ frame.size ∨ frameMatches memory frame = false then .error .malformed
    else if length ≠ 0 ∧ argumentMatches memory 104
        ⟨1, argumentInline, flagOutput, loadU32 memory 116, 0, loadU32 memory 68⟩ = false then
      .error .malformed
    else if (fields memory).valid then .ok (fields memory)
    else .error .malformed

end InlineCompletion

def errorCompletion (sessionId : UInt64) (status : UInt32) : InlineCompletion :=
  { sessionId, status, recordSchemaId := 0, data := [] }

structure AttachmentCompletion where
  sessionId : UInt64
  status : UInt32
  argumentId : UInt32
  attachment : Attachment
  deriving DecidableEq, Repr

namespace AttachmentCompletion

def failed (sessionId : UInt64) (status : UInt32) : AttachmentCompletion :=
  { sessionId, status, argumentId := 0, attachment := ⟨0, 0, 0, 0, 0, 0, 0, 0⟩ }

def valid (completion : AttachmentCompletion) : Bool :=
  let attachment := completion.attachment
  completion.sessionId != 0 && completion.status ≤ statusDeviceLost &&
    if completion.status ≠ statusOk then
      completion == failed completion.sessionId completion.status
    else
      completion.argumentId != 0 && attachment.attachmentId != 0 &&
        attachmentMemory ≤ attachment.objectClass && attachment.objectClass ≤ attachmentSyncobj &&
        attachment.exchangeId != 0 && attachment.generation != 0 && attachment.rights != 0 &&
        attachment.role != 0 && attachmentBorrow ≤ attachment.ownership &&
        attachment.ownership ≤ attachmentMove && attachment.flags == flagOutput

def frame : Frame where
  size := 184
  argumentCount := 1
  attachmentCount := 1
  inlineLength := 0
  tableOffset := 136
  inlineOffset := 184

def stores (completion : AttachmentCompletion) : List Store :=
  identityStores frame.size completion.sessionId completion.status ++
    [⟨56, storeU32 1⟩, ⟨64, storeU32 1⟩] ++ offsetStores frame.tableOffset frame.inlineOffset ++
    ([⟨104, storeU32 completion.argumentId⟩, ⟨108, storeU32 argumentAttachment⟩,
      ⟨112, storeU32 flagOutput⟩, ⟨120, storeU64 completion.attachment.attachmentId.toUInt64⟩,
      ⟨128, storeU32 1⟩] ++ encodeAttachment frame.tableOffset completion.attachment)

def encode (buffer : List UInt8) (completion : AttachmentCompletion) :
    Except Status (List UInt8 × ℕ) :=
  if completion.valid = false then .error .malformed
  else if completion.status ≠ statusOk then
    (errorCompletion completion.sessionId completion.status).encode buffer
  else emit buffer frame.size completion.stores

def decodeOk (expected : UInt64 × UInt64) (bytes : List UInt8) :
    Except Status AttachmentCompletion :=
  let memory := ofList bytes
  if bytes.length ≠ frame.size ∨ identityMatches memory = false ∨
      loadU64 memory 40 ≠ expected.1 ∨ frameMatches memory frame = false then .error .malformed
  else
    let completion : AttachmentCompletion :=
      { sessionId := expected.1
        status := loadU32 memory 48
        argumentId := loadU32 memory 104
        attachment := decodeAttachment memory frame.tableOffset }
    if argumentMatches memory 104 ⟨loadU32 memory 104, argumentAttachment, flagOutput, 0,
          completion.attachment.attachmentId.toUInt64, 1⟩ = false ∨
        completion.attachment.generation ≠ expected.2 ∨
        loadU32 memory (frame.tableOffset + 44) ≠ 0 ∨ completion.valid = false then
      .error .malformed
    else .ok completion

/-- `kb2_gpu_attachment_completion_decode`, with the expected session and generation. -/
def decode (expected : UInt64 × UInt64) (bytes : List UInt8) : Except Status AttachmentCompletion :=
  if expected.1 = 0 ∨ expected.2 = 0 then .error .invalidArgument
  else if bytes.length < completionHeaderSize then .error .bufferTooSmall
  else if loadU32 (ofList bytes) 48 ≠ statusOk then
    (InlineCompletion.decode expected.1 bytes).map fun error => failed error.sessionId error.status
  else decodeOk expected bytes

end AttachmentCompletion

/-! ### Mapping completions -/

/-- `kb2_gpu_virtgpu_map_completion_t`, which the mode, amdgpu and i915 command sets use as well. -/
structure MapCompletion where
  sessionId : UInt64
  status : UInt32
  mappingId : UInt64
  length : UInt64
  cachePolicy : UInt32
  exchangeId : UInt64
  generation : UInt64
  rights : UInt64
  deriving DecidableEq, Repr

structure MappingCompletionFormat where
  recordSchemaId : UInt32
  recordSize : ℕ
  mappingIdOffset : ℕ
  lengthOffset : ℕ
  cachePolicyOffset : ℕ
  reservedOffset : ℕ
  attachmentArgumentId : UInt32
  attachmentRole : UInt32
  deriving DecidableEq, Repr

def virtgpuMapFormat : MappingCompletionFormat where
  recordSchemaId := 102
  recordSize := 24
  mappingIdOffset := 0
  lengthOffset := 8
  cachePolicyOffset := 16
  reservedOffset := 20
  attachmentArgumentId := 2
  attachmentRole := 1

def modeMapFormat : MappingCompletionFormat where
  recordSchemaId := 145
  recordSize := 24
  mappingIdOffset := 0
  lengthOffset := 8
  cachePolicyOffset := 16
  reservedOffset := 20
  attachmentArgumentId := 2
  attachmentRole := 1

def amdgpuMapFormat : MappingCompletionFormat where
  recordSchemaId := 104
  recordSize := 24
  mappingIdOffset := 0
  lengthOffset := 8
  cachePolicyOffset := 16
  reservedOffset := 20
  attachmentArgumentId := 2
  attachmentRole := 1

def i915MapFormat : MappingCompletionFormat where
  recordSchemaId := 122
  recordSize := 24
  mappingIdOffset := 0
  lengthOffset := 8
  cachePolicyOffset := 16
  reservedOffset := 20
  attachmentArgumentId := 2
  attachmentRole := 1

namespace MapCompletion

def failed (sessionId : UInt64) (status : UInt32) : MapCompletion :=
  ⟨sessionId, status, 0, 0, 0, 0, 0, 0⟩

def valid (completion : MapCompletion) : Bool :=
  completion.sessionId != 0 && completion.status ≤ statusDeviceLost &&
    if completion.status ≠ statusOk then
      completion == failed completion.sessionId completion.status
    else
      completion.mappingId != 0 && completion.mappingId &&& 4095 == 0 &&
        completion.cachePolicy ≤ mappingCacheUc && completion.length != 0 &&
        completion.length &&& 4095 == 0 && completion.exchangeId != 0 &&
        completion.generation != 0 && completion.rights != 0 &&
        completion.rights &&& ~~~knownRights == 0

def frame (format : MappingCompletionFormat) : Frame where
  size := 216 + format.recordSize
  argumentCount := 2
  attachmentCount := 1
  inlineLength := format.recordSize
  tableOffset := 168
  inlineOffset := 216

def stores (format : MappingCompletionFormat) (completion : MapCompletion) : List Store :=
  let frame := frame format
  let record := frame.inlineOffset
  identityStores frame.size completion.sessionId statusOk ++
    [⟨56, storeU32 2⟩, ⟨64, storeU32 1⟩, ⟨68, storeU32 (.ofNat format.recordSize)⟩] ++
    offsetStores frame.tableOffset frame.inlineOffset ++
    ([⟨104, storeU32 1⟩, ⟨108, storeU32 argumentInline⟩, ⟨112, storeU32 flagOutput⟩,
      ⟨116, storeU32 format.recordSchemaId⟩, ⟨128, storeU32 (.ofNat format.recordSize)⟩,
      ⟨136, storeU32 format.attachmentArgumentId⟩, ⟨140, storeU32 argumentAttachment⟩,
      ⟨144, storeU32 flagOutput⟩, ⟨152, storeU64 1⟩, ⟨160, storeU32 1⟩] ++
      encodeAttachment frame.tableOffset
        ⟨1, attachmentMemory, completion.exchangeId, completion.generation, completion.rights,
          format.attachmentRole, attachmentShare, flagOutput⟩ ++
      [⟨record + format.mappingIdOffset, storeU64 completion.mappingId⟩,
        ⟨record + format.lengthOffset, storeU64 completion.length⟩,
        ⟨record + format.cachePolicyOffset, storeU32 completion.cachePolicy⟩])

def encode (format : MappingCompletionFormat) (buffer : List UInt8) (completion : MapCompletion) :
    Except Status (List UInt8 × ℕ) :=
  if completion.valid = false then .error .malformed
  else if completion.status ≠ statusOk then
    (errorCompletion completion.sessionId completion.status).encode buffer
  else emit buffer (frame format).size (completion.stores format)

def decodeOk (format : MappingCompletionFormat) (expected : UInt64 × UInt64) (bytes : List UInt8) :
    Except Status MapCompletion :=
  let memory := ofList bytes
  let frame := frame format
  if bytes.length ≠ frame.size ∨ identityMatches memory = false ∨
      loadU64 memory 40 ≠ expected.1 ∨ frameMatches memory frame = false then .error .malformed
  else
    let attachment := decodeAttachment memory frame.tableOffset
    let record := frame.inlineOffset
    if argumentMatches memory 104 ⟨1, argumentInline, flagOutput, format.recordSchemaId, 0,
          .ofNat format.recordSize⟩ = false ∨
        argumentMatches memory 136 ⟨format.attachmentArgumentId, argumentAttachment, flagOutput, 0,
          1, 1⟩ = false ∨
        attachmentMatches memory frame.tableOffset ⟨1, attachmentMemory, attachment.exchangeId,
          expected.2, attachment.rights, format.attachmentRole, attachmentShare,
          flagOutput⟩ = false ∨
        loadU32 memory (record + format.reservedOffset) ≠ 0 then .error .malformed
    else
      let completion : MapCompletion :=
        { sessionId := expected.1
          status := statusOk
          mappingId := loadU64 memory (record + format.mappingIdOffset)
          length := loadU64 memory (record + format.lengthOffset)
          cachePolicy := loadU32 memory (record + format.cachePolicyOffset)
          exchangeId := attachment.exchangeId
          generation := expected.2
          rights := attachment.rights }
      if completion.valid then .ok completion else .error .malformed

/-- `mapping_completion_decode`, with the expected session and generation. -/
def decode (format : MappingCompletionFormat) (expected : UInt64 × UInt64) (bytes : List UInt8) :
    Except Status MapCompletion :=
  if expected.1 = 0 ∨ expected.2 = 0 then .error .invalidArgument
  else if bytes.length < completionHeaderSize then .error .bufferTooSmall
  else if loadU32 (ofList bytes) 48 ≠ statusOk then
    (InlineCompletion.decode expected.1 bytes).map fun error => failed error.sessionId error.status
  else decodeOk format expected bytes

end MapCompletion

def virtgpuMapCompletionEncode := MapCompletion.encode virtgpuMapFormat

def virtgpuMapCompletionDecode := MapCompletion.decode virtgpuMapFormat

def modeMapCompletionEncode := MapCompletion.encode modeMapFormat

def modeMapCompletionDecode := MapCompletion.decode modeMapFormat

def amdgpuMapCompletionEncode := MapCompletion.encode amdgpuMapFormat

def amdgpuMapCompletionDecode := MapCompletion.decode amdgpuMapFormat

def i915MapCompletionEncode := MapCompletion.encode i915MapFormat

def i915MapCompletionDecode := MapCompletion.decode i915MapFormat

structure SessionCompletion where
  opcode : UInt32
  status : UInt32
  sessionId : UInt64
  topologyEpoch : UInt64
  capabilities : UInt64
  deriving DecidableEq, Repr

namespace SessionCompletion

/-- `valid_completion`. -/
def valid (completion : SessionCompletion) : Bool :=
  completion.status ≤ statusDeviceLost &&
    if completion.opcode = opcodeSessionOpen then
      if completion.status = statusOk then
        completion.sessionId != 0 && completion.topologyEpoch != 0
      else
        completion.sessionId == 0 && completion.topologyEpoch == 0 && completion.capabilities == 0
    else
      completion.opcode == opcodeSessionClose && completion.sessionId != 0 &&
        completion.topologyEpoch == 0 && completion.capabilities == 0

/-- `payload`: only a session that was opened has a result. -/
def payload (opcode status : UInt32) : ℕ :=
  if opcode = opcodeSessionOpen ∧ status = statusOk then sessionOpenResponseSize else 0

def frame (payload : ℕ) : Frame where
  size := completionHeaderSize + payload
  argumentCount := 0
  attachmentCount := 0
  inlineLength := payload
  tableOffset := completionHeaderSize
  inlineOffset := completionHeaderSize

def stores (completion : SessionCompletion) : List Store :=
  let payload := payload completion.opcode completion.status
  let frame := frame payload
  identityStores frame.size completion.sessionId completion.status ++
    [⟨68, storeU32 (.ofNat payload)⟩] ++ offsetStores frame.tableOffset frame.inlineOffset ++
    if payload ≠ 0 then
      [⟨104, storeU64 completion.sessionId⟩, ⟨112, storeU64 completion.topologyEpoch⟩,
        ⟨120, storeU64 completion.capabilities⟩]
    else []

def encode (buffer : List UInt8) (completion : SessionCompletion) :
    Except Status (List UInt8 × ℕ) :=
  if completion.valid = false then .error .malformed
  else emit buffer (frame (payload completion.opcode completion.status)).size completion.stores

def fields (opcode : UInt32) (memory : Memory) : SessionCompletion :=
  let status := loadU32 memory 48
  let payload := payload opcode status
  { opcode, status
    sessionId := loadU64 memory 40
    topologyEpoch := if payload ≠ 0 then loadU64 memory 112 else 0
    capabilities := if payload ≠ 0 then loadU64 memory 120 else 0 }

def decode (opcode : UInt32) (bytes : List UInt8) : Except Status SessionCompletion :=
  let memory := ofList bytes
  if bytes.length < completionHeaderSize then .error .bufferTooSmall
  else if identityMatches memory = false then .error .schemaMismatch
  else
    let payload := payload opcode (loadU32 memory 48)
    let frame := frame payload
    if bytes.length ≠ frame.size ∨ frameMatches memory frame = false then .error .malformed
    else if payload ≠ 0 ∧ (loadU64 memory 104 ≠ loadU64 memory 40 ∨ loadU64 memory 128 ≠ 0) then
      .error .malformed
    else if (fields opcode memory).valid then .ok (fields opcode memory)
    else .error .malformed

end SessionCompletion

end Kobox.Gpu
