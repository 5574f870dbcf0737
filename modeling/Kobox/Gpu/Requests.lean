import Kobox.Gpu.Source

/-!
# What the command sets ask of a request (`protocol/src/gpu.c`)

Behind the shared checks each command set looks at the words of the inline record. The offsets are
those of the generated layouts.
-/

namespace Kobox.Gpu
open ByteMemory Protocol

namespace Source

def word (source : Source) (offset : ℕ) : UInt32 := loadU32 (ofList source.inlineData) offset

def wide (source : Source) (offset : ℕ) : UInt64 := loadU64 (ofList source.inlineData) offset

def spanElementCount (source : Source) (argumentId : UInt32) : UInt32 :=
  (findArgument source argumentId).elim 0 fun argument => argument.count

def counts (source : Source) (fields : List (ℕ × UInt32)) : Bool :=
  fields.all fun (offset, argumentId) => source.word offset == source.spanElementCount argumentId

end Source

/-! ### The virtgpu set -/

def mappingRightsValid (rights : UInt32) : Bool :=
  rights &&& ~~~(spanRightRead ||| spanRightWrite) == 0 && rights != 0

def execFlagFenceIn : UInt32 := 1
def execFlagFenceOut : UInt32 := 2
def execFlagRingIndex : UInt32 := 4

def contextParameterCapsetId : UInt32 := 1
def contextParameterRingCount : UInt32 := 2
def contextParameterPollRingMask : UInt32 := 4
def contextParameterDebugName : UInt32 := 8

def execbufferValid (source : Source) : Bool :=
  let flags := source.word 0
  flags &&& ~~~(execFlagFenceIn ||| execFlagFenceOut ||| execFlagRingIndex) == 0 &&
    (flags &&& execFlagFenceIn != 0) == (findArgument source 6).isSome &&
    (flags &&& execFlagRingIndex != 0 || source.word 4 == 0) &&
    source.counts [(8, 2), (12, 3), (16, 4), (20, 5)]

def contextInitValid (source : Source) : Bool :=
  let mask := source.word 0
  let debugNameBytes := source.word 12
  mask != 0 &&
    mask &&& ~~~(contextParameterCapsetId ||| contextParameterRingCount |||
      contextParameterPollRingMask ||| contextParameterDebugName) == 0 &&
    debugNameBytes == source.spanElementCount 2 &&
    ((mask &&& contextParameterDebugName != 0 && debugNameBytes != 0) ||
      (mask &&& contextParameterDebugName == 0 && debugNameBytes == 0)) &&
    (mask &&& contextParameterCapsetId != 0 || source.word 4 == 0) &&
    (mask &&& contextParameterRingCount != 0 || source.word 8 == 0) &&
    (mask &&& contextParameterPollRingMask != 0 || source.wide 16 == 0)

def virtgpuRequestSemanticsValid (source : Source) : Bool :=
  match VirtgpuCommand.ofId source.commandId with
  | some .map => mappingRightsValid (source.word 4)
  | some .execbuffer => execbufferValid source
  | some .resourceCreate => source.word 52 == 0
  | some .resourceInfo => source.word 4 == 0
  | some .wait => source.word 4 &&& ~~~1 == 0
  | some .getCaps => source.counts [(8, 2)] && source.word 12 == 0
  | some .resourceCreateBlob => source.counts [(16, 2)] && source.word 20 == 0
  | some .contextInit => contextInitValid source
  | _ => true

def pollReadable : UInt32 := 1

def coreRequestSemanticsValid (source : Source) : Bool :=
  match CoreCommand.ofId source.commandId with
  | some .version => source.counts [(0, 2), (4, 3), (8, 4)] && source.word 12 == 0
  | some .getUnique | some .readEvents => source.counts [(0, 2)] && source.word 4 == 0
  | some .pollEvents => source.word 0 &&& ~~~pollReadable == 0
  | some .getClient => source.word 4 == 0
  | some .setClientName => source.counts [(0, 2)] && source.word 4 == 0
  | some .gemClose | some .gemFlink | some .syncobjDestroy => source.word 4 == 0
  | some .gemOpen => source.word 4 == 0
  | some .primeAttachmentToHandle => source.word 0 == 0 && source.word 4 == 0
  | some .syncobjCreate => source.word 4 == 0
  | some .syncobjAttachmentToHandle =>
    -- A sync file replaces the fence of an existing handle, a syncobj makes a new one.
    if source.word 0 &&& 1 ≠ 0 then source.word 4 != 0 else source.word 4 == 0
  | some .syncobjWait | some .syncobjTimelineWait =>
    source.counts [(0, 2)] && source.word 4 &&& ~~~15 == 0 &&
      (source.word 4 &&& 8 != 0 || source.wide 8 == 0)
  | some .syncobjReset | some .syncobjSignal | some .syncobjTimelineSignal =>
    source.counts [(0, 2)] && source.word 4 == 0
  | some .syncobjQuery => source.counts [(0, 2)] && source.word 4 &&& ~~~1 == 0
  | _ => true

/-! ### The mode set -/

def connectorFlagForceProbe : UInt32 := 1
def cursorFlagBuffer : UInt32 := 1
def cursorFlagMove : UInt32 := 2
def dirtyFlagCopy : UInt32 := 1
def dirtyFlagFill : UInt32 := 2
def pageFlipFlagEvent : UInt32 := 1
def pageFlipFlagAsync : UInt32 := 2
def pageFlipFlagTargetAbsolute : UInt32 := 4
def pageFlipFlagTargetRelative : UInt32 := 8
def atomicFlagTestOnly : UInt32 := 256
def atomicFlagNonblock : UInt32 := 512
def atomicFlagAllowModeset : UInt32 := 1024

def modeTopologyRequired (commandId : UInt32) : Bool :=
  (ModeCommand.ofId commandId).any fun command =>
    [.waitVblank, .crtcGetSequence, .crtcQueueSequence, .getCrtc, .setCrtc, .cursor, .getGamma,
      .setGamma, .getEncoder, .getConnector, .attachMode, .detachMode, .getProperty, .setProperty,
      .getPropertyBlob, .getFb, .addFb, .removeFb, .pageFlip, .dirtyFb, .getPlane, .setPlane,
      .addFb2, .objectGetProperties, .objectSetProperty, .cursor2, .atomic, .createPropertyBlob,
      .destroyPropertyBlob, .createLease, .getLease, .getFb2, .closeFb].contains command

def pageFlipValid (source : Source) : Bool :=
  let flags := source.word 16
  let target := flags &&& (pageFlipFlagTargetAbsolute ||| pageFlipFlagTargetRelative)
  flags &&& ~~~(pageFlipFlagEvent ||| pageFlipFlagAsync ||| pageFlipFlagTargetAbsolute |||
      pageFlipFlagTargetRelative) == 0 &&
    target != pageFlipFlagTargetAbsolute ||| pageFlipFlagTargetRelative &&
    (target != 0 || source.word 20 == 0) &&
    (flags &&& pageFlipFlagEvent != 0 || source.wide 24 == 0)

def atomicValid (source : Source) : Bool :=
  let flags := source.word 16
  flags &&& ~~~(pageFlipFlagEvent ||| pageFlipFlagAsync ||| atomicFlagTestOnly |||
      atomicFlagNonblock ||| atomicFlagAllowModeset) == 0 &&
    source.counts [(20, 2), (24, 3), (28, 4)] &&
    (flags &&& pageFlipFlagEvent != 0 || source.wide 8 == 0)

def modeRequestSemanticsValid (source : Source) : Bool :=
  !(modeTopologyRequired source.commandId && source.wide 0 == 0) &&
    match ModeCommand.ofId source.commandId with
    | some .getResources => source.counts [(0, 2), (4, 3), (8, 4), (12, 5)]
    | some .getCrtc => source.word 12 == 0
    | some .setCrtc => source.counts [(28, 2), (24, 3)]
    | some .getGamma | some .setGamma =>
      source.counts [(12, 2)] && source.spanElementCount 2 == source.spanElementCount 3 &&
        source.spanElementCount 2 == source.spanElementCount 4
    | some .getConnector =>
      source.counts [(12, 2), (16, 3), (20, 4)] &&
        source.word 24 &&& ~~~connectorFlagForceProbe == 0 && source.word 28 == 0
    | some .cursor =>
      source.word 8 &&& ~~~(cursorFlagBuffer ||| cursorFlagMove) == 0 && source.word 36 == 0
    | some .cursor2 => source.word 8 &&& ~~~(cursorFlagBuffer ||| cursorFlagMove) == 0
    | some .getProperty => source.counts [(12, 2), (16, 3)] && source.word 20 == 0
    | some .getPropertyBlob => source.counts [(12, 2)]
    | some .dirtyFb =>
      source.counts [(20, 2)] && source.word 12 &&& ~~~(dirtyFlagCopy ||| dirtyFlagFill) == 0
    | some .pageFlip => pageFlipValid source
    | some .createDumb => source.word 12 == 0
    | some .mapDumb => mappingRightsValid (source.word 4)
    | some .getPlaneResources => source.counts [(0, 2)] && source.word 4 == 0
    | some .getPlane => source.counts [(12, 2)]
    | some .objectGetProperties => source.counts [(16, 2)] && source.word 20 == 0
    | some .atomic => atomicValid source
    | some .addFb2 => source.word 8 == 0
    | some .createPropertyBlob => source.counts [(8, 2)] && source.word 12 == 0
    | some .createLease => source.counts [(8, 2)]
    | some .listLessees => source.counts [(0, 2)] && source.word 4 == 0
    | some .getLease => source.counts [(8, 2)] && source.word 12 == 0
    | _ => true

/-! ### The amdgpu set -/

namespace Amdgpu

def maxBoListEntries : UInt32 := 65536
def maxInfoBytes : UInt32 := 1048576
def maxSyncHandles : UInt32 := 65536
def maxVmMappings : UInt32 := 65536

def attachmentSession : UInt32 := 5

def recordSize (recordId : UInt32) : UInt32 := (amdgpuRecords.lookup recordId).getD 0

/-- From `CS_CHUNK_IB` to `CS_CHUNK_GFX_SHADOW`. -/
def csRecord (recordId : UInt32) : Bool := 111 ≤ recordId && recordId ≤ 120

/-- From `SCALAR_U32` to `INFO_USERQ_METADATA`. -/
def infoRecord (recordId : UInt32) : Bool := 124 ≤ recordId && recordId ≤ 138

/-- `HANDLE_U32`. -/
def handleRecord (recordId : UInt32) : Bool := recordId == 165

/-- `GEM_CREATE_INFO` and `GEM_VM_ENTRY`. -/
def gemOpRecord (recordId : UInt32) : Bool := recordId == 147 || recordId == 148

/-- From `USERQ_MQD_GFX11` to `USERQ_MQD_COMPUTE_GFX11`. -/
def userqMqdRecord (recordId : UInt32) : Bool := 161 ≤ recordId && recordId ≤ 163

/-- `TIMELINE_SYNCOBJ`. -/
def timelineRecord (recordId : UInt32) : Bool := recordId == 166

/-- `USERQ_FENCE_INFO`. -/
def userqFenceRecord (recordId : UInt32) : Bool := recordId == 168

/-- `BO_LIST_ENTRY`. -/
def boListRecord (recordId : UInt32) : Bool := recordId == 108

/-- `FENCE`. -/
def fenceRecord (recordId : UInt32) : Bool := recordId == 151

/-- `GEM_LIST_HANDLES_ENTRY`. -/
def gemListRecord (recordId : UInt32) : Bool := recordId == 171

/-- The constants of a call of `amdgpu_span_valid`. -/
structure Slot where
  argumentId : UInt32
  flags : UInt32
  minimum : UInt32
  maximum : UInt32
  record : UInt32 → Bool

/-- The tests of an argument and its span, with the rights that the argument's flags ask for. -/
def spanMatches (argument : Argument) (span : MemorySpan) (flags : UInt32) : Bool :=
  let size := recordSize argument.recordSchemaId
  size != 0 && span.flags == flags &&
    span.rights == (if flags = flagInput then spanRightRead else spanRightWrite) &&
    argument.count.toUInt64 ≤ uint64Max / size.toUInt64 &&
    span.length == argument.count.toUInt64 * size.toUInt64

/-- `amdgpu_span_valid`: nothing if the span is refused, and `some none` if it is absent. -/
def spanValid (source : Source) (slot : Slot) : Option (Option MemorySpan) :=
  match findArgument source slot.argumentId with
  | none => if slot.minimum = 0 then some none else none
  | some argument =>
    if argument.kind ≠ argumentSpan ∨ argument.flags ≠ slot.flags ∨
        slot.record argument.recordSchemaId = false ∨ argument.count < slot.minimum ∨
        slot.maximum < argument.count ∨ uint32Max < argument.value.toNat then none
    else
      match findSpan source.spans argument.value.toUInt32 with
      | none => none
      | some span => if spanMatches argument span slot.flags then some (some span) else none

def attachmentValid (source : Source) (argumentId objectClass role ownership : UInt32) : Bool :=
  (findArgument source argumentId).any fun argument =>
    argument.kind == argumentAttachment && argument.flags == flagInput &&
      argument.value.toNat ≤ uint32Max &&
      (findAttachment source.attachments argument.value.toUInt32).any fun attachment =>
        attachment.objectClass == objectClass && attachment.role == role &&
          attachment.ownership == ownership

def infoQueryRecordValid (query recordId : UInt32) : Bool :=
  match query with
  -- ACCELERATION_WORKING, CRTC_FROM_ID, HW_IP_COUNT, SENSOR, VRAM_LOST_COUNTER, MAXIMUM_IBS
  | 0 | 1 | 3 | 29 | 31 | 34 => recordId == 124
  -- TIMESTAMP, BYTES_MOVED, VRAM_USAGE, GTT_USAGE, VISIBLE_VRAM_USAGE, EVICTION_COUNT,
  -- VRAM_CPU_PAGE_FAULTS, RAS_ENABLED_FEATURES
  | 5 | 15 | 16 | 17 | 23 | 24 | 30 | 32 => recordId == 125
  -- HW_IP_INFO
  | 2 => recordId == 132
  -- FIRMWARE_VERSION
  | 14 => recordId == 130
  -- GDS_CONFIG
  | 19 => recordId == 127
  -- VRAM_GTT
  | 20 => recordId == 128
  -- READ_MMR_REGISTER
  | 21 => recordId == 124
  -- DEVICE_INFO
  | 22 => recordId == 133
  -- MEMORY_INFO
  | 25 => recordId == 129
  -- VCE_CLOCK_TABLE
  | 26 => recordId == 135
  -- VBIOS
  | 27 => recordId == 124 || recordId == 126 || recordId == 131
  -- VIDEO_HANDLE_COUNT
  | 28 => recordId == 134
  -- VIDEO_CAPS
  | 33 => recordId == 136
  -- GPUVM_FAULT
  | 35 => recordId == 137
  -- USERQ_FIRMWARE_AREAS
  | 36 => recordId == 138
  | _ => false

/-- One turn of the loop of `csSpansValid`. -/
def csChunkValid (source : Source) (index : ℕ) : Bool :=
  (source.arguments[index + 1]?).any fun argument =>
    argument.argumentId.toNat == index + 2 && argument.kind == argumentSpan &&
      argument.flags == flagInput && 1 ≤ argument.count && argument.count ≤ 65536 &&
      csRecord argument.recordSchemaId && argument.value.toNat ≤ uint32Max &&
      (findSpan source.spans argument.value.toUInt32).any fun span =>
        spanMatches argument span flagInput

def csSpansValid (source : Source) : Bool :=
  1 ≤ source.spans.length && source.spans.length ≤ 64 &&
    source.arguments.length == source.spans.length + 1 && source.attachments.length == 0 &&
    (List.range source.spans.length).all (csChunkValid source) &&
    (source.word 8).toNat == source.spans.length

/-- The calls of `amdgpu_span_valid` for each command. -/
def slots : AmdgpuCommand → List Slot
  | .boList => [⟨2, flagInput, 0, maxBoListEntries, boListRecord⟩]
  | .info => [⟨2, flagOutput, 1, maxInfoBytes, infoRecord⟩]
  | .gemVa => [⟨2, flagInput, 0, maxSyncHandles, handleRecord⟩]
  | .gemOp => [⟨2, flagOutput, 0, maxVmMappings, gemOpRecord⟩]
  | .waitFences => [⟨2, flagInput, 1, maxSyncHandles, fenceRecord⟩]
  | .userq => [⟨2, flagInput, 0, 1, userqMqdRecord⟩]
  | .userqSignal =>
    [⟨2, flagInput, 0, maxSyncHandles, handleRecord⟩,
      ⟨3, flagInput, 0, maxSyncHandles, handleRecord⟩,
      ⟨4, flagInput, 0, maxSyncHandles, handleRecord⟩]
  | .userqWait =>
    [⟨2, flagInput, 0, maxSyncHandles, handleRecord⟩,
      ⟨3, flagInput, 0, maxSyncHandles, timelineRecord⟩,
      ⟨4, flagInput, 0, maxSyncHandles, handleRecord⟩,
      ⟨5, flagInput, 0, maxSyncHandles, handleRecord⟩,
      ⟨6, flagOutput, 0, maxSyncHandles, userqFenceRecord⟩]
  | .gemListHandles => [⟨2, flagOutput, 0, maxBoListEntries, gemListRecord⟩]
  | _ => []

/-- The attachments that a command carries, and what the first switch asks of a command without
spans. -/
def attachmentCount : AmdgpuCommand → ℕ
  | .gemUserptr | .sched => 1
  | _ => 0

def attachmentsValid (source : Source) : AmdgpuCommand → Bool
  | .gemUserptr =>
    source.spans.length == 0 && source.attachments.length == 1 &&
      attachmentValid source 2 attachmentMemory 1 attachmentShare
  | .sched =>
    source.spans.length == 0 && source.attachments.length == 1 &&
      attachmentValid source 2 attachmentSession 1 attachmentBorrow
  | .boList | .info | .gemVa | .gemOp | .waitFences | .userq | .userqSignal | .userqWait
  | .gemListHandles => true
  | _ => source.spans.length == 0 && source.attachments.length == 0

def infoSpanValid (source : Source) (span : MemorySpan) : Bool :=
  span.length ≤ maxInfoBytes.toUInt64 && source.word 4 == span.recordSchemaId &&
    (source.word 8).toUInt64 == span.length &&
    infoQueryRecordValid (source.word 0) span.recordSchemaId

def elementCount (spans : List (Option MemorySpan)) (index : ℕ) : UInt32 :=
  (spans[index]?).join.elim 0 fun span => span.elementCount

/-- The second switch, with the test of INFO in the first. -/
def fieldsValid (source : Source) (spans : List (Option MemorySpan)) : AmdgpuCommand → Bool
  | .boList => source.word 8 == elementCount spans 0 && source.word 12 == 0
  | .info => (spans[0]?).join.any (infoSpanValid source) && source.word 12 == 0
  | .gemMetadata => source.word 24 ≤ 256 && source.word 28 == 0
  | .gemVa => source.word 12 == elementCount spans 0 && source.word 52 == 0
  | .gemOp => source.word 16 == elementCount spans 0 && source.word 20 == 0
  | .gemUserptr => source.word 20 == 0
  | .waitFences => source.word 0 == elementCount spans 0
  | .fenceToHandle => source.word 28 == 0
  | .sched => source.word 12 == 0
  | .userq =>
    source.word 56 == ((spans[0]?).join.elim 0 fun span => span.recordSchemaId) &&
      (source.word 60).toUInt64 == ((spans[0]?).join.elim 0 fun span => span.length)
  | .userqSignal =>
    source.word 4 == elementCount spans 0 && source.word 8 == elementCount spans 1 &&
      source.word 12 == elementCount spans 2
  | .userqWait =>
    source.word 4 == elementCount spans 0 && source.word 8 == elementCount spans 1 &&
      source.word 12 == elementCount spans 2 && source.word 16 == elementCount spans 3 &&
      source.word 20 == elementCount spans 4
  | .gemListHandles => source.word 0 == elementCount spans 0 && source.word 4 == 0
  | _ => true

def requestValid (source : Source) : Bool :=
  (commandOfId amdgpuRequests source.commandId).any (fun contract =>
    inlineRecordValid source contract.recordId contract.size) &&
    (AmdgpuCommand.ofId source.commandId).any fun command =>
      if command = .cs then csSpansValid source
      else
        attachmentsValid source command &&
          ((slots command).mapM (spanValid source)).any fun spans =>
            fieldsValid source spans command &&
              source.spans.length == spans.countP Option.isSome &&
              source.attachments.length == attachmentCount command &&
              source.arguments.length ==
                1 + spans.countP Option.isSome + attachmentCount command

end Amdgpu

end Kobox.Gpu
