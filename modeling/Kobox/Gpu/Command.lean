import Kobox.Gpu.Requests

/-!
# Commands (`protocol/src/gpu.c`)

The encoder sets the encoded size to 0 before anything else, so that its result has all three
outputs; the decoder writes its output only when it accepts.
-/

namespace Kobox.Gpu
open ByteMemory Protocol

/-! ### Profiles -/

def profileVirgl : UInt32 := 1

def profileI915 : UInt32 := 2

def profileAmdgpu : UInt32 := 3

def queueDisplay : UInt32 := 2

def queueExecution : UInt32 := 3

def profileKindValid (profileKind : UInt32) : Bool :=
  profileKind == profileVirgl || profileKind == profileI915 || profileKind == profileAmdgpu

/-- `kb2_gpu_command_set_t` without its digest, which no check reads. -/
structure CommandSet where
  setId : UInt32
  queueClass : UInt32
  commandCount : UInt32

/-- The results of `kb2_gpu_profile_command_set` for the indices of a profile. -/
def profileCommandSets (profileKind : UInt32) : List CommandSet :=
  if profileKindValid profileKind = false then []
  else
    [⟨coreSetId, queueExecution, 28⟩, ⟨modeSetId, queueDisplay, 44⟩,
      if profileKind = profileVirgl then ⟨virtgpuSetId, queueExecution, 11⟩
      else if profileKind = profileI915 then ⟨i915SetId, queueExecution, 16⟩
      else ⟨amdgpuSetId, queueExecution, 20⟩]

def commandAllowed (profileKind queueClass commandSetId commandId : UInt32) : Bool :=
  ((profileCommandSets profileKind).find? fun set => set.setId == commandSetId).any fun set =>
    set.queueClass == queueClass && commandId != 0 && commandId ≤ set.commandCount

def waitCommand (commandSetId commandId : UInt32) : Bool :=
  if commandSetId = coreSetId then
    (CoreCommand.ofId commandId).any fun command =>
      command = .syncobjWait ∨ command = .syncobjTimelineWait
  else if commandSetId = modeSetId then
    (ModeCommand.ofId commandId).any fun command => command = .waitVblank
  else if commandSetId = virtgpuSetId then
    (VirtgpuCommand.ofId commandId).any fun command => command = .wait
  else if commandSetId = amdgpuSetId then
    (AmdgpuCommand.ofId commandId).any fun command =>
      command = .gemWaitIdle ∨ command = .waitCs ∨ command = .waitFences ∨ command = .userqWait
  else false

def deadlineValid (source : Source) : Bool :=
  waitCommand source.commandSetId source.commandId == (source.deadlineNs != 0) ||
    -- GEM_WAIT_IDLE polls with 0.
    (source.commandSetId == amdgpuSetId && AmdgpuCommand.ofId source.commandId == some .gemWaitIdle &&
      source.deadlineNs == 0)

/-- `validate_source`, which returns OK or MALFORMED. -/
def validateSource (source : Source) : Bool :=
  source.generation != 0 && source.sessionId != 0 && profileKindValid source.profileKind &&
    source.flags == 0 && source.arguments.length ≤ maxArguments &&
    source.spans.length ≤ maxSpans && source.attachments.length ≤ maxAttachments &&
    source.inlineData.length ≤ maxInlineBytes &&
    commandAllowed source.profileKind source.queueClass source.commandSetId source.commandId &&
    deadlineValid source && regionsValid source.regions &&
    spansValid source.spans source.regions &&
    attachmentsValid source.attachments source.generation && argumentsValid source &&
    (if source.commandSetId = amdgpuSetId then Amdgpu.requestValid source
      else genericRequestValid source) &&
    (source.commandSetId != virtgpuSetId || virtgpuRequestSemanticsValid source) &&
    (source.commandSetId != coreSetId || coreRequestSemanticsValid source) &&
    (source.commandSetId != modeSetId || modeRequestSemanticsValid source)

/-- The limits of a command. -/
structure Content.Fits (content : Content) : Prop where
  arguments : content.arguments.length ≤ maxArguments
  spans : content.spans.length ≤ maxSpans
  attachments : content.attachments.length ≤ maxAttachments
  inlineData : content.inlineData.length ≤ maxInlineBytes

/-- The checks that a valid source has passed. -/
structure Source.Accepted (source : Source) : Prop where
  generation : source.generation ≠ 0
  sessionId : source.sessionId ≠ 0
  profileKind : profileKindValid source.profileKind = true
  flags : source.flags = 0
  fits : source.Fits
  allowed : commandAllowed source.profileKind source.queueClass source.commandSetId
    source.commandId = true
  deadline : deadlineValid source = true
  regions : regionsValid source.regions = true
  spans : spansValid source.spans source.regions = true
  attachments : attachmentsValid source.attachments source.generation = true
  arguments : argumentsValid source = true
  request : (if source.commandSetId = amdgpuSetId then Amdgpu.requestValid source
    else genericRequestValid source) = true
  virtgpu : source.commandSetId = virtgpuSetId → virtgpuRequestSemanticsValid source = true
  core : source.commandSetId = coreSetId → coreRequestSemanticsValid source = true
  mode : source.commandSetId = modeSetId → modeRequestSemanticsValid source = true

theorem validateSource_iff {source : Source} : validateSource source = true ↔ source.Accepted := by
  have himp {a b : UInt32} {valid : Bool} :
      (a != b || valid) = true ↔ (a = b → valid = true) := by
    rw [Bool.or_eq_true, bne_iff_ne, imp_iff_not_or]
  simp only [validateSource, Bool.and_eq_true, bne_iff_ne, beq_iff_eq, decide_eq_true_eq, himp]
  constructor
  · rintro ⟨⟨⟨⟨⟨⟨⟨⟨⟨⟨⟨⟨⟨⟨⟨⟨⟨hgeneration, hsession⟩, hprofile⟩, hflags⟩, harguments⟩, hspans⟩,
      hattachments⟩, hinline⟩, hallowed⟩, hdeadline⟩, hregions⟩, hspansValid⟩, hattachmentsValid⟩,
      hargumentsValid⟩, hrequest⟩, hvirtgpu⟩, hcore⟩, hmode⟩
    exact ⟨hgeneration, hsession, hprofile, hflags, ⟨harguments, hspans, hattachments, hinline⟩,
      hallowed, hdeadline, hregions, hspansValid, hattachmentsValid, hargumentsValid, hrequest,
      hvirtgpu, hcore, hmode⟩
  · rintro ⟨hgeneration, hsession, hprofile, hflags, ⟨harguments, hspans, hattachments, hinline⟩,
      hallowed, hdeadline, hregions, hspansValid, hattachmentsValid, hargumentsValid, hrequest,
      hvirtgpu, hcore, hmode⟩
    exact ⟨⟨⟨⟨⟨⟨⟨⟨⟨⟨⟨⟨⟨⟨⟨⟨⟨hgeneration, hsession⟩, hprofile⟩, hflags⟩, harguments⟩, hspans⟩,
      hattachments⟩, hinline⟩, hallowed⟩, hdeadline⟩, hregions⟩, hspansValid⟩, hattachmentsValid⟩,
      hargumentsValid⟩, hrequest⟩, hvirtgpu⟩, hcore⟩, hmode⟩

/-! ### Encoding -/

def commandHeaderSize : ℕ := 128

namespace Content

def spanOffset (content : Content) : ℕ :=
  commandHeaderSize + content.arguments.length * argumentDescriptorSize

def attachmentOffset (content : Content) : ℕ :=
  content.spanOffset + content.spans.length * spanDescriptorSize

def inlineOffset (content : Content) : ℕ :=
  content.attachmentOffset + content.attachments.length * attachmentDescriptorSize

def size (content : Content) : ℕ := content.inlineOffset + content.inlineData.length

end Content

def commandEncodedSize (source : Source) : Except Status ℕ :=
  if validateSource source = false then .error .malformed
  else
    match (addSize commandHeaderSize source.arguments.length argumentDescriptorSize).bind fun size =>
        (addSize size source.spans.length spanDescriptorSize).bind fun size =>
          addSize size source.attachments.length attachmentDescriptorSize with
    | none => .error .overflow
    | some size =>
      if source.inlineData.length > sizeMax - size then .error .overflow
      else if size + source.inlineData.length > uint32Max then .error .overflow
      else .ok (size + source.inlineData.length)

def encodeHeader (content : Content) : List Store :=
  [⟨0, storeU32 (.ofNat content.size)⟩, ⟨4, abiIdentity⟩, ⟨8, schemaDigest⟩,
    ⟨40, storeU64 content.generation⟩, ⟨48, storeU64 content.sessionId⟩,
    ⟨56, storeU32 content.commandSetId⟩, ⟨60, storeU32 content.commandId⟩,
    ⟨64, storeU32 content.flags⟩, ⟨68, storeU32 (.ofNat content.arguments.length)⟩,
    ⟨72, storeU32 (.ofNat content.spans.length)⟩,
    ⟨76, storeU32 (.ofNat content.attachments.length)⟩,
    ⟨80, storeU32 (.ofNat content.inlineData.length)⟩,
    ⟨84, storeU32 (.ofNat commandHeaderSize)⟩, ⟨88, storeU32 (.ofNat content.spanOffset)⟩,
    ⟨92, storeU32 (.ofNat content.attachmentOffset)⟩,
    ⟨96, storeU32 (.ofNat content.inlineOffset)⟩, ⟨104, storeU64 content.deadlineNs⟩]

def encodeContent (content : Content) : List Store :=
  encodeHeader content ++
    tableImage argumentDescriptorSize encodeArgument content.arguments commandHeaderSize ++
    tableImage spanDescriptorSize encodeSpan content.spans content.spanOffset ++
    tableImage attachmentDescriptorSize encodeAttachment content.attachments
      content.attachmentOffset ++
    if content.inlineData.length ≠ 0 then [⟨content.inlineOffset, content.inlineData⟩] else []

/-- `kb2_gpu_command_encode`: the status, the buffer and the encoded size. -/
def commandEncode (buffer : List UInt8) (source : Source) : Status × List UInt8 × ℕ :=
  match commandEncodedSize source with
  | .error status => (status, buffer, 0)
  | .ok size =>
    if buffer.length < size then (.bufferTooSmall, buffer, 0)
    else
      (.ok, read (storeAll (cleared buffer size) (encodeContent source.toContent)) 0 buffer.length,
        size)

structure Command where
  bytes : List UInt8
  generation : UInt64
  sessionId : UInt64
  commandSetId : UInt32
  commandId : UInt32
  flags : UInt32
  deadlineNs : UInt64
  argumentCount : UInt32
  spanCount : UInt32
  attachmentCount : UInt32
  argumentOffset : UInt32
  spanOffset : UInt32
  attachmentOffset : UInt32
  inlineOffset : UInt32
  inlineLength : UInt32
  deriving DecidableEq, Repr

def commandArgument (command : Command) (index : ℕ) : Except Status Argument :=
  if command.argumentCount.toNat ≤ index then .error .invalidArgument
  else .ok (decodeArgument (ofList command.bytes)
    (command.argumentOffset.toNat + index * argumentDescriptorSize))

def commandSpan (command : Command) (index : ℕ) : Except Status MemorySpan :=
  if command.spanCount.toNat ≤ index then .error .invalidArgument
  else .ok (decodeSpan (ofList command.bytes)
    (command.spanOffset.toNat + index * spanDescriptorSize))

def commandAttachment (command : Command) (index : ℕ) : Except Status Attachment :=
  if command.attachmentCount.toNat ≤ index then .error .invalidArgument
  else .ok (decodeAttachment (ofList command.bytes)
    (command.attachmentOffset.toNat + index * attachmentDescriptorSize))

def commandInlineData (command : Command) : List UInt8 :=
  read (ofList command.bytes) command.inlineOffset.toNat command.inlineLength.toNat

def commandOffsetsValid (memory : Memory) (size : ℕ) : Bool :=
  let argumentCount := (loadU32 memory 68).toNat
  let spanCount := (loadU32 memory 72).toNat
  let attachmentCount := (loadU32 memory 76).toNat
  let inlineLength := (loadU32 memory 80).toNat
  argumentCount ≤ maxArguments && spanCount ≤ maxSpans && attachmentCount ≤ maxAttachments &&
    inlineLength ≤ maxInlineBytes && (loadU32 memory 84).toNat == commandHeaderSize &&
    (addSize commandHeaderSize argumentCount argumentDescriptorSize).any fun expected =>
      (loadU32 memory 88).toNat == expected &&
        (addSize expected spanCount spanDescriptorSize).any fun expected =>
          (loadU32 memory 92).toNat == expected &&
            (addSize expected attachmentCount attachmentDescriptorSize).any fun expected =>
              (loadU32 memory 96).toNat == expected && inlineLength ≤ sizeMax - expected &&
                expected + inlineLength == size && (loadU32 memory 0).toNat == size

def decodeCommand (bytes : List UInt8) : Command where
  bytes := bytes
  generation := loadU64 (ofList bytes) 40
  sessionId := loadU64 (ofList bytes) 48
  commandSetId := loadU32 (ofList bytes) 56
  commandId := loadU32 (ofList bytes) 60
  flags := loadU32 (ofList bytes) 64
  deadlineNs := loadU64 (ofList bytes) 104
  argumentCount := loadU32 (ofList bytes) 68
  spanCount := loadU32 (ofList bytes) 72
  attachmentCount := loadU32 (ofList bytes) 76
  argumentOffset := loadU32 (ofList bytes) 84
  spanOffset := loadU32 (ofList bytes) 88
  attachmentOffset := loadU32 (ofList bytes) 92
  inlineOffset := loadU32 (ofList bytes) 96
  inlineLength := loadU32 (ofList bytes) 80

def decodeArguments (memory : Memory) (offset count : ℕ) : Option (List Argument) :=
  (List.range count).mapM fun index =>
    let record := offset + index * argumentDescriptorSize
    if bytesAreZero memory (record + 28) 4 then some (decodeArgument memory record) else none

def decodeSpans (memory : Memory) (offset count : ℕ) : List MemorySpan :=
  (List.range count).map fun index => decodeSpan memory (offset + index * spanDescriptorSize)

def decodeAttachments (memory : Memory) (offset count : ℕ) : Option (List Attachment) :=
  (List.range count).mapM fun index =>
    let record := offset + index * attachmentDescriptorSize
    if bytesAreZero memory (record + 44) 4 then some (decodeAttachment memory record) else none

def Command.source (command : Command) (arguments : List Argument) (spans : List MemorySpan)
    (attachments : List Attachment) (profileKind queueClass : UInt32)
    (regions : List MemoryRegion) : Source where
  generation := command.generation
  sessionId := command.sessionId
  commandSetId := command.commandSetId
  commandId := command.commandId
  flags := command.flags
  deadlineNs := command.deadlineNs
  arguments := arguments
  spans := spans
  attachments := attachments
  inlineData := commandInlineData command
  profileKind := profileKind
  queueClass := queueClass
  regions := regions

def commandDecode (bytes : List UInt8) (expectedGeneration : UInt64)
    (profileKind queueClass : UInt32) (regions : List MemoryRegion) : Except Status Command :=
  let memory := ofList bytes
  if expectedGeneration = 0 ∨ profileKindValid profileKind = false then .error .invalidArgument
  else if bytes.length < commandHeaderSize then .error .bufferTooSmall
  else if identityMatches memory = false then .error .schemaMismatch
  else if bytesAreZero memory 100 4 = false ∨ bytesAreZero memory 112 16 = false ∨
      commandOffsetsValid memory bytes.length = false then .error .malformed
  else
    let command := decodeCommand bytes
    match decodeArguments memory command.argumentOffset.toNat command.argumentCount.toNat with
    | none => .error .malformed
    | some arguments =>
      let spans := decodeSpans memory command.spanOffset.toNat command.spanCount.toNat
      match decodeAttachments memory command.attachmentOffset.toNat
          command.attachmentCount.toNat with
      | none => .error .malformed
      | some attachments =>
        let source := command.source arguments spans attachments profileKind queueClass regions
        if command.generation ≠ expectedGeneration ∨ validateSource source = false then
          .error .malformed
        else .ok command

end Kobox.Gpu
