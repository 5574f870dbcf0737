import Kobox.Gpu.Catalog
import Kobox.Gpu.Descriptor

/-!
# Command sources (`protocol/src/gpu.c`)

A source is a command with the context it is checked in: the profile, the queue class and the
registered regions. These are the checks that all command sets share, and the check of a request
against a catalog of contracts.
-/

namespace Kobox.Gpu
open ByteMemory Protocol

/-- `kb2_gpu_region_t`. Its offsets are relative to the region. -/
structure MemoryRegion where
  regionId : UInt32
  rights : UInt32
  length : UInt64
  deriving DecidableEq, Repr

/-- What a command says. -/
structure Content where
  generation : UInt64
  sessionId : UInt64
  commandSetId : UInt32
  commandId : UInt32
  flags : UInt32
  deadlineNs : UInt64
  arguments : List Argument
  spans : List MemorySpan
  attachments : List Attachment
  inlineData : List UInt8
  deriving DecidableEq, Repr

structure Source extends Content where
  profileKind : UInt32
  queueClass : UInt32
  regions : List MemoryRegion
  deriving DecidableEq, Repr

/-! ### Constants (`gpu_layout.h`) -/

def maxArguments : ℕ := 256
def maxSpans : ℕ := 128
def maxAttachments : ℕ := 64

def spanRightRead : UInt32 := 1

def spanRightWrite : UInt32 := 2

def argumentU64 : UInt32 := 1
def argumentI64 : UInt32 := 2
def argumentBool : UInt32 := 3
def argumentEnum : UInt32 := 4
def argumentBitset : UInt32 := 5
def argumentObject : UInt32 := 6

/-! ### Regions and spans -/

def regionValid (earlier : List MemoryRegion) (region : MemoryRegion) : Bool :=
  region.regionId != 0 && region.length != 0 && region.rights != 0 &&
    region.rights &&& ~~~(spanRightRead ||| spanRightWrite) == 0 &&
    earlier.all fun previous => region.regionId != previous.regionId

def regionsValid (regions : List MemoryRegion) : Bool :=
  regions.length ≤ maxRegions &&
    regions.zipIdx.all fun (region, index) => regionValid (regions.take index) region

def findRegion (regions : List MemoryRegion) (regionId : UInt32) : Option MemoryRegion :=
  regions.find? fun region => region.regionId == regionId

def spansOverlap (left right : MemorySpan) : Bool :=
  left.regionId == right.regionId && left.offset < right.offset + right.length &&
    right.offset < left.offset + left.length

def requiredRights (flags : UInt32) : UInt32 :=
  (if flags &&& flagInput ≠ 0 then spanRightRead else 0) |||
    if flags &&& flagOutput ≠ 0 then spanRightWrite else 0

def spanFits (region : MemoryRegion) (span : MemorySpan) : Bool :=
  span.spanId != 0 && span.length != 0 && span.offset ≤ uint64Max - span.length &&
    span.rights != 0 && span.rights &&& ~~~(spanRightRead ||| spanRightWrite) == 0 &&
    span.elementCount != 0 && span.flags != 0 &&
    span.flags &&& ~~~(flagInput ||| flagOutput) == 0 && span.offset ≤ region.length &&
    span.length ≤ region.length - span.offset &&
    span.rights &&& requiredRights span.flags == requiredRights span.flags &&
    region.rights &&& span.rights == span.rights

def spanValid (regions : List MemoryRegion) (earlier : List MemorySpan) (span : MemorySpan) :
    Bool :=
  (earlier.getLast?.all fun previous => previous.spanId < span.spanId) &&
    (findRegion regions span.regionId).any (spanFits · span) &&
    earlier.all fun previous => !(spansOverlap span previous &&
      (span.rights ||| previous.rights) &&& spanRightWrite != 0)

def spansValid (spans : List MemorySpan) (regions : List MemoryRegion) : Bool :=
  spans.zipIdx.all fun (span, index) => spanValid regions (spans.take index) span

def findSpan (spans : List MemorySpan) (spanId : UInt32) : Option MemorySpan :=
  spans.find? fun span => span.spanId == spanId

def attachmentValid (generation : UInt64) (earlier : List Attachment) (attachment : Attachment) :
    Bool :=
  attachment.attachmentId != 0 &&
    (earlier.getLast?.all fun previous => previous.attachmentId < attachment.attachmentId) &&
    attachmentMemory ≤ attachment.objectClass && attachment.objectClass ≤ attachmentSyncobj &&
    attachment.exchangeId != 0 && attachment.generation == generation &&
    attachment.rights != 0 && attachmentBorrow ≤ attachment.ownership &&
    attachment.ownership ≤ attachmentMove && attachment.flags == flagInput &&
    earlier.all fun previous => attachment.exchangeId != previous.exchangeId

def attachmentsValid (attachments : List Attachment) (generation : UInt64) : Bool :=
  attachments.zipIdx.all fun (attachment, index) =>
    attachmentValid generation (attachments.take index) attachment

def findAttachment (attachments : List Attachment) (attachmentId : UInt32) : Option Attachment :=
  attachments.find? fun attachment => attachment.attachmentId == attachmentId

def argumentReferencesValid (source : Source) (argument : Argument) : Bool :=
  if argument.kind = argumentU64 ∨ argument.kind = argumentI64 ∨ argument.kind = argumentEnum ∨
      argument.kind = argumentBitset then
    argument.recordSchemaId == 0 && argument.count == 1
  else if argument.kind = argumentBool then
    argument.recordSchemaId == 0 && argument.count == 1 && argument.value ≤ 1
  else if argument.kind = argumentObject then
    argument.recordSchemaId != 0 && argument.count == 1
  else if argument.kind = argumentInline then
    argument.count != 0 && argument.value.toNat ≤ source.inlineData.length &&
      argument.count.toNat ≤ source.inlineData.length - argument.value.toNat
  else if argument.kind = argumentSpan then
    argument.value.toNat ≤ uint32Max &&
      (findSpan source.spans argument.value.toUInt32).any fun span =>
        argument.count == span.elementCount && argument.recordSchemaId == span.recordSchemaId
  else if argument.kind = argumentAttachment then
    argument.recordSchemaId == 0 && argument.count == 1 && argument.value.toNat ≤ uint32Max &&
      (findAttachment source.attachments argument.value.toUInt32).isSome
  else false

def argumentValid (source : Source) (earlier : List Argument) (argument : Argument) : Bool :=
  argument.argumentId != 0 &&
    (earlier.getLast?.all fun previous => previous.argumentId < argument.argumentId) &&
    argument.flags != 0 && argument.flags &&& ~~~(flagInput ||| flagOutput) == 0 &&
    argumentReferencesValid source argument

def referenced (arguments : List Argument) (kind : UInt32) (id : UInt32) : Bool :=
  arguments.any fun argument => argument.kind == kind && argument.value == id.toUInt64

def argumentsValid (source : Source) : Bool :=
  (source.arguments.zipIdx.all fun (argument, index) =>
    argumentValid source (source.arguments.take index) argument) &&
    (source.spans.all fun span => referenced source.arguments argumentSpan span.spanId) &&
    source.attachments.all fun attachment =>
      referenced source.arguments argumentAttachment attachment.attachmentId

def findArgument (source : Source) (argumentId : UInt32) : Option Argument :=
  source.arguments.find? fun argument => argument.argumentId == argumentId

/-! ### Contracts -/

def requestCatalog (commandSetId : UInt32) : Option Catalog :=
  if commandSetId = i915SetId then some i915Catalog
  else if commandSetId = coreSetId then some coreCatalog
  else if commandSetId = modeSetId then some modeCatalog
  else if commandSetId = virtgpuSetId then some virtgpuCatalog
  else none

def directionFlags : UInt32 → UInt32
  | 1 => flagInput
  | 2 => flagOutput
  | 3 => flagInput ||| flagOutput
  | _ => 0

def directionRights : UInt32 → UInt32
  | 1 => spanRightRead
  | 2 => spanRightWrite
  | 3 => spanRightRead ||| spanRightWrite
  | _ => 0

def findSpanContract (contracts : List SpanContract) (commandId argumentId recordId : UInt32) :
    Option SpanContract :=
  contracts.find? fun contract => contract.commandId == commandId &&
    contract.argumentId == argumentId && contract.recordId == recordId

def findAttachmentContract (contracts : List AttachmentContract)
    (commandId argumentId objectClass : UInt32) : Option AttachmentContract :=
  contracts.find? fun contract => contract.commandId == commandId &&
    contract.argumentId == argumentId && contract.objectClass == objectClass

/-- The argument of an inline record, which covers all inline bytes. -/
def inlineRecordValid (source : Source) (recordId size : UInt32) : Bool :=
  (findArgument source 1).any fun argument =>
    argument.kind == argumentInline && argument.flags == flagInput &&
      argument.recordSchemaId == recordId && argument.value == 0 && argument.count == size &&
      source.inlineData.length == size.toNat

def inlineArgumentValid (source : Source) (request : RequestContract) : Bool :=
  if request.inlineRecordId = 0 then
    (findArgument source 1).isNone && source.inlineData.length == 0
  else inlineRecordValid source request.inlineRecordId request.inlineSize

def spanArgumentValid (contracts : List SpanContract) (source : Source) (argument : Argument) :
    Bool :=
  (findSpanContract contracts source.commandId argument.argumentId argument.recordSchemaId).any
    fun contract =>
      argument.value.toNat ≤ uint32Max && contract.minimum ≤ argument.count &&
        argument.count ≤ contract.maximum && directionFlags contract.direction != 0 &&
        (findSpan source.spans argument.value.toUInt32).any fun span =>
          argument.flags == directionFlags contract.direction &&
            span.flags == directionFlags contract.direction &&
            span.rights == directionRights contract.direction &&
            argument.count.toUInt64 ≤ uint64Max / contract.recordSize.toUInt64 &&
            span.length == argument.count.toUInt64 * contract.recordSize.toUInt64

def attachmentArgumentValid (contracts : List AttachmentContract) (source : Source)
    (argument : Argument) : Bool :=
  argument.value.toNat ≤ uint32Max &&
    (findAttachment source.attachments argument.value.toUInt32).any fun attachment =>
      (findAttachmentContract contracts source.commandId argument.argumentId
        attachment.objectClass).any fun contract =>
          argument.flags == flagInput && attachment.role == contract.role &&
            attachment.ownership == contract.ownership

/-- One turn of the loop over the arguments, with `span_arguments` and `attachment_arguments`. -/
def requestArgument (catalog : Catalog) (request : RequestContract) (source : Source)
    (counts : ℕ × ℕ) (argument : Argument) : Option (ℕ × ℕ) :=
  if argument.argumentId = 1 ∧ request.inlineRecordId ≠ 0 then some counts
  else if argument.kind = argumentSpan then
    if spanArgumentValid catalog.spans source argument then some (counts.1 + 1, counts.2) else none
  else if argument.kind = argumentAttachment then
    if attachmentArgumentValid catalog.attachments source argument then
      some (counts.1, counts.2 + 1)
    else none
  else none

def requiredSpansPresent (contracts : List SpanContract) (source : Source) : Bool :=
  contracts.zipIdx.all fun (contract, index) =>
    contract.commandId != source.commandId || contract.minimum == 0 ||
      ((contracts.take index).any fun earlier => earlier.commandId == source.commandId &&
        earlier.argumentId == contract.argumentId) ||
      (findArgument source contract.argumentId).isSome

def requiredAttachmentsPresent (contracts : List AttachmentContract) (source : Source) : Bool :=
  contracts.zipIdx.all fun (contract, index) =>
    contract.commandId != source.commandId || contract.optional != 0 ||
      ((contracts.take index).any fun earlier => earlier.commandId == source.commandId &&
        earlier.argumentId == contract.argumentId) ||
      (findArgument source contract.argumentId).isSome

/-- The body of `generic_request_valid`, with the catalog that it looks up. -/
def catalogRequestValid (catalog : Catalog) (source : Source) : Bool :=
  (commandOfId catalog.requests source.commandId).any fun request =>
    request.commandId == source.commandId && source.spans.length ≤ request.spanCapacity &&
      source.attachments.length ≤ request.attachmentCapacity &&
      inlineArgumentValid source request &&
      (source.arguments.foldlM (requestArgument catalog request source) (0, 0)).any
        (fun counts => counts.1 == source.spans.length && counts.2 == source.attachments.length &&
          source.arguments.length ==
            (if request.inlineRecordId = 0 then 0 else 1) + counts.1 + counts.2) &&
      requiredSpansPresent catalog.spans source &&
      requiredAttachmentsPresent catalog.attachments source

def genericRequestValid (source : Source) : Bool :=
  (requestCatalog source.commandSetId).any fun catalog => catalogRequestValid catalog source

end Kobox.Gpu
