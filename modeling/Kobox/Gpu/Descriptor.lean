import Kobox.Library.Format
import Kobox.Protocol.Words

/-!
# Arguments, spans and attachments (`protocol/src/gpu.c`)
-/

namespace Kobox.Gpu
open ByteMemory Protocol List

/-! ### Layout (`gpu_layout.h`) -/

def abiIdentity : List UInt8 := [0x64, 0x65, 0x76, 0x00]

def schemaDigest : List UInt8 :=
  [0xd4, 0x09, 0x3c, 0x21, 0xf4, 0x7f, 0xba, 0xa7, 0x6b, 0x0d, 0x87, 0xe0, 0x19, 0x1e, 0xd9, 0x9e,
    0x1a, 0x85, 0x3e, 0x64, 0x64, 0x6d, 0x61, 0x72, 0x23, 0xe0, 0xf4, 0x74, 0xa0, 0xc6, 0x40, 0x04]

/-- The two `memcmp`s at the start of a command or completion. -/
def identityMatches (memory : Memory) : Bool :=
  read memory 4 4 == abiIdentity && read memory 8 32 == schemaDigest

theorem identityMatches_iff {memory : Memory} :
    identityMatches memory = true ↔ Holds memory 4 abiIdentity ∧ Holds memory 8 schemaDigest := by
  rw [identityMatches, Bool.and_eq_true, beq_iff_eq, beq_iff_eq]
  rfl

theorem eq_ofNat_iff {w : UInt32} {n : ℕ} (h : n < 2 ^ 32) : w = .ofNat n ↔ w.toNat = n := by
  rw [← UInt32.toNat_inj, UInt32.toNat_ofNat_of_lt' h]

def argumentDescriptorSize : ℕ := 32
def spanDescriptorSize : ℕ := 40
def attachmentDescriptorSize : ℕ := 48

def maxInlineBytes : ℕ := 4096

def argumentInline : UInt32 := 7

def argumentSpan : UInt32 := 8

def argumentAttachment : UInt32 := 9

/-- `KB2_GPU_ARGUMENT_FLAG_INPUT`, and the same bit of a span and of an attachment. -/
def flagInput : UInt32 := 1

/-- `KB2_GPU_ARGUMENT_FLAG_OUTPUT`, and the same bit of a span and of an attachment. -/
def flagOutput : UInt32 := 2

def attachmentMemory : UInt32 := 1

def attachmentSyncobj : UInt32 := 6

def attachmentBorrow : UInt32 := 1

def attachmentShare : UInt32 := 2

def attachmentMove : UInt32 := 3

structure Argument where
  argumentId : UInt32
  kind : UInt32
  flags : UInt32
  recordSchemaId : UInt32
  value : UInt64
  count : UInt32
  deriving DecidableEq, Repr

/-- `kb2_gpu_span_t`. -/
structure MemorySpan where
  spanId : UInt32
  regionId : UInt32
  offset : UInt64
  length : UInt64
  rights : UInt32
  recordSchemaId : UInt32
  elementCount : UInt32
  flags : UInt32
  deriving DecidableEq, Repr

structure Attachment where
  attachmentId : UInt32
  objectClass : UInt32
  exchangeId : UInt64
  generation : UInt64
  rights : UInt64
  role : UInt32
  ownership : UInt32
  flags : UInt32
  deriving DecidableEq, Repr

def encodeArgument (record : ℕ) (argument : Argument) : List Store :=
  [⟨record, storeU32 argument.argumentId⟩, ⟨record + 4, storeU32 argument.kind⟩,
    ⟨record + 8, storeU32 argument.flags⟩, ⟨record + 12, storeU32 argument.recordSchemaId⟩,
    ⟨record + 16, storeU64 argument.value⟩, ⟨record + 24, storeU32 argument.count⟩]

def encodeSpan (record : ℕ) (span : MemorySpan) : List Store :=
  [⟨record, storeU32 span.spanId⟩, ⟨record + 4, storeU32 span.regionId⟩,
    ⟨record + 8, storeU64 span.offset⟩, ⟨record + 16, storeU64 span.length⟩,
    ⟨record + 24, storeU32 span.rights⟩, ⟨record + 28, storeU32 span.recordSchemaId⟩,
    ⟨record + 32, storeU32 span.elementCount⟩, ⟨record + 36, storeU32 span.flags⟩]

def encodeAttachment (record : ℕ) (attachment : Attachment) : List Store :=
  [⟨record, storeU32 attachment.attachmentId⟩, ⟨record + 4, storeU32 attachment.objectClass⟩,
    ⟨record + 8, storeU64 attachment.exchangeId⟩, ⟨record + 16, storeU64 attachment.generation⟩,
    ⟨record + 24, storeU64 attachment.rights⟩, ⟨record + 32, storeU32 attachment.role⟩,
    ⟨record + 36, storeU32 attachment.ownership⟩, ⟨record + 40, storeU32 attachment.flags⟩]

def decodeArgument (memory : Memory) (record : ℕ) : Argument where
  argumentId := loadU32 memory record
  kind := loadU32 memory (record + 4)
  flags := loadU32 memory (record + 8)
  recordSchemaId := loadU32 memory (record + 12)
  value := loadU64 memory (record + 16)
  count := loadU32 memory (record + 24)

def decodeSpan (memory : Memory) (record : ℕ) : MemorySpan where
  spanId := loadU32 memory record
  regionId := loadU32 memory (record + 4)
  offset := loadU64 memory (record + 8)
  length := loadU64 memory (record + 16)
  rights := loadU32 memory (record + 24)
  recordSchemaId := loadU32 memory (record + 28)
  elementCount := loadU32 memory (record + 32)
  flags := loadU32 memory (record + 36)

def decodeAttachment (memory : Memory) (record : ℕ) : Attachment where
  attachmentId := loadU32 memory record
  objectClass := loadU32 memory (record + 4)
  exchangeId := loadU64 memory (record + 8)
  generation := loadU64 memory (record + 16)
  rights := loadU64 memory (record + 24)
  role := loadU32 memory (record + 32)
  ownership := loadU32 memory (record + 36)
  flags := loadU32 memory (record + 40)

section Image
variable {memory : Memory} {record : ℕ}

def argumentImage (record : ℕ) (argument : Argument) : List Store :=
  encodeArgument record argument ++ [.zeros (record + 28) 4]

def attachmentImage (record : ℕ) (attachment : Attachment) : List Store :=
  encodeAttachment record attachment ++ [.zeros (record + 44) 4]

theorem fills_argument (record : ℕ) (argument : Argument) :
    Fills (encodeArgument record argument) (argumentImage record argument) record
      (record + argumentDescriptorSize) :=
  .cons 4 rfl <| .cons 4 rfl <| .cons 4 rfl <| .cons 4 rfl <| .cons 8 rfl <| .cons 4 rfl <|
    .skip <| .nil _

theorem fills_span (record : ℕ) (span : MemorySpan) :
    Fills (encodeSpan record span) (encodeSpan record span) record (record + spanDescriptorSize) :=
  .cons 4 rfl <| .cons 4 rfl <| .cons 8 rfl <| .cons 8 rfl <| .cons 4 rfl <| .cons 4 rfl <|
    .cons 4 rfl <| .cons 4 rfl <| .nil _

theorem fills_attachment (record : ℕ) (attachment : Attachment) :
    Fills (encodeAttachment record attachment) (attachmentImage record attachment) record
      (record + attachmentDescriptorSize) :=
  .cons 4 rfl <| .cons 4 rfl <| .cons 8 rfl <| .cons 8 rfl <| .cons 8 rfl <| .cons 4 rfl <|
    .cons 4 rfl <| .cons 4 rfl <| .skip <| .nil _

theorem held_argumentImage {argument : Argument} :
    Held memory (argumentImage record argument) ↔
      decodeArgument memory record = argument ∧ loadU32 memory (record + 28) = 0 := by
  obtain ⟨_, _, _, _, _, _⟩ := argument
  simp only [argumentImage, encodeArgument, cons_append, nil_append, held_cons, held_nil,
    holds_storeU32_iff, holds_storeU64_iff, holds_zeros_iff32, and_true, decodeArgument,
    Argument.mk.injEq, and_assoc]

theorem held_span {span : MemorySpan} :
    Held memory (encodeSpan record span) ↔ decodeSpan memory record = span := by
  obtain ⟨_, _, _, _, _, _, _, _⟩ := span
  simp only [encodeSpan, held_cons, held_nil, holds_storeU32_iff, holds_storeU64_iff, and_true,
    decodeSpan, MemorySpan.mk.injEq]

theorem held_attachmentImage {attachment : Attachment} :
    Held memory (attachmentImage record attachment) ↔
      decodeAttachment memory record = attachment ∧ loadU32 memory (record + 44) = 0 := by
  obtain ⟨_, _, _, _, _, _, _, _⟩ := attachment
  simp only [attachmentImage, encodeAttachment, cons_append, nil_append, held_cons,
    held_nil, holds_storeU32_iff, holds_storeU64_iff, holds_zeros_iff32, and_true,
    decodeAttachment, Attachment.mk.injEq, and_assoc]

end Image

end Kobox.Gpu
