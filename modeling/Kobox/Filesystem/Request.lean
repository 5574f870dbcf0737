import Kobox.Library.Format
import Kobox.Protocol.Words

/-!
# Filesystem requests (`protocol/src/filesystem.c`)

A request is a header of 192 bytes with spans into the payload that follows it. The functions
return 0 or -1 in the source; here they return an option. `get32`, `get64`, `put32` and `put64`
are the words of `Kobox.Protocol.Words`.
-/

namespace Kobox.Filesystem
open ByteMemory Protocol

/-- `kb2_fs_span_t`. -/
structure PayloadSpan where
  offset : UInt64
  length : UInt64
  deriving DecidableEq, Repr

structure Request where
  opcode : UInt32
  generation : UInt64
  sequence : UInt64
  client : UInt64
  credentialGeneration : UInt64
  handle : UInt64
  secondHandle : UInt64
  offset : Int64
  length : UInt64
  flags : UInt64
  mode : UInt64
  resolve : UInt64
  mask : UInt32
  uid : UInt32
  gid : UInt32
  umask : UInt32
  path : PayloadSpan
  secondPath : PayloadSpan
  groups : PayloadSpan
  data : PayloadSpan
  capabilities : UInt64
  deriving DecidableEq

/-! ### Constants (`filesystem_layout.h`) -/

def abiIdentity : List UInt8 := [0x64, 0x65, 0x76, 0x00]

def requestSize : ℕ := 192

def opHello : UInt32 := 1

def opMemfdCreate : UInt32 := 44

def int64Max : UInt64 := 0x7FFFFFFFFFFFFFFF

/-! ### Validation -/

def signed64 (value : UInt64) : Int64 :=
  if value ≤ int64Max then value.toInt64 else -1 - (uint64Max - value).toInt64

def opcodeValid (opcode : UInt32) : Bool := opHello ≤ opcode && opcode ≤ opMemfdCreate

def spanValid (span : PayloadSpan) (size : UInt64) : Bool :=
  if span.length = 0 then span.offset == 0
  else
    192 ≤ span.offset && span.offset ≤ size && span.length ≤ size - span.offset

def spansMeet (span other : PayloadSpan) : Bool :=
  span.length != 0 && other.length != 0 && span.offset < other.offset + other.length &&
    other.offset < span.offset + span.length

def Request.spans (request : Request) : List PayloadSpan :=
  [request.path, request.secondPath, request.groups, request.data]

def requestValid (request : Request) (size : UInt64) : Bool :=
  opcodeValid request.opcode && request.generation != 0 && request.sequence != 0 &&
    request.umask &&& ~~~0o777 == 0 && 192 ≤ size &&
    (request.spans.zipIdx.all fun (span, i) =>
      spanValid span size && (request.spans.take i).all fun other => !spansMeet span other) &&
    request.groups.offset &&& 3 == 0 && request.groups.length &&& 3 == 0

/-- The stores after the `memset`: the identity, the fields of `REQUEST_U64_FIELDS`, those of
`REQUEST_U32_FIELDS`, and the signed offset. -/
def encodeFields (request : Request) : List Store :=
  [⟨0, abiIdentity⟩, ⟨8, storeU64 request.generation⟩, ⟨16, storeU64 request.sequence⟩,
    ⟨24, storeU64 request.client⟩, ⟨32, storeU64 request.credentialGeneration⟩,
    ⟨40, storeU64 request.handle⟩, ⟨48, storeU64 request.secondHandle⟩,
    ⟨64, storeU64 request.length⟩, ⟨72, storeU64 request.flags⟩, ⟨80, storeU64 request.mode⟩,
    ⟨88, storeU64 request.resolve⟩, ⟨176, storeU64 request.capabilities⟩,
    ⟨112, storeU64 request.path.offset⟩, ⟨120, storeU64 request.path.length⟩,
    ⟨128, storeU64 request.secondPath.offset⟩, ⟨136, storeU64 request.secondPath.length⟩,
    ⟨144, storeU64 request.groups.offset⟩, ⟨152, storeU64 request.groups.length⟩,
    ⟨160, storeU64 request.data.offset⟩, ⟨168, storeU64 request.data.length⟩,
    ⟨4, storeU32 request.opcode⟩, ⟨96, storeU32 request.mask⟩, ⟨100, storeU32 request.uid⟩,
    ⟨104, storeU32 request.gid⟩, ⟨108, storeU32 request.umask⟩,
    ⟨56, storeU64 request.offset.toUInt64⟩]

/-- `kb2_fs_request_encode`: the buffer after the call. -/
def requestEncode (bytes : List UInt8) (payloadSize : UInt64) (request : Request) :
    Option (List UInt8) :=
  if bytes.length < requestSize ∨ requestValid request payloadSize = false then none
  else some (read (storeAll (cleared bytes requestSize) (encodeFields request)) 0 bytes.length)

def decodeSpan (memory : Memory) (offsetField lengthField : ℕ) : PayloadSpan :=
  ⟨loadU64 memory offsetField, loadU64 memory lengthField⟩

def decodeFields (memory : Memory) : Request where
  opcode := loadU32 memory 4
  generation := loadU64 memory 8
  sequence := loadU64 memory 16
  client := loadU64 memory 24
  credentialGeneration := loadU64 memory 32
  handle := loadU64 memory 40
  secondHandle := loadU64 memory 48
  offset := signed64 (loadU64 memory 56)
  length := loadU64 memory 64
  flags := loadU64 memory 72
  mode := loadU64 memory 80
  resolve := loadU64 memory 88
  mask := loadU32 memory 96
  uid := loadU32 memory 100
  gid := loadU32 memory 104
  umask := loadU32 memory 108
  path := decodeSpan memory 112 120
  secondPath := decodeSpan memory 128 136
  groups := decodeSpan memory 144 152
  data := decodeSpan memory 160 168
  capabilities := loadU64 memory 176

def requestDecode (bytes : List UInt8) (payloadSize : UInt64) : Option Request :=
  let memory := ofList bytes
  if bytes.length < requestSize ∨ read memory 0 4 ≠ abiIdentity ∨ loadU64 memory 184 ≠ 0 then none
  else
    let value := decodeFields memory
    if requestValid value payloadSize then some value else none

def pathValid (memory : Memory) (span : PayloadSpan) : Bool :=
  if span.length = 0 then true
  else
    let path := span.offset.toNat
    let length := span.length.toNat
    memory (path + (length - 1)) == 0 && !(read memory path (length - 1)).contains 0

/-- `kb2_fs_request_validate_paths`, on a payload whose size is a `size_t`. -/
def requestValidatePaths (bytes : List UInt8) (request : Request) : Bool :=
  requestValid request (.ofNat bytes.length) &&
    [request.path, request.secondPath].all (pathValid (ofList bytes))

end Kobox.Filesystem
