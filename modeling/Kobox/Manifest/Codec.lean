import Kobox.Library.BinarySearch
import Kobox.Manifest.Types

/-!
# Closure manifest: the encoder and the decoder (`protocol/src/closure_manifest.c`)

The encoder is the list of its stores into a cleared buffer, in program order. Its offsets and
its string cursor are numbers that it has checked to fit a `uint32_t` before the first store.
-/

namespace Kobox.Manifest
open ByteMemory Protocol

def stringValid (string : List UInt8) : Bool :=
  !(string.length == 0 || decide (string.length > 127)) &&
    string.all fun byte => !(byte < 0x21 || byte > 0x7e || byte == 0x2f || byte == 0x5c)

def sourceValid (source : Source) : Bool :=
  source.artifacts.length != 0 && Section.all.all (fun t => decide (source.count t ≤ t.limit)) &&
    source.resources.all fun resource => !digestIsZero resource.interfaceSchemaDigest

def artifactStringsValid (artifact : Artifact (List UInt8)) : Bool :=
  stringValid artifact.namespaceName &&
    if artifact.flags &&& flagNativeLinux ≠ 0 then
      artifact.initSymbol.length == 0 && artifact.quiesceSymbol.length == 0 &&
        artifact.cleanupSymbol.length == 0
    else
      stringValid artifact.initSymbol && stringValid artifact.quiesceSymbol &&
        stringValid artifact.cleanupSymbol

def addStrings (size : ℕ) (strings : List (List UInt8)) : Option ℕ :=
  strings.foldlM (fun size string => addSize size 1 string.length) size

def artifactStringSize (size : ℕ) (artifact : Artifact (List UInt8)) : Option ℕ :=
  if artifactStringsValid artifact then
    addStrings size [artifact.namespaceName, artifact.initSymbol, artifact.quiesceSymbol,
      artifact.cleanupSymbol]
  else none

def exportStringSize (size : ℕ) (symbol : Symbol (List UInt8)) : Option ℕ :=
  if stringValid symbol.name then addStrings size [symbol.name] else none

def importStringSize (size : ℕ) (record : Import (List UInt8)) : Option ℕ :=
  if stringValid record.consumerName && stringValid record.providerName then
    addStrings size [record.consumerName, record.providerName]
  else none

def sourceStringSize (source : Source) : Option ℕ := do
  let size ← source.artifacts.foldlM artifactStringSize 0
  let size ← source.exports.foldlM exportStringSize size
  let size ← source.imports.foldlM importStringSize size
  if size ≤ uint32Max then some size else none

/-- The sum of `kb2_closure_manifest_encoded_size`. -/
def sourceSize (source : Source) : Option ℕ := do
  if sourceValid source then
    let stringSize ← sourceStringSize source
    let size ← Section.all.foldlM (fun size t => addSize size (source.count t) t.size) headerSize
    let size ← addSize size 1 stringSize
    if size ≤ uint32Max then some size else none
  else none

def encodedSize (source : Source) : Except Status ℕ :=
  match sourceSize source with
  | some size => .ok size
  | none => .error .overflow

/-! ### Encoding -/

/-- `store_string_reference`, with the `append_string` of a string that is not empty. -/
def storeStringReference (record offsetField lengthField strings cursor : ℕ)
    (string : List UInt8) : List Store :=
  if string.length = 0 then
    [⟨record + offsetField, storeU32 0⟩, ⟨record + lengthField, storeU32 0⟩]
  else
    [⟨strings + cursor, string⟩, ⟨record + offsetField, storeU32 (.ofNat cursor)⟩,
      ⟨record + lengthField, storeU32 (.ofNat string.length)⟩]

def artifactCursor (cursor : ℕ) (artifact : Artifact (List UInt8)) : ℕ :=
  cursor + artifact.namespaceName.length + artifact.initSymbol.length +
    artifact.quiesceSymbol.length + artifact.cleanupSymbol.length

def storeArtifact (strings record cursor : ℕ) (artifact : Artifact (List UInt8)) : List Store :=
  let init := cursor + artifact.namespaceName.length
  let quiesce := init + artifact.initSymbol.length
  let cleanup := quiesce + artifact.quiesceSymbol.length
  [⟨record, storeU32 artifact.nodeId⟩, ⟨record + 4, storeU32 artifact.kind⟩,
    ⟨record + 8, storeU32 artifact.flags⟩, ⟨record + 16, storeU64 artifact.contentSize⟩,
    ⟨record + 24, artifact.contentDigest.bytes⟩] ++
    storeStringReference record 56 60 strings cursor artifact.namespaceName ++
    storeStringReference record 64 68 strings init artifact.initSymbol ++
    storeStringReference record 72 76 strings quiesce artifact.quiesceSymbol ++
    storeStringReference record 80 84 strings cleanup artifact.cleanupSymbol

def storeDependency (record _cursor : ℕ) (dependency : Dependency) : List Store :=
  [⟨record, storeU32 dependency.consumerNodeId⟩, ⟨record + 4, storeU32 dependency.providerNodeId⟩]

def exportCursor (cursor : ℕ) (symbol : Symbol (List UInt8)) : ℕ := cursor + symbol.name.length

def storeExport (strings record cursor : ℕ) (symbol : Symbol (List UInt8)) : List Store :=
  [⟨record, storeU32 symbol.nodeId⟩, ⟨record + 4, storeU32 symbol.kind⟩] ++
    storeStringReference record 8 12 strings cursor symbol.name

def importCursor (cursor : ℕ) (record : Import (List UInt8)) : ℕ :=
  cursor + record.consumerName.length + record.providerName.length

def storeImport (strings record cursor : ℕ) (source : Import (List UInt8)) : List Store :=
  [⟨record, storeU32 source.consumerNodeId⟩, ⟨record + 4, storeU32 source.providerNodeId⟩,
    ⟨record + 8, storeU32 source.kind⟩, ⟨record + 12, storeU32 source.flags⟩] ++
    storeStringReference record 16 20 strings cursor source.consumerName ++
    storeStringReference record 24 28 strings (cursor + source.consumerName.length)
      source.providerName

def storeResource (record _cursor : ℕ) (resource : Resource) : List Store :=
  [⟨record, storeU32 resource.slotId⟩, ⟨record + 4, storeU32 resource.type⟩,
    ⟨record + 8, storeU32 resource.minimumCount⟩, ⟨record + 12, storeU32 resource.maximumCount⟩,
    ⟨record + 16, storeU64 resource.requiredRights⟩,
    ⟨record + 24, storeU64 resource.maximumRights⟩, ⟨record + 32, storeU32 resource.flags⟩,
    ⟨record + 40, resource.interfaceSchemaDigest.bytes⟩]

def storeBinding (record _cursor : ℕ) (binding : Binding) : List Store :=
  [⟨record, storeU32 binding.slotId⟩, ⟨record + 4, storeU32 binding.nodeId⟩]

def sameCursor {α : Type} (cursor : ℕ) (_record : α) : ℕ := cursor

namespace Tables
variable (source : Source)

def offset (t : Section) : ℕ := tablesEnd source.count t.before

/-- `offsets[STRINGS]`. -/
def strings : ℕ := tablesEnd source.count Section.all

def exportsCursor : ℕ := source.artifacts.foldl artifactCursor 0

def importsCursor : ℕ := source.exports.foldl exportCursor source.exportsCursor

def finalCursor : ℕ := source.imports.foldl importCursor source.importsCursor

end Tables

def storeHeader (source : Source) (encodedSize : ℕ) : List Store :=
  [⟨0, storeU32 (.ofNat encodedSize)⟩, ⟨4, abiIdentity⟩, ⟨8, schemaDigest⟩] ++
    Section.all.flatMap (fun t =>
      [⟨40 + t.index * 4, storeU32 (.ofNat (source.count t))⟩,
        ⟨64 + t.index * 4, storeU32 (.ofNat (source.offset t))⟩]) ++
    [⟨88, storeU32 (.ofNat source.strings)⟩, ⟨92, storeU32 (.ofNat (encodedSize - source.strings))⟩]

/-- The stores of `kb2_closure_manifest_encode` after its `memset`. -/
def storeManifest (source : Source) (encodedSize : ℕ) : List Store :=
  storeHeader source encodedSize ++
    emitTable 96 (storeArtifact source.strings) artifactCursor source.artifacts
      (source.offset .artifacts) 0 ++
    emitTable 8 storeDependency sameCursor source.dependencies (source.offset .dependencies)
      source.exportsCursor ++
    emitTable 16 (storeExport source.strings) exportCursor source.exports (source.offset .exports)
      source.exportsCursor ++
    emitTable 32 (storeImport source.strings) importCursor source.imports (source.offset .imports)
      source.importsCursor ++
    emitTable 72 storeResource sameCursor source.resources (source.offset .resources)
      source.finalCursor ++
    emitTable 8 storeBinding sameCursor source.bindings (source.offset .bindings)
      source.finalCursor

/-- The buffer after the call and the encoded size. A call that fails leaves the buffer. -/
def encode (buffer : List UInt8) (source : Source) : Except Status (List UInt8 × ℕ) :=
  match encodedSize source with
  | .error _ => .error .malformed
  | .ok size =>
    if buffer.length < size then .error .bufferTooSmall
    else
      .ok (read (storeAll (cleared buffer size) (storeManifest source size)) 0 buffer.length, size)

end Kobox.Manifest

/-! ### Accessors -/

namespace Kobox.Manifest
open ByteMemory Protocol
variable (manifest : Manifest)

def memory : Memory := ofList manifest.bytes

def record (t : Section) (index : ℕ) : ℕ := (manifest.offsets t).toNat + index * t.size

def string (slice : Slice) : List UInt8 := read manifest.memory slice.position slice.length

def decodedString (offset length : UInt32) : Option Slice :=
  if offset > manifest.stringTableSize ∨ length > manifest.stringTableSize - offset then none
  else
    let slice : Slice := ⟨manifest.stringsOffset.toNat + offset.toNat, length.toNat⟩
    if stringValid (manifest.string slice) then some slice else none

def decodedLifecycle (flags offset length : UInt32) : Option Slice :=
  if flags &&& flagNativeLinux ≠ 0 then
    if offset = 0 ∧ length = 0 then some .null else none
  else manifest.decodedString offset length

def artifactAt (index : ℕ) : Except Status (Artifact Slice) :=
  if (manifest.counts .artifacts).toNat ≤ index then .error .malformed
  else
    let memory := manifest.memory
    let record := manifest.record .artifacts index
    let nodeId := loadU32 memory record
    let kind := loadU32 memory (record + 4)
    let flags := loadU32 memory (record + 8)
    let contentSize := loadU64 memory (record + 16)
    let contentDigest := loadDigest memory (record + 24)
    if nodeId = 0 ∨ contentSize = 0 ∨ kind > artifactKindMax ∨
        flags &&& ~~~(flagRoot ||| flagNativeLinux) ≠ 0 ∨
        bytesAreZero memory (record + 12) 4 = false ∨
        bytesAreZero memory (record + 88) 8 = false then .error .malformed
    else match manifest.decodedString (loadU32 memory (record + 56)) (loadU32 memory (record + 60)),
        manifest.decodedLifecycle flags (loadU32 memory (record + 64))
          (loadU32 memory (record + 68)),
        manifest.decodedLifecycle flags (loadU32 memory (record + 72))
          (loadU32 memory (record + 76)),
        manifest.decodedLifecycle flags (loadU32 memory (record + 80))
          (loadU32 memory (record + 84)) with
      | some namespaceName, some initSymbol, some quiesceSymbol, some cleanupSymbol =>
        .ok { nodeId, kind, flags, contentSize, contentDigest, namespaceName, initSymbol,
              quiesceSymbol, cleanupSymbol }
      | _, _, _, _ => .error .malformed

def dependencyAt (index : ℕ) : Except Status Dependency :=
  if (manifest.counts .dependencies).toNat ≤ index then .error .malformed
  else
    let record := manifest.record .dependencies index
    let consumerNodeId := loadU32 manifest.memory record
    let providerNodeId := loadU32 manifest.memory (record + 4)
    if consumerNodeId ≠ 0 ∧ providerNodeId ≠ 0 ∧ consumerNodeId ≠ providerNodeId then
      .ok { consumerNodeId, providerNodeId }
    else .error .malformed

def exportAt (index : ℕ) : Except Status (Symbol Slice) :=
  if (manifest.counts .exports).toNat ≤ index then .error .malformed
  else
    let memory := manifest.memory
    let record := manifest.record .exports index
    let nodeId := loadU32 memory record
    let kind := loadU32 memory (record + 4)
    if nodeId = 0 ∨ kind > symbolKindMax then .error .malformed
    else match manifest.decodedString (loadU32 memory (record + 8)) (loadU32 memory (record + 12)) with
      | some name => .ok { nodeId, kind, name }
      | none => .error .malformed

def importAt (index : ℕ) : Except Status (Import Slice) :=
  if (manifest.counts .imports).toNat ≤ index then .error .malformed
  else
    let memory := manifest.memory
    let record := manifest.record .imports index
    let consumerNodeId := loadU32 memory record
    let providerNodeId := loadU32 memory (record + 4)
    let kind := loadU32 memory (record + 8)
    let flags := loadU32 memory (record + 12)
    if consumerNodeId = 0 ∨ consumerNodeId = providerNodeId ∨ kind > symbolKindMax ∨
        flags &&& ~~~importFlagOptional ≠ 0 then .error .malformed
    else match
        manifest.decodedString (loadU32 memory (record + 16)) (loadU32 memory (record + 20)),
        manifest.decodedString (loadU32 memory (record + 24)) (loadU32 memory (record + 28)) with
      | some consumerName, some providerName =>
        .ok { consumerNodeId, providerNodeId, kind, flags, consumerName, providerName }
      | _, _ => .error .malformed

def resourceAt (index : ℕ) : Except Status Resource :=
  if (manifest.counts .resources).toNat ≤ index then .error .malformed
  else
    let memory := manifest.memory
    let record := manifest.record .resources index
    let resource : Resource :=
      { slotId := loadU32 memory record
        type := loadU32 memory (record + 4)
        minimumCount := loadU32 memory (record + 8)
        maximumCount := loadU32 memory (record + 12)
        requiredRights := loadU64 memory (record + 16)
        maximumRights := loadU64 memory (record + 24)
        flags := loadU32 memory (record + 32)
        interfaceSchemaDigest := loadDigest memory (record + 40) }
    if resource.slotId = 0 ∨ resource.minimumCount > resource.maximumCount ∨
        resource.requiredRights &&& ~~~resource.maximumRights ≠ 0 ∨
        digestIsZero resource.interfaceSchemaDigest = true ∨
        bytesAreZero memory (record + 36) 4 = false then .error .malformed
    else .ok resource

def bindingAt (index : ℕ) : Except Status Binding :=
  if (manifest.counts .bindings).toNat ≤ index then .error .malformed
  else
    let record := manifest.record .bindings index
    let slotId := loadU32 manifest.memory record
    let nodeId := loadU32 manifest.memory (record + 4)
    if slotId ≠ 0 ∧ nodeId ≠ 0 then .ok { slotId, nodeId } else .error .malformed

/-! ### Decoding -/

/-- The key of the binary search, which stops at an artifact that cannot be read. -/
def nodeAt (index : ℕ) : Option ℕ :=
  match manifest.artifactAt index with
  | .ok artifact => some artifact.nodeId.toNat
  | .error _ => none

def hasNode (nodeId : UInt32) : Bool :=
  (BinarySearch.find manifest.nodeAt (manifest.counts .artifacts).toNat nodeId.toNat).isSome

/-- The loop over the artifacts, with the prior node id and the count of roots. -/
def checkArtifacts : List ℕ → UInt32 → ℕ → Option ℕ
  | [], _, rootCount => some rootCount
  | index :: rest, priorNodeId, rootCount =>
    match manifest.artifactAt index with
    | .error _ => none
    | .ok artifact =>
      if artifact.nodeId ≤ priorNodeId then none
      else
        checkArtifacts rest artifact.nodeId
          (rootCount + if artifact.flags &&& flagRoot ≠ 0 then 1 else 0)

def artifactsValid : Bool :=
  match manifest.checkArtifacts (List.range (manifest.counts .artifacts).toNat) 0 0 with
  | none => false
  | some rootCount => rootCount != 0

/-- The loops of `kb2_closure_manifest_decode` over the tables. -/
def tablesValid : Bool :=
  let indices (t : Section) := List.range (manifest.counts t).toNat
  manifest.artifactsValid &&
  (indices .dependencies).all (fun index => passes (manifest.dependencyAt index) fun dependency =>
    manifest.hasNode dependency.consumerNodeId && manifest.hasNode dependency.providerNodeId) &&
  (indices .exports).all (fun index => passes (manifest.exportAt index) fun symbol =>
    manifest.hasNode symbol.nodeId) &&
  (indices .imports).all (fun index => passes (manifest.importAt index) fun record =>
    manifest.hasNode record.consumerNodeId &&
      (record.providerNodeId == 0 || manifest.hasNode record.providerNodeId)) &&
  (indices .resources).all (fun index => passes (manifest.resourceAt index) fun _ => true) &&
  (indices .bindings).all (fun index => passes (manifest.bindingAt index) fun binding =>
    manifest.hasNode binding.nodeId)

end Kobox.Manifest

namespace Kobox.Manifest
open ByteMemory Protocol

def ofHeader (buffer : List UInt8) : Manifest where
  bytes := buffer
  size := buffer.length
  counts t := loadU32 (ofList buffer) (40 + t.index * 4)
  offsets t := loadU32 (ofList buffer) (64 + t.index * 4)
  stringsOffset := loadU32 (ofList buffer) 88
  stringTableSize := loadU32 (ofList buffer) 92

/-- The loop over the header's counts and offsets, with the offset it expects next. -/
def checkOffsets (manifest : Manifest) : List Section → ℕ → Option ℕ
  | [], expectedOffset => some expectedOffset
  | t :: rest, expectedOffset =>
    if (manifest.counts t).toNat > t.limit ∨ (manifest.offsets t).toNat ≠ expectedOffset then none
    else
      let next := expectedOffset + (manifest.counts t).toNat * t.size
      if next > manifest.size then none else checkOffsets manifest rest next

def decodeHeader (buffer : List UInt8) : Except Status Manifest :=
  let memory := ofList buffer
  let manifest := ofHeader buffer
  if buffer.length < headerSize then .error .bufferTooSmall
  else if buffer.length > uint32Max then .error .overflow
  else if read memory 4 4 ≠ abiIdentity ∨ read memory 8 32 ≠ schemaDigest then
    .error .schemaMismatch
  else if (loadU32 memory 0).toNat ≠ buffer.length then .error .malformed
  else if bytesAreZero memory 96 32 = false then .error .malformed
  else match checkOffsets manifest Section.all headerSize with
    | none => .error .malformed
    | some expectedOffset =>
      if manifest.counts .artifacts = 0 ∨ manifest.stringsOffset.toNat ≠ expectedOffset ∨
          manifest.stringTableSize.toNat ≠ buffer.length - expectedOffset then .error .malformed
      else .ok manifest

def decodeBuffer (buffer : List UInt8) : Except Status Manifest :=
  match decodeHeader buffer with
  | .error status => .error status
  | .ok manifest => if manifest.tablesValid then .ok manifest else .error .malformed

/-- `kb2_closure_manifest_decode`, of a buffer that may be NULL into a manifest. The manifest is
cleared before the first check and again after a failed one. -/
def decode (buffer : Option (List UInt8)) (out : Manifest) : Status × Manifest :=
  match buffer with
  | none => (.invalidArgument, out)
  | some buffer =>
    match decodeBuffer buffer with
    | .ok manifest => (.ok, manifest)
    | .error status => (status, .zero)

end Kobox.Manifest
