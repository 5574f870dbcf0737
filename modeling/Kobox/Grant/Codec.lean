import Kobox.Grant.Types
import Kobox.Library.BinarySearch

/-!
# Resource grant: the encoder and the decoder (`protocol/src/resource_grant.c`)

A `for` loop with an early return is a `foldlM` whose state is what the loop carries from one
record to the next. The encoder is the list of its stores into a cleared buffer, in program
order; its offsets are numbers that it has checked to fit a `uint32_t` before the first store.
-/

namespace Kobox.Grant
open ByteMemory Protocol

def digestIsZero (digest : Digest) : Bool := digest.bytes.all (· == 0)

def knownRights (type : UInt32) : UInt64 :=
  if type = 0 then 1 ||| 2 ||| 4 ||| 8
  else if type = 1 then 1 ||| 2 ||| 4
  else if type = 2 then 1 ||| 2 ||| 4 ||| 8
  else if type = 3 then 1 ||| 2
  else if type = 4 then 1 ||| 2
  else 0

def rightsKnown (type : UInt32) (grantedRights : UInt64) : Bool :=
  let rights := knownRights type
  !(rights == 0 || grantedRights &&& ~~~rights != 0)

/-- The test of a handle binding's place in its table, after the binding in front of it. -/
def bindingPlaced (index : ℕ) (prior : UInt64 × UInt32) (binding : HandleBinding) : Bool :=
  !(binding.transferHandleIndex.toNat != index || decide (binding.objectId < prior.1) ||
    (binding.objectId == prior.1 && (index == 0 || decide (binding.role ≤ prior.2))))

def sourceSlotIndex (slots : List SlotSource) (slotId : UInt32) : Option ℕ :=
  BinarySearch.find (fun i => (slots[i]?).map fun slot => slot.slotId.toNat) slots.length
    slotId.toNat

def sourceObjectIndex (objects : List ObjectSource) (objectId : UInt64) : Option ℕ :=
  BinarySearch.find (fun i => (objects[i]?).map fun object => object.objectId.toNat)
    objects.length objectId.toNat

def objectCursor (objects : List ObjectSource) (cursor : ℕ) (slot : SlotSource) : ℕ :=
  cursor + ((objects.drop cursor).takeWhile fun object => object.slotId == slot.slotId).length

def handleCursor (bindings : List HandleBinding) (cursor : ℕ) (object : ObjectSource) : ℕ :=
  cursor +
    ((bindings.drop cursor).takeWhile fun binding => binding.objectId == object.objectId).length

/-- One pass of the loop over the slots, with the prior slot id. -/
def checkSlot (prior : UInt32) (slot : SlotSource) : Option UInt32 :=
  if slot.slotId ≤ prior ∨ slot.resourceType > resourceTypeMax ∨ slot.state > statePresent ∨
      digestIsZero slot.interfaceSchemaDigest = true then none
  else some slot.slotId

/-- One pass of the loop over the objects, with the prior slot and object ids. -/
def checkObject (slots : List SlotSource) (prior : UInt32 × UInt64) (object : ObjectSource) :
    Option (UInt32 × UInt64) :=
  match (sourceSlotIndex slots object.slotId).bind fun index => slots[index]? with
  | none => none
  | some slot =>
    if object.slotId < prior.1 ∨ object.objectId ≤ prior.2 ∨ object.grantedRights = 0 ∨
        slot.state ≠ statePresent ∨
        rightsKnown slot.resourceType object.grantedRights = false then none
    else some (object.slotId, object.objectId)

/-- One pass of the second loop over the slots, with the cursor in the objects. -/
def checkPopulated (objects : List ObjectSource) (cursor : ℕ) (slot : SlotSource) : Option ℕ :=
  let start := cursor
  let cursor := objectCursor objects cursor slot
  if (slot.state = stateAbsent ∧ cursor ≠ start) ∨ (slot.state = statePresent ∧ cursor = start)
  then none
  else some cursor

/-- One pass of the loop over the handle bindings, with the prior object id and role. -/
def checkBinding (objects : List ObjectSource) (prior : UInt64 × UInt32)
    (entry : HandleBinding × ℕ) : Option (UInt64 × UInt32) :=
  let (binding, index) := entry
  if sourceObjectIndex objects binding.objectId = none ∨
      bindingPlaced index prior binding = false then none
  else some (binding.objectId, binding.role)

def sourceValid (source : Source) : Bool :=
  source.generation != 0 && !digestIsZero source.closureManifestDigest &&
  Section.all.all (fun t => decide (source.count t ≤ t.limit)) &&
  (source.slots.foldlM checkSlot 0).isSome &&
  (source.objects.foldlM (checkObject source.slots) (0, 0)).isSome &&
  source.slots.foldlM (checkPopulated source.objects) 0 == some source.objects.length &&
  (source.handleBindings.zipIdx.foldlM (checkBinding source.objects) (0, 0)).isSome

/-! ### Encoding -/

/-- The sum of `kb2_resource_grant_encoded_size`. -/
def sourceSize (source : Source) : Option ℕ := do
  if sourceValid source then
    let size ← Section.all.foldlM (fun size t => addSize size (source.count t) t.size) headerSize
    if size ≤ uint32Max then some size else none
  else none

def encodedSize (source : Source) : Except Status ℕ :=
  match sourceSize source with
  | some size => .ok size
  | none => .error .malformed

def Source.offset (source : Source) (t : Section) : ℕ := tablesEnd source.count t.before

def storeHeader (source : Source) (encodedSize : ℕ) : List Store :=
  [⟨0, storeU32 (.ofNat encodedSize)⟩, ⟨4, abiIdentity⟩, ⟨8, schemaDigest⟩,
    ⟨40, storeU64 source.generation⟩, ⟨48, source.closureManifestDigest.bytes⟩,
    ⟨80, storeU32 (.ofNat source.slots.length)⟩, ⟨84, storeU32 (.ofNat source.objects.length)⟩,
    ⟨88, storeU32 (.ofNat source.handleBindings.length)⟩,
    ⟨92, storeU32 (.ofNat (source.offset .slots))⟩,
    ⟨96, storeU32 (.ofNat (source.offset .objects))⟩,
    ⟨100, storeU32 (.ofNat (source.offset .handleBindings))⟩]

def storeSlot (objects : List ObjectSource) (record start : ℕ) (slot : SlotSource) :
    List Store :=
  [⟨record, storeU32 slot.slotId⟩, ⟨record + 4, storeU32 slot.resourceType⟩,
    ⟨record + 8, storeU32 slot.state⟩, ⟨record + 12, storeU32 (.ofNat start)⟩,
    ⟨record + 16, storeU32 (.ofNat (objectCursor objects start slot - start))⟩,
    ⟨record + 32, slot.interfaceSchemaDigest.bytes⟩]

def storeObject (bindings : List HandleBinding) (record start : ℕ) (object : ObjectSource) :
    List Store :=
  [⟨record, storeU32 object.slotId⟩, ⟨record + 8, storeU64 object.objectId⟩,
    ⟨record + 16, storeU64 object.grantedRights⟩, ⟨record + 24, storeU32 (.ofNat start)⟩,
    ⟨record + 28, storeU32 (.ofNat (handleCursor bindings start object - start))⟩]

def storeBinding (record : ℕ) (_ : Unit) (binding : HandleBinding) : List Store :=
  [⟨record, storeU64 binding.objectId⟩, ⟨record + 8, storeU32 binding.role⟩,
    ⟨record + 12, storeU32 binding.transferHandleIndex⟩]

/-- The stores of `kb2_resource_grant_encode` after its `memset`. -/
def storeGrant (source : Source) (encodedSize : ℕ) : List Store :=
  storeHeader source encodedSize ++
    emitTable 64 (storeSlot source.objects) (objectCursor source.objects) source.slots
      (source.offset .slots) 0 ++
    emitTable 32 (storeObject source.handleBindings) (handleCursor source.handleBindings)
      source.objects (source.offset .objects) 0 ++
    emitTable 16 storeBinding (fun _ _ => ()) source.handleBindings
      (source.offset .handleBindings) ()

/-- The buffer after the call and the encoded size. A call that fails leaves the buffer. -/
def encode (buffer : List UInt8) (source : Source) : Except Status (List UInt8 × ℕ) :=
  match encodedSize source with
  | .error _ => .error .malformed
  | .ok size =>
    if buffer.length < size then .error .bufferTooSmall
    else .ok (read (storeAll (cleared buffer size) (storeGrant source size)) 0 buffer.length, size)

section Accessors
variable (grant : Grant)

def memory : Memory := ofList grant.bytes

def record (t : Section) (index : ℕ) : ℕ := (grant.offsets t).toNat + index * t.size

/-- `kb2_resource_grant_slot`. -/
def slotAt (index : ℕ) : Except Status Slot :=
  if (grant.counts .slots).toNat ≤ index then .error .malformed
  else
    let memory := grant.memory
    let record := grant.record .slots index
    let slot : Slot :=
      { slotId := loadU32 memory record
        resourceType := loadU32 memory (record + 4)
        state := loadU32 memory (record + 8)
        objectStart := loadU32 memory (record + 12)
        objectCount := loadU32 memory (record + 16)
        interfaceSchemaDigest := loadDigest memory (record + 32) }
    if slot.slotId = 0 ∨ slot.resourceType > resourceTypeMax ∨ slot.state > statePresent ∨
        digestIsZero slot.interfaceSchemaDigest = true ∨
        bytesAreZero memory (record + 20) 12 = false then .error .malformed
    else .ok slot

/-- `kb2_resource_grant_object`. -/
def objectAt (index : ℕ) : Except Status Object :=
  if (grant.counts .objects).toNat ≤ index then .error .malformed
  else
    let memory := grant.memory
    let record := grant.record .objects index
    let object : Object :=
      { slotId := loadU32 memory record
        objectId := loadU64 memory (record + 8)
        grantedRights := loadU64 memory (record + 16)
        handleStart := loadU32 memory (record + 24)
        handleCount := loadU32 memory (record + 28) }
    if object.slotId = 0 ∨ object.objectId = 0 ∨ object.grantedRights = 0 ∨
        bytesAreZero memory (record + 4) 4 = false then .error .malformed
    else .ok object

/-- `kb2_resource_grant_handle_binding`. -/
def bindingAt (index : ℕ) : Except Status HandleBinding :=
  if (grant.counts .handleBindings).toNat ≤ index then .error .malformed
  else
    let memory := grant.memory
    let record := grant.record .handleBindings index
    let binding : HandleBinding :=
      { objectId := loadU64 memory record
        role := loadU32 memory (record + 8)
        transferHandleIndex := loadU32 memory (record + 12) }
    if binding.objectId = 0 then .error .malformed else .ok binding

/-! ### Decoding -/

/-- `decoded_slot_index`, which stops at a slot that cannot be read. -/
def decodedSlotIndex (slotId : UInt32) : Option ℕ :=
  BinarySearch.find (fun i => (grant.slotAt i).toOption.map fun slot => slot.slotId.toNat)
    (grant.counts .slots).toNat slotId.toNat

def decodedObjectIndex (objectId : UInt64) : Option ℕ :=
  BinarySearch.find (fun i => (grant.objectAt i).toOption.map fun object => object.objectId.toNat)
    (grant.counts .objects).toNat objectId.toNat

/-- One pass of the loop over the slots, with the prior slot id and the object cursor. -/
def decodeSlot (state : UInt32 × ℕ) (slot : Slot) : Option (UInt32 × ℕ) :=
  let (prior, cursor) := state
  if slot.slotId ≤ prior ∨ slot.objectStart.toNat ≠ cursor ∨
      slot.objectCount.toNat > (grant.counts .objects).toNat - cursor ∨
      (slot.state = stateAbsent ∧ slot.objectCount ≠ 0) ∨
      (slot.state = statePresent ∧ slot.objectCount = 0) then none
  else if (List.range slot.objectCount.toNat).all (fun i =>
      passes (grant.objectAt (cursor + i)) fun object => object.slotId == slot.slotId) then
    some (slot.slotId, cursor + slot.objectCount.toNat)
  else none

/-- One pass of the loop over the objects, with the prior slot and object ids and the handle
cursor. -/
def decodeObject (state : (UInt32 × UInt64) × ℕ) (object : Object) :
    Option ((UInt32 × UInt64) × ℕ) :=
  let (prior, cursor) := state
  if object.slotId < prior.1 ∨ object.objectId ≤ prior.2 ∨ object.handleStart.toNat ≠ cursor ∨
      object.handleCount.toNat > (grant.counts .handleBindings).toNat - cursor then none
  else match (grant.decodedSlotIndex object.slotId).bind fun index =>
      (grant.slotAt index).toOption with
    | none => none
    | some slot =>
      if slot.state ≠ statePresent ∨
          rightsKnown slot.resourceType object.grantedRights = false then none
      else if (List.range object.handleCount.toNat).all (fun i =>
          passes (grant.bindingAt (cursor + i)) fun binding =>
            binding.objectId == object.objectId) then
        some ((object.slotId, object.objectId), cursor + object.handleCount.toNat)
      else none

/-- One pass of the loop over the handle bindings, with the prior object id and role. -/
def decodeBinding (prior : UInt64 × UInt32) (entry : HandleBinding × ℕ) :
    Option (UInt64 × UInt32) :=
  let (binding, index) := entry
  if grant.decodedObjectIndex binding.objectId = none ∨
      bindingPlaced index prior binding = false then none
  else some (binding.objectId, binding.role)

/-- The loops of `kb2_resource_grant_decode` over the tables. -/
def tablesValid : Bool :=
  match readEach grant.slotAt (fun s entry => grant.decodeSlot s entry.1)
      (grant.counts .slots).toNat (0, 0) with
  | none => false
  | some (_, cursor) =>
    cursor == (grant.counts .objects).toNat &&
      match readEach grant.objectAt (fun s entry => grant.decodeObject s entry.1)
          (grant.counts .objects).toNat ((0, 0), 0) with
      | none => false
      | some (_, cursor) =>
        cursor == (grant.counts .handleBindings).toNat &&
          (readEach grant.bindingAt grant.decodeBinding (grant.counts .handleBindings).toNat
            (0, 0)).isSome

end Accessors

def ofHeader (buffer : List UInt8) : Grant where
  bytes := buffer
  size := buffer.length
  generation := loadU64 (ofList buffer) 40
  closureManifestDigest := loadDigest (ofList buffer) 48
  counts t := loadU32 (ofList buffer) t.countField
  offsets t := loadU32 (ofList buffer) t.offsetField

/-- The loop over the header's counts and offsets, with the offset it expects next. -/
def checkOffsets (grant : Grant) : List Section → ℕ → Option ℕ
  | [], expectedOffset => some expectedOffset
  | t :: rest, expectedOffset =>
    if (grant.counts t).toNat > t.limit ∨ (grant.offsets t).toNat ≠ expectedOffset then none
    else
      let next := expectedOffset + (grant.counts t).toNat * t.size
      if next > grant.size then none else checkOffsets grant rest next

def decodeHeader (buffer : List UInt8) : Except Status Grant :=
  let memory := ofList buffer
  let grant := ofHeader buffer
  if buffer.length < headerSize then .error .bufferTooSmall
  else if buffer.length > uint32Max then .error .overflow
  else if read memory 4 4 ≠ abiIdentity ∨ read memory 8 32 ≠ schemaDigest then
    .error .schemaMismatch
  else if (loadU32 memory 0).toNat ≠ buffer.length ∨ bytesAreZero memory 104 24 = false then
    .error .malformed
  else match checkOffsets grant Section.all headerSize with
    | none => .error .malformed
    | some expectedOffset =>
      if expectedOffset ≠ buffer.length ∨ grant.generation = 0 ∨
          digestIsZero grant.closureManifestDigest = true then .error .malformed
      else .ok grant

def decodeBuffer (buffer : List UInt8) : Except Status Grant :=
  match decodeHeader buffer with
  | .error status => .error status
  | .ok grant => if grant.tablesValid then .ok grant else .error .malformed

/-- `kb2_resource_grant_decode`, of a buffer that may be NULL into a grant. The grant is cleared
before the first check and again after a failed one. -/
def decode (buffer : Option (List UInt8)) (out : Grant) : Status × Grant :=
  match buffer with
  | none => (.invalidArgument, out)
  | some buffer =>
    match decodeBuffer buffer with
    | .ok grant => (.ok, grant)
    | .error status => (status, .zero)

end Kobox.Grant
