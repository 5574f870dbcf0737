import Kobox.Protocol.Words

/-!
# Resource grant: data (`protocol/include/kobox2/resource_grant.h`, `resource_grant_layout.h`)

The encoder takes the three tables without ranges; a decoded slot has the range of its objects
and a decoded object the range of its handles. NULL for a source, an array or a result is refused
before anything is read and is left out.
-/

namespace Kobox.Grant
open Protocol

/-! ### Sections -/

/-- The three tables, in the order of the buffer. -/
inductive Section where
  | slots
  | objects
  | handleBindings
  deriving DecidableEq, Repr

namespace Section

def all : List Section := [.slots, .objects, .handleBindings]

theorem mem_all (t : Section) : t ∈ all := by
  cases t <;> decide

def countField : Section → ℕ
  | .slots => 80
  | .objects => 84
  | .handleBindings => 88

/-- `offset_fields`. -/
def offsetField : Section → ℕ
  | .slots => 92
  | .objects => 96
  | .handleBindings => 100

/-- `sizes`. -/
def size : Section → ℕ
  | .slots => 64
  | .objects => 32
  | .handleBindings => 16

/-- `limits`. -/
def limit : Section → ℕ
  | .slots => 16384
  | .objects => 65536
  | .handleBindings => 65536

def before : Section → List Section
  | .slots => []
  | .objects => [.slots]
  | .handleBindings => [.slots, .objects]

end Section

def headerSize : ℕ := 128

def abiIdentity : List UInt8 := [0x64, 0x65, 0x76, 0x00]

def schemaDigest : List UInt8 :=
  [0x37, 0x36, 0x59, 0xa5, 0x69, 0x0b, 0x62, 0x27, 0x97, 0x79, 0x93, 0x59, 0x3e, 0x81, 0x6c, 0x9c,
    0x8b, 0x3b, 0x9f, 0xca, 0xb5, 0x04, 0x29, 0xa3, 0x76, 0x5d, 0xff, 0xc6, 0xb2, 0xb5, 0xeb, 0xe2]

/-- Where the tables end: each follows the one before it, and the first the header. -/
def tablesEnd (counts : Section → ℕ) (tables : List Section) : ℕ :=
  tables.foldl (fun offset t => offset + counts t * t.size) headerSize

/-! ### Records -/

/-- `KB2_CLOSURE_RESOURCE_CHANNEL`, the last type. -/
def resourceTypeMax : UInt32 := 4

/-- `KB2_RESOURCE_GRANT_SLOT_ABSENT`. -/
def stateAbsent : UInt32 := 0

/-- `KB2_RESOURCE_GRANT_SLOT_PRESENT`, the last state. -/
def statePresent : UInt32 := 1

structure SlotSource where
  slotId : UInt32
  resourceType : UInt32
  state : UInt32
  interfaceSchemaDigest : Digest
  deriving DecidableEq

structure Slot extends SlotSource where
  objectStart : UInt32
  objectCount : UInt32
  deriving DecidableEq

structure ObjectSource where
  slotId : UInt32
  objectId : UInt64
  grantedRights : UInt64
  deriving DecidableEq

structure Object extends ObjectSource where
  handleStart : UInt32
  handleCount : UInt32
  deriving DecidableEq

structure HandleBinding where
  objectId : UInt64
  role : UInt32
  transferHandleIndex : UInt32
  deriving DecidableEq

/-- The encoder's argument: arrays with their counts. -/
structure Source where
  generation : UInt64
  closureManifestDigest : Digest
  slots : List SlotSource
  objects : List ObjectSource
  handleBindings : List HandleBinding
  deriving DecidableEq

def Source.count (source : Source) : Section → ℕ
  | .slots => source.slots.length
  | .objects => source.objects.length
  | .handleBindings => source.handleBindings.length

end Kobox.Grant

namespace Kobox
open Grant Protocol

structure Grant where
  bytes : List UInt8
  size : ℕ
  generation : UInt64
  closureManifestDigest : Digest
  counts : Section → UInt32
  offsets : Section → UInt32

def Grant.zero : Grant :=
  ⟨[], 0, 0, ⟨List.replicate 32 0, rfl⟩, fun _ => 0, fun _ => 0⟩

end Kobox
