import Kobox.Control.Types
import Mathlib.Algebra.Group.Nat.Defs

/-!
# Closure builder: data (`include/kobox2/closure.h`, `src/closure_internal.h`, `src/closure.c:9-28`)

A call on a NULL builder returns before it touches an object and is left out, as are the
allocator fields. An argument that is a pointer is `none` for NULL, and one that is an
enumeration is `none` for a value that is no enumerator.
-/

namespace Kobox.Closure

def nameMax : ℕ := 127

def maxArtifacts : ℕ := 4096
def maxDependencies : ℕ := 65536
def maxSymbols : ℕ := 65536
def maxResources : ℕ := 16384
def maxResourceBindings : ℕ := 65536

def sizeMax : ℕ := 2 ^ 64 - 1

def uint32Max : ℕ := 2 ^ 32 - 1

/-! ### Enumerations -/

inductive ArtifactKind where
  | sharedProvider
  | relocatableModule
  deriving DecidableEq, Repr

inductive SymbolKind where
  | function
  | object
  deriving DecidableEq, Repr

def SymbolKind.code : SymbolKind → ℕ
  | .function => 0
  | .object => 1

inductive ResourceType where
  | memory
  | device
  | storage
  | notification
  | channel
  deriving DecidableEq, Repr

/-- `KB2_IMPORT_OPTIONAL`, the only known import flag. -/
def importOptional : UInt32 := 1

def resourceRequired : UInt32 := 1
def resourceShared : UInt32 := 2

def knownResourceFlags : UInt32 := resourceRequired ||| resourceShared ||| Control.resourceResetRequired

def knownResourceRights : ResourceType → UInt64
  | .memory => 0xF
  | .device => 0x7
  | .storage => 0xF
  | .notification => 0x3
  | .channel => 0x3

/-- The bytes of a `char[KB2_CLOSURE_NAME_MAX + 1]`. -/
abbrev NameBuffer := List UInt8

def NameBuffer.zero : NameBuffer := List.replicate (nameMax + 1) 0

def NameBuffer.text (buffer : NameBuffer) : List UInt8 := buffer.takeWhile (· != 0)

def strlen (buffer : NameBuffer) : ℕ := buffer.text.length

/-- The order of two strings by their first different byte, as unsigned bytes. -/
def strcmp (left right : NameBuffer) : Ordering := compare left.text right.text

/-! ### Records -/

structure ArtifactRecord where
  contentDigest : List UInt8
  namespaceName : NameBuffer
  initSymbol : NameBuffer
  quiesceSymbol : NameBuffer
  cleanupSymbol : NameBuffer
  nodeId : UInt32
  kind : ArtifactKind
  lifecycleSet : Bool
  nativeLifecycle : Bool
  isRoot : Bool
  deriving DecidableEq, Repr

structure DependencyRecord where
  consumerNodeId : UInt32
  providerNodeId : UInt32
  deriving DecidableEq, Repr

structure ExportRecord where
  symbol : NameBuffer
  nodeId : UInt32
  kind : SymbolKind
  deriving DecidableEq, Repr

structure ImportRecord where
  consumerSymbol : NameBuffer
  providerSymbol : NameBuffer
  consumerNodeId : UInt32
  providerNodeId : UInt32
  kind : SymbolKind
  flags : UInt32
  deriving DecidableEq, Repr

structure ResourceRecord where
  interfaceSchemaDigest : List UInt8
  requiredRights : UInt64
  maximumRights : UInt64
  slotId : UInt32
  type : ResourceType
  minimumCount : UInt32
  maximumCount : UInt32
  flags : UInt32
  deriving DecidableEq, Repr

structure ResourceBindingRecord where
  slotId : UInt32
  nodeId : UInt32
  deriving DecidableEq, Repr

/-- What `memset` leaves of a digest and of each record. -/
def zeroDigest : List UInt8 := List.replicate Control.digestSize 0

def ArtifactRecord.zero : ArtifactRecord :=
  ⟨zeroDigest, .zero, .zero, .zero, .zero, 0, .sharedProvider, false, false, false⟩

def DependencyRecord.zero : DependencyRecord := ⟨0, 0⟩

def ExportRecord.zero : ExportRecord := ⟨.zero, 0, .function⟩

def ImportRecord.zero : ImportRecord := ⟨.zero, .zero, 0, 0, .function, 0⟩

def ResourceRecord.zero : ResourceRecord := ⟨zeroDigest, 0, 0, 0, .memory, 0, 0, 0⟩

def ResourceBindingRecord.zero : ResourceBindingRecord := ⟨0, 0⟩

/-- An allocated array, of which the first `count` entries are in use. -/
structure Table (α : Type) where
  slots : List α
  count : ℕ
  deriving DecidableEq, Repr

namespace Table
variable {α : Type}

def empty : Table α := ⟨[], 0⟩

def capacity (t : Table α) : ℕ := t.slots.length

def records (t : Table α) : List α := t.slots.take t.count

end Table

structure Storage where
  artifacts : Table ArtifactRecord
  dependencies : Table DependencyRecord
  exports : Table ExportRecord
  imports : Table ImportRecord
  resources : Table ResourceRecord
  resourceBindings : Table ResourceBindingRecord
  manifestDigest : List UInt8
  deriving DecidableEq, Repr

/-- The storage of the builder `kb2_closure_builder_create` returns. -/
def Storage.created (manifestDigest : List UInt8) : Storage :=
  ⟨.empty, .empty, .empty, .empty, .empty, .empty, manifestDigest⟩

end Kobox.Closure
