import Kobox.Protocol.Words

/-!
# Closure manifest: data (`protocol/include/kobox2/closure_manifest.h`, `closure_layout.h`)

The records are the same for the encoder and for the accessors; only their strings differ.
An encoder's string is its bytes, and an accessor's is a piece of the buffer. NULL for a
source, an array or a result is refused before anything is read and is left out.
-/

namespace Kobox.Manifest
open Protocol

/-! ### Sections -/

/-- The six tables, in the order of the buffer. -/
inductive Section where
  | artifacts
  | dependencies
  | exports
  | imports
  | resources
  | bindings
  deriving DecidableEq, Repr

namespace Section

def all : List Section := [.artifacts, .dependencies, .exports, .imports, .resources, .bindings]

theorem mem_all (t : Section) : t ∈ all := by
  cases t <;> decide

def index : Section → ℕ
  | .artifacts => 0
  | .dependencies => 1
  | .exports => 2
  | .imports => 3
  | .resources => 4
  | .bindings => 5

def size : Section → ℕ
  | .artifacts => 96
  | .dependencies => 8
  | .exports => 16
  | .imports => 32
  | .resources => 72
  | .bindings => 8

def limit : Section → ℕ
  | .artifacts => 4096
  | .dependencies => 65536
  | .exports => 65536
  | .imports => 65536
  | .resources => 16384
  | .bindings => 65536

def before : Section → List Section
  | .artifacts => []
  | .dependencies => [.artifacts]
  | .exports => [.artifacts, .dependencies]
  | .imports => [.artifacts, .dependencies, .exports]
  | .resources => [.artifacts, .dependencies, .exports, .imports]
  | .bindings => [.artifacts, .dependencies, .exports, .imports, .resources]

end Section

def headerSize : ℕ := 128

def abiIdentity : List UInt8 := [0x64, 0x65, 0x76, 0x00]

def schemaDigest : List UInt8 :=
  [0x47, 0xfe, 0x5f, 0x18, 0x83, 0x61, 0x8c, 0x3b, 0x17, 0xdd, 0x27, 0x9f, 0x4c, 0x87, 0x73, 0xb2,
    0x41, 0x9b, 0xcf, 0x47, 0xdf, 0x65, 0x17, 0x4e, 0xc9, 0xd3, 0xe9, 0x84, 0x8b, 0x8d, 0x81, 0x0f]

/-- Where the tables end: each follows the one before it, and the first the header. -/
def tablesEnd (counts : Section → ℕ) (tables : List Section) : ℕ :=
  tables.foldl (fun offset t => offset + counts t * t.size) headerSize

/-! ### Records -/

/-- `KB2_CLOSURE_ARTIFACT_RELOCATABLE_MODULE`, the last kind. -/
def artifactKindMax : UInt32 := 1

def flagRoot : UInt32 := 1
def flagNativeLinux : UInt32 := 2

/-- `KB2_CLOSURE_SYMBOL_OBJECT`, the last kind. -/
def symbolKindMax : UInt32 := 1

def importFlagOptional : UInt32 := 1

structure Artifact (S : Type) where
  nodeId : UInt32
  kind : UInt32
  flags : UInt32
  contentSize : UInt64
  contentDigest : Digest
  namespaceName : S
  initSymbol : S
  quiesceSymbol : S
  cleanupSymbol : S
  deriving DecidableEq

structure Dependency where
  consumerNodeId : UInt32
  providerNodeId : UInt32
  deriving DecidableEq

structure Symbol (S : Type) where
  nodeId : UInt32
  kind : UInt32
  name : S
  deriving DecidableEq

structure Import (S : Type) where
  consumerNodeId : UInt32
  providerNodeId : UInt32
  kind : UInt32
  flags : UInt32
  consumerName : S
  providerName : S
  deriving DecidableEq

structure Resource where
  slotId : UInt32
  type : UInt32
  minimumCount : UInt32
  maximumCount : UInt32
  requiredRights : UInt64
  maximumRights : UInt64
  flags : UInt32
  interfaceSchemaDigest : Digest
  deriving DecidableEq

structure Binding where
  slotId : UInt32
  nodeId : UInt32
  deriving DecidableEq

section Map
variable {S T : Type} (f : S → T)

def Artifact.map (a : Artifact S) : Artifact T :=
  { a with
    namespaceName := f a.namespaceName
    initSymbol := f a.initSymbol
    quiesceSymbol := f a.quiesceSymbol
    cleanupSymbol := f a.cleanupSymbol }

def Symbol.map (s : Symbol S) : Symbol T := { s with name := f s.name }

def Import.map (i : Import S) : Import T :=
  { i with
    consumerName := f i.consumerName
    providerName := f i.providerName }

end Map

/-- The six tables: `kb2_closure_manifest_source_t`, and what the accessors give back. -/
structure Tables (S : Type) where
  artifacts : List (Artifact S)
  dependencies : List Dependency
  exports : List (Symbol S)
  imports : List (Import S)
  resources : List Resource
  bindings : List Binding
  deriving DecidableEq

namespace Tables
variable {S T : Type}

def count (tables : Tables S) : Section → ℕ
  | .artifacts => tables.artifacts.length
  | .dependencies => tables.dependencies.length
  | .exports => tables.exports.length
  | .imports => tables.imports.length
  | .resources => tables.resources.length
  | .bindings => tables.bindings.length

def map (f : S → T) (tables : Tables S) : Tables T :=
  { tables with
    artifacts := tables.artifacts.map (.map f)
    exports := tables.exports.map (.map f)
    imports := tables.imports.map (.map f) }

end Tables

/-- The encoder's argument: arrays with their counts, of strings with their lengths. -/
abbrev Source := Tables (List UInt8)

/-- A decoded `kb2_closure_string_t`, as a piece of the buffer. -/
structure Slice where
  position : ℕ
  length : ℕ
  deriving DecidableEq, Repr

/-- The zero structure, which stands for the names of a native artifact. -/
def Slice.null : Slice := ⟨0, 0⟩

end Kobox.Manifest

namespace Kobox
open Manifest

structure Manifest where
  bytes : List UInt8
  size : ℕ
  counts : Section → UInt32
  offsets : Section → UInt32
  /-- `offsets[STRINGS]`. -/
  stringsOffset : UInt32
  stringTableSize : UInt32

def Manifest.zero : Manifest := ⟨[], 0, fun _ => 0, fun _ => 0, 0, 0⟩

end Kobox
