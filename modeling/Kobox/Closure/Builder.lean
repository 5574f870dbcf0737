import Kobox.Closure.Types

/-!
# Closure builder: operations (`src/closure.c:135-675`)

Every operation returns its status and the storage it leaves. An operation that may grow
a table takes whether the allocator has memory for it.
-/

namespace Kobox.Closure
open Control (Status digestSize)

abbrev Result := Status × Storage

def digestIsZero (digest : List UInt8) : Bool := digest.all fun byte => byte == 0

/-- The bytes a name may have: printable ASCII but space, slash and backslash. -/
def nameByteValid (byte : UInt8) : Bool :=
  !(byte < 0x21 || byte > 0x7e || byte == 0x2f || byte == 0x5c)

def nameValid : Option (List UInt8) → Bool
  | none => false
  | some name => name.length != 0 && decide (name.length ≤ nameMax) && name.all nameByteValid

/-- `kb2_copy_name`, of a name that is not longer than `KB2_CLOSURE_NAME_MAX`. -/
def copyName (destination : NameBuffer) (name : List UInt8) : NameBuffer :=
  name ++ 0 :: destination.drop (name.length + 1)

/-- The comparison of a stored name with an argument, by length and by bytes. -/
def nameEquals (stored : NameBuffer) (name : List UInt8) : Bool :=
  strlen stored == name.length && stored.take name.length == name

/-! ### Tables -/

namespace Table
variable {α : Type}

/-- The capacity `kb2_reserve` asks for. -/
def newCapacity (capacity maximumCount : ℕ) : ℕ :=
  let doubled := if capacity = 0 then 8 else capacity * 2 % 2 ^ 64
  if doubled < capacity ∨ maximumCount < doubled then maximumCount else doubled

def reserve (t : Table α) (zero : α) (itemSize maximumCount : ℕ) (allocated : Bool) :
    Status × Table α :=
  if t.count < t.capacity then (.ok, t)
  else if maximumCount ≤ t.count then (.resourceExhausted, t)
  else
    let capacity := newCapacity t.capacity maximumCount
    if sizeMax / itemSize < capacity then (.resourceExhausted, t)
    else if allocated = false then (.noMemory, t)
    else (.ok, { t with slots := t.records ++ List.replicate (capacity - t.count) zero })

def fill (t : Table α) (write : α → α) : Table α :=
  ⟨t.slots.modify t.count write, t.count + 1⟩

def add (t : Table α) (zero : α) (itemSize maximumCount : ℕ) (allocated : Bool) (write : α → α) :
    Status × Table α :=
  let (status, t) := t.reserve zero itemSize maximumCount allocated
  if status ≠ .ok then (status, t) else (.ok, t.fill write)

def update (t : Table α) (test : α → Bool) (write : α → α) : Table α :=
  match t.records.findIdx? test with
  | none => t
  | some index => { t with slots := t.slots.modify index write }

end Table

/-! The sizes of the records in the LP64 data model. -/

def artifactRecordSize : ℕ := 564
def dependencyRecordSize : ℕ := 8
def exportRecordSize : ℕ := 136
def importRecordSize : ℕ := 272
def resourceRecordSize : ℕ := 72
def resourceBindingRecordSize : ℕ := 8

def findArtifact (s : Storage) (nodeId : UInt32) : Option ArtifactRecord :=
  s.artifacts.records.find? fun record => record.nodeId == nodeId

def findExport (s : Storage) (nodeId : UInt32) (symbol : NameBuffer) (kind : SymbolKind) :
    Option ExportRecord :=
  s.exports.records.find? fun record =>
    record.nodeId == nodeId && record.kind == kind && strcmp record.symbol symbol == .eq

def hasDependency (s : Storage) (consumerNodeId providerNodeId : UInt32) : Bool :=
  s.dependencies.records.any fun record =>
    record.consumerNodeId == consumerNodeId && record.providerNodeId == providerNodeId

/-! ### Operations -/

def create (manifestDigest : Option (List UInt8)) (allocated : Bool) : Status × Option Storage :=
  match manifestDigest with
  | none => (.invalidArgument, none)
  | some digest =>
    if digest.length ≠ digestSize then (.invalidArgument, none)
    else if digestIsZero digest then (.invalidConfiguration, none)
    else if allocated = false then (.noMemory, none)
    else (.ok, some (.created digest))

def addArtifact (s : Storage) (nodeId : UInt32) (kind : Option ArtifactKind)
    (contentDigest namespaceName : Option (List UInt8)) (allocated : Bool) : Result :=
  match kind, contentDigest, namespaceName with
  | some kind, some digest, some name =>
    if nodeId = 0 ∨ digest.length ≠ digestSize ∨ nameValid (some name) = false then
      (.invalidArgument, s)
    else if digestIsZero digest then (.invalidConfiguration, s)
    else if s.artifacts.records.any fun record =>
        record.nodeId == nodeId || nameEquals record.namespaceName name then
      (.invalidConfiguration, s)
    else
      let (status, artifacts) := s.artifacts.add .zero artifactRecordSize maxArtifacts allocated
        fun record => { record with
          nodeId, kind, contentDigest := digest
          namespaceName := copyName record.namespaceName name }
      (status, { s with artifacts })
  | _, _, _ => (.invalidArgument, s)

def setLifecycle (s : Storage) (nodeId : UInt32)
    (initSymbol quiesceSymbol cleanupSymbol : Option (List UInt8)) : Result :=
  match initSymbol, quiesceSymbol, cleanupSymbol with
  | some init, some quiesce, some cleanup =>
    if nodeId = 0 ∨ nameValid (some init) = false ∨ nameValid (some quiesce) = false ∨
        nameValid (some cleanup) = false then
      (.invalidArgument, s)
    else match findArtifact s nodeId with
      | none => (.invalidConfiguration, s)
      | some found =>
        if found.lifecycleSet then (.invalidConfiguration, s)
        else
          let artifacts := s.artifacts.update (fun record => record.nodeId == nodeId)
            fun record => { record with
              initSymbol := copyName record.initSymbol init
              quiesceSymbol := copyName record.quiesceSymbol quiesce
              cleanupSymbol := copyName record.cleanupSymbol cleanup
              lifecycleSet := true }
          (.ok, { s with artifacts })
  | _, _, _ => (.invalidArgument, s)

def setNativeLifecycle (s : Storage) (nodeId : UInt32) : Result :=
  if nodeId = 0 then (.invalidArgument, s)
  else match findArtifact s nodeId with
    | none => (.invalidConfiguration, s)
    | some found =>
      if found.lifecycleSet then (.invalidConfiguration, s)
      else
        let artifacts := s.artifacts.update (fun record => record.nodeId == nodeId)
          fun record => { record with lifecycleSet := true, nativeLifecycle := true }
        (.ok, { s with artifacts })

def markRoot (s : Storage) (nodeId : UInt32) : Result :=
  if nodeId = 0 then (.invalidArgument, s)
  else match findArtifact s nodeId with
    | none => (.invalidConfiguration, s)
    | some found =>
      if found.kind ≠ .relocatableModule ∨ found.isRoot = true then (.invalidConfiguration, s)
      else
        let artifacts := s.artifacts.update (fun record => record.nodeId == nodeId)
          fun record => { record with isRoot := true }
        (.ok, { s with artifacts })

def addDependency (s : Storage) (consumerNodeId providerNodeId : UInt32) (allocated : Bool) :
    Result :=
  if consumerNodeId = 0 ∨ providerNodeId = 0 then (.invalidArgument, s)
  else if consumerNodeId = providerNodeId ∨ hasDependency s consumerNodeId providerNodeId = true then
    (.invalidConfiguration, s)
  else
    let (status, dependencies) :=
      s.dependencies.add .zero dependencyRecordSize maxDependencies allocated
        fun _ => { consumerNodeId, providerNodeId }
    (status, { s with dependencies })

def addExport (s : Storage) (nodeId : UInt32) (symbol : Option (List UInt8))
    (kind : Option SymbolKind) (allocated : Bool) : Result :=
  match symbol, kind with
  | some name, some kind =>
    if nodeId = 0 ∨ nameValid (some name) = false then (.invalidArgument, s)
    else if s.exports.records.any fun record =>
        record.nodeId == nodeId && nameEquals record.symbol name then
      (.invalidConfiguration, s)
    else
      let (status, exports) := s.exports.add .zero exportRecordSize maxSymbols allocated
        fun record => { symbol := copyName record.symbol name, nodeId, kind }
      (status, { s with exports })
  | _, _ => (.invalidArgument, s)

def addImport (s : Storage) (consumerNodeId : UInt32) (consumerSymbol : Option (List UInt8))
    (providerNodeId : UInt32) (providerSymbol : Option (List UInt8)) (kind : Option SymbolKind)
    (flags : UInt32) (allocated : Bool) : Result :=
  match consumerSymbol, providerSymbol, kind with
  | some consumer, some provider, some kind =>
    if consumerNodeId = 0 ∨ nameValid (some consumer) = false ∨ nameValid (some provider) = false ∨
        flags &&& ~~~importOptional ≠ 0 then
      (.invalidArgument, s)
    else if s.imports.records.any fun record =>
        record.consumerNodeId == consumerNodeId && nameEquals record.consumerSymbol consumer then
      (.invalidConfiguration, s)
    else
      let (status, imports) := s.imports.add .zero importRecordSize maxSymbols allocated
        fun record =>
          { consumerSymbol := copyName record.consumerSymbol consumer
            providerSymbol := copyName record.providerSymbol provider
            consumerNodeId, providerNodeId, kind, flags }
      (status, { s with imports })
  | _, _, _ => (.invalidArgument, s)

/-- The conditions on counts, rights and flags (`closure.c:616-621`). -/
def resourceValid (type : ResourceType) (minimumCount maximumCount : UInt32)
    (requiredRights maximumRights : UInt64) (flags : UInt32) : Bool :=
  !(maximumCount == 0 || decide (maximumCount < minimumCount) || maximumRights == 0 ||
    maximumRights &&& ~~~knownResourceRights type != 0 ||
    requiredRights &&& ~~~maximumRights != 0 ||
    (flags &&& resourceRequired != 0 && minimumCount == 0))

def addResource (s : Storage) (slotId : UInt32) (type : Option ResourceType)
    (interfaceSchemaDigest : Option (List UInt8)) (minimumCount maximumCount : UInt32)
    (requiredRights maximumRights : UInt64) (flags : UInt32) (allocated : Bool) : Result :=
  match type, interfaceSchemaDigest with
  | some type, some digest =>
    if slotId = 0 ∨ digest.length ≠ digestSize ∨ flags &&& ~~~knownResourceFlags ≠ 0 then
      (.invalidArgument, s)
    else if digestIsZero digest then (.invalidConfiguration, s)
    else if resourceValid type minimumCount maximumCount requiredRights maximumRights flags = false
      then (.invalidConfiguration, s)
    else if s.resources.records.any fun record => record.slotId == slotId then
      (.invalidConfiguration, s)
    else
      let (status, resources) := s.resources.add .zero resourceRecordSize maxResources allocated
        fun _ => { interfaceSchemaDigest := digest, requiredRights, maximumRights, slotId, type,
                   minimumCount, maximumCount, flags }
      (status, { s with resources })
  | _, _ => (.invalidArgument, s)

def bindResource (s : Storage) (slotId nodeId : UInt32) (allocated : Bool) : Result :=
  if slotId = 0 ∨ nodeId = 0 then (.invalidArgument, s)
  else if s.resourceBindings.records.any fun record =>
      record.slotId == slotId && record.nodeId == nodeId then
    (.invalidConfiguration, s)
  else
    let (status, resourceBindings) :=
      s.resourceBindings.add .zero resourceBindingRecordSize maxResourceBindings allocated
        fun _ => { slotId, nodeId }
    (status, { s with resourceBindings })

inductive Call where
  | addArtifact (nodeId : UInt32) (kind : Option ArtifactKind)
      (contentDigest namespaceName : Option (List UInt8))
  | setLifecycle (nodeId : UInt32) (initSymbol quiesceSymbol cleanupSymbol : Option (List UInt8))
  | setNativeLifecycle (nodeId : UInt32)
  | markRoot (nodeId : UInt32)
  | addDependency (consumerNodeId providerNodeId : UInt32)
  | addExport (nodeId : UInt32) (symbol : Option (List UInt8)) (kind : Option SymbolKind)
  | addImport (consumerNodeId : UInt32) (consumerSymbol : Option (List UInt8))
      (providerNodeId : UInt32) (providerSymbol : Option (List UInt8)) (kind : Option SymbolKind)
      (flags : UInt32)
  | addResource (slotId : UInt32) (type : Option ResourceType)
      (interfaceSchemaDigest : Option (List UInt8)) (minimumCount maximumCount : UInt32)
      (requiredRights maximumRights : UInt64) (flags : UInt32)
  | bindResource (slotId nodeId : UInt32)
  deriving DecidableEq, Repr

/-- A call, with whether the allocator has memory should the call ask for it. -/
def perform (s : Storage) (call : Call) (allocated : Bool) : Result :=
  match call with
  | .addArtifact nodeId kind contentDigest namespaceName =>
    addArtifact s nodeId kind contentDigest namespaceName allocated
  | .setLifecycle nodeId initSymbol quiesceSymbol cleanupSymbol =>
    setLifecycle s nodeId initSymbol quiesceSymbol cleanupSymbol
  | .setNativeLifecycle nodeId => setNativeLifecycle s nodeId
  | .markRoot nodeId => markRoot s nodeId
  | .addDependency consumerNodeId providerNodeId =>
    addDependency s consumerNodeId providerNodeId allocated
  | .addExport nodeId symbol kind => addExport s nodeId symbol kind allocated
  | .addImport consumerNodeId consumerSymbol providerNodeId providerSymbol kind flags =>
    addImport s consumerNodeId consumerSymbol providerNodeId providerSymbol kind flags allocated
  | .addResource slotId type digest minimumCount maximumCount requiredRights maximumRights flags =>
    addResource s slotId type digest minimumCount maximumCount requiredRights maximumRights flags
      allocated
  | .bindResource slotId nodeId => bindResource s slotId nodeId allocated

def run (s : Storage) (calls : List (Call × Bool)) : Storage :=
  calls.foldl (fun s c => (perform s c.1 c.2).2) s

end Kobox.Closure
