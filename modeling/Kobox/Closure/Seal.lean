import Kobox.Closure.Builder
import Kobox.Library.BinarySearch
import Kobox.Library.Worklist
import Mathlib.Data.List.Sort

/-!
# Closure builder: sealing (`src/closure.c:30-133`, `src/closure.c:677-1127`)

Sealing asks the allocator several times: the `n`-th request of a call is granted when
`grants n` is true. `qsort` belongs to the C library and is a parameter.
-/

namespace Kobox.Closure
open Control (Status)

/-! ### Order -/

def compareArtifacts (left right : ArtifactRecord) : Ordering := compare left.nodeId right.nodeId

def compareDependencies (left right : DependencyRecord) : Ordering :=
  (compare left.consumerNodeId right.consumerNodeId).then
    (compare left.providerNodeId right.providerNodeId)

def compareExports (left right : ExportRecord) : Ordering :=
  (compare left.nodeId right.nodeId).then
    ((strcmp left.symbol right.symbol).then (compare left.kind.code right.kind.code))

def compareImports (left right : ImportRecord) : Ordering :=
  (compare left.consumerNodeId right.consumerNodeId).then
    ((strcmp left.consumerSymbol right.consumerSymbol).then
      (compare left.providerNodeId right.providerNodeId))

def compareResources (left right : ResourceRecord) : Ordering := compare left.slotId right.slotId

def compareResourceBindings (left right : ResourceBindingRecord) : Ordering :=
  (compare left.slotId right.slotId).then (compare left.nodeId right.nodeId)

structure Sorter (α : Type) (compare : α → α → Ordering) where
  sort : List α → List α
  perm : ∀ l, (sort l).Perm l
  sorted : ∀ l, (sort l).Pairwise fun a b => compare a b ≠ .gt

/-- What `qsort` does with each of the six comparisons. -/
structure Qsort where
  artifacts : Sorter ArtifactRecord compareArtifacts
  dependencies : Sorter DependencyRecord compareDependencies
  exports : Sorter ExportRecord compareExports
  imports : Sorter ImportRecord compareImports
  resources : Sorter ResourceRecord compareResources
  resourceBindings : Sorter ResourceBindingRecord compareResourceBindings

def sortArray {α : Type} {compare : α → α → Ordering} (qsort : Sorter α compare) (t : Table α) :
    Table α :=
  if 1 < t.count then { t with slots := qsort.sort t.records ++ t.slots.drop t.count } else t

def storageSort (qsort : Qsort) (s : Storage) : Storage :=
  { s with
    artifacts := sortArray qsort.artifacts s.artifacts
    dependencies := sortArray qsort.dependencies s.dependencies
    exports := sortArray qsort.exports s.exports
    imports := sortArray qsort.imports s.imports
    resources := sortArray qsort.resources s.resources
    resourceBindings := sortArray qsort.resourceBindings s.resourceBindings }

structure NodeMapEntry where
  nodeId : UInt32
  index : ℕ
  deriving DecidableEq, Repr

/-- The insertion sort of the node map. The entries sorted so far are kept from the last
to the first, which is the order the inner loop meets them in. -/
def sortNodeMap (map : List NodeMapEntry) : List NodeMapEntry :=
  (map.foldl (fun sorted value =>
    sorted.orderedInsert (fun value entry => entry.nodeId ≤ value.nodeId) value) []).reverse

def buildNodeMap (s : Storage) : List NodeMapEntry :=
  sortNodeMap (s.artifacts.records.mapIdx fun index record => ⟨record.nodeId, index⟩)

def nodeMapFind (map : List NodeMapEntry) (nodeId : UInt32) : Option ℕ :=
  (BinarySearch.find (fun i => (map[i]?).map fun entry => entry.nodeId.toNat) map.length
    nodeId.toNat).bind fun position => (map[position]?).map NodeMapEntry.index

/-! ### Validation -/

def lifecycleExported (s : Storage) (artifact : ArtifactRecord) : Bool :=
  (findExport s artifact.nodeId artifact.initSymbol .function).isSome &&
    (findExport s artifact.nodeId artifact.quiesceSymbol .function).isSome &&
    (findExport s artifact.nodeId artifact.cleanupSymbol .function).isSome

def countArtifacts (s : Storage) (native : Bool) :
    List ArtifactRecord → ℕ → ℕ → Option (ℕ × ℕ)
  | [], providers, roots => some (providers, roots)
  | artifact :: rest, providers, roots =>
    if artifact.lifecycleSet = false ∨ artifact.nativeLifecycle ≠ native then none
    else if artifact.nativeLifecycle = false ∧ lifecycleExported s artifact = false then none
    else
      let providers := providers + if artifact.kind = .sharedProvider then 1 else 0
      if artifact.isRoot then
        if artifact.kind ≠ .relocatableModule then none
        else countArtifacts s native rest providers (roots + 1)
      else countArtifacts s native rest providers roots

def validateArtifacts (s : Storage) : Status :=
  match s.artifacts.records with
  | [] => .invalidConfiguration
  | first :: rest =>
    match countArtifacts s first.nativeLifecycle (first :: rest) 0 0 with
    | none => .invalidConfiguration
    | some (providers, roots) =>
      if first.nativeLifecycle = true ∧ providers ≠ 1 then .invalidConfiguration
      else if roots = 0 then .invalidConfiguration
      else .ok

/-- The edges by consumer: `heads` and `next` chain the dependencies of a consumer, the
last one first, and `targets` has the provider of each. -/
structure Adjacency where
  heads : ℕ → Option ℕ
  next : ℕ → Option ℕ
  targets : ℕ → ℕ
  incoming : ℕ → ℕ

def Adjacency.empty : Adjacency := ⟨fun _ => none, fun _ => none, fun _ => 0, fun _ => 0⟩

def Adjacency.link (a : Adjacency) (index consumer provider : ℕ) : Adjacency where
  heads := Function.update a.heads consumer (some index)
  next := Function.update a.next index (a.heads consumer)
  targets := Function.update a.targets index provider
  incoming := Function.update a.incoming provider (a.incoming provider + 1)

def Adjacency.chain (a : Adjacency) : ℕ → Option ℕ → List ℕ
  | 0, _ => []
  | _ + 1, none => []
  | fuel + 1, some edge => a.targets edge :: a.chain fuel (a.next edge)

def artifactKind (s : Storage) (index : ℕ) : Option ArtifactKind :=
  (s.artifacts.records[index]?).map ArtifactRecord.kind

def linkDependency (s : Storage) (map : List NodeMapEntry) (a : Adjacency) (index : ℕ)
    (dependency : DependencyRecord) : Option Adjacency :=
  match nodeMapFind map dependency.consumerNodeId, nodeMapFind map dependency.providerNodeId with
  | some consumer, some provider =>
    if a.incoming provider = uint32Max then none
    else if artifactKind s consumer = some .sharedProvider ∧
        artifactKind s provider ≠ some .sharedProvider then none
    else some (a.link index consumer provider)
  | _, _ => none

def linkDependencies (s : Storage) (map : List NodeMapEntry) :
    List DependencyRecord → ℕ → Adjacency → Option Adjacency
  | [], _, a => some a
  | dependency :: rest, index, a =>
    (linkDependency s map a index dependency).bind fun a =>
      linkDependencies s map rest (index + 1) a

/-- The arrays of `kb2_validate_graph`, for requests `n` and on. -/
def graphAllocated (s : Storage) (grants : ℕ → Bool) (n : ℕ) : Bool :=
  grants n && grants (n + 1) && grants (n + 2) && grants (n + 3) &&
    (s.dependencies.count == 0 || (grants (n + 4) && grants (n + 5)))

def rootIndices (s : Storage) : List ℕ :=
  (List.range s.artifacts.count).filter fun index =>
    (s.artifacts.records[index]?).any ArtifactRecord.isRoot

def validateGraph (s : Storage) (map : List NodeMapEntry) (grants : ℕ → Bool) (n : ℕ) : Status :=
  if graphAllocated s grants n = false then .noMemory
  else match linkDependencies s map s.dependencies.records 0 .empty with
    | none => .invalidConfiguration
    | some a =>
      let nodes := List.range s.artifacts.count
      let providers := fun node => a.chain s.dependencies.count (a.heads node)
      if (Worklist.kahn nodes providers a.incoming).done.length ≠ s.artifacts.count then
        .invalidConfiguration
      else if nodes.all (Worklist.reach nodes (rootIndices s) providers).state = false then
        .invalidConfiguration
      else .ok

def importValid (s : Storage) (map : List NodeMapEntry) (record : ImportRecord) : Bool :=
  (nodeMapFind map record.consumerNodeId).isSome &&
    (record.providerNodeId == 0 ||
      ((nodeMapFind map record.providerNodeId).isSome &&
        hasDependency s record.consumerNodeId record.providerNodeId &&
        ((findExport s record.providerNodeId record.providerSymbol record.kind).isSome ||
          record.flags &&& importOptional != 0)))

def validateSymbols (s : Storage) (map : List NodeMapEntry) : Status :=
  if s.exports.records.all (fun record => (nodeMapFind map record.nodeId).isSome) = false then
    .invalidConfiguration
  else if s.imports.records.all (importValid s map) = false then .invalidConfiguration
  else .ok

def findResource (s : Storage) (slotId : UInt32) : Option ResourceRecord :=
  s.resources.records.find? fun record => record.slotId == slotId

def bindingValid (s : Storage) (map : List NodeMapEntry) (binding : ResourceBindingRecord) : Bool :=
  (findResource s binding.slotId).isSome && (nodeMapFind map binding.nodeId).isSome

def slotBound (s : Storage) (resource : ResourceRecord) : Bool :=
  let bindingCount := s.resourceBindings.records.countP fun binding =>
    binding.slotId == resource.slotId
  !(bindingCount == 0 || (resource.flags &&& resourceShared == 0 && bindingCount != 1))

def validateResources (s : Storage) (map : List NodeMapEntry) : Status :=
  if s.resourceBindings.records.all (bindingValid s map) = false then .invalidConfiguration
  else if s.resources.records.all (slotBound s) = false then .invalidConfiguration
  else .ok

def nodeMapEntrySize : ℕ := 16

/-- The status, and the number of the next request to the allocator. -/
def validateStorage (s : Storage) (grants : ℕ → Bool) : Status × ℕ :=
  let status := validateArtifacts s
  if status ≠ .ok then (status, 0)
  else if sizeMax / nodeMapEntrySize < s.artifacts.count then (.resourceExhausted, 0)
  else if grants 0 = false then (.noMemory, 1)
  else
    let map := buildNodeMap s
    let n := if s.dependencies.count = 0 then 5 else 7
    let status := validateGraph s map grants 1
    if status ≠ .ok then (status, n)
    else
      let status := validateSymbols s map
      if status ≠ .ok then (status, n) else (validateResources s map, n)

/-- `kb2_clone_array`, with the number of the next request to the allocator. -/
def cloneArray {α : Type} (grants : ℕ → Bool) (itemSize : ℕ) (source : Table α) (n : ℕ) :
    Except Status (Table α × ℕ) :=
  if source.count = 0 then .ok (.empty, n)
  else if sizeMax / itemSize < source.count then .error .resourceExhausted
  else if grants n = false then .error .noMemory
  else .ok (⟨source.records, source.count⟩, n + 1)

def cloneTables (grants : ℕ → Bool) (source : Storage) (n : ℕ) : Except Status Storage := do
  let (artifacts, n) ← cloneArray grants artifactRecordSize source.artifacts n
  let (dependencies, n) ← cloneArray grants dependencyRecordSize source.dependencies n
  let (exports, n) ← cloneArray grants exportRecordSize source.exports n
  let (imports, n) ← cloneArray grants importRecordSize source.imports n
  let (resources, n) ← cloneArray grants resourceRecordSize source.resources n
  let (resourceBindings, _) ←
    cloneArray grants resourceBindingRecordSize source.resourceBindings n
  return ⟨artifacts, dependencies, exports, imports, resources, resourceBindings,
    source.manifestDigest⟩

/-- `kb2_closure_clone`, with requests from `n` on. -/
def clone (qsort : Qsort) (grants : ℕ → Bool) (source : Storage) (n : ℕ) :
    Except Status Storage :=
  if grants n = false then .error .noMemory
  else (cloneTables grants source (n + 1)).map (storageSort qsort)

/-- `kb2_closure_builder_seal`, which leaves the builder as it is. -/
def builderSeal (qsort : Qsort) (grants : ℕ → Bool) (s : Storage) : Except Status Storage :=
  let (status, n) := validateStorage s grants
  if status ≠ .ok then .error status else clone qsort grants s n

end Kobox.Closure
