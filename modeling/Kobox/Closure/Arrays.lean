import Kobox.Closure.NodeMap
import Kobox.Library.Checked

/-!
# Node map and graph on arrays (`src/closure.c:674-708`, `src/closure.c:748-904`)

The functions on the arrays of the source. What the allocator returns may hold anything. A
`size_t` is a natural number here; none of them runs over, and `SIZE_MAX` stands for no index.
-/

namespace Kobox.Closure.Arrays
open Control (Status)
open Checked List

/-- The arrays of a validation that are not cleared before use, as they are allocated. -/
structure Memory (s : Storage) where
  map : List NodeMapEntry
  queue : List ℕ
  next : List ℕ
  targets : List ℕ
  map_length : map.length = s.artifacts.count
  queue_length : queue.length = s.artifacts.count
  next_length : next.length = s.dependencies.count
  targets_length : targets.length = s.dependencies.count

/-! ### The node map -/

/-- The inner loop of `kb2_sort_node_map`, from `position` down. -/
def insertEntry (value : NodeMapEntry) : ℕ → List NodeMapEntry → Run Status (List NodeMapEntry)
  | 0, map => store map 0 value
  | position + 1, map => do
    let previous ← load map position
    if previous.nodeId > value.nodeId then
      insertEntry value position (← store map (position + 1) previous)
    else store map (position + 1) value

def sortNodeMap (map : List NodeMapEntry) (count : ℕ) : Run Status (List NodeMapEntry) :=
  -- The loop of the source begins at index 1.
  loop (count - 1) (fun map i => do insertEntry (← load map (i + 1)) (i + 1) map) map

/-- The loop of `kb2_node_map_find` on `[first, last)`. -/
def searchNodeMap (map : List NodeMapEntry) (nodeId : UInt32) : ℕ → ℕ → ℕ → Run Status ℕ
  | 0, _, _ => throw .running
  | fuel + 1, first, last =>
    if first < last then do
      let middle := first + (last - first) / 2
      let entry ← load map middle
      if entry.nodeId = nodeId then return entry.index
      else if entry.nodeId < nodeId then searchNodeMap map nodeId fuel (middle + 1) last
      else searchNodeMap map nodeId fuel first middle
    else return sizeMax

def nodeMapFind (map : List NodeMapEntry) (count : ℕ) (nodeId : UInt32) : Run Status ℕ :=
  searchNodeMap map nodeId (count + 1) 0 count

def fillNodeMap (s : Storage) (map : List NodeMapEntry) : Run Status (List NodeMapEntry) :=
  loop s.artifacts.count (fun map index => do
    let artifact ← load s.artifacts.records index
    store map index ⟨artifact.nodeId, index⟩) map

def buildNodeMap (s : Storage) (memory : Memory s) (granted : Bool) :
    Run Status (List NodeMapEntry) :=
  if sizeMax / nodeMapEntrySize < s.artifacts.count then throw (.finish .resourceExhausted)
  else if granted = false then throw (.finish .noMemory)
  else do sortNodeMap (← fillNodeMap s memory.map) s.artifacts.count

structure Links where
  heads : List ℕ
  next : List ℕ
  targets : List ℕ
  incoming : List UInt32

def Links.link (links : Links) (index consumer provider : ℕ) : Run Status Links := do
  let next ← store links.next index (← load links.heads consumer)
  let targets ← store links.targets index provider
  let heads ← store links.heads consumer index
  let incoming ← load links.incoming provider
  return ⟨heads, next, targets, ← store links.incoming provider (incoming + 1)⟩

def linkDependency (s : Storage) (map : List NodeMapEntry) (links : Links) (index : ℕ) :
    Run Status Links := do
  let dependency ← load s.dependencies.records index
  let consumer ← nodeMapFind map s.artifacts.count dependency.consumerNodeId
  let provider ← nodeMapFind map s.artifacts.count dependency.providerNodeId
  if consumer = sizeMax ∨ provider = sizeMax then throw (.finish .invalidConfiguration)
  else do
    let incoming ← load links.incoming provider
    if incoming = 0xFFFFFFFF then throw (.finish .invalidConfiguration)
    else do
      let consumerArtifact ← load s.artifacts.records consumer
      let providerArtifact ← load s.artifacts.records provider
      if consumerArtifact.kind = .sharedProvider ∧ providerArtifact.kind ≠ .sharedProvider then
        throw (.finish .invalidConfiguration)
      else links.link index consumer provider

def linkDependencies (s : Storage) (memory : Memory s) (map : List NodeMapEntry) :
    Run Status Links :=
  loop s.dependencies.count (linkDependency s map)
    ⟨List.replicate s.artifacts.count sizeMax, memory.next, memory.targets,
      List.replicate s.artifacts.count 0⟩

/-! ### The passes -/

/-- A pass over the graph: what it keeps for the nodes, the queue, and the edge its inner loop
is at, which is `SIZE_MAX` when that loop is over. -/
structure Pass (σ : Type) where
  state : σ
  queue : List ℕ
  queueBegin : ℕ
  queueEnd : ℕ
  edge : ℕ

/-- What the two passes do differently: when a node is taken off the queue, and with a provider,
which is to be put into the queue or not. -/
structure Phase (σ : Type) where
  take : σ → σ
  visit : σ → ℕ → Run Status (σ × Bool)

section Steps
variable {σ : Type}

def Pass.enqueue (p : Pass σ) (node : ℕ) : Run Status (Pass σ) := do
  return { p with queue := ← store p.queue p.queueEnd node, queueEnd := p.queueEnd + 1 }

def Pass.step (links : Links) (phase : Phase σ) (p : Pass σ) : Run Status (Option (Pass σ)) :=
  if p.edge ≠ sizeMax then do
    let provider ← load links.targets p.edge
    let (state, ready) ← phase.visit p.state provider
    let p' ← if ready then ({ p with state } : Pass σ).enqueue provider else pure { p with state }
    return some { p' with edge := ← load links.next p.edge }
  else if p.queueBegin < p.queueEnd then do
    let node ← load p.queue p.queueBegin
    return some { p with
      state := phase.take p.state
      queueBegin := p.queueBegin + 1
      edge := ← load links.heads node }
  else return none

def Pass.enqueued (p : Pass σ) : List ℕ := p.queue.take p.queueEnd

end Steps

structure Counters where
  incoming : List UInt32
  processed : ℕ

def topological : Phase Counters where
  take c := { c with processed := c.processed + 1 }
  visit c provider := do
    let incoming := (← load c.incoming provider) - 1
    return ({ c with incoming := ← store c.incoming provider incoming }, incoming == 0)

def reachability : Phase (List Bool) where
  take reachable := reachable
  visit reachable provider := do
    if ← load reachable provider then return (reachable, false)
    else return (← store reachable provider true, true)

def topologicalStart (s : Storage) (links : Links) (queue : List ℕ) : Run Status (Pass Counters) :=
  loop s.artifacts.count (fun p index => do
    if (← load p.state.incoming index) = 0 then p.enqueue index else return p)
    ⟨⟨links.incoming, 0⟩, queue, 0, 0, sizeMax⟩

def reachabilityStart (s : Storage) (queue : List ℕ) : Run Status (Pass (List Bool)) :=
  loop s.artifacts.count (fun p index => do
    if (← load s.artifacts.records index).isRoot then
      ({ p with state := ← store p.state index true } : Pass (List Bool)).enqueue index
    else return p)
    ⟨List.replicate s.artifacts.count false, queue, 0, 0, sizeMax⟩

def passFuel (s : Storage) : ℕ := s.artifacts.count * (s.dependencies.count + 1) + 1

def topologicalPass (s : Storage) (links : Links) (queue : List ℕ) : Run Status (Pass Counters) := do
  runFor (Pass.step links topological) (passFuel s) (← topologicalStart s links queue)

def reachabilityPass (s : Storage) (links : Links) (queue : List ℕ) :
    Run Status (Pass (List Bool)) := do
  runFor (Pass.step links reachability) (passFuel s) (← reachabilityStart s queue)

def checkReachable (s : Storage) (reachable : List Bool) : Run Status Unit :=
  loop s.artifacts.count (fun _ index => do
    if (← load reachable index) = false then throw (.finish .invalidConfiguration)) ()

def validateGraph (s : Storage) (memory : Memory s) (map : List NodeMapEntry)
    (grants : ℕ → Bool) (n : ℕ) : Run Status Unit :=
  if graphAllocated s grants n = false then throw (.finish .noMemory)
  else do
    let links ← linkDependencies s memory map
    let sorted ← topologicalPass s links memory.queue
    if sorted.state.processed ≠ s.artifacts.count then throw (.finish .invalidConfiguration)
    else do
      let reached ← reachabilityPass s links sorted.queue
      checkReachable s reached.state

def status : Run Status Unit → Option Status
  | .ok () => some .ok
  | .error (.finish status) => some status
  | .error _ => none

/-! ### Sorting and searching -/

section NodeMap
variable {map : List NodeMapEntry} {nodeId : UInt32}

theorem insertEntry_eq (value : NodeMapEntry) (before : List NodeMapEntry) (hole : NodeMapEntry)
    (after : List NodeMapEntry) :
    insertEntry value before.length (before ++ hole :: after) =
      .ok ((before.reverse.orderedInsert
        (fun value entry => entry.nodeId ≤ value.nodeId) value).reverse ++ after) := by
  induction before using List.reverseRecOn generalizing hole after with
  | nil => rfl
  | append_singleton before previous ih =>
    have hload : (load (before ++ [previous] ++ hole :: after) before.length :
        Run Status NodeMapEntry) = .ok previous := load_eq (by simp)
    have hstore : ∀ x, (store (before ++ [previous] ++ hole :: after) (before.length + 1) x :
        Run Status _) = .ok (before ++ [previous] ++ x :: after) := by
      intro x
      rw [store_eq (by simp), set_append_right _ _ (by simp)]
      simp
    rw [length_append, length_singleton, insertEntry, hload, ok_bind, hstore, hstore,
      reverse_append, reverse_singleton, singleton_append, orderedInsert_cons]
    by_cases hgt : previous.nodeId > value.nodeId
    · have hle : ¬previous.nodeId ≤ value.nodeId := UInt32.not_le.mpr hgt
      rw [if_pos hgt, if_neg hle, ok_bind, append_assoc, singleton_append, ih,
        reverse_cons, append_assoc, singleton_append]
    · have hle : previous.nodeId ≤ value.nodeId := UInt32.not_lt.mp hgt
      rw [if_neg hgt, if_pos hle]
      simp

theorem sortNodeMap_append (map : List NodeMapEntry) (value : NodeMapEntry) :
    Closure.sortNodeMap (map ++ [value]) = ((Closure.sortNodeMap map).reverse.orderedInsert
      (fun value entry => entry.nodeId ≤ value.nodeId) value).reverse := by
  rw [Closure.sortNodeMap, foldl_append, foldl_cons, foldl_nil, Closure.sortNodeMap,
    reverse_reverse]

theorem sortNodeMap_length (map : List NodeMapEntry) :
    (Closure.sortNodeMap map).length = map.length := (sortNodeMap_perm map).length_eq

theorem sortNodeMap_ok (map : List NodeMapEntry) :
    sortNodeMap map map.length = .ok (Closure.sortNodeMap map) := by
  cases map with
  | nil => rfl
  | cons first rest =>
    -- Before turn `i` the first `i + 1` entries are sorted and the others are as they were.
    have hloop : ∃ m, sortNodeMap (first :: rest) (rest.length + 1) = .ok m ∧
        m = Closure.sortNodeMap ((first :: rest).take (rest.length + 1)) ++
          rest.drop rest.length := by
      refine loop_ok (I := fun i m =>
        m = Closure.sortNodeMap ((first :: rest).take (i + 1)) ++ rest.drop i) rfl ?_
      rintro i m hi rfl
      have hlt : i < rest.length := hi
      have hlength : (Closure.sortNodeMap ((first :: rest).take (i + 1))).length = i + 1 := by
        rw [sortNodeMap_length, length_take, length_cons]
        omega
      have hload : (Closure.sortNodeMap ((first :: rest).take (i + 1)) ++ rest.drop i)[i + 1]? =
          some rest[i] := by
        rw [getElem?_append_right hlength.le, hlength, Nat.sub_self,
          drop_eq_getElem_cons hlt]
        rfl
      have htake : (first :: rest).take (i + 1) ++ [rest[i]] = (first :: rest).take (i + 2) := by
        rw [take_add_one (i := i + 1), getElem?_cons_succ, getElem?_eq_getElem hlt]
        rfl
      refine ⟨_, ?_, rfl⟩
      rw [load_eq hload, ok_bind, drop_eq_getElem_cons hlt]
      have hinsert := insertEntry_eq rest[i] (Closure.sortNodeMap ((first :: rest).take (i + 1)))
        rest[i] (rest.drop (i + 1))
      rw [hlength, ← sortNodeMap_append, htake] at hinsert
      exact hinsert
    obtain ⟨m, hm, hsorted⟩ := hloop
    have hall : (first :: rest).take (rest.length + 1) = first :: rest :=
      take_of_length_le (Nat.le_refl _)
    rw [hall, drop_length, append_nil] at hsorted
    rw [← hsorted]
    exact hm

theorem searchNodeMap_eq {fuel first last : ℕ} (hfuel : last - first ≤ fuel)
    (hlast : last ≤ map.length) :
    searchNodeMap map nodeId (fuel + 1) first last =
      .ok (((BinarySearch.search (fun i => (map[i]?).map fun entry => entry.nodeId.toNat)
        nodeId.toNat fuel first last).bind fun position =>
          (map[position]?).map NodeMapEntry.index).getD sizeMax) := by
  induction fuel generalizing first last with
  | zero =>
    have hempty : ¬first < last := by omega
    rw [searchNodeMap, if_neg hempty]
    rfl
  | succ fuel ih =>
    rw [searchNodeMap, BinarySearch.search]
    by_cases hlt : first < last
    · rw [if_pos hlt, if_pos hlt]
      have hmiddle : first + (last - first) / 2 < map.length := by omega
      have hentry := getElem?_eq_getElem hmiddle
      dsimp only
      rw [load_eq hentry, ok_bind, hentry, Option.map_some]
      dsimp only
      by_cases heq : (map[first + (last - first) / 2]).nodeId = nodeId
      · have heq' := congrArg UInt32.toNat heq
        rw [if_pos heq, if_pos heq', Option.bind_some, hentry]
        rfl
      · have hne : ¬(map[first + (last - first) / 2]).nodeId.toNat = nodeId.toNat :=
          fun h => heq (UInt32.toNat_inj.mp h)
        rw [if_neg heq, if_neg hne]
        by_cases hless : (map[first + (last - first) / 2]).nodeId < nodeId
        · have hless' := UInt32.lt_iff_toNat_lt.mp hless
          rw [if_pos hless, if_pos hless']
          exact ih (by omega) hlast
        · have hless' := fun h => hless (UInt32.lt_iff_toNat_lt.mpr h)
          rw [if_neg hless, if_neg hless']
          exact ih (by omega) (by omega)
    · rw [if_neg hlt, if_neg hlt]
      rfl

theorem nodeMapFind_eq (map : List NodeMapEntry) (nodeId : UInt32) :
    nodeMapFind map map.length nodeId = .ok ((Closure.nodeMapFind map nodeId).getD sizeMax) :=
  searchNodeMap_eq (Nat.le_refl _) (Nat.le_refl _)

end NodeMap

section Build
variable {s : Storage} (hcount : s.artifacts.records.length = s.artifacts.count)
  (hids : (s.artifacts.records.map ArtifactRecord.nodeId).Nodup)

theorem buildNodeMap_length : (Closure.buildNodeMap s).length = s.artifacts.records.length := by
  rw [Closure.buildNodeMap, sortNodeMap_length, length_mapIdx]

include hids in
theorem artifacts_length_le : s.artifacts.records.length ≤ 2 ^ 32 := by
  have hnodup : ((s.artifacts.records.map ArtifactRecord.nodeId).map UInt32.toNat).Nodup :=
    hids.map fun _ _ h => UInt32.toNat_inj.mp h
  have hrange : ∀ id ∈ (s.artifacts.records.map ArtifactRecord.nodeId).map UInt32.toNat,
      id ∈ List.range (2 ^ 32) := by
    intro id hid
    obtain ⟨nodeId, -, rfl⟩ := mem_map.mp hid
    exact mem_range.mpr nodeId.toNat_lt
  have hle := Worklist.length_le_of_subset hnodup hrange
  rw [length_map, length_map, length_range] at hle
  exact hle

include hids in
theorem index_ne_sizeMax {nodeId : UInt32} {index : ℕ}
    (h : Closure.nodeMapFind (Closure.buildNodeMap s) nodeId = some index) : index ≠ sizeMax := by
  obtain ⟨a, ha, -⟩ := (nodeMapFind_iff hids).mp h
  have hlt := (List.getElem?_eq_some_iff.mp ha).1
  have hle := artifacts_length_le hids
  have hmax : sizeMax = 2 ^ 64 - 1 := rfl
  omega

include hcount in
theorem fillNodeMap_ok {map : List NodeMapEntry} (hmap : map.length = s.artifacts.count) :
    fillNodeMap s map =
      .ok (s.artifacts.records.mapIdx fun index record => ⟨record.nodeId, index⟩) := by
  have hloop : ∃ m, fillNodeMap s map = .ok m ∧ m.length = s.artifacts.count ∧
      ∀ j < s.artifacts.count, m[j]? =
        (s.artifacts.records[j]?).map fun record => ⟨record.nodeId, j⟩ := by
    refine loop_ok (I := fun i (m : List NodeMapEntry) => m.length = s.artifacts.count ∧
      ∀ j < i, m[j]? = (s.artifacts.records[j]?).map fun record => ⟨record.nodeId, j⟩)
      ⟨hmap, nofun⟩ ?_
    intro i m hi ⟨hlength, hentries⟩
    have hrecord := getElem?_eq_getElem (hi.trans_eq hcount.symm)
    have hroom : i < m.length := hi.trans_eq hlength.symm
    rw [load_eq hrecord, ok_bind, store_eq hroom]
    refine ⟨_, rfl, by rw [length_set, hlength], fun j hj => ?_⟩
    by_cases hji : j = i
    · rw [hji, getElem?_set_self hroom, hrecord]
      rfl
    · rw [getElem?_set_ne (Ne.symm hji)]
      exact hentries j (by omega)
  obtain ⟨m, hm, hlength, hentries⟩ := hloop
  rw [hm]
  congr 1
  refine ext_getElem? fun j => ?_
  rw [getElem?_mapIdx]
  by_cases hj : j < s.artifacts.count
  · exact hentries j hj
  · rw [getElem?_eq_none (by omega), getElem?_eq_none (by omega)]
    rfl

include hcount hids in
theorem buildNodeMap_ok (memory : Memory s) :
    buildNodeMap s memory true = .ok (Closure.buildNodeMap s) := by
  have hfits : ¬sizeMax / nodeMapEntrySize < s.artifacts.count := by
    have hle := artifacts_length_le hids
    have hmax : sizeMax / nodeMapEntrySize = 2 ^ 60 - 1 := by decide
    omega
  have hsort := sortNodeMap_ok (s.artifacts.records.mapIdx fun index record =>
    ⟨record.nodeId, index⟩)
  rw [length_mapIdx, hcount] at hsort
  rw [buildNodeMap, if_neg hfits, if_neg (by decide), fillNodeMap_ok hcount memory.map_length]
  exact hsort

include hcount hids

theorem nodeMapFind_present {a : ArtifactRecord} {index : ℕ}
    (h : s.artifacts.records[index]? = some a) :
    nodeMapFind (Closure.buildNodeMap s) s.artifacts.count a.nodeId = .ok index := by
  rw [← hcount, ← buildNodeMap_length, nodeMapFind_eq, (nodeMapFind_iff hids).mpr ⟨a, h, rfl⟩]
  rfl

theorem nodeMapFind_absent {nodeId : UInt32} (h : ¬s.records.Declares nodeId) :
    nodeMapFind (Closure.buildNodeMap s) s.artifacts.count nodeId = .ok sizeMax := by
  have hnone : Closure.nodeMapFind (Closure.buildNodeMap s) nodeId = none := by
    rw [← Option.not_isSome_iff_eq_none, nodeMapFind_isSome_iff hids]
    exact h
  rw [← hcount, ← buildNodeMap_length, nodeMapFind_eq, hnone]
  rfl

end Build

end Kobox.Closure.Arrays
