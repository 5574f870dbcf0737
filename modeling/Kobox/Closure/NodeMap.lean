import Kobox.Closure.Seal
import Kobox.Closure.Records

/-!
# The node map (`src/closure.c:677-708`, `src/closure.c:748-769`)
-/

namespace Kobox.Closure
open List Option

def NodeMapEntry.After (left right : NodeMapEntry) : Prop := right.nodeId ≤ left.nodeId

instance : DecidableRel NodeMapEntry.After := fun left right =>
  inferInstanceAs (Decidable (right.nodeId ≤ left.nodeId))

instance : Std.Total NodeMapEntry.After := ⟨fun left right => UInt32.le_total right.nodeId left.nodeId⟩

instance : IsTrans NodeMapEntry NodeMapEntry.After := ⟨fun _ _ _ h h' => UInt32.le_trans h' h⟩

theorem sortNodeMap_eq (map : List NodeMapEntry) :
    sortNodeMap map = (map.reverse.insertionSort NodeMapEntry.After).reverse := by
  rw [List.insertionSort, foldr_reverse]
  rfl

theorem sortNodeMap_perm (map : List NodeMapEntry) : (sortNodeMap map).Perm map := by
  rw [sortNodeMap_eq]
  exact (reverse_perm _).trans
    ((perm_insertionSort _ _).trans (reverse_perm map))

theorem sortNodeMap_sorted (map : List NodeMapEntry) :
    (sortNodeMap map).Pairwise fun left right => left.nodeId ≤ right.nodeId := by
  rw [sortNodeMap_eq, pairwise_reverse]
  exact pairwise_insertionSort NodeMapEntry.After _

section
variable {s : Storage}

theorem mem_buildNodeMap {entry : NodeMapEntry} :
    entry ∈ buildNodeMap s ↔
      ∃ a, s.artifacts.records[entry.index]? = some a ∧ a.nodeId = entry.nodeId := by
  rw [buildNodeMap, (sortNodeMap_perm _).mem_iff, List.mem_mapIdx]
  constructor
  · rintro ⟨index, hindex, rfl⟩
    exact ⟨_, List.getElem?_eq_getElem hindex, rfl⟩
  · rintro ⟨a, ha, hid⟩
    obtain ⟨hindex, rfl⟩ := List.getElem?_eq_some_iff.mp ha
    exact ⟨entry.index, hindex, by rw [hid]⟩

section
variable (hn : (s.artifacts.records.map ArtifactRecord.nodeId).Nodup)
include hn

theorem buildNodeMap_nodup : ((buildNodeMap s).map NodeMapEntry.nodeId).Nodup := by
  refine ((sortNodeMap_perm _).map _).nodup_iff.mpr ?_
  have hids : (s.artifacts.records.mapIdx fun index record =>
      NodeMapEntry.mk record.nodeId index).map NodeMapEntry.nodeId =
        s.artifacts.records.map ArtifactRecord.nodeId :=
    ext_getElem (by simp) fun i _ _ => by simp
  rw [hids]
  exact hn

theorem buildNodeMap_ascending :
    BinarySearch.Ascending (fun i => ((buildNodeMap s)[i]?).map fun entry => entry.nodeId.toNat)
      (buildNodeMap s).length where
  present i hi := ⟨_, by rw [List.getElem?_eq_getElem hi]; rfl⟩
  ascending := by
    intro i j k l hij hj hk hl
    obtain ⟨x, hx, rfl⟩ := map_eq_some_iff.mp hk
    obtain ⟨y, hy, rfl⟩ := map_eq_some_iff.mp hl
    obtain ⟨hi, rfl⟩ := List.getElem?_eq_some_iff.mp hx
    obtain ⟨-, rfl⟩ := List.getElem?_eq_some_iff.mp hy
    have hle := List.pairwise_iff_getElem.mp (sortNodeMap_sorted _) i j hi hj hij
    have hpairs := List.pairwise_map.mp (buildNodeMap_nodup hn)
    have hne := List.pairwise_iff_getElem.mp hpairs i j hi hj hij
    exact Nat.lt_of_le_of_ne hle fun heq => hne (UInt32.toNat_inj.mp heq)

theorem nodeMapFind_iff {nodeId : UInt32} {index : ℕ} :
    nodeMapFind (buildNodeMap s) nodeId = some index ↔
      ∃ a, s.artifacts.records[index]? = some a ∧ a.nodeId = nodeId := by
  rw [nodeMapFind, bind_eq_some_iff]
  constructor
  · rintro ⟨position, hfind, hindex⟩
    obtain ⟨-, hkey⟩ := BinarySearch.find_sound hfind
    obtain ⟨entry, hentry, rfl⟩ := map_eq_some_iff.mp hindex
    rw [hentry] at hkey
    have hid : entry.nodeId = nodeId := UInt32.toNat_inj.mp (some.inj hkey)
    rw [← hid]
    exact mem_buildNodeMap.mp (mem_of_getElem? hentry)
  · rintro ⟨a, ha, rfl⟩
    have hmem : ⟨a.nodeId, index⟩ ∈ buildNodeMap s := mem_buildNodeMap.mpr ⟨a, ha, rfl⟩
    obtain ⟨position, hlt, hentry⟩ := mem_iff_getElem.mp hmem
    have hentry : (buildNodeMap s)[position]? = some ⟨a.nodeId, index⟩ :=
      List.getElem?_eq_some_iff.mpr ⟨hlt, hentry⟩
    refine ⟨position, (BinarySearch.find_eq_some_iff (buildNodeMap_ascending hn)).mpr ⟨hlt, ?_⟩, ?_⟩
    · rw [hentry]
      rfl
    · rw [hentry]
      rfl

end

def Records.Declares (r : Records) (nodeId : UInt32) : Prop :=
  ∃ a ∈ r.artifacts, a.nodeId = nodeId

theorem nodeMapFind_isSome_iff (hn : (s.artifacts.records.map ArtifactRecord.nodeId).Nodup)
    {nodeId : UInt32} :
    (nodeMapFind (buildNodeMap s) nodeId).isSome = true ↔ s.records.Declares nodeId := by
  rw [isSome_iff_exists]
  constructor
  · rintro ⟨index, hfind⟩
    obtain ⟨a, ha, hid⟩ := (nodeMapFind_iff hn).mp hfind
    exact ⟨a, mem_of_getElem? ha, hid⟩
  · rintro ⟨a, ha, hid⟩
    obtain ⟨index, ha⟩ := mem_iff_getElem?.mp ha
    exact ⟨index, (nodeMapFind_iff hn).mpr ⟨a, ha, hid⟩⟩

theorem nodeMapFind_inj (hn : (s.artifacts.records.map ArtifactRecord.nodeId).Nodup)
    {node node' : UInt32} {index : ℕ} (h : nodeMapFind (buildNodeMap s) node = some index)
    (h' : nodeMapFind (buildNodeMap s) node' = some index) : node = node' := by
  obtain ⟨a, ha, rfl⟩ := (nodeMapFind_iff hn).mp h
  obtain ⟨b, hb, rfl⟩ := (nodeMapFind_iff hn).mp h'
  rw [ha] at hb
  rw [some.inj hb]

end

end Kobox.Closure
