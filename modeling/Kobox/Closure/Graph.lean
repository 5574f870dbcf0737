import Kobox.Closure.NodeMap

/-!
# The dependency graph (`src/closure.c:771-904`)
-/

namespace Kobox.Closure
open Control (Status)
open Worklist List Function Option
open Relation (TransGen ReflTransGen)
variable {a : Adjacency} {index : ℕ} {deps : List DependencyRecord}

/-- The chains and the counts are those of the edges linked so far. -/
structure Adjacency.Holds (a : Adjacency) (edges : List (ℕ × ℕ)) : Prop where
  heads : ∀ u e, a.heads u = some e → e < edges.length
  next : ∀ e < edges.length, ∀ e', a.next e = some e' → e' < edges.length
  chain : ∀ u fuel, edges.length ≤ fuel → a.chain fuel (a.heads u) = successors edges u
  incoming : ∀ v, a.incoming v = edges.countP fun edge => edge.2 = v

theorem Adjacency.holds_empty : Adjacency.empty.Holds [] where
  heads := nofun
  next := nofun
  chain u fuel _ := by cases fuel <;> rfl
  incoming _ := rfl

theorem Adjacency.chain_link (consumer provider : ℕ)
    (hnext : ∀ e < index, ∀ e', a.next e = some e' → e' < index) (fuel : ℕ) {start : Option ℕ}
    (hstart : ∀ e, start = some e → e < index) :
    (a.link index consumer provider).chain fuel start = a.chain fuel start := by
  induction fuel generalizing start with
  | zero => rfl
  | succ fuel ih =>
    cases start with
    | none => rfl
    | some e =>
      have he := hstart e rfl
      have hne : e ≠ index := Nat.ne_of_lt he
      simp only [chain, link, update_of_ne hne]
      rw [← ih (hnext e he)]
      rfl

theorem Adjacency.Holds.link {edges : List (ℕ × ℕ)} (h : a.Holds edges) (consumer provider : ℕ) :
    (a.link edges.length consumer provider).Holds (edges ++ [(consumer, provider)]) := by
  refine ⟨fun u e hu => ?_, fun e he e' hn => ?_, fun u fuel hfuel => ?_, fun v => ?_⟩
  · rw [length_append, length_singleton]
    by_cases huc : u = consumer
    · subst huc
      simp only [Adjacency.link, update_self, some.injEq] at hu
      omega
    · simp only [Adjacency.link, update_of_ne huc] at hu
      exact Nat.lt_succ_of_lt (h.heads u e hu)
  · rw [length_append, length_singleton] at he ⊢
    by_cases hindex : e = edges.length
    · simp only [Adjacency.link, hindex, update_self] at hn
      exact Nat.lt_succ_of_lt (h.heads _ e' hn)
    · simp only [Adjacency.link, update_of_ne hindex] at hn
      exact Nat.lt_succ_of_lt (h.next e (by omega) e' hn)
  · rw [length_append, length_singleton] at hfuel
    rw [successors_append]
    by_cases huc : consumer = u
    · subst huc
      -- the new edge is the head of the chain, the old chain follows it
      obtain ⟨fuel, rfl⟩ : ∃ n, fuel = n + 1 := ⟨fuel - 1, by omega⟩
      have hhead : (a.link edges.length consumer provider).heads consumer = some edges.length := by
        simp [Adjacency.link]
      have hnext : (a.link edges.length consumer provider).next edges.length =
          a.heads consumer := by simp [Adjacency.link]
      have htarget : (a.link edges.length consumer provider).targets edges.length = provider := by
        simp [Adjacency.link]
      rw [if_pos rfl, hhead, Adjacency.chain, hnext, htarget,
        Adjacency.chain_link consumer provider h.next fuel (h.heads consumer),
        h.chain consumer fuel (by omega)]
    · have hhead : (a.link edges.length consumer provider).heads u = a.heads u := by
        simp [Adjacency.link, Ne.symm huc]
      rw [if_neg huc, hhead, Adjacency.chain_link consumer provider h.next fuel (h.heads u),
        h.chain u fuel (by omega)]
  · rw [countP_append]
    by_cases hv : v = provider
    · subst hv
      simp [Adjacency.link, h.incoming]
    · simp [Adjacency.link, update_of_ne hv, h.incoming, Ne.symm hv]

/-- A dependency that `kb2_validate_graph` takes, and the edge it is linked as. -/
structure Joins (s : Storage) (map : List NodeMapEntry) (d : DependencyRecord) (edge : ℕ × ℕ) :
    Prop where
  consumer : nodeMapFind map d.consumerNodeId = some edge.1
  provider : nodeMapFind map d.providerNodeId = some edge.2
  layered : ¬(artifactKind s edge.1 = some .sharedProvider ∧
    artifactKind s edge.2 ≠ some .sharedProvider)

section
variable {s : Storage} {map : List NodeMapEntry} {a a' : Adjacency} {edges : List (ℕ × ℕ)}

theorem linkDependency_iff {d : DependencyRecord} :
    linkDependency s map a index d = some a' ↔
      ∃ edge, Joins s map d edge ∧ a.incoming edge.2 ≠ uint32Max ∧
        a' = a.link index edge.1 edge.2 := by
  unfold linkDependency
  constructor
  · intro h
    split at h
    · rename_i consumer provider hc hp
      split_ifs at h with hin hkind
      exact ⟨(consumer, provider), ⟨hc, hp, hkind⟩, hin, (some.inj h).symm⟩
    · cases h
  · rintro ⟨edge, hjoins, hin, rfl⟩
    rw [hjoins.consumer, hjoins.provider]
    simp only [hin, hjoins.layered, if_false]

theorem linkDependencies_holds (h : a.Holds edges)
    (hlink : linkDependencies s map deps edges.length a = some a') :
    ∃ new, List.Forall₂ (Joins s map) deps new ∧ a'.Holds (edges ++ new) := by
  induction deps generalizing a edges with
  | nil =>
    obtain rfl := some.inj hlink
    exact ⟨[], .nil, by rwa [append_nil]⟩
  | cons d deps ih =>
    obtain ⟨a₁, hfirst, hrest⟩ := bind_eq_some_iff.mp hlink
    obtain ⟨edge, hjoins, -, rfl⟩ := linkDependency_iff.mp hfirst
    obtain ⟨new, hnew, hholds⟩ := ih (h.link edge.1 edge.2) (by simpa using hrest)
    exact ⟨edge :: new, .cons hjoins hnew, by simpa using hholds⟩

theorem linkDependencies_total (h : a.Holds edges) (hmax : edges.length + deps.length ≤ uint32Max)
    (hjoins : ∀ d ∈ deps, ∃ edge, Joins s map d edge) :
    ∃ a', linkDependencies s map deps edges.length a = some a' := by
  induction deps generalizing a edges with
  | nil => exact ⟨a, rfl⟩
  | cons d deps ih =>
    rw [length_cons] at hmax
    obtain ⟨edge, hedge⟩ := hjoins d mem_cons_self
    have hin : a.incoming edge.2 ≠ uint32Max := by
      have hcount : (edges.countP fun e => e.2 = edge.2) ≤ edges.length := countP_le_length
      rw [h.incoming]
      omega
    have hfirst : linkDependency s map a edges.length d =
        some (a.link edges.length edge.1 edge.2) := linkDependency_iff.mpr ⟨edge, hedge, hin, rfl⟩
    obtain ⟨a', hrest⟩ := ih (h.link edge.1 edge.2)
      (by rw [length_append, length_singleton]; omega)
      fun d hd => hjoins d (mem_cons_of_mem _ hd)
    rw [length_append, length_singleton] at hrest
    exact ⟨a', bind_eq_some_iff.mpr ⟨_, hfirst, hrest⟩⟩

end

/-- A check that succeeds exactly when `P` holds, and refuses the configuration otherwise. -/
structure Decides (status : Status) (P : Prop) : Prop where
  ok : P → status = .ok
  refused : ¬P → status = .invalidConfiguration

def Records.DependsOn (r : Records) (consumer provider : UInt32) : Prop :=
  ∃ d ∈ r.dependencies, d.consumerNodeId = consumer ∧ d.providerNodeId = provider

def Records.Joined (r : Records) : Prop :=
  ∀ d ∈ r.dependencies, r.Declares d.consumerNodeId ∧ r.Declares d.providerNodeId

def Records.Layered (r : Records) : Prop :=
  ∀ d ∈ r.dependencies, ∀ a ∈ r.artifacts, ∀ b ∈ r.artifacts, a.nodeId = d.consumerNodeId →
    b.nodeId = d.providerNodeId → a.kind = .sharedProvider → b.kind ≠ .relocatableModule

def Records.Acyclic (r : Records) : Prop := ∀ node, ¬TransGen r.DependsOn node node

/-- A path of dependencies leads to every node from a root. -/
def Records.Rooted (r : Records) : Prop :=
  ∀ a ∈ r.artifacts, ∃ root ∈ r.artifacts, root.isRoot = true ∧
    ReflTransGen r.DependsOn root.nodeId a.nodeId

/-- What `kb2_validate_graph` demands of the dependencies. -/
structure Records.GraphValid (r : Records) : Prop where
  joined : r.Joined
  layered : r.Layered
  acyclic : r.Acyclic
  rooted : r.Rooted

section
variable {s : Storage} (hn : (s.artifacts.records.map ArtifactRecord.nodeId).Nodup)

include hn

theorem joins_iff :
    (∀ d ∈ s.dependencies.records, ∃ edge, Joins s (buildNodeMap s) d edge) ↔
      s.records.Joined ∧ s.records.Layered := by
  constructor
  · intro h
    refine ⟨fun d hd => ?_, fun d hd a ha b hb hac hbp hshared hkind => ?_⟩
    · obtain ⟨edge, hedge⟩ := h d hd
      exact ⟨(nodeMapFind_isSome_iff hn).mp (by rw [hedge.consumer]; rfl),
        (nodeMapFind_isSome_iff hn).mp (by rw [hedge.provider]; rfl)⟩
    · obtain ⟨edge, hedge⟩ := h d hd
      obtain ⟨a', ha', hid⟩ := (nodeMapFind_iff hn).mp hedge.consumer
      obtain ⟨b', hb', hid'⟩ := (nodeMapFind_iff hn).mp hedge.provider
      obtain rfl : a' = a :=
        inj_on_of_nodup_map hn (mem_of_getElem? ha') ha (hid.trans hac.symm)
      obtain rfl : b' = b :=
        inj_on_of_nodup_map hn (mem_of_getElem? hb') hb (hid'.trans hbp.symm)
      refine hedge.layered ⟨?_, ?_⟩
      · rw [artifactKind, ha', map_some, hshared]
      · rw [artifactKind, hb', map_some, hkind]
        exact nofun
  · rintro ⟨hjoined, hlayered⟩ d hd
    obtain ⟨hconsumer, hprovider⟩ := hjoined d hd
    obtain ⟨c, hc⟩ := isSome_iff_exists.mp ((nodeMapFind_isSome_iff hn).mpr hconsumer)
    obtain ⟨p, hp⟩ := isSome_iff_exists.mp ((nodeMapFind_isSome_iff hn).mpr hprovider)
    obtain ⟨a, ha, hac⟩ := (nodeMapFind_iff hn).mp hc
    obtain ⟨b, hb, hbp⟩ := (nodeMapFind_iff hn).mp hp
    refine ⟨(c, p), hc, hp, fun ⟨hshared, hkind⟩ => ?_⟩
    rw [artifactKind, ha, map_some, some.injEq] at hshared
    rw [artifactKind, hb, map_some, ne_eq, some.injEq] at hkind
    have hne := hlayered d hd a (mem_of_getElem? ha) b (mem_of_getElem? hb) hac hbp hshared
    cases hk : b.kind with
    | sharedProvider => exact hkind hk
    | relocatableModule => exact hne hk

omit hn in
theorem joins_mem {edges : List (ℕ × ℕ)} {map : List NodeMapEntry}
    (h : List.Forall₂ (Joins s map) deps edges) :
    (∀ d ∈ deps, ∃ edge ∈ edges, Joins s map d edge) ∧
      ∀ edge ∈ edges, ∃ d ∈ deps, Joins s map d edge := by
  induction h with
  | nil => exact ⟨nofun, nofun⟩
  | cons hjoins _ ih =>
    refine ⟨fun d hd => ?_, fun edge hedge => ?_⟩
    · rcases mem_cons.mp hd with rfl | hd
      · exact ⟨_, mem_cons_self, hjoins⟩
      · obtain ⟨edge, hedge, hjoins⟩ := ih.1 d hd
        exact ⟨edge, mem_cons_of_mem _ hedge, hjoins⟩
    · rcases mem_cons.mp hedge with rfl | hedge
      · exact ⟨_, mem_cons_self, hjoins⟩
      · obtain ⟨d, hd, hjoins⟩ := ih.2 edge hedge
        exact ⟨d, mem_cons_of_mem _ hd, hjoins⟩

theorem index_lt {nodeId : UInt32} (h : nodeMapFind (buildNodeMap s) nodeId = some index) :
    index < s.artifacts.records.length := by
  obtain ⟨a, ha, -⟩ := (nodeMapFind_iff hn).mp h
  exact (List.getElem?_eq_some_iff.mp ha).1

variable {edges : List (ℕ × ℕ)}
  (hedges : List.Forall₂ (Joins s (buildNodeMap s)) s.dependencies.records edges)

include hedges

theorem edges_source : ∀ edge ∈ edges, edge.1 ∈ List.range s.artifacts.records.length := by
  intro edge hedge
  obtain ⟨d, -, hjoins⟩ := (joins_mem hedges).2 edge hedge
  exact mem_range.mpr (index_lt hn hjoins.consumer)

theorem coded_edges : Coded (nodeMapFind (buildNodeMap s)) s.records.DependsOn
    (Edge (List.range s.artifacts.records.length) (successors edges)) where
  injective := nodeMapFind_inj hn
  encode := by
    rintro c p ⟨d, hd, rfl, rfl⟩
    obtain ⟨edge, hedge, hjoins⟩ := (joins_mem hedges).1 d hd
    exact ⟨edge.1, edge.2, hjoins.consumer, hjoins.provider,
      (edge_successors (edges_source hn hedges)).mpr hedge⟩
  decode := by
    intro u v huv
    obtain ⟨d, hd, hjoins⟩ :=
      (joins_mem hedges).2 (u, v) ((edge_successors (edges_source hn hedges)).mp huv)
    exact ⟨d.consumerNodeId, d.providerNodeId, hjoins.consumer, hjoins.provider, d, hd, rfl, rfl⟩

theorem edges_closed : Closed (List.range s.artifacts.records.length) (successors edges) := by
  intro u v huv
  obtain ⟨c, p, -, hp, -⟩ := (coded_edges hn hedges).decode huv
  exact mem_range.mpr (index_lt hn hp)

theorem kahn_edges_iff (hholds : a.Holds edges) :
    (kahn (List.range s.artifacts.records.length) (successors edges) a.incoming).done.length =
      s.artifacts.records.length ↔ s.records.Acyclic := by
  have hin : ∀ v, a.incoming v =
      edgesInto (List.range s.artifacts.records.length) (successors edges) [] v := fun v =>
    (hholds.incoming v).trans (edgesInto_successors nodup_range (edges_source hn hedges)).symm
  have hkahn := kahn_iff nodup_range (edges_closed hn hedges) hin
  rw [length_range] at hkahn
  exact hkahn.trans (coded_edges hn hedges).acyclic_iff

theorem reach_edges_iff (hcount : s.artifacts.records.length = s.artifacts.count) :
    (List.range s.artifacts.records.length).all
      (reach (List.range s.artifacts.records.length) (rootIndices s) (successors edges)).state = true ↔
      s.records.Rooted := by
  have hmem : ∀ index, index ∈ rootIndices s ↔
      ∃ a, s.artifacts.records[index]? = some a ∧ a.isRoot = true := by
    intro index
    rw [rootIndices, List.mem_filter, List.mem_range, ← hcount, any_eq_true_iff_get]
    constructor
    · rintro ⟨-, hsome, hroot⟩
      exact ⟨_, (some_get hsome).symm, hroot⟩
    · rintro ⟨a, ha, hroot⟩
      refine ⟨(List.getElem?_eq_some_iff.mp ha).1, by rw [ha]; rfl, ?_⟩
      simpa [ha] using hroot
  have hroots : ∀ r ∈ rootIndices s, r ∈ List.range s.artifacts.records.length := by
    intro r hr
    obtain ⟨a, ha, -⟩ := (hmem r).mp hr
    exact List.mem_range.mpr (List.getElem?_eq_some_iff.mp ha).1
  have hreach := reach_iff (edges_closed hn hedges) (List.nodup_range.filter _) hroots
  have hpath : ∀ {c p u v}, nodeMapFind (buildNodeMap s) c = some u →
      nodeMapFind (buildNodeMap s) p = some v → (ReflTransGen (Edge _ (successors edges)) u v ↔
        ReflTransGen s.records.DependsOn c p) := (coded_edges hn hedges).reflTransGen_iff
  rw [List.all_eq_true]
  constructor
  · intro hall a ha
    obtain ⟨index, ha⟩ := List.mem_iff_getElem?.mp ha
    have hlt := (List.getElem?_eq_some_iff.mp ha).1
    obtain ⟨r, hr, hp⟩ := (hreach index).mp (hall index (List.mem_range.mpr hlt))
    obtain ⟨root, hroot, hisRoot⟩ := (hmem r).mp hr
    exact ⟨root, List.mem_of_getElem? hroot, hisRoot, (hpath
      ((nodeMapFind_iff hn).mpr ⟨root, hroot, rfl⟩) ((nodeMapFind_iff hn).mpr ⟨a, ha, rfl⟩)).mp hp⟩
  · intro hrooted index hindex
    obtain ⟨a, ha⟩ : ∃ a, s.artifacts.records[index]? = some a :=
      ⟨_, List.getElem?_eq_getElem (List.mem_range.mp hindex)⟩
    obtain ⟨root, hroot, hisRoot, hp⟩ := hrooted a (List.mem_of_getElem? ha)
    obtain ⟨r, hroot⟩ := List.mem_iff_getElem?.mp hroot
    exact (hreach index).mpr ⟨r, (hmem r).mpr ⟨root, hroot, hisRoot⟩, (hpath
      ((nodeMapFind_iff hn).mpr ⟨root, hroot, rfl⟩) ((nodeMapFind_iff hn).mpr ⟨a, ha, rfl⟩)).mpr hp⟩

end

theorem validateGraph_decides {s : Storage}
    (hn : (s.artifacts.records.map ArtifactRecord.nodeId).Nodup)
    (hcount : s.artifacts.records.length = s.artifacts.count)
    (hdeps : s.dependencies.records.length = s.dependencies.count)
    (hmax : s.dependencies.count ≤ maxDependencies) (n : ℕ) :
    Decides (validateGraph s (buildNodeMap s) (fun _ => true) n) s.records.GraphValid := by
  have hmemory : ¬graphAllocated s (fun _ => true) n = false := by simp [graphAllocated]
  have hbound : ([] : List (ℕ × ℕ)).length + s.dependencies.records.length ≤ uint32Max := by
    have hle : maxDependencies ≤ uint32Max := by decide
    simp only [length_nil]
    omega
  unfold validateGraph
  rw [if_neg hmemory]
  cases hlink : linkDependencies s (buildNodeMap s) s.dependencies.records 0 .empty with
  | none =>
    refine ⟨fun hvalid => ?_, fun _ => rfl⟩
    have hjoins := (joins_iff hn).mpr ⟨hvalid.joined, hvalid.layered⟩
    obtain ⟨a', ha'⟩ := linkDependencies_total Adjacency.holds_empty hbound hjoins
    rw [length_nil, hlink] at ha'
    cases ha'
  | some a =>
    obtain ⟨edges, hedges, hholds⟩ := linkDependencies_holds Adjacency.holds_empty hlink
    rw [nil_append] at hholds
    have hchain : (fun node => a.chain s.dependencies.count (a.heads node)) = successors edges := by
      funext node
      refine hholds.chain node _ ?_
      rw [← hedges.length_eq, hdeps]
    have hjoins := (joins_iff hn).mp fun d hd =>
      (((joins_mem hedges).1 d hd).imp fun _ h => h.2)
    have hkahn := kahn_edges_iff hn hedges hholds
    have hreach := reach_edges_iff hn hedges hcount
    simp only [hchain, ← hcount] at hkahn hreach ⊢
    by_cases hacyclic : s.records.Acyclic
    · rw [if_neg (not_not.mpr (hkahn.mpr hacyclic))]
      by_cases hrooted : s.records.Rooted
      · rw [if_neg (by rw [hreach.mpr hrooted]; decide)]
        exact ⟨fun _ => rfl, fun h => absurd ⟨hjoins.1, hjoins.2, hacyclic, hrooted⟩ h⟩
      · rw [if_pos (Bool.eq_false_iff.mpr fun h => hrooted (hreach.mp h))]
        exact ⟨fun h => absurd h.rooted hrooted, fun _ => rfl⟩
    · rw [if_pos fun h => hacyclic (hkahn.mp h)]
      exact ⟨fun h => absurd h.acyclic hacyclic, fun _ => rfl⟩

end Kobox.Closure
