import Kobox.Manifest.Codec
import Mathlib.Tactic.MkIffOfInductiveProp

/-!
# What the accessors read
-/

namespace Kobox.Manifest
open ByteMemory Protocol Listing List

/-! ### Valid tables -/

section Valid
variable {S T : Type}

/-- The checks of an artifact record by itself. -/
@[mk_iff] structure Artifact.Valid (a : Artifact S) : Prop where
  nodeId : a.nodeId ≠ 0
  contentSize : a.contentSize ≠ 0
  kind : a.kind ≤ artifactKindMax
  flags : a.flags &&& ~~~(flagRoot ||| flagNativeLinux) = 0

instance (a : Artifact S) : Decidable a.Valid := decidable_of_iff _ (a.valid_iff).symm

/-- The checks of an export record by itself. -/
structure Symbol.Valid (s : Symbol S) : Prop where
  nodeId : s.nodeId ≠ 0
  kind : s.kind ≤ symbolKindMax

/-- The checks of an import record by itself. -/
structure Import.Valid (i : Import S) : Prop where
  consumer : i.consumerNodeId ≠ 0
  distinct : i.consumerNodeId ≠ i.providerNodeId
  kind : i.kind ≤ symbolKindMax
  flags : i.flags &&& ~~~importFlagOptional = 0

/-- The checks of a dependency record by itself. -/
structure Dependency.Valid (d : Dependency) : Prop where
  consumer : d.consumerNodeId ≠ 0
  provider : d.providerNodeId ≠ 0
  distinct : d.consumerNodeId ≠ d.providerNodeId

/-- The checks of a resource record by itself, its digest apart. -/
@[mk_iff] structure Resource.Valid (r : Resource) : Prop where
  slotId : r.slotId ≠ 0
  counts : r.minimumCount ≤ r.maximumCount
  rights : r.requiredRights &&& ~~~r.maximumRights = 0

instance (r : Resource) : Decidable r.Valid := decidable_of_iff _ (r.valid_iff).symm

/-- The checks of a binding record by itself. -/
structure Binding.Valid (b : Binding) : Prop where
  slotId : b.slotId ≠ 0
  nodeId : b.nodeId ≠ 0

namespace Tables

def Declares (tables : Tables S) (nodeId : UInt32) : Prop :=
  ∃ a ∈ tables.artifacts, a.nodeId = nodeId

instance (tables : Tables S) (nodeId : UInt32) : Decidable (tables.Declares nodeId) :=
  inferInstanceAs (Decidable (∃ a ∈ tables.artifacts, a.nodeId = nodeId))

/-- Both codecs demand this of the tables: valid records whose nodes are declared, artifacts in
ascending order, and a root. -/
@[mk_iff] structure Valid (tables : Tables S) : Prop where
  artifacts : ∀ a ∈ tables.artifacts, a.Valid
  ascending : tables.artifacts.Pairwise fun a b => a.nodeId < b.nodeId
  root : ∃ a ∈ tables.artifacts, a.flags &&& flagRoot ≠ 0
  dependencies : ∀ d ∈ tables.dependencies, d.consumerNodeId ≠ d.providerNodeId ∧
    tables.Declares d.consumerNodeId ∧ tables.Declares d.providerNodeId
  exports : ∀ e ∈ tables.exports, e.kind ≤ symbolKindMax ∧ tables.Declares e.nodeId
  imports : ∀ i ∈ tables.imports, (i.consumerNodeId ≠ i.providerNodeId ∧
      i.kind ≤ symbolKindMax ∧ i.flags &&& ~~~importFlagOptional = 0) ∧
    tables.Declares i.consumerNodeId ∧ (i.providerNodeId = 0 ∨ tables.Declares i.providerNodeId)
  resources : ∀ r ∈ tables.resources, r.Valid
  bindings : ∀ b ∈ tables.bindings, b.slotId ≠ 0 ∧ tables.Declares b.nodeId

instance (tables : Tables S) : Decidable tables.Valid := decidable_of_iff _ (tables.valid_iff).symm

section Declared
variable {tables : Tables S} (h : tables.Valid)
include h

theorem Valid.ne_zero {nodeId : UInt32} (hd : tables.Declares nodeId) : nodeId ≠ 0 := by
  obtain ⟨a, ha, rfl⟩ := hd
  exact (h.artifacts a ha).nodeId

theorem Valid.dependency {d : Dependency} (hd : d ∈ tables.dependencies) : d.Valid := by
  obtain ⟨hdistinct, hconsumer, hprovider⟩ := h.dependencies d hd
  exact ⟨h.ne_zero hconsumer, h.ne_zero hprovider, hdistinct⟩

theorem Valid.exported {e : Symbol S} (he : e ∈ tables.exports) : e.Valid := by
  obtain ⟨hkind, hnode⟩ := h.exports e he
  exact ⟨h.ne_zero hnode, hkind⟩

theorem Valid.imported {i : Import S} (hi : i ∈ tables.imports) : i.Valid := by
  obtain ⟨⟨hdistinct, hkind, hflags⟩, hconsumer, -⟩ := h.imports i hi
  exact ⟨h.ne_zero hconsumer, hdistinct, hkind, hflags⟩

theorem Valid.binding {b : Binding} (hb : b ∈ tables.bindings) : b.Valid := by
  obtain ⟨hslot, hnode⟩ := h.bindings b hb
  exact ⟨hslot, h.ne_zero hnode⟩

end Declared

theorem declares_map {f : S → T} {tables : Tables S} {nodeId : UInt32} :
    (tables.map f).Declares nodeId ↔ tables.Declares nodeId := by
  simp only [Declares, map, mem_map]
  constructor
  · rintro ⟨_, ⟨a, ha, rfl⟩, hid⟩
    exact ⟨a, ha, hid⟩
  · rintro ⟨a, ha, hid⟩
    exact ⟨_, ⟨a, ha, rfl⟩, hid⟩

theorem valid_map {f : S → T} {tables : Tables S} : (tables.map f).Valid ↔ tables.Valid := by
  have hartifact (a : Artifact S) : (a.map f).Valid ↔ a.Valid :=
    ⟨fun h => ⟨h.1, h.2, h.3, h.4⟩, fun h => ⟨h.1, h.2, h.3, h.4⟩⟩
  have hascending : (tables.artifacts.map (Artifact.map f)).Pairwise
        (fun a b => a.nodeId < b.nodeId) ↔
      tables.artifacts.Pairwise fun a b => a.nodeId < b.nodeId := pairwise_map
  have hroot : (∃ a ∈ tables.artifacts.map (Artifact.map f), a.flags &&& flagRoot ≠ 0) ↔
      ∃ a ∈ tables.artifacts, a.flags &&& flagRoot ≠ 0 := by
    simp only [mem_map, exists_exists_and_eq_and, Artifact.map]
  constructor
  · intro h
    refine ⟨fun a ha => (hartifact a).mp (h.artifacts _ (mem_map_of_mem ha)),
      hascending.mp h.ascending, hroot.mp h.root, fun d hd => ?_, fun e he => ?_, fun i hi => ?_,
      h.resources, fun b hb => ?_⟩
    · simpa only [declares_map] using h.dependencies d hd
    · have hexport := h.exports _ (mem_map_of_mem he)
      rwa [declares_map] at hexport
    · have himport := h.imports _ (mem_map_of_mem hi)
      rwa [declares_map, declares_map] at himport
    · simpa only [declares_map] using h.bindings b hb
  · intro h
    refine ⟨fun _ ha => ?_, hascending.mpr h.ascending, hroot.mpr h.root, fun d hd => ?_,
      fun _ he => ?_, fun _ hi => ?_, h.resources, fun b hb => ?_⟩
    · obtain ⟨a, hmem, rfl⟩ := mem_map.mp ha
      exact (hartifact a).mpr (h.artifacts a hmem)
    · simpa only [declares_map] using h.dependencies d hd
    · obtain ⟨e, hmem, rfl⟩ := mem_map.mp he
      rw [declares_map]
      exact h.exports e hmem
    · obtain ⟨i, hmem, rfl⟩ := mem_map.mp hi
      rw [declares_map, declares_map]
      exact h.imports i hmem
    · simpa only [declares_map] using h.bindings b hb

end Tables

end Valid

section Strings
variable {m : Manifest} {offset length flags : UInt32} {slice : Slice}

theorem decodedString_eq_some : m.decodedString offset length = some slice ↔
    offset.toNat + length.toNat ≤ m.stringTableSize.toNat ∧
      stringValid (m.string slice) = true ∧
      slice = ⟨m.stringsOffset.toNat + offset.toNat, length.toNat⟩ := by
  have hsub (h : ¬offset > m.stringTableSize) :
      (m.stringTableSize - offset).toNat = m.stringTableSize.toNat - offset.toNat :=
    UInt32.toNat_sub_of_le _ _ (UInt32.not_lt.mp h)
  unfold decodedString
  dsimp only
  split_ifs with hrange hvalid
  · constructor
    · nofun
    · rintro ⟨hfit, -⟩
      exfalso
      rcases hrange with hrange | hrange
      · have hlt := UInt32.lt_iff_toNat_lt.mp hrange
        omega
      · by_cases hoffset : offset > m.stringTableSize
        · have hlt := UInt32.lt_iff_toNat_lt.mp hoffset
          omega
        · have hlt := UInt32.lt_iff_toNat_lt.mp hrange
          rw [hsub hoffset] at hlt
          omega
  · have hfit : offset.toNat + length.toNat ≤ m.stringTableSize.toNat := by
      obtain ⟨hoffset, hlength⟩ := not_or.mp hrange
      have hle := UInt32.le_iff_toNat_le.mp (UInt32.not_lt.mp hlength)
      have hle' := UInt32.le_iff_toNat_le.mp (UInt32.not_lt.mp hoffset)
      rw [hsub hoffset] at hle
      omega
    constructor
    · rintro h
      obtain rfl := Option.some.inj h
      exact ⟨hfit, hvalid, rfl⟩
    · rintro ⟨-, -, rfl⟩
      rfl
  · constructor
    · nofun
    · rintro ⟨-, hstring, rfl⟩
      exact absurd hstring hvalid

theorem decodedLifecycle_eq_some : m.decodedLifecycle flags offset length = some slice ↔
    if flags &&& flagNativeLinux ≠ 0 then offset = 0 ∧ length = 0 ∧ slice = .null
    else m.decodedString offset length = some slice := by
  unfold decodedLifecycle
  split_ifs with hnative hzero
  · constructor
    · intro h
      exact ⟨hzero.1, hzero.2, (Option.some.inj h).symm⟩
    · rintro ⟨-, -, rfl⟩
      rfl
  · constructor
    · nofun
    · rintro ⟨hoffset, hlength, -⟩
      exact absurd ⟨hoffset, hlength⟩ hzero
  · rfl

end Strings

/-! ### Stored records -/

section Stored
variable (m : Manifest) (index : ℕ)

/-- The record at `index` is this artifact, its names included. -/
structure StoresArtifact (a : Artifact Slice) : Prop where
  nodeId : loadU32 m.memory (m.record .artifacts index) = a.nodeId
  kind : loadU32 m.memory (m.record .artifacts index + 4) = a.kind
  flags : loadU32 m.memory (m.record .artifacts index + 8) = a.flags
  contentSize : loadU64 m.memory (m.record .artifacts index + 16) = a.contentSize
  contentDigest : loadDigest m.memory (m.record .artifacts index + 24) = a.contentDigest
  reserved0 : bytesAreZero m.memory (m.record .artifacts index + 12) 4 = true
  reserved1 : bytesAreZero m.memory (m.record .artifacts index + 88) 8 = true
  namespaceName : m.decodedString (loadU32 m.memory (m.record .artifacts index + 56))
    (loadU32 m.memory (m.record .artifacts index + 60)) = some a.namespaceName
  initSymbol : m.decodedLifecycle a.flags (loadU32 m.memory (m.record .artifacts index + 64))
    (loadU32 m.memory (m.record .artifacts index + 68)) = some a.initSymbol
  quiesceSymbol : m.decodedLifecycle a.flags (loadU32 m.memory (m.record .artifacts index + 72))
    (loadU32 m.memory (m.record .artifacts index + 76)) = some a.quiesceSymbol
  cleanupSymbol : m.decodedLifecycle a.flags (loadU32 m.memory (m.record .artifacts index + 80))
    (loadU32 m.memory (m.record .artifacts index + 84)) = some a.cleanupSymbol

/-- The record at `index` is this dependency. -/
structure StoresDependency (d : Dependency) : Prop where
  consumer : loadU32 m.memory (m.record .dependencies index) = d.consumerNodeId
  provider : loadU32 m.memory (m.record .dependencies index + 4) = d.providerNodeId

/-- The record at `index` is this export. -/
structure StoresExport (s : Symbol Slice) : Prop where
  nodeId : loadU32 m.memory (m.record .exports index) = s.nodeId
  kind : loadU32 m.memory (m.record .exports index + 4) = s.kind
  name : m.decodedString (loadU32 m.memory (m.record .exports index + 8))
    (loadU32 m.memory (m.record .exports index + 12)) = some s.name

/-- The record at `index` is this import. -/
structure StoresImport (i : Import Slice) : Prop where
  consumer : loadU32 m.memory (m.record .imports index) = i.consumerNodeId
  provider : loadU32 m.memory (m.record .imports index + 4) = i.providerNodeId
  kind : loadU32 m.memory (m.record .imports index + 8) = i.kind
  flags : loadU32 m.memory (m.record .imports index + 12) = i.flags
  consumerName : m.decodedString (loadU32 m.memory (m.record .imports index + 16))
    (loadU32 m.memory (m.record .imports index + 20)) = some i.consumerName
  providerName : m.decodedString (loadU32 m.memory (m.record .imports index + 24))
    (loadU32 m.memory (m.record .imports index + 28)) = some i.providerName

/-- The record at `index` is this resource; the encoder never stores a zero digest. -/
structure StoresResource (r : Resource) : Prop where
  slotId : loadU32 m.memory (m.record .resources index) = r.slotId
  type : loadU32 m.memory (m.record .resources index + 4) = r.type
  minimumCount : loadU32 m.memory (m.record .resources index + 8) = r.minimumCount
  maximumCount : loadU32 m.memory (m.record .resources index + 12) = r.maximumCount
  requiredRights : loadU64 m.memory (m.record .resources index + 16) = r.requiredRights
  maximumRights : loadU64 m.memory (m.record .resources index + 24) = r.maximumRights
  flags : loadU32 m.memory (m.record .resources index + 32) = r.flags
  digest : loadDigest m.memory (m.record .resources index + 40) = r.interfaceSchemaDigest
  nonzero : digestIsZero r.interfaceSchemaDigest = false
  reserved : bytesAreZero m.memory (m.record .resources index + 36) 4 = true

/-- The record at `index` is this binding. -/
structure StoresBinding (b : Binding) : Prop where
  slotId : loadU32 m.memory (m.record .bindings index) = b.slotId
  nodeId : loadU32 m.memory (m.record .bindings index + 4) = b.nodeId

/-- The manifest has the tables, whether they are valid or not. -/
structure Stores (tables : Tables Slice) : Prop where
  artifacts : Lists m.StoresArtifact (m.counts .artifacts).toNat tables.artifacts
  dependencies : Lists m.StoresDependency (m.counts .dependencies).toNat tables.dependencies
  exports : Lists m.StoresExport (m.counts .exports).toNat tables.exports
  imports : Lists m.StoresImport (m.counts .imports).toNat tables.imports
  resources : Lists m.StoresResource (m.counts .resources).toNat tables.resources
  bindings : Lists m.StoresBinding (m.counts .bindings).toNat tables.bindings

end Stored

section Unique
variable {m : Manifest} {index : ℕ}

theorem StoresArtifact.unique {a b : Artifact Slice} (ha : m.StoresArtifact index a)
    (hb : m.StoresArtifact index b) : a = b := by
  have hflags : a.flags = b.flags := ha.flags.symm.trans hb.flags
  have hinit := ha.initSymbol
  have hquiesce := ha.quiesceSymbol
  have hcleanup := ha.cleanupSymbol
  rw [hflags, hb.initSymbol] at hinit
  rw [hflags, hb.quiesceSymbol] at hquiesce
  rw [hflags, hb.cleanupSymbol] at hcleanup
  have hname := ha.namespaceName.symm.trans hb.namespaceName
  rcases a with ⟨⟩
  rcases b with ⟨⟩
  rw [Artifact.mk.injEq]
  exact ⟨ha.nodeId.symm.trans hb.nodeId, ha.kind.symm.trans hb.kind, hflags,
    ha.contentSize.symm.trans hb.contentSize, ha.contentDigest.symm.trans hb.contentDigest,
    Option.some.inj hname, (Option.some.inj hinit).symm, (Option.some.inj hquiesce).symm,
    (Option.some.inj hcleanup).symm⟩

theorem StoresDependency.unique {a b : Dependency} (ha : m.StoresDependency index a)
    (hb : m.StoresDependency index b) : a = b := by
  rcases a with ⟨⟩
  rcases b with ⟨⟩
  rw [Dependency.mk.injEq]
  exact ⟨ha.consumer.symm.trans hb.consumer, ha.provider.symm.trans hb.provider⟩

theorem StoresExport.unique {a b : Symbol Slice} (ha : m.StoresExport index a)
    (hb : m.StoresExport index b) : a = b := by
  have hname := ha.name.symm.trans hb.name
  rcases a with ⟨⟩
  rcases b with ⟨⟩
  rw [Symbol.mk.injEq]
  exact ⟨ha.nodeId.symm.trans hb.nodeId, ha.kind.symm.trans hb.kind, Option.some.inj hname⟩

theorem StoresImport.unique {a b : Import Slice} (ha : m.StoresImport index a)
    (hb : m.StoresImport index b) : a = b := by
  have hconsumer := ha.consumerName.symm.trans hb.consumerName
  have hprovider := ha.providerName.symm.trans hb.providerName
  rcases a with ⟨⟩
  rcases b with ⟨⟩
  rw [Import.mk.injEq]
  exact ⟨ha.consumer.symm.trans hb.consumer, ha.provider.symm.trans hb.provider,
    ha.kind.symm.trans hb.kind, ha.flags.symm.trans hb.flags, Option.some.inj hconsumer,
    Option.some.inj hprovider⟩

theorem StoresResource.unique {a b : Resource} (ha : m.StoresResource index a)
    (hb : m.StoresResource index b) : a = b := by
  rcases a with ⟨⟩
  rcases b with ⟨⟩
  rw [Resource.mk.injEq]
  exact ⟨ha.slotId.symm.trans hb.slotId, ha.type.symm.trans hb.type,
    ha.minimumCount.symm.trans hb.minimumCount, ha.maximumCount.symm.trans hb.maximumCount,
    ha.requiredRights.symm.trans hb.requiredRights, ha.maximumRights.symm.trans hb.maximumRights,
    ha.flags.symm.trans hb.flags, ha.digest.symm.trans hb.digest⟩

theorem StoresBinding.unique {a b : Binding} (ha : m.StoresBinding index a)
    (hb : m.StoresBinding index b) : a = b := by
  rcases a with ⟨⟩
  rcases b with ⟨⟩
  rw [Binding.mk.injEq]
  exact ⟨ha.slotId.symm.trans hb.slotId, ha.nodeId.symm.trans hb.nodeId⟩

theorem Stores.unique {s t : Tables Slice} (hs : m.Stores s) (ht : m.Stores t) : s = t := by
  rcases s with ⟨⟩
  rcases t with ⟨⟩
  rw [Tables.mk.injEq]
  exact ⟨hs.artifacts.unique ht.artifacts fun _ _ _ => StoresArtifact.unique,
    hs.dependencies.unique ht.dependencies fun _ _ _ => StoresDependency.unique,
    hs.exports.unique ht.exports fun _ _ _ => StoresExport.unique,
    hs.imports.unique ht.imports fun _ _ _ => StoresImport.unique,
    hs.resources.unique ht.resources fun _ _ _ => StoresResource.unique,
    hs.bindings.unique ht.bindings fun _ _ _ => StoresBinding.unique⟩

end Unique

section Accessors
variable {m : Manifest} {index : ℕ}

theorem artifactAt_eq_ok {a : Artifact Slice} : m.artifactAt index = .ok a ↔
    index < (m.counts .artifacts).toNat ∧ m.StoresArtifact index a ∧ a.Valid := by
  constructor
  · intro h
    unfold artifactAt at h
    dsimp only at h
    split_ifs at h with hbound hvalid
    split at h
    · rename_i hname hinit hquiesce hcleanup
      obtain rfl := Except.ok.inj h
      simp only [not_or, Bool.not_eq_false, not_not] at hvalid
      obtain ⟨hnode, hsize, hkind, hflags, hzero, hzero'⟩ := hvalid
      exact ⟨Nat.lt_of_not_le hbound,
        ⟨rfl, rfl, rfl, rfl, rfl, hzero, hzero', hname, hinit, hquiesce, hcleanup⟩,
        ⟨hnode, hsize, UInt32.not_lt.mp hkind, hflags⟩⟩
    · cases h
  · rintro ⟨hbound, hs, hv⟩
    unfold artifactAt
    dsimp only
    rw [if_neg (Nat.not_le_of_lt hbound), hs.nodeId, hs.contentSize, hs.kind, hs.flags,
      hs.contentDigest, hs.reserved0, hs.reserved1, if_neg, hs.namespaceName, hs.initSymbol,
      hs.quiesceSymbol, hs.cleanupSymbol]
    simp only [not_or, not_not]
    exact ⟨hv.nodeId, hv.contentSize, UInt32.not_lt.mpr hv.kind, hv.flags, nofun, nofun⟩

theorem dependencyAt_eq_ok {d : Dependency} : m.dependencyAt index = .ok d ↔
    index < (m.counts .dependencies).toNat ∧ m.StoresDependency index d ∧ d.Valid := by
  constructor
  · intro h
    unfold dependencyAt at h
    dsimp only at h
    split_ifs at h with hbound hvalid
    obtain rfl := Except.ok.inj h
    exact ⟨Nat.lt_of_not_le hbound, ⟨rfl, rfl⟩, ⟨hvalid.1, hvalid.2.1, hvalid.2.2⟩⟩
  · rintro ⟨hbound, hs, hv⟩
    unfold dependencyAt
    dsimp only
    rw [if_neg (Nat.not_le_of_lt hbound), hs.consumer, hs.provider,
      if_pos ⟨hv.consumer, hv.provider, hv.distinct⟩]

theorem exportAt_eq_ok {s : Symbol Slice} : m.exportAt index = .ok s ↔
    index < (m.counts .exports).toNat ∧ m.StoresExport index s ∧ s.Valid := by
  constructor
  · intro h
    unfold exportAt at h
    dsimp only at h
    split_ifs at h with hbound hvalid
    split at h
    · rename_i hname
      obtain rfl := Except.ok.inj h
      simp only [not_or] at hvalid
      exact ⟨Nat.lt_of_not_le hbound, ⟨rfl, rfl, hname⟩, ⟨hvalid.1, UInt32.not_lt.mp hvalid.2⟩⟩
    · cases h
  · rintro ⟨hbound, hs, hv⟩
    unfold exportAt
    dsimp only
    rw [if_neg (Nat.not_le_of_lt hbound), hs.nodeId, hs.kind, if_neg, hs.name]
    exact not_or.mpr ⟨hv.nodeId, UInt32.not_lt.mpr hv.kind⟩

theorem importAt_eq_ok {i : Import Slice} : m.importAt index = .ok i ↔
    index < (m.counts .imports).toNat ∧ m.StoresImport index i ∧ i.Valid := by
  constructor
  · intro h
    unfold importAt at h
    dsimp only at h
    split_ifs at h with hbound hvalid
    split at h
    · rename_i hconsumer hprovider
      obtain rfl := Except.ok.inj h
      simp only [not_or, not_not] at hvalid
      obtain ⟨hnode, hdistinct, hkind, hflags⟩ := hvalid
      exact ⟨Nat.lt_of_not_le hbound, ⟨rfl, rfl, rfl, rfl, hconsumer, hprovider⟩,
        ⟨hnode, hdistinct, UInt32.not_lt.mp hkind, hflags⟩⟩
    · cases h
  · rintro ⟨hbound, hs, hv⟩
    unfold importAt
    dsimp only
    rw [if_neg (Nat.not_le_of_lt hbound), hs.consumer, hs.provider, hs.kind, hs.flags, if_neg,
      hs.consumerName, hs.providerName]
    simp only [not_or, not_not]
    exact ⟨hv.consumer, hv.distinct, UInt32.not_lt.mpr hv.kind, hv.flags⟩

theorem resourceAt_eq_ok {r : Resource} : m.resourceAt index = .ok r ↔
    index < (m.counts .resources).toNat ∧ m.StoresResource index r ∧ r.Valid := by
  constructor
  · intro h
    unfold resourceAt at h
    dsimp only at h
    split_ifs at h with hbound hvalid
    obtain rfl := Except.ok.inj h
    simp only [not_or, not_not, Bool.not_eq_true, Bool.not_eq_false] at hvalid
    obtain ⟨hslot, hcounts, hrights, hdigest, hzero⟩ := hvalid
    exact ⟨Nat.lt_of_not_le hbound, ⟨rfl, rfl, rfl, rfl, rfl, rfl, rfl, rfl, hdigest, hzero⟩,
      ⟨hslot, UInt32.not_lt.mp hcounts, hrights⟩⟩
  · rintro ⟨hbound, hs, hv⟩
    unfold resourceAt
    dsimp only
    rw [if_neg (Nat.not_le_of_lt hbound), hs.slotId, hs.type, hs.minimumCount, hs.maximumCount,
      hs.requiredRights, hs.maximumRights, hs.flags, hs.digest, hs.reserved, if_neg]
    simp only [not_or, not_not, hs.nonzero]
    exact ⟨hv.slotId, UInt32.not_lt.mpr hv.counts, hv.rights, nofun, nofun⟩

theorem bindingAt_eq_ok {b : Binding} : m.bindingAt index = .ok b ↔
    index < (m.counts .bindings).toNat ∧ m.StoresBinding index b ∧ b.Valid := by
  constructor
  · intro h
    unfold bindingAt at h
    dsimp only at h
    split_ifs at h with hbound hvalid
    obtain rfl := Except.ok.inj h
    exact ⟨Nat.lt_of_not_le hbound, ⟨rfl, rfl⟩, ⟨hvalid.1, hvalid.2⟩⟩
  · rintro ⟨hbound, hs, hv⟩
    unfold bindingAt
    dsimp only
    rw [if_neg (Nat.not_le_of_lt hbound), hs.slotId, hs.nodeId, if_pos ⟨hv.slotId, hv.nodeId⟩]

end Accessors

/-! ### The decoder's loops -/

/-- The accessors return the records of the tables, in order. -/
structure Reads (m : Manifest) (tables : Tables Slice) : Prop where
  artifacts : Lists (fun index a => m.artifactAt index = .ok a) (m.counts .artifacts).toNat
    tables.artifacts
  dependencies : Lists (fun index d => m.dependencyAt index = .ok d)
    (m.counts .dependencies).toNat tables.dependencies
  exports : Lists (fun index e => m.exportAt index = .ok e) (m.counts .exports).toNat
    tables.exports
  imports : Lists (fun index i => m.importAt index = .ok i) (m.counts .imports).toNat
    tables.imports
  resources : Lists (fun index r => m.resourceAt index = .ok r) (m.counts .resources).toNat
    tables.resources
  bindings : Lists (fun index b => m.bindingAt index = .ok b) (m.counts .bindings).toNat
    tables.bindings

section Loops
variable {m : Manifest} {tables : Tables Slice}

theorem Reads.stores (h : m.Reads tables) : m.Stores tables where
  artifacts := h.artifacts.unchecked artifactAt_eq_ok
  dependencies := h.dependencies.unchecked dependencyAt_eq_ok
  exports := h.exports.unchecked exportAt_eq_ok
  imports := h.imports.unchecked importAt_eq_ok
  resources := h.resources.unchecked resourceAt_eq_ok
  bindings := h.bindings.unchecked bindingAt_eq_ok

theorem Stores.reads (h : m.Stores tables) (hv : tables.Valid) : m.Reads tables where
  artifacts := h.artifacts.checked hv.artifacts artifactAt_eq_ok
  dependencies := h.dependencies.checked (fun _ hd => hv.dependency hd) dependencyAt_eq_ok
  exports := h.exports.checked (fun _ he => hv.exported he) exportAt_eq_ok
  imports := h.imports.checked (fun _ hi => hv.imported hi) importAt_eq_ok
  resources := h.resources.checked hv.resources resourceAt_eq_ok
  bindings := h.bindings.checked (fun _ hb => hv.binding hb) bindingAt_eq_ok

instance : Trans (fun a b : UInt32 => a < b) (fun a b : UInt32 => a < b)
    (fun a b : UInt32 => a < b) := ⟨UInt32.lt_trans⟩

theorem checkArtifacts_eq_some {indices : List ℕ} {prior : UInt32} {roots result : ℕ} :
    m.checkArtifacts indices prior roots = some result ↔
      ∃ l, List.Forall₂ (fun index a => m.artifactAt index = .ok a) indices l ∧
        (prior :: l.map Artifact.nodeId).IsChain (· < ·) ∧
        result = roots + l.countP fun a => a.flags &&& flagRoot ≠ 0 := by
  induction indices generalizing prior roots with
  | nil =>
    simp only [checkArtifacts, Option.some.injEq, forall₂_nil_left_iff, exists_eq_left]
    simp [eq_comm]
  | cons index rest ih =>
    rw [checkArtifacts]
    cases hread : m.artifactAt index with
    | error status =>
      constructor
      · nofun
      · rintro ⟨l, hl, -⟩
        obtain ⟨b, l, hb, -, rfl⟩ := forall₂_cons_left_iff.mp hl
        rw [hread] at hb
        cases hb
    | ok a =>
      have hcount (l : List (Artifact Slice)) :
          roots + (a :: l).countP (fun a => a.flags &&& flagRoot ≠ 0) =
            (roots + if a.flags &&& flagRoot ≠ 0 then 1 else 0) +
              l.countP fun a => a.flags &&& flagRoot ≠ 0 := by
        simp only [countP_cons, decide_eq_true_eq]
        omega
      dsimp only
      by_cases hle : a.nodeId ≤ prior
      · rw [if_pos hle]
        constructor
        · nofun
        · rintro ⟨l, hl, hchain, -⟩
          obtain ⟨b, l, hb, -, rfl⟩ := forall₂_cons_left_iff.mp hl
          obtain rfl := Except.ok.inj (hread.symm.trans hb)
          rw [map_cons, isChain_cons_cons] at hchain
          exact absurd hle (UInt32.not_le.mpr hchain.1)
      · rw [if_neg hle, ih]
        constructor
        · rintro ⟨l, hl, hchain, rfl⟩
          refine ⟨a :: l, .cons hread hl, ?_, (hcount l).symm⟩
          rw [map_cons, isChain_cons_cons]
          exact ⟨UInt32.not_le.mp hle, hchain⟩
        · rintro ⟨_, hall, hchain, rfl⟩
          obtain ⟨b, l, hb, hl, rfl⟩ := forall₂_cons_left_iff.mp hall
          obtain rfl := Except.ok.inj (hread.symm.trans hb)
          rw [map_cons, isChain_cons_cons] at hchain
          exact ⟨l, hl, hchain.2, hcount l⟩

theorem artifactsValid_iff : m.artifactsValid = true ↔
    ∃ l, Lists (fun index a => m.artifactAt index = .ok a) (m.counts .artifacts).toNat l ∧
      l.Pairwise (fun a b => a.nodeId < b.nodeId) ∧ ∃ a ∈ l, a.flags &&& flagRoot ≠ 0 := by
  have hroots (l : List (Artifact Slice)) :
      0 < l.countP (fun a => a.flags &&& flagRoot ≠ 0) ↔ ∃ a ∈ l, a.flags &&& flagRoot ≠ 0 := by
    simp only [countP_pos_iff, decide_eq_true_eq]
  unfold artifactsValid
  constructor
  · intro h
    split at h
    · cases h
    · rename_i rootCount hcheck
      obtain ⟨l, hl, hchain, hcount⟩ := checkArtifacts_eq_some.mp hcheck
      rw [isChain_iff_pairwise, pairwise_cons, pairwise_map] at hchain
      rw [bne_iff_ne, hcount] at h
      exact ⟨l, forall₂_range_iff.mp hl, hchain.2, (hroots l).mp (by omega)⟩
  · rintro ⟨l, hl, hpairwise, hroot⟩
    have hpositive : ∀ a ∈ l, 0 < a.nodeId := by
      intro a ha
      obtain ⟨index, -, -, hread⟩ := hl.of_mem ha
      have hne := (artifactAt_eq_ok.mp hread).2.2.nodeId
      exact UInt32.pos_iff_ne_zero.mpr hne
    have hchain : ((0 : UInt32) :: l.map Artifact.nodeId).IsChain (· < ·) := by
      rw [isChain_iff_pairwise, pairwise_cons, pairwise_map]
      refine ⟨fun id hid => ?_, hpairwise⟩
      obtain ⟨a, ha, rfl⟩ := mem_map.mp hid
      exact hpositive a ha
    rw [checkArtifacts_eq_some.mpr ⟨l, forall₂_range_iff.mpr hl, hchain, rfl⟩]
    have hpos := (hroots l).mpr hroot
    simp only [bne_iff_ne]
    omega

theorem hasNode_iff (hl : Lists (fun index a => m.artifactAt index = .ok a)
      (m.counts .artifacts).toNat tables.artifacts)
    (hascending : tables.artifacts.Pairwise fun a b => a.nodeId < b.nodeId) {nodeId : UInt32} :
    m.hasNode nodeId = true ↔ tables.Declares nodeId := by
  have hkey {index : ℕ} {a : Artifact Slice} (ha : tables.artifacts[index]? = some a) :
      m.nodeAt index = some a.nodeId.toNat := by
    rw [nodeAt, hl.entry ha]
  have hsearch : BinarySearch.Ascending m.nodeAt (m.counts .artifacts).toNat := by
    refine ⟨fun i hi => ?_, fun {i j k l} hij hj hk hl' => ?_⟩
    · obtain ⟨a, ha, -⟩ := hl.get hi
      exact ⟨_, hkey ha⟩
    · obtain ⟨a, ha, -⟩ := hl.get (hij.trans hj)
      obtain ⟨b, hb, -⟩ := hl.get hj
      rw [hkey ha] at hk
      rw [hkey hb] at hl'
      rw [← Option.some.inj hk, ← Option.some.inj hl']
      obtain ⟨hi', rfl⟩ := List.getElem?_eq_some_iff.mp ha
      obtain ⟨hj', rfl⟩ := List.getElem?_eq_some_iff.mp hb
      exact UInt32.lt_iff_toNat_lt.mp (List.pairwise_iff_getElem.mp hascending i j hi' hj' hij)
  rw [hasNode, BinarySearch.find_isSome_iff hsearch]
  constructor
  · rintro ⟨index, hi, hnode⟩
    obtain ⟨a, ha, -⟩ := hl.get hi
    rw [hkey ha] at hnode
    exact ⟨a, List.mem_of_getElem? ha, UInt32.toNat_inj.mp (Option.some.inj hnode)⟩
  · rintro ⟨a, ha, rfl⟩
    obtain ⟨index, hi, hget, -⟩ := hl.of_mem ha
    exact ⟨index, hi, hkey hget⟩

theorem tablesValid_iff : m.tablesValid = true ↔ ∃ tables, m.Reads tables ∧ tables.Valid := by
  unfold tablesValid
  simp only [Bool.and_eq_true, artifactsValid_iff, all_passes_iff]
  constructor
  · rintro ⟨⟨⟨⟨⟨⟨artifacts, hartifacts, hascending, hroot⟩, dependencies, hdependencies, hd⟩,
      exports, hexports, he⟩, imports, himports, hi⟩, resources, hresources, -⟩,
      bindings, hbindings, hb⟩
    let tables : Tables Slice := ⟨artifacts, dependencies, exports, imports, resources, bindings⟩
    have hnode {nodeId : UInt32} : m.hasNode nodeId = true ↔ tables.Declares nodeId :=
      hasNode_iff hartifacts hascending
    have hread : m.Reads tables :=
      ⟨hartifacts, hdependencies, hexports, himports, hresources, hbindings⟩
    refine ⟨tables, hread, ?_, hascending, hroot, fun d hmem => ?_, fun e hmem => ?_,
      fun i hmem => ?_, ?_, fun b hmem => ?_⟩
    · exact hartifacts.valid artifactAt_eq_ok
    · have hvalid := hdependencies.valid dependencyAt_eq_ok d hmem
      exact ⟨hvalid.distinct, hnode.mp (hd d hmem).1, hnode.mp (hd d hmem).2⟩
    · have hvalid := hexports.valid exportAt_eq_ok e hmem
      exact ⟨hvalid.kind, hnode.mp (he e hmem)⟩
    · have hvalid := himports.valid importAt_eq_ok i hmem
      obtain ⟨hconsumer, hprovider⟩ := hi i hmem
      rw [Bool.or_eq_true, beq_iff_eq, hnode] at hprovider
      exact ⟨⟨hvalid.distinct, hvalid.kind, hvalid.flags⟩, hnode.mp hconsumer, hprovider⟩
    · exact hresources.valid resourceAt_eq_ok
    · have hvalid := hbindings.valid bindingAt_eq_ok b hmem
      exact ⟨hvalid.slotId, hnode.mp (hb b hmem)⟩
  · rintro ⟨tables, hread, hv⟩
    have hnode {nodeId : UInt32} : m.hasNode nodeId = true ↔ tables.Declares nodeId :=
      hasNode_iff hread.artifacts hv.ascending
    refine ⟨⟨⟨⟨⟨⟨_, hread.artifacts, hv.ascending, hv.root⟩, _, hread.dependencies, fun d hd => ?_⟩,
      _, hread.exports, fun e he => ?_⟩, _, hread.imports, fun i hi => ?_⟩, _, hread.resources,
      fun _ _ => trivial⟩, _, hread.bindings, fun b hb => ?_⟩
    · exact ⟨hnode.mpr (hv.dependencies d hd).2.1, hnode.mpr (hv.dependencies d hd).2.2⟩
    · exact hnode.mpr (hv.exports e he).2
    · obtain ⟨-, hconsumer, hprovider⟩ := hv.imports i hi
      rw [Bool.or_eq_true, beq_iff_eq, hnode, hnode]
      exact ⟨hconsumer, hprovider⟩
    · exact hnode.mpr (hv.bindings b hb).2

end Loops

end Kobox.Manifest
