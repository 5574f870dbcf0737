import Kobox.Manifest.Access

/-!
# Accepted manifests
-/

namespace Kobox.Manifest
open ByteMemory Protocol Listing List
variable {m : Manifest} {buffer : List UInt8}

def table (m : Manifest) (t : Section) : Span := ⟨(m.offsets t).toNat, (m.counts t).toNat * t.size⟩

def layout (m : Manifest) : List Span :=
  ⟨0, headerSize⟩ :: (Section.all.map m.table ++
    [⟨m.stringsOffset.toNat, m.stringTableSize.toNat⟩])

/-- The checks of the header. -/
structure Framed (m : Manifest) : Prop where
  size : m.size = m.bytes.length
  high : m.bytes.length ≤ uint32Max
  abi : read m.memory 4 4 = abiIdentity
  schema : read m.memory 8 32 = schemaDigest
  total : (loadU32 m.memory 0).toNat = m.bytes.length
  reserved : bytesAreZero m.memory 96 32 = true
  limits : ∀ t, (m.counts t).toNat ≤ t.limit
  layout : Span.Consecutive m.layout 0 m.bytes.length
  artifacts : m.counts .artifacts ≠ 0

theorem checkOffsets_eq_some {tables : List Section} {start stop : ℕ} (hstart : start ≤ m.size) :
    checkOffsets m tables start = some stop ↔
      (∀ t ∈ tables, (m.counts t).toNat ≤ t.limit) ∧
        Span.Consecutive (tables.map m.table) start stop ∧ stop ≤ m.size := by
  induction tables generalizing start with
  | nil =>
    simp only [checkOffsets, Option.some.injEq, map_nil, Span.Consecutive, not_mem_nil,
      false_imp_iff, implies_true, true_and]
    constructor
    · rintro rfl
      exact ⟨rfl, hstart⟩
    · exact And.left
  | cons t rest ih =>
    rw [checkOffsets, map_cons, Span.Consecutive, forall_mem_cons]
    dsimp only
    split_ifs with hbad hnext
    · constructor
      · rintro ⟨⟩
      · rintro ⟨⟨hlimit, -⟩, ⟨hoffset, -⟩, -⟩
        exact absurd hbad (not_or.mpr ⟨Nat.not_lt.mpr hlimit, not_not.mpr hoffset⟩)
    · constructor
      · rintro ⟨⟩
      · rintro ⟨-, ⟨-, hrest⟩, hstop⟩
        exact absurd (hrest.le.trans hstop) (Nat.not_le.mpr hnext)
    · obtain ⟨hlimit, hoffset⟩ := not_or.mp hbad
      rw [ih (Nat.not_lt.mp hnext)]
      constructor
      · rintro ⟨hlimits, hrest, hstop⟩
        exact ⟨⟨Nat.not_lt.mp hlimit, hlimits⟩, ⟨not_not.mp hoffset, hrest⟩, hstop⟩
      · rintro ⟨⟨-, hlimits⟩, ⟨-, hrest⟩, hstop⟩
        exact ⟨hlimits, hrest, hstop⟩

theorem decodeHeader_eq_ok :
    decodeHeader buffer = .ok m ↔ m = ofHeader buffer ∧ m.Framed := by
  constructor
  · intro h
    unfold decodeHeader at h
    dsimp only at h
    split_ifs at h with hlow hhigh hidentity htotal hreserved
    split at h
    · cases h
    · rename_i expected hoffsets
      split_ifs at h with hstrings
      obtain rfl := Except.ok.inj h
      have hfits : headerSize ≤ (ofHeader buffer).size := Nat.not_lt.mp hlow
      obtain ⟨hlimits, htables, hstop⟩ := (checkOffsets_eq_some hfits).mp hoffsets
      simp only [not_or, not_not] at hidentity hstrings htotal
      obtain ⟨hcount, hoffset, hsize⟩ := hstrings
      refine ⟨rfl, rfl, Nat.not_lt.mp hhigh, hidentity.1, hidentity.2, htotal,
        Bool.not_eq_false _ ▸ hreserved, fun t => hlimits t t.mem_all, ?_, hcount⟩
      rw [layout, Span.Consecutive, Span.consecutive_append]
      dsimp only
      rw [hoffset, hsize]
      exact ⟨rfl, (Nat.zero_add headerSize).symm ▸ htables, Nat.add_sub_cancel' hstop⟩
  · rintro ⟨rfl, hframed⟩
    have hlayout := hframed.layout
    rw [layout, Span.Consecutive, Span.consecutive_append, Nat.zero_add] at hlayout
    obtain ⟨-, htables, hstop⟩ := hlayout
    dsimp only at htables hstop
    have hle : (ofHeader buffer).stringsOffset.toNat ≤ buffer.length := by
      have hsize : (ofHeader buffer).bytes.length = buffer.length := rfl
      omega
    have hlow : headerSize ≤ buffer.length := htables.le.trans hle
    have hoffsets := (checkOffsets_eq_some hlow).mpr
      ⟨fun t _ => hframed.limits t, htables, hle⟩
    have hstrings : ¬((ofHeader buffer).counts .artifacts = 0 ∨
        (ofHeader buffer).stringsOffset.toNat ≠ (ofHeader buffer).stringsOffset.toNat ∨
        (ofHeader buffer).stringTableSize.toNat ≠
          buffer.length - (ofHeader buffer).stringsOffset.toNat) := by
      have hsize : (ofHeader buffer).bytes.length = buffer.length := rfl
      simp only [not_or, not_not]
      exact ⟨hframed.artifacts, trivial, by omega⟩
    have hhigh : buffer.length ≤ uint32Max := hframed.high
    have habi : read (ofList buffer) 4 4 = abiIdentity := hframed.abi
    have hschema : read (ofList buffer) 8 32 = schemaDigest := hframed.schema
    have htotal : (loadU32 (ofList buffer) 0).toNat = buffer.length := hframed.total
    have hreserved : bytesAreZero (ofList buffer) 96 32 = true := hframed.reserved
    unfold decodeHeader
    dsimp only
    rw [if_neg (Nat.not_lt.mpr hlow), if_neg (Nat.not_lt.mpr hhigh),
      if_neg (not_or.mpr ⟨not_not.mpr habi, not_not.mpr hschema⟩), if_neg (not_not.mpr htotal),
      hreserved, if_neg Bool.false_ne_true.symm, hoffsets]
    dsimp only
    rw [if_neg hstrings]

theorem decodeBuffer_eq_ok :
    decodeBuffer buffer = .ok m ↔
      m = ofHeader buffer ∧ m.Framed ∧ ∃ tables, m.Reads tables ∧ tables.Valid := by
  unfold decodeBuffer
  constructor
  · intro h
    split at h
    · cases h
    · rename_i hheader
      split_ifs at h with hvalid
      obtain rfl := Except.ok.inj h
      obtain ⟨hm, hframed⟩ := decodeHeader_eq_ok.mp hheader
      exact ⟨hm, hframed, tablesValid_iff.mp hvalid⟩
  · rintro ⟨hm, hframed, hvalid⟩
    rw [decodeHeader_eq_ok.mpr ⟨hm, hframed⟩]
    dsimp only
    rw [if_pos (tablesValid_iff.mpr hvalid)]

theorem decodeBuffer_error {status : Status} (h : decodeBuffer buffer = .error status) :
    status ≠ .ok := by
  rintro rfl
  unfold decodeBuffer at h
  split at h
  · rename_i hheader
    rw [Except.error.inj h] at hheader
    unfold decodeHeader at hheader
    dsimp only at hheader
    split_ifs at hheader <;> try cases hheader
    split at hheader
    · cases hheader
    · split_ifs at hheader
      cases hheader
  · split_ifs at h
    cases h

theorem decode_ok_iff {out : Manifest} :
    (decode (some buffer) out).1 = .ok ↔ (ofHeader buffer).Framed ∧
      ∃ tables, (ofHeader buffer).Reads tables ∧ tables.Valid := by
  rw [decode]
  cases h : decodeBuffer buffer with
  | error status =>
    refine iff_of_false (decodeBuffer_error h) fun haccepted => ?_
    rw [decodeBuffer_eq_ok.mpr ⟨rfl, haccepted⟩] at h
    cases h
  | ok m =>
    obtain ⟨rfl, haccepted⟩ := decodeBuffer_eq_ok.mp h
    exact iff_of_true rfl haccepted

theorem decode_manifest {out : Manifest} (h : (decode (some buffer) out).1 = .ok) :
    (decode (some buffer) out).2 = ofHeader buffer := by
  rw [decode, decodeBuffer_eq_ok.mpr ⟨rfl, decode_ok_iff.mp h⟩]

/-! ### What decoding establishes -/

def NameAt (m : Manifest) (field : ℕ) : Prop :=
  (loadU32 m.memory field).toNat + (loadU32 m.memory (field + 4)).toNat ≤
      m.stringTableSize.toNat ∧
    stringValid (read m.memory (m.stringsOffset.toNat + (loadU32 m.memory field).toNat)
      (loadU32 m.memory (field + 4)).toNat) = true

def NoNameAt (m : Manifest) (field : ℕ) : Prop :=
  loadU32 m.memory field = 0 ∧ loadU32 m.memory (field + 4) = 0

def Member (m : Manifest) (nodeId : UInt32) : Prop :=
  ∃ index < (m.counts .artifacts).toNat, loadU32 m.memory (m.record .artifacts index) = nodeId

def Slice.Inside (slice : Slice) (buffer : List UInt8) : Prop :=
  slice.position + slice.length ≤ buffer.length

/-- A manifest that was decoded from the buffer: the sections tile it, names and records lie inside
it, every node that a record names is declared, and every accessor returns. -/
structure Sound (buffer : List UInt8) (m : Manifest) : Prop where
  bytes : m.bytes = buffer
  tiles : Span.Consecutive m.layout 0 buffer.length
  limits : ∀ t, (m.counts t).toNat ≤ t.limit
  reserved : Holds m.memory 96 (List.replicate 32 0)
  artifactsReserved : ∀ index < (m.counts .artifacts).toNat,
    Holds m.memory (m.record .artifacts index + 12) (List.replicate 4 0) ∧
      Holds m.memory (m.record .artifacts index + 88) (List.replicate 8 0)
  resourcesReserved : ∀ index < (m.counts .resources).toNat,
    Holds m.memory (m.record .resources index + 36) (List.replicate 4 0)
  artifactNames : ∀ index < (m.counts .artifacts).toNat, m.NameAt (m.record .artifacts index + 56)
  lifecycleNames : ∀ index < (m.counts .artifacts).toNat, ∀ field ∈ [64, 72, 80],
    if loadU32 m.memory (m.record .artifacts index + 8) &&& flagNativeLinux ≠ 0 then
      m.NoNameAt (m.record .artifacts index + field)
    else m.NameAt (m.record .artifacts index + field)
  exportNames : ∀ index < (m.counts .exports).toNat, m.NameAt (m.record .exports index + 8)
  importNames : ∀ index < (m.counts .imports).toNat, ∀ field ∈ [16, 24],
    m.NameAt (m.record .imports index + field)
  ascending : ∀ i j, i < j → j < (m.counts .artifacts).toNat →
    loadU32 m.memory (m.record .artifacts i) < loadU32 m.memory (m.record .artifacts j)
  search : ∀ nodeId, m.hasNode nodeId = true ↔ m.Member nodeId
  inside : ∀ t, ∀ index < (m.counts t).toNat, m.record t index + t.size ≤ buffer.length
  artifacts : ∀ index < (m.counts .artifacts).toNat, ∃ a, m.artifactAt index = .ok a ∧
    a.namespaceName.Inside buffer ∧ a.initSymbol.Inside buffer ∧
    a.quiesceSymbol.Inside buffer ∧ a.cleanupSymbol.Inside buffer
  dependencies : ∀ index < (m.counts .dependencies).toNat, ∃ d, m.dependencyAt index = .ok d ∧
    m.Member d.consumerNodeId ∧ m.Member d.providerNodeId
  exports : ∀ index < (m.counts .exports).toNat, ∃ e, m.exportAt index = .ok e ∧
    m.Member e.nodeId ∧ e.name.Inside buffer
  imports : ∀ index < (m.counts .imports).toNat, ∃ i, m.importAt index = .ok i ∧
    m.Member i.consumerNodeId ∧ (i.providerNodeId = 0 ∨ m.Member i.providerNodeId) ∧
    i.consumerName.Inside buffer ∧ i.providerName.Inside buffer
  resources : ∀ index < (m.counts .resources).toNat, ∃ r, m.resourceAt index = .ok r
  bindings : ∀ index < (m.counts .bindings).toNat, ∃ b, m.bindingAt index = .ok b ∧
    m.Member b.nodeId

section Decoded
variable {m : Manifest} {tables : Tables Slice}

theorem Framed.strings (h : m.Framed) :
    m.stringsOffset.toNat + m.stringTableSize.toNat = m.bytes.length := by
  have hlayout := h.layout
  rw [Manifest.layout, Span.Consecutive, Span.consecutive_append] at hlayout
  exact hlayout.2.2

theorem Framed.record_inside (h : m.Framed) {t : Section} {index : ℕ}
    (hindex : index < (m.counts t).toNat) : m.record t index + t.size ≤ m.bytes.length := by
  have hmem : m.table t ∈ m.layout :=
    mem_cons_of_mem _ (mem_append_left _ (mem_map_of_mem t.mem_all))
  obtain ⟨-, hhigh⟩ := h.layout.within hmem
  have hmul : (index + 1) * t.size ≤ (m.counts t).toNat * t.size := Nat.mul_le_mul_right _ hindex
  rw [Nat.add_mul, Nat.one_mul] at hmul
  simp only [table] at hhigh
  rw [record]
  omega

theorem Framed.name (h : m.Framed) {field : ℕ} {slice : Slice}
    (hs : m.decodedString (loadU32 m.memory field) (loadU32 m.memory (field + 4)) = some slice) :
    m.NameAt field ∧ slice.Inside m.bytes := by
  have hstrings := h.strings
  obtain ⟨hfit, hvalid, rfl⟩ := decodedString_eq_some.mp hs
  refine ⟨⟨hfit, hvalid⟩, ?_⟩
  simp only [Slice.Inside]
  omega

theorem Framed.lifecycle (h : m.Framed) {flags : UInt32} {field : ℕ} {slice : Slice}
    (hs : m.decodedLifecycle flags (loadU32 m.memory field) (loadU32 m.memory (field + 4)) =
      some slice) :
    (if flags &&& flagNativeLinux ≠ 0 then m.NoNameAt field else m.NameAt field) ∧
      slice.Inside m.bytes := by
  rw [decodedLifecycle_eq_some] at hs
  split_ifs at hs ⊢ with hnative
  · obtain ⟨hoffset, hlength, rfl⟩ := hs
    exact ⟨⟨hoffset, hlength⟩, Nat.zero_le _⟩
  · exact h.name hs

theorem Reads.member_iff (h : m.Reads tables) {nodeId : UInt32} :
    tables.Declares nodeId ↔ m.Member nodeId := by
  constructor
  · rintro ⟨a, ha, rfl⟩
    obtain ⟨index, hindex, -, hread⟩ := h.artifacts.of_mem ha
    exact ⟨index, hindex, (artifactAt_eq_ok.mp hread).2.1.nodeId⟩
  · rintro ⟨index, hindex, hnode⟩
    obtain ⟨a, ha, hread⟩ := h.artifacts.get hindex
    exact ⟨a, mem_of_getElem? ha, (artifactAt_eq_ok.mp hread).2.1.nodeId.symm.trans hnode⟩

theorem Framed.sound (h : m.Framed) (hr : m.Reads tables) (hv : tables.Valid) :
    Sound m.bytes m := by
  have hs := hr.stores
  refine
    { bytes := rfl
      tiles := h.layout
      limits := h.limits
      reserved := bytesAreZero_iff.mp h.reserved
      artifactsReserved := fun index hindex => ?_
      resourcesReserved := fun index hindex => ?_
      artifactNames := fun index hindex => ?_
      lifecycleNames := fun index hindex field hfield => ?_
      exportNames := fun index hindex => ?_
      importNames := fun index hindex field hfield => ?_
      ascending := fun i j hij hj => ?_
      search := fun nodeId => (hasNode_iff hr.artifacts hv.ascending).trans hr.member_iff
      inside := fun t index hindex => h.record_inside hindex
      artifacts := fun index hindex => ?_
      dependencies := fun index hindex => ?_
      exports := fun index hindex => ?_
      imports := fun index hindex => ?_
      resources := fun index hindex => ?_
      bindings := fun index hindex => ?_ }
  · obtain ⟨a, -, ha⟩ := hs.artifacts.get hindex
    exact ⟨bytesAreZero_iff.mp ha.reserved0, bytesAreZero_iff.mp ha.reserved1⟩
  · obtain ⟨r, -, hr⟩ := hs.resources.get hindex
    exact bytesAreZero_iff.mp hr.reserved
  · obtain ⟨a, -, ha⟩ := hs.artifacts.get hindex
    exact (h.name ha.namespaceName).1
  · obtain ⟨a, -, ha⟩ := hs.artifacts.get hindex
    rw [ha.flags]
    rcases List.mem_cons.mp hfield with rfl | hfield
    · exact (h.lifecycle ha.initSymbol).1
    rcases List.mem_cons.mp hfield with rfl | hfield
    · exact (h.lifecycle ha.quiesceSymbol).1
    · rw [List.mem_singleton.mp hfield]
      exact (h.lifecycle ha.cleanupSymbol).1
  · obtain ⟨e, -, he⟩ := hs.exports.get hindex
    exact (h.name he.name).1
  · obtain ⟨i, -, hi⟩ := hs.imports.get hindex
    rcases List.mem_cons.mp hfield with rfl | hfield
    · exact (h.name hi.consumerName).1
    · rw [List.mem_singleton.mp hfield]
      exact (h.name hi.providerName).1
  · obtain ⟨a, ha, hsa⟩ := hs.artifacts.get (hij.trans hj)
    obtain ⟨b, hb, hsb⟩ := hs.artifacts.get hj
    rw [hsa.nodeId, hsb.nodeId]
    obtain ⟨hi', rfl⟩ := List.getElem?_eq_some_iff.mp ha
    obtain ⟨hj', rfl⟩ := List.getElem?_eq_some_iff.mp hb
    exact List.pairwise_iff_getElem.mp hv.ascending i j hi' hj' hij
  · obtain ⟨a, ha, hread⟩ := hr.artifacts.get hindex
    have hsa := hs.artifacts.entry ha
    exact ⟨a, hread, (h.name hsa.namespaceName).2, (h.lifecycle hsa.initSymbol).2,
      (h.lifecycle hsa.quiesceSymbol).2, (h.lifecycle hsa.cleanupSymbol).2⟩
  · obtain ⟨d, hd, hread⟩ := hr.dependencies.get hindex
    obtain ⟨-, hconsumer, hprovider⟩ := hv.dependencies d (List.mem_of_getElem? hd)
    exact ⟨d, hread, hr.member_iff.mp hconsumer, hr.member_iff.mp hprovider⟩
  · obtain ⟨e, he, hread⟩ := hr.exports.get hindex
    exact ⟨e, hread, hr.member_iff.mp (hv.exports e (List.mem_of_getElem? he)).2,
      (h.name (hs.exports.entry he).name).2⟩
  · obtain ⟨i, hi, hread⟩ := hr.imports.get hindex
    obtain ⟨-, hconsumer, hprovider⟩ := hv.imports i (List.mem_of_getElem? hi)
    have hsi := hs.imports.entry hi
    exact ⟨i, hread, hr.member_iff.mp hconsumer, hprovider.imp_right hr.member_iff.mp,
      (h.name hsi.consumerName).2, (h.name hsi.providerName).2⟩
  · obtain ⟨r, -, hread⟩ := hr.resources.get hindex
    exact ⟨r, hread⟩
  · obtain ⟨b, hb, hread⟩ := hr.bindings.get hindex
    exact ⟨b, hread, hr.member_iff.mp (hv.bindings b (List.mem_of_getElem? hb)).2⟩

end Decoded

/-- Whatever the bytes are, an accepted manifest is sound, and after a failure other than for a
NULL argument the manifest is all zero. -/
theorem decode_any_buffer (buffer : Option (List UInt8)) (out : Manifest) :
    ((decode buffer out).1 = .ok →
      ∃ bytes, buffer = some bytes ∧ Sound bytes (decode buffer out).2) ∧
    ((decode buffer out).1 ≠ .ok → (decode buffer out).1 ≠ .invalidArgument →
      (decode buffer out).2 = .zero) := by
  cases buffer with
  | none => exact ⟨nofun, fun _ hne => absurd rfl hne⟩
  | some bytes =>
    rw [decode]
    cases hdecode : decodeBuffer bytes with
    | error status =>
      refine ⟨fun hok => ?_, fun _ _ => rfl⟩
      exact absurd hok (decodeBuffer_error hdecode)
    | ok m =>
      refine ⟨fun _ => ⟨bytes, rfl, ?_⟩, fun hne => absurd rfl hne⟩
      obtain ⟨rfl, hframed, tables, hread, hvalid⟩ := decodeBuffer_eq_ok.mp hdecode
      exact hframed.sound hread hvalid

end Kobox.Manifest
