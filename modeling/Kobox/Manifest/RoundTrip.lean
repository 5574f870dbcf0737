import Kobox.Manifest.Accepted
import Kobox.Manifest.Image

/-!
# Encoded manifests
-/

namespace Kobox.Manifest
open ByteMemory Protocol Listing List
variable {size index : ℕ}

/-- The bytes the encoder makes of a source it accepts. -/
structure Encoded (source : Source) (bytes : List UInt8) : Prop where
  valid : sourceValid source = true
  strings : source.StringsValid
  size : bytes.length = source.strings + source.finalCursor
  fits : bytes.length ≤ uint32Max
  holds : ∀ w ∈ manifestImage source bytes.length, Holds (ofList bytes) w.address w.bytes

theorem encode_eq_ok {buffer bytes : List UInt8} {source : Source} :
    encode buffer source = .ok (bytes, size) ↔
      sourceSize source = some size ∧ size ≤ buffer.length ∧
        bytes = read (storeAll (cleared buffer size) (storeManifest source size)) 0
          buffer.length := by
  unfold encode encodedSize
  cases hsize : sourceSize source with
  | none => simp
  | some n =>
    dsimp only
    split_ifs with hshort
    · simp only [Option.some.injEq, false_iff]
      rintro ⟨rfl, hle, -⟩
      omega
    · simp only [Option.some.injEq, Except.ok.injEq, Prod.mk.injEq]
      constructor
      · rintro ⟨rfl, rfl⟩
        exact ⟨rfl, by omega, rfl⟩
      · rintro ⟨rfl, -, rfl⟩
        exact ⟨rfl, rfl⟩

theorem encoded_of_encode {buffer bytes : List UInt8} {source : Source}
    (h : encode buffer source = .ok (bytes, size)) : Encoded source (bytes.take size) := by
  obtain ⟨hsize, hle, rfl⟩ := encode_eq_ok.mp h
  obtain ⟨hvalid, hstrings, htotal, hfits⟩ := sourceSize_eq_some.mp hsize
  have hlength : ((read (storeAll (cleared buffer size) (storeManifest source size)) 0
      buffer.length).take size).length = size := by
    rw [length_take, read_length, Nat.min_eq_left hle]
  have hemits := storeManifest_emits source size
  rw [← htotal] at hemits
  refine ⟨hvalid, hstrings, hlength.trans htotal, hlength.le.trans hfits, fun w hw => ?_⟩
  rw [hlength] at hw
  have hzero : ∀ x < size, cleared buffer size x = 0 := fun x hx => cleared_of_lt buffer hx
  refine (hemits.holds hzero hw).congr fun x hx => ?_
  have hlt : x < size := by
    have hplaced := hemits.placed w hw
    have hheap := hemits.heap
    have hend := hx.2
    simp only at hend
    omega
  rw [ofList_take hlt, ofList_read (hlt.trans_le hle)]

section Encoded
variable {source : Source} {bytes : List UInt8}

theorem mem_header {w : Store} (hw : w ∈ headerImage source size) :
    w ∈ manifestImage source size := by
  simp only [manifestImage, mem_append]
  tauto

theorem mem_header_count (t : Section) :
    (⟨40 + t.index * 4, storeU32 (.ofNat (source.count t))⟩ : Store) ∈ headerImage source size ∧
      (⟨64 + t.index * 4, storeU32 (.ofNat (source.offset t))⟩ : Store) ∈
        headerImage source size := by
  cases t <;> simp [headerImage, storeHeader, Section.all, Section.index]

theorem offset_le (source : Source) (t : Section) : source.offset t ≤ source.strings := by
  cases t <;>
    simp only [Tables.offset, Tables.strings, tablesEnd, Section.all, Section.before,
      foldl_cons, foldl_nil] <;>
    omega

namespace Encoded
variable (h : Encoded source bytes)
include h

theorem limit (t : Section) : source.count t ≤ t.limit := (sourceValid_iff.mp h.valid).2.1 t

theorem word {address n : ℕ} (hn : n ≤ uint32Max)
    (hw : (⟨address, storeU32 (.ofNat n)⟩ : Store) ∈ headerImage source bytes.length) :
    (loadU32 (ofList bytes) address).toNat = n := by
  rw [holds_storeU32_iff.mp (h.holds _ (mem_header hw))]
  exact UInt32.toNat_ofNat_of_lt' (Nat.lt_succ_of_le hn)

theorem counts (t : Section) : ((ofHeader bytes).counts t).toNat = source.count t := by
  refine h.word ((h.limit t).trans ?_) (mem_header_count t).1
  cases t <;> decide

theorem offsets (t : Section) : ((ofHeader bytes).offsets t).toNat = source.offset t := by
  have hsize := h.size
  have hfits := h.fits
  have hoffset := offset_le source t
  exact h.word (by omega) (mem_header_count t).2

theorem strings_eq : (ofHeader bytes).stringsOffset.toNat = source.strings ∧
    (ofHeader bytes).stringTableSize.toNat = source.finalCursor := by
  have hsize := h.size
  have hfits := h.fits
  constructor
  · refine h.word (by omega) ?_
    simp [headerImage, storeHeader]
  · have hstored : (⟨92, storeU32 (.ofNat (bytes.length - source.strings))⟩ : Store) ∈
        headerImage source bytes.length := by
      simp [headerImage, storeHeader]
    have htable := h.word (by omega) hstored
    change (loadU32 (ofList bytes) 92).toNat = _
    omega

theorem framed : (ofHeader bytes).Framed := by
  have hsize := h.size
  obtain ⟨hstrings, htable⟩ := h.strings_eq
  have habi := h.holds ⟨4, abiIdentity⟩ (mem_header (by simp [headerImage, storeHeader]))
  have hschema := h.holds ⟨8, schemaDigest⟩ (mem_header (by simp [headerImage, storeHeader]))
  have hzero := h.holds (.zeros 96 32) (mem_header (by simp [headerImage]))
  have htotal : (⟨0, storeU32 (.ofNat bytes.length)⟩ : Store) ∈ headerImage source bytes.length := by
    simp [headerImage, storeHeader]
  refine
    { size := rfl
      high := h.fits
      abi := habi
      schema := hschema
      total := h.word h.fits htotal
      reserved := bytesAreZero_iff.mpr hzero
      limits := fun t => ?_
      layout := ?_
      artifacts := fun hcount => ?_ }
  · rw [h.counts]
    exact h.limit t
  · rw [layout, Span.Consecutive, Span.consecutive_append, hstrings, htable]
    refine ⟨rfl, ?_, hsize.symm⟩
    simp only [table, Section.all, List.map, h.counts, h.offsets]
    exact ⟨rfl, rfl, rfl, rfl, rfl, rfl, rfl⟩
  · have hcounts := h.counts .artifacts
    rw [hcount] at hcounts
    exact (sourceValid_iff.mp h.valid).1 hcounts.symm

/-! ### The records -/

theorem record_eq (t : Section) (index : ℕ) :
    (ofHeader bytes).record t index = source.offset t + index * t.size := by
  rw [record, h.offsets]

/-- What the image of a record says is held where the header puts the record. -/
theorem held {α : Type} {n cursor : ℕ} {t : Section} {l : List α}
    {image : ℕ → ℕ → α → List Store} {next : ℕ → α → ℕ} {x : α} (hn : t.size = n)
    (hx : l[index]? = some x)
    (htable : ∀ w ∈ emitTable n image next l (source.offset t) cursor,
      w ∈ manifestImage source bytes.length) :
    ∀ w ∈ image ((ofHeader bytes).record t index) ((l.take index).foldl next cursor) x,
      Holds (ofList bytes) w.address w.bytes := by
  intro w hw
  rw [h.record_eq t index, hn] at hw
  exact h.holds w (htable w (mem_emitTable hx hw))

theorem string {record offsetField lengthField cursor : ℕ} {string : List UInt8}
    (hheld : ∀ w ∈ storeStringReference record offsetField lengthField source.strings cursor string,
      Holds (ofList bytes) w.address w.bytes)
    (hvalid : stringValid string = true) (hcursor : cursor + string.length ≤ source.finalCursor) :
    ∃ slice, (ofHeader bytes).decodedString (loadU32 (ofList bytes) (record + offsetField))
        (loadU32 (ofList bytes) (record + lengthField)) = some slice ∧
      (ofHeader bytes).string slice = string := by
  have hsize := h.size
  have hfits := h.fits
  obtain ⟨hstrings, htable⟩ := h.strings_eq
  have hlength : string.length ≠ 0 := by
    intro hzero
    rw [length_eq_zero_iff.mp hzero] at hvalid
    cases hvalid
  rw [storeStringReference, if_neg hlength] at hheld
  have hoffsetWord := holds_storeU32_iff.mp (hheld _ (mem_cons_of_mem _ mem_cons_self))
  have hlengthWord := holds_storeU32_iff.mp
    (hheld _ (mem_cons_of_mem _ (mem_cons_of_mem _ mem_cons_self)))
  have hbytes := hheld _ mem_cons_self
  have htoNat {n : ℕ} (hn : n ≤ uint32Max) : (UInt32.ofNat n).toNat = n :=
    UInt32.toNat_ofNat_of_lt' (Nat.lt_succ_of_le hn)
  have hcursorWord : (UInt32.ofNat cursor).toNat = cursor := htoNat (by omega)
  have hlengthNat : (UInt32.ofNat string.length).toNat = string.length := htoNat (by omega)
  have hstring : (ofHeader bytes).string ⟨source.strings + cursor, string.length⟩ = string := hbytes
  refine ⟨⟨source.strings + cursor, string.length⟩, ?_, hstring⟩
  rw [hoffsetWord, hlengthWord, decodedString_eq_some, hcursorWord, hlengthNat, hstrings, htable,
    hstring]
  exact ⟨hcursor, hvalid, rfl⟩

theorem lifecycle {record offsetField lengthField cursor : ℕ} {flags : UInt32}
    {string : List UInt8}
    (hheld : ∀ w ∈ storeStringReference record offsetField lengthField source.strings cursor string,
      Holds (ofList bytes) w.address w.bytes)
    (hvalid : LifecycleValid flags string)
    (hcursor : cursor + string.length ≤ source.finalCursor) :
    ∃ slice, (ofHeader bytes).decodedLifecycle flags
        (loadU32 (ofList bytes) (record + offsetField))
        (loadU32 (ofList bytes) (record + lengthField)) = some slice ∧
      (ofHeader bytes).string slice = string := by
  unfold LifecycleValid at hvalid
  split_ifs at hvalid with hnative
  · rw [storeStringReference, if_pos hvalid] at hheld
    have hoffset := holds_storeU32_iff.mp (hheld _ mem_cons_self)
    have hlength := holds_storeU32_iff.mp (hheld _ (mem_cons_of_mem _ mem_cons_self))
    refine ⟨.null, ?_, (length_eq_zero_iff.mp hvalid).symm⟩
    rw [hoffset, hlength, decodedLifecycle_eq_some, if_pos hnative]
    exact ⟨rfl, rfl, rfl⟩
  · obtain ⟨slice, hslice, hstring⟩ := h.string hheld hvalid hcursor
    refine ⟨slice, ?_, hstring⟩
    rw [decodedLifecycle_eq_some, if_neg hnative]
    exact hslice

theorem artifact {a : Artifact (List UInt8)} (ha : source.artifacts[index]? = some a) :
    ∃ a', (ofHeader bytes).StoresArtifact index a' ∧ a'.map (ofHeader bytes).string = a := by
  let record := (ofHeader bytes).record .artifacts index
  let cursor := (source.artifacts.take index).foldl artifactCursor 0
  have hheld : ∀ w ∈ artifactImage source.strings record cursor a,
      Holds (ofList bytes) w.address w.bytes :=
    h.held (t := .artifacts) (n := 96) rfl ha fun w hw => by simp [manifestImage, hw]
  have hcursor : artifactCursor cursor a ≤ source.finalCursor := by
    have hartifacts : artifactCursor cursor a ≤ source.exportsCursor :=
      cursor_le le_artifactCursor ha
    have hexports : source.exportsCursor ≤ source.importsCursor := le_foldl le_exportCursor _ _
    have himports : source.importsCursor ≤ source.finalCursor := le_foldl le_importCursor _ _
    omega
  rw [artifactCursor] at hcursor
  obtain ⟨hname, hinit, hquiesce, hcleanup⟩ := artifactStringsValid_iff.mp
    (h.strings.artifacts a (mem_of_getElem? ha))
  -- the four names follow one another on the heap
  have hnameHeld : ∀ w ∈ storeStringReference record 56 60 source.strings cursor a.namespaceName,
      Holds (ofList bytes) w.address w.bytes := fun w hw => hheld w (by simp [artifactImage, hw])
  have hinitHeld : ∀ w ∈ storeStringReference record 64 68 source.strings
      (cursor + a.namespaceName.length) a.initSymbol,
      Holds (ofList bytes) w.address w.bytes := fun w hw => hheld w (by simp [artifactImage, hw])
  have hquiesceHeld : ∀ w ∈ storeStringReference record 72 76 source.strings
      (cursor + a.namespaceName.length + a.initSymbol.length) a.quiesceSymbol,
      Holds (ofList bytes) w.address w.bytes := fun w hw => hheld w (by simp [artifactImage, hw])
  have hcleanupHeld : ∀ w ∈ storeStringReference record 80 84 source.strings
      (cursor + a.namespaceName.length + a.initSymbol.length + a.quiesceSymbol.length)
      a.cleanupSymbol,
      Holds (ofList bytes) w.address w.bytes := fun w hw => hheld w (by simp [artifactImage, hw])
  obtain ⟨name, hnameAt, hnameIs⟩ := h.string hnameHeld hname (by omega)
  obtain ⟨init, hinitAt, hinitIs⟩ := h.lifecycle hinitHeld hinit (by omega)
  obtain ⟨quiesce, hquiesceAt, hquiesceIs⟩ := h.lifecycle hquiesceHeld hquiesce (by omega)
  obtain ⟨cleanup, hcleanupAt, hcleanupIs⟩ := h.lifecycle hcleanupHeld hcleanup (by omega)
  refine ⟨⟨a.nodeId, a.kind, a.flags, a.contentSize, a.contentDigest, name, init, quiesce, cleanup⟩,
    { nodeId := holds_storeU32_iff.mp (hheld ⟨record, storeU32 a.nodeId⟩ ?_)
      kind := holds_storeU32_iff.mp (hheld ⟨record + 4, storeU32 a.kind⟩ ?_)
      flags := holds_storeU32_iff.mp (hheld ⟨record + 8, storeU32 a.flags⟩ ?_)
      contentSize := holds_storeU64_iff.mp (hheld ⟨record + 16, storeU64 a.contentSize⟩ ?_)
      contentDigest := holds_digest_iff.mp (hheld ⟨record + 24, a.contentDigest.bytes⟩ ?_)
      reserved0 := bytesAreZero_iff.mpr (hheld (.zeros (record + 12) 4) ?_)
      reserved1 := bytesAreZero_iff.mpr (hheld (.zeros (record + 88) 8) ?_)
      namespaceName := hnameAt
      initSymbol := hinitAt
      quiesceSymbol := hquiesceAt
      cleanupSymbol := hcleanupAt }, ?_⟩
  · simp [artifactImage]
  · simp [artifactImage]
  · simp [artifactImage]
  · simp [artifactImage]
  · simp [artifactImage]
  · simp [artifactImage]
  · simp [artifactImage]
  · rw [Artifact.map, hnameIs, hinitIs, hquiesceIs, hcleanupIs]

theorem dependency {d : Dependency} (hd : source.dependencies[index]? = some d) :
    (ofHeader bytes).StoresDependency index d := by
  let record := (ofHeader bytes).record .dependencies index
  have hheld : ∀ w ∈ storeDependency record
      ((source.dependencies.take index).foldl sameCursor source.exportsCursor) d,
      Holds (ofList bytes) w.address w.bytes :=
    h.held (t := .dependencies) (n := 8) rfl hd fun w hw => by simp [manifestImage, hw]
  refine
    { consumer := holds_storeU32_iff.mp (hheld ⟨record, storeU32 d.consumerNodeId⟩ ?_)
      provider := holds_storeU32_iff.mp (hheld ⟨record + 4, storeU32 d.providerNodeId⟩ ?_) }
  · simp [storeDependency]
  · simp [storeDependency]

theorem exported {e : Symbol (List UInt8)} (he : source.exports[index]? = some e) :
    ∃ e', (ofHeader bytes).StoresExport index e' ∧ e'.map (ofHeader bytes).string = e := by
  let record := (ofHeader bytes).record .exports index
  let cursor := (source.exports.take index).foldl exportCursor source.exportsCursor
  have hheld : ∀ w ∈ storeExport source.strings record cursor e,
      Holds (ofList bytes) w.address w.bytes :=
    h.held (t := .exports) (n := 16) rfl he fun w hw => by simp [manifestImage, hw]
  have hcursor : exportCursor cursor e ≤ source.finalCursor := by
    have hexports : exportCursor cursor e ≤ source.importsCursor := cursor_le le_exportCursor he
    have himports : source.importsCursor ≤ source.finalCursor := le_foldl le_importCursor _ _
    omega
  rw [exportCursor] at hcursor
  have hname := h.strings.exports e (mem_of_getElem? he)
  have hnameMem : ∀ w ∈ storeStringReference record 8 12 source.strings cursor e.name,
      Holds (ofList bytes) w.address w.bytes := fun w hw => hheld w (mem_append_right _ hw)
  obtain ⟨name, hnameAt, hnameIs⟩ := h.string hnameMem hname hcursor
  refine ⟨⟨e.nodeId, e.kind, name⟩,
    { nodeId := holds_storeU32_iff.mp (hheld ⟨record, storeU32 e.nodeId⟩ ?_)
      kind := holds_storeU32_iff.mp (hheld ⟨record + 4, storeU32 e.kind⟩ ?_)
      name := hnameAt }, ?_⟩
  · simp [storeExport]
  · simp [storeExport]
  · rw [Symbol.map, hnameIs]

theorem imported {i : Import (List UInt8)} (hi : source.imports[index]? = some i) :
    ∃ i', (ofHeader bytes).StoresImport index i' ∧ i'.map (ofHeader bytes).string = i := by
  let record := (ofHeader bytes).record .imports index
  let cursor := (source.imports.take index).foldl importCursor source.importsCursor
  have hheld : ∀ w ∈ storeImport source.strings record cursor i,
      Holds (ofList bytes) w.address w.bytes :=
    h.held (t := .imports) (n := 32) rfl hi fun w hw => by simp [manifestImage, hw]
  have hcursor : importCursor cursor i ≤ source.finalCursor := cursor_le le_importCursor hi
  rw [importCursor] at hcursor
  have hvalid := h.strings.imports i (mem_of_getElem? hi)
  rw [Bool.and_eq_true] at hvalid
  have hconsumerMem : ∀ w ∈ storeStringReference record 16 20 source.strings cursor i.consumerName,
      Holds (ofList bytes) w.address w.bytes := fun w hw =>
    hheld w (mem_append_left _ (mem_append_right _ hw))
  have hproviderMem : ∀ w ∈ storeStringReference record 24 28 source.strings
      (cursor + i.consumerName.length) i.providerName,
      Holds (ofList bytes) w.address w.bytes := fun w hw => hheld w (mem_append_right _ hw)
  obtain ⟨consumer, hconsumerAt, hconsumerIs⟩ := h.string hconsumerMem hvalid.1 (by omega)
  obtain ⟨provider, hproviderAt, hproviderIs⟩ := h.string hproviderMem hvalid.2 hcursor
  refine ⟨⟨i.consumerNodeId, i.providerNodeId, i.kind, i.flags, consumer, provider⟩,
    { consumer := holds_storeU32_iff.mp (hheld ⟨record, storeU32 i.consumerNodeId⟩ ?_)
      provider := holds_storeU32_iff.mp (hheld ⟨record + 4, storeU32 i.providerNodeId⟩ ?_)
      kind := holds_storeU32_iff.mp (hheld ⟨record + 8, storeU32 i.kind⟩ ?_)
      flags := holds_storeU32_iff.mp (hheld ⟨record + 12, storeU32 i.flags⟩ ?_)
      consumerName := hconsumerAt
      providerName := hproviderAt }, ?_⟩
  · simp [storeImport]
  · simp [storeImport]
  · simp [storeImport]
  · simp [storeImport]
  · rw [Import.map, hconsumerIs, hproviderIs]

theorem resource {r : Resource} (hr : source.resources[index]? = some r) :
    (ofHeader bytes).StoresResource index r := by
  let record := (ofHeader bytes).record .resources index
  have hheld : ∀ w ∈ resourceImage record
      ((source.resources.take index).foldl sameCursor source.finalCursor) r,
      Holds (ofList bytes) w.address w.bytes :=
    h.held (t := .resources) (n := 72) rfl hr fun w hw => by simp [manifestImage, hw]
  have hdigest : digestIsZero r.interfaceSchemaDigest = false :=
    (sourceValid_iff.mp h.valid).2.2 r (mem_of_getElem? hr)
  refine
    { slotId := holds_storeU32_iff.mp (hheld ⟨record, storeU32 r.slotId⟩ ?_)
      type := holds_storeU32_iff.mp (hheld ⟨record + 4, storeU32 r.type⟩ ?_)
      minimumCount := holds_storeU32_iff.mp (hheld ⟨record + 8, storeU32 r.minimumCount⟩ ?_)
      maximumCount := holds_storeU32_iff.mp (hheld ⟨record + 12, storeU32 r.maximumCount⟩ ?_)
      requiredRights := holds_storeU64_iff.mp (hheld ⟨record + 16, storeU64 r.requiredRights⟩ ?_)
      maximumRights := holds_storeU64_iff.mp (hheld ⟨record + 24, storeU64 r.maximumRights⟩ ?_)
      flags := holds_storeU32_iff.mp (hheld ⟨record + 32, storeU32 r.flags⟩ ?_)
      digest := holds_digest_iff.mp (hheld ⟨record + 40, r.interfaceSchemaDigest.bytes⟩ ?_)
      nonzero := hdigest
      reserved := bytesAreZero_iff.mpr (hheld (.zeros (record + 36) 4) ?_) }
  all_goals simp [resourceImage]

theorem binding {b : Binding} (hb : source.bindings[index]? = some b) :
    (ofHeader bytes).StoresBinding index b := by
  let record := (ofHeader bytes).record .bindings index
  have hheld : ∀ w ∈ storeBinding record
      ((source.bindings.take index).foldl sameCursor source.finalCursor) b,
      Holds (ofList bytes) w.address w.bytes :=
    h.held (t := .bindings) (n := 8) rfl hb fun w hw => by simp [manifestImage, hw]
  refine
    { slotId := holds_storeU32_iff.mp (hheld ⟨record, storeU32 b.slotId⟩ ?_)
      nodeId := holds_storeU32_iff.mp (hheld ⟨record + 4, storeU32 b.nodeId⟩ ?_) }
  · simp [storeBinding]
  · simp [storeBinding]

theorem stores : ∃ tables, (ofHeader bytes).Stores tables ∧
    tables.map (ofHeader bytes).string = source := by
  obtain ⟨artifacts, hartifacts, hartifactsIs⟩ := exists_lists_map fun _ _ ha => h.artifact ha
  obtain ⟨exports, hexports, hexportsIs⟩ := exists_lists_map fun _ _ he => h.exported he
  obtain ⟨imports, himports, himportsIs⟩ := exists_lists_map fun _ _ hi => h.imported hi
  refine ⟨⟨artifacts, source.dependencies, exports, imports, source.resources, source.bindings⟩,
    ⟨?_, ?_, ?_, ?_, ?_, ?_⟩, ?_⟩
  · rw [h.counts]
    exact hartifacts
  · rw [h.counts]
    exact ⟨rfl, h.dependency⟩
  · rw [h.counts]
    exact hexports
  · rw [h.counts]
    exact himports
  · rw [h.counts]
    exact ⟨rfl, h.resource⟩
  · rw [h.counts]
    exact ⟨rfl, h.binding⟩
  · rw [Tables.map, hartifactsIs, hexportsIs, himportsIs]

theorem valid_of_decode {m : Manifest} (hm : decodeBuffer bytes = .ok m) : source.Valid := by
  obtain ⟨tables, hstores, hmap⟩ := h.stores
  obtain ⟨rfl, -, tables', hreads, hvalid⟩ := decodeBuffer_eq_ok.mp hm
  rwa [← hmap, Tables.valid_map, hstores.unique hreads.stores]

theorem decode_ok (hv : source.Valid) (out : Manifest) :
    (decode (some bytes) out).1 = .ok ∧ ∃ tables, (decode (some bytes) out).2.Reads tables ∧
      tables.map (decode (some bytes) out).2.string = source := by
  obtain ⟨tables, hstores, hmap⟩ := h.stores
  have hvalid : tables.Valid := by
    rw [← hmap] at hv
    exact Tables.valid_map.mp hv
  have hreads := hstores.reads hvalid
  rw [decode, decodeBuffer_eq_ok.mpr ⟨rfl, h.framed, tables, hreads, hvalid⟩]
  exact ⟨rfl, tables, hreads, hmap⟩

end Encoded

end Encoded

theorem decode_encoded_iff {buffer bytes : List UInt8} {source : Source} {size : ℕ}
    (h : encode buffer source = .ok (bytes, size)) (out : Manifest) :
    (decode (some (bytes.take size)) out).1 = .ok ↔ source.Valid := by
  have hencoded := encoded_of_encode h
  constructor
  · intro hok
    obtain ⟨hframed, tables, hreads, hvalid⟩ := decode_ok_iff.mp hok
    exact hencoded.valid_of_decode (decodeBuffer_eq_ok.mpr ⟨rfl, hframed, tables, hreads, hvalid⟩)
  · exact fun hv => (hencoded.decode_ok hv out).1

/-- The decoder accepts what the encoder makes of a source exactly when the source is valid, and
the accessors then return the source's records with the exact bytes of their strings. -/
theorem manifest_round_trip (buffer bytes : List UInt8) (source : Source) (size : ℕ)
    (out : Manifest) (h : encode buffer source = .ok (bytes, size)) :
    ((decode (some (bytes.take size)) out).1 = .ok ↔ source.Valid) ∧
      (source.Valid → ∃ tables, (decode (some (bytes.take size)) out).2.Reads tables ∧
        tables.map (decode (some (bytes.take size)) out).2.string = source) := by
  refine ⟨decode_encoded_iff h out, fun hv => ?_⟩
  exact ((encoded_of_encode h).decode_ok hv out).2

namespace Sample

def digest : Digest := ⟨List.replicate 32 1, rfl⟩

def source : Source where
  artifacts :=
    [⟨1, 0, 3, 16, digest, [0x61], [], [], []⟩,
      ⟨2, 1, 0, 16, digest, [0x62], [0x69], [0x71], [0x63]⟩]
  dependencies := [⟨2, 1⟩]
  exports := [⟨1, 0, [0x73]⟩]
  imports := [⟨2, 1, 0, 0, [0x73], [0x73]⟩]
  resources := [⟨7, 0, 1, 1, 1, 3, 1, digest⟩]
  bindings := [⟨7, 2⟩]

theorem valid : source.Valid := by decide

end Sample

/-- The sample is encoded into 464 bytes, which are accepted. -/
theorem manifest_round_trip_of_sample : ∃ bytes,
    encode (List.replicate 512 0) Sample.source = .ok (bytes, 464) ∧
      (decode (some (bytes.take 464)) .zero).1 = .ok := by
  have hsize : sourceSize Sample.source = some 464 := by decide
  have hlength : 464 ≤ (List.replicate 512 (0 : UInt8)).length := by
    rw [length_replicate]
    omega
  have hencode := encode_eq_ok.mpr ⟨hsize, hlength, rfl⟩
  exact ⟨_, hencode, (manifest_round_trip _ _ _ _ .zero hencode).1.mpr Sample.valid⟩

end Kobox.Manifest
