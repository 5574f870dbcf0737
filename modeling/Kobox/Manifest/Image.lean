import Kobox.Manifest.Codec

/-!
# The image of an encoded manifest
-/

namespace Kobox.Manifest
open ByteMemory Protocol List
variable {size : ℕ} {source : Source}

/-! ### Sizes -/

def LifecycleValid (flags : UInt32) (string : List UInt8) : Prop :=
  if flags &&& flagNativeLinux ≠ 0 then string.length = 0 else stringValid string = true

theorem artifactStringsValid_iff {a : Artifact (List UInt8)} : artifactStringsValid a = true ↔
    stringValid a.namespaceName = true ∧ LifecycleValid a.flags a.initSymbol ∧
      LifecycleValid a.flags a.quiesceSymbol ∧ LifecycleValid a.flags a.cleanupSymbol := by
  rw [artifactStringsValid, Bool.and_eq_true]
  unfold LifecycleValid
  split_ifs with hnative
  · simp only [Bool.and_eq_true, beq_iff_eq, and_assoc]
  · simp only [Bool.and_eq_true, and_assoc]

/-- The encoder's checks of the strings. -/
structure Tables.StringsValid (source : Source) : Prop where
  artifacts : ∀ a ∈ source.artifacts, artifactStringsValid a = true
  exports : ∀ e ∈ source.exports, stringValid e.name = true
  imports : ∀ i ∈ source.imports, (stringValid i.consumerName && stringValid i.providerName) = true

theorem addStrings_eq_some {strings : List (List UInt8)} {result : ℕ} (h : size ≤ sizeMax) :
    addStrings size strings = some result ↔
      result = strings.foldl (fun size string => size + string.length) size ∧
        result ≤ sizeMax := by
  have hstep (size : ℕ) (string : List UInt8) (result : ℕ) (hsize : size ≤ sizeMax) :
      addSize size 1 string.length = some result ↔
        True ∧ result = size + string.length ∧ result ≤ sizeMax := by
    rw [addSize_eq_some hsize, Nat.one_mul, true_and]
  rw [addStrings, foldlM_eq_some (fun _ _ => Nat.le_add_right _ _) hstep h]
  simp only [implies_true, true_and]

theorem stringSize_eq_some {valid : Bool} {strings : List (List UInt8)} {result : ℕ}
    (h : size ≤ sizeMax) : (if valid then addStrings size strings else none) = some result ↔
      valid = true ∧ result = strings.foldl (fun size string => size + string.length) size ∧
        result ≤ sizeMax := by
  split_ifs with hvalid
  · rw [addStrings_eq_some h]
    simp only [hvalid, true_and]
  · simp only [hvalid, reduceCtorEq, false_and]

theorem le_artifactCursor (cursor : ℕ) (a : Artifact (List UInt8)) :
    cursor ≤ artifactCursor cursor a := by
  rw [artifactCursor]
  omega

theorem le_exportCursor (cursor : ℕ) (e : Symbol (List UInt8)) : cursor ≤ exportCursor cursor e :=
  Nat.le_add_right _ _

theorem le_importCursor (cursor : ℕ) (i : Import (List UInt8)) :
    cursor ≤ importCursor cursor i := by
  rw [importCursor]
  omega

theorem sourceStringSize_eq_some :
    sourceStringSize source = some size ↔
      source.StringsValid ∧ size = source.finalCursor ∧ size ≤ uint32Max := by
  have hartifacts {result : ℕ} : source.artifacts.foldlM artifactStringSize 0 = some result ↔
      (∀ a ∈ source.artifacts, artifactStringsValid a = true) ∧
        result = source.exportsCursor ∧ result ≤ sizeMax :=
    foldlM_eq_some le_artifactCursor (fun _ _ _ h => stringSize_eq_some h) (Nat.zero_le _)
  have hexports {result : ℕ} (h : source.exportsCursor ≤ sizeMax) :
      source.exports.foldlM exportStringSize source.exportsCursor = some result ↔
      (∀ e ∈ source.exports, stringValid e.name = true) ∧
        result = source.importsCursor ∧ result ≤ sizeMax :=
    foldlM_eq_some le_exportCursor (fun _ _ _ h => stringSize_eq_some h) h
  have himports {result : ℕ} (h : source.importsCursor ≤ sizeMax) :
      source.imports.foldlM importStringSize source.importsCursor = some result ↔
      (∀ i ∈ source.imports, (stringValid i.consumerName && stringValid i.providerName) = true) ∧
        result = source.finalCursor ∧ result ≤ sizeMax :=
    foldlM_eq_some le_importCursor (fun _ _ _ h => stringSize_eq_some h) h
  simp only [sourceStringSize, Option.bind_eq_bind, Option.bind_eq_some_iff]
  constructor
  · rintro ⟨_, hfirst, _, hsecond, last, hthird, hlast⟩
    obtain ⟨ha, rfl, hle⟩ := hartifacts.mp hfirst
    obtain ⟨he, rfl, hle'⟩ := (hexports hle).mp hsecond
    obtain ⟨hi, rfl, -⟩ := (himports hle').mp hthird
    split_ifs at hlast with hmax
    obtain rfl := Option.some.inj hlast
    exact ⟨⟨ha, he, hi⟩, rfl, hmax⟩
  · rintro ⟨hvalid, rfl, hmax⟩
    have hsize : uint32Max ≤ sizeMax := by decide
    have hlast : source.importsCursor ≤ source.finalCursor := le_foldl le_importCursor _ _
    have hmiddle : source.exportsCursor ≤ source.importsCursor := le_foldl le_exportCursor _ _
    have hle : source.exportsCursor ≤ sizeMax := by omega
    have hle' : source.importsCursor ≤ sizeMax := by omega
    exact ⟨_, hartifacts.mpr ⟨hvalid.artifacts, rfl, hle⟩, _,
      (hexports hle).mpr ⟨hvalid.exports, rfl, hle'⟩, _,
      (himports hle').mpr ⟨hvalid.imports, rfl, by omega⟩, if_pos hmax⟩

theorem sourceSize_eq_some :
    sourceSize source = some size ↔
      sourceValid source = true ∧ source.StringsValid ∧
        size = source.strings + source.finalCursor ∧ size ≤ uint32Max := by
  have hmax : uint32Max ≤ sizeMax := by decide
  have htables {result : ℕ} :
      Section.all.foldlM (fun size t => addSize size (source.count t) t.size) headerSize =
        some result ↔ result = source.strings ∧ result ≤ sizeMax := by
    have hstep (size : ℕ) (t : Section) (result : ℕ) (hsize : size ≤ sizeMax) :
        addSize size (source.count t) t.size = some result ↔
          True ∧ result = size + source.count t * t.size ∧ result ≤ sizeMax := by
      rw [addSize_eq_some hsize, true_and]
    rw [foldlM_eq_some (fun _ _ => Nat.le_add_right _ _) hstep (by decide)]
    simp only [implies_true, true_and]
    rfl
  unfold sourceSize
  split_ifs with hvalid
  · simp only [Option.bind_eq_bind, Option.bind_eq_some_iff]
    constructor
    · rintro ⟨_, hstrings, _, hsum, last, htotal, hlast⟩
      obtain ⟨hs, rfl, -⟩ := sourceStringSize_eq_some.mp hstrings
      obtain ⟨rfl, hle⟩ := htables.mp hsum
      obtain ⟨rfl, -⟩ := (addSize_eq_some hle).mp htotal
      split_ifs at hlast with hfits
      obtain rfl := Option.some.inj hlast
      rw [Nat.one_mul] at hfits ⊢
      exact ⟨hvalid, hs, rfl, hfits⟩
    · rintro ⟨-, hs, rfl, hfits⟩
      have hle : source.strings ≤ sizeMax := by omega
      refine ⟨_, sourceStringSize_eq_some.mpr ⟨hs, rfl, by omega⟩, _, htables.mpr ⟨rfl, hle⟩, _,
        (addSize_eq_some hle).mpr ⟨rfl, ?_⟩, ?_⟩
      · rw [Nat.one_mul]
        omega
      · rw [Nat.one_mul, if_pos hfits]
  · simp only [hvalid, reduceCtorEq, false_and]

theorem length_le_of_stringValid {string : List UInt8} (h : stringValid string = true) :
    string.length ≤ 127 := by
  simp only [stringValid, Bool.and_eq_true, Bool.not_eq_true', Bool.or_eq_false_iff,
    decide_eq_false_iff_not, Nat.not_lt] at h
  exact h.1.2

theorem length_le_of_lifecycleValid {flags : UInt32} {string : List UInt8}
    (h : LifecycleValid flags string) : string.length ≤ 127 := by
  unfold LifecycleValid at h
  split_ifs at h with hnative
  · omega
  · exact length_le_of_stringValid h

theorem Tables.StringsValid.finalCursor_le (h : source.StringsValid) :
    source.finalCursor ≤ source.artifacts.length * 508 + source.exports.length * 127 +
      source.imports.length * 254 := by
  have hartifacts : source.exportsCursor ≤ 0 + source.artifacts.length * 508 := by
    refine foldl_le (fun a ha cursor => ?_) 0
    obtain ⟨hname, hinit, hquiesce, hcleanup⟩ := artifactStringsValid_iff.mp (h.artifacts a ha)
    have h1 := length_le_of_stringValid hname
    have h2 := length_le_of_lifecycleValid hinit
    have h3 := length_le_of_lifecycleValid hquiesce
    have h4 := length_le_of_lifecycleValid hcleanup
    rw [artifactCursor]
    omega
  have hexports : source.importsCursor ≤ source.exportsCursor + source.exports.length * 127 := by
    refine foldl_le (fun e he cursor => ?_) _
    have hname := length_le_of_stringValid (h.exports e he)
    rw [exportCursor]
    omega
  have himports : source.finalCursor ≤ source.importsCursor + source.imports.length * 254 := by
    refine foldl_le (fun i hi cursor => ?_) _
    have hvalid := h.imports i hi
    rw [Bool.and_eq_true] at hvalid
    have hconsumer := length_le_of_stringValid hvalid.1
    have hprovider := length_le_of_stringValid hvalid.2
    rw [importCursor]
    omega
  omega

theorem sourceValid_iff : sourceValid source = true ↔
    source.artifacts.length ≠ 0 ∧ (∀ t : Section, source.count t ≤ t.limit) ∧
      ∀ r ∈ source.resources, digestIsZero r.interfaceSchemaDigest = false := by
  simp only [sourceValid, Bool.and_eq_true, all_eq_true, decide_eq_true_eq, bne_iff_ne,
    Bool.not_eq_true', and_assoc, Section.mem_all, true_imp_iff]

theorem sourceSize_of_valid (hv : sourceValid source = true) (hs : source.StringsValid) :
    sourceSize source = some (source.strings + source.finalCursor) := by
  obtain ⟨-, hlimit, -⟩ := sourceValid_iff.mp hv
  have hcursor := hs.finalCursor_le
  have ha : source.artifacts.length ≤ 4096 := hlimit .artifacts
  have hd : source.dependencies.length ≤ 65536 := hlimit .dependencies
  have he : source.exports.length ≤ 65536 := hlimit .exports
  have hi : source.imports.length ≤ 65536 := hlimit .imports
  have hr : source.resources.length ≤ 16384 := hlimit .resources
  have hb : source.bindings.length ≤ 65536 := hlimit .bindings
  have hstrings : source.strings = 128 + source.artifacts.length * 96 +
      source.dependencies.length * 8 + source.exports.length * 16 + source.imports.length * 32 +
      source.resources.length * 72 + source.bindings.length * 8 := rfl
  have hmax : uint32Max = 4294967295 := rfl
  exact sourceSize_eq_some.mpr ⟨hv, hs, rfl, by omega⟩

section Records
variable {strings record cursor : ℕ}

theorem storeStringReference_emits (offsetField lengthField : ℕ) (string : List UInt8)
    (hfield : lengthField = offsetField + 4) (hb : record + lengthField + 4 ≤ strings + cursor) :
    Emits (storeStringReference record offsetField lengthField strings cursor string)
      (storeStringReference record offsetField lengthField strings cursor string)
      (record + offsetField) (record + lengthField + 4) (strings + cursor)
      (strings + (cursor + string.length)) := by
  have hfields (low : ℕ) (hlow : record + lengthField + 4 ≤ low) (offset length : UInt32) :
      Emits [⟨record + offsetField, storeU32 offset⟩, ⟨record + lengthField, storeU32 length⟩]
        [⟨record + offsetField, storeU32 offset⟩, ⟨record + lengthField, storeU32 length⟩]
        (record + offsetField) (record + lengthField + 4) low low := by
    refine .cons 4 rfl ?_ (.cons 4 rfl (le_refl _) (.nil (le_refl _) hlow (le_refl low)))
    omega
  unfold storeStringReference
  split_ifs with hempty
  · rw [hempty]
    exact hfields _ hb 0 0
  · rw [← Nat.add_assoc]
    have hlow : record + lengthField + 4 ≤ strings + cursor + string.length := by omega
    exact (Emits.string string (by omega)).append (hfields _ hlow _ _) (le_refl _) hb

def artifactImage (strings record cursor : ℕ) (artifact : Artifact (List UInt8)) : List Store :=
  let init := cursor + artifact.namespaceName.length
  let quiesce := init + artifact.initSymbol.length
  let cleanup := quiesce + artifact.quiesceSymbol.length
  [⟨record, storeU32 artifact.nodeId⟩, ⟨record + 4, storeU32 artifact.kind⟩,
    ⟨record + 8, storeU32 artifact.flags⟩, .zeros (record + 12) 4,
    ⟨record + 16, storeU64 artifact.contentSize⟩,
    ⟨record + 24, artifact.contentDigest.bytes⟩] ++
    storeStringReference record 56 60 strings cursor artifact.namespaceName ++
    storeStringReference record 64 68 strings init artifact.initSymbol ++
    storeStringReference record 72 76 strings quiesce artifact.quiesceSymbol ++
    storeStringReference record 80 84 strings cleanup artifact.cleanupSymbol ++
    [.zeros (record + 88) 8]

theorem storeArtifact_emits {a : Artifact (List UInt8)} (hb : record + 96 ≤ strings + cursor) :
    Emits (storeArtifact strings record cursor a) (artifactImage strings record cursor a) record
      (record + 96) (strings + cursor) (strings + artifactCursor cursor a) := by
  have hfields : Emits
      [⟨record, storeU32 a.nodeId⟩, ⟨record + 4, storeU32 a.kind⟩, ⟨record + 8, storeU32 a.flags⟩,
        ⟨record + 16, storeU64 a.contentSize⟩, ⟨record + 24, a.contentDigest.bytes⟩]
      [⟨record, storeU32 a.nodeId⟩, ⟨record + 4, storeU32 a.kind⟩, ⟨record + 8, storeU32 a.flags⟩,
        .zeros (record + 12) 4, ⟨record + 16, storeU64 a.contentSize⟩,
        ⟨record + 24, a.contentDigest.bytes⟩]
      record (record + 56) (strings + cursor) (strings + cursor) := by
    refine .cons 4 rfl ?_ (.cons 4 rfl ?_ (.cons 4 rfl ?_ (.skip ?_ (.cons 8 rfl ?_
      (.cons 32 a.contentDigest.size ?_ (.nil (le_refl (record + 56)) ?_ (le_refl _)))))))
    all_goals omega
  have hname := storeStringReference_emits 56 60 a.namespaceName rfl
    (by omega : record + 60 + 4 ≤ strings + cursor)
  have hinit := storeStringReference_emits 64 68 a.initSymbol rfl
    (by omega : record + 68 + 4 ≤ strings + (cursor + a.namespaceName.length))
  have hquiesce := storeStringReference_emits 72 76 a.quiesceSymbol rfl
    (by omega : record + 76 + 4 ≤
      strings + (cursor + a.namespaceName.length + a.initSymbol.length))
  have hcleanup := storeStringReference_emits 80 84 a.cleanupSymbol rfl
    (by omega : record + 84 + 4 ≤
      strings + (cursor + a.namespaceName.length + a.initSymbol.length + a.quiesceSymbol.length))
  have hlow := le_artifactCursor cursor a
  have hend : Emits [] [.zeros (record + 88) 8] (record + 88) (record + 96)
      (strings + artifactCursor cursor a) (strings + artifactCursor cursor a) :=
    .reserved (record + 88) 8 (by omega)
  have hall := ((((hfields.append hname (by omega) (by omega)).append hinit (by omega)
    (by omega)).append hquiesce (by omega) (by omega)).append hcleanup (by omega)
    (by omega)).append hend (by omega) (by omega)
  rwa [append_nil] at hall

theorem storeDependency_emits {d : Dependency} (hb : record + 8 ≤ strings + cursor) :
    Emits (storeDependency record cursor d) (storeDependency record cursor d) record (record + 8)
      (strings + cursor) (strings + sameCursor cursor d) := by
  refine .cons 4 rfl ?_ (.cons 4 rfl ?_ (.nil (le_refl (record + 8)) ?_ (le_refl _)))
  all_goals omega

theorem storeExport_emits {e : Symbol (List UInt8)} (hb : record + 16 ≤ strings + cursor) :
    Emits (storeExport strings record cursor e) (storeExport strings record cursor e) record
      (record + 16) (strings + cursor) (strings + exportCursor cursor e) := by
  have hfields : Emits [⟨record, storeU32 e.nodeId⟩, ⟨record + 4, storeU32 e.kind⟩]
      [⟨record, storeU32 e.nodeId⟩, ⟨record + 4, storeU32 e.kind⟩] record (record + 8)
      (strings + cursor) (strings + cursor) := by
    refine .cons 4 rfl ?_ (.cons 4 rfl ?_ (.nil (le_refl (record + 8)) ?_ (le_refl _)))
    all_goals omega
  exact hfields.append (storeStringReference_emits 8 12 e.name rfl (by omega)) (by omega) (by omega)

theorem storeImport_emits {i : Import (List UInt8)} (hb : record + 32 ≤ strings + cursor) :
    Emits (storeImport strings record cursor i) (storeImport strings record cursor i) record
      (record + 32) (strings + cursor) (strings + importCursor cursor i) := by
  have hfields : Emits
      [⟨record, storeU32 i.consumerNodeId⟩, ⟨record + 4, storeU32 i.providerNodeId⟩,
        ⟨record + 8, storeU32 i.kind⟩, ⟨record + 12, storeU32 i.flags⟩]
      [⟨record, storeU32 i.consumerNodeId⟩, ⟨record + 4, storeU32 i.providerNodeId⟩,
        ⟨record + 8, storeU32 i.kind⟩, ⟨record + 12, storeU32 i.flags⟩]
      record (record + 16) (strings + cursor) (strings + cursor) := by
    refine .cons 4 rfl ?_ (.cons 4 rfl ?_ (.cons 4 rfl ?_ (.cons 4 rfl ?_
      (.nil (le_refl (record + 16)) ?_ (le_refl _)))))
    all_goals omega
  have hconsumer := storeStringReference_emits 16 20 i.consumerName rfl
    (by omega : record + 20 + 4 ≤ strings + cursor)
  have hprovider := storeStringReference_emits 24 28 i.providerName rfl
    (by omega : record + 28 + 4 ≤ strings + (cursor + i.consumerName.length))
  exact (hfields.append hconsumer (by omega) (by omega)).append hprovider (by omega) (by omega)

def resourceImage (record _cursor : ℕ) (resource : Resource) : List Store :=
  [⟨record, storeU32 resource.slotId⟩, ⟨record + 4, storeU32 resource.type⟩,
    ⟨record + 8, storeU32 resource.minimumCount⟩, ⟨record + 12, storeU32 resource.maximumCount⟩,
    ⟨record + 16, storeU64 resource.requiredRights⟩,
    ⟨record + 24, storeU64 resource.maximumRights⟩, ⟨record + 32, storeU32 resource.flags⟩,
    .zeros (record + 36) 4, ⟨record + 40, resource.interfaceSchemaDigest.bytes⟩]

theorem storeResource_emits {r : Resource} (hb : record + 72 ≤ strings + cursor) :
    Emits (storeResource record cursor r) (resourceImage record cursor r) record (record + 72)
      (strings + cursor) (strings + sameCursor cursor r) := by
  refine .cons 4 rfl ?_ (.cons 4 rfl ?_ (.cons 4 rfl ?_ (.cons 4 rfl ?_ (.cons 8 rfl ?_
    (.cons 8 rfl ?_ (.cons 4 rfl ?_ (.skip ?_ (.cons 32 r.interfaceSchemaDigest.size ?_
    (.nil (le_refl (record + 72)) ?_ (le_refl _))))))))))
  all_goals omega

theorem storeBinding_emits {b : Binding} (hb : record + 8 ≤ strings + cursor) :
    Emits (storeBinding record cursor b) (storeBinding record cursor b) record (record + 8)
      (strings + cursor) (strings + sameCursor cursor b) := by
  refine .cons 4 rfl ?_ (.cons 4 rfl ?_ (.nil (le_refl (record + 8)) ?_ (le_refl _)))
  all_goals omega

end Records

section Whole
variable (source : Source) (size : ℕ)

def headerImage (source : Source) (size : ℕ) : List Store := storeHeader source size ++ [.zeros 96 32]

def headerSpans : List Span :=
  [⟨0, 4⟩, ⟨4, 4⟩, ⟨8, 32⟩, ⟨40, 4⟩, ⟨64, 4⟩, ⟨44, 4⟩, ⟨68, 4⟩, ⟨48, 4⟩, ⟨72, 4⟩, ⟨52, 4⟩, ⟨76, 4⟩,
    ⟨56, 4⟩, ⟨80, 4⟩, ⟨60, 4⟩, ⟨84, 4⟩, ⟨88, 4⟩, ⟨92, 4⟩, ⟨96, 32⟩]

theorem headerImage_spans : (headerImage source size).map Store.span = headerSpans := rfl

theorem storeHeader_emits {low : ℕ} (hb : headerSize ≤ low) :
    Emits (storeHeader source size) (headerImage source size) 0 headerSize low low where
  separate := by
    have hspans : headerSpans.Pairwise Span.Apart := by decide
    rw [← headerImage_spans source size, pairwise_map] at hspans
    exact hspans
  sub := sublist_append_left _ _
  zero w hw := by
    rcases mem_append.mp hw with hw | hw
    · exact .inl hw
    · exact .inr ⟨32, by rw [mem_singleton.mp hw]; rfl⟩
  placed w hw := by
    have hspans : ∀ s ∈ headerSpans, s.base + s.size ≤ headerSize := by decide
    rw [← headerImage_spans source size] at hspans
    exact .inl ⟨Nat.zero_le _, hspans _ (mem_map_of_mem hw)⟩
  ordered := Nat.zero_le _
  below := hb
  heap := le_refl _

def manifestImage (source : Source) (size : ℕ) : List Store :=
  headerImage source size ++
    emitTable 96 (artifactImage source.strings) artifactCursor source.artifacts
      (source.offset .artifacts) 0 ++
    emitTable 8 storeDependency sameCursor source.dependencies (source.offset .dependencies)
      source.exportsCursor ++
    emitTable 16 (storeExport source.strings) exportCursor source.exports (source.offset .exports)
      source.exportsCursor ++
    emitTable 32 (storeImport source.strings) importCursor source.imports (source.offset .imports)
      source.importsCursor ++
    emitTable 72 resourceImage sameCursor source.resources (source.offset .resources)
      source.finalCursor ++
    emitTable 8 storeBinding sameCursor source.bindings (source.offset .bindings)
      source.finalCursor

theorem foldl_sameCursor {α : Type} (l : List α) (cursor : ℕ) : l.foldl sameCursor cursor = cursor := by
  induction l with
  | nil => rfl
  | cons x rest ih => exact ih

theorem emitTable_strings {α : Type} {n record strings cursor : ℕ} {l : List α}
    {stores image : ℕ → ℕ → α → List Store} {next : ℕ → α → ℕ}
    (hrecord : ∀ x record cursor, record + n ≤ strings + cursor →
      Emits (stores record cursor x) (image record cursor x) record (record + n)
        (strings + cursor) (strings + next cursor x))
    (hb : record + l.length * n ≤ strings) :
    Emits (emitTable n stores next l record cursor) (emitTable n image next l record cursor) record
      (record + l.length * n) (strings + cursor) (strings + l.foldl next cursor) :=
  emitTable_emits (fun cursor => strings + cursor) (fun x _ => hrecord x)
    (hb.trans (Nat.le_add_right _ _))

theorem storeManifest_emits : Emits (storeManifest source size) (manifestImage source size) 0
    source.strings source.strings (source.strings + source.finalCursor) := by
  have h1 : source.offset .dependencies = source.offset .artifacts + source.artifacts.length * 96 :=
    rfl
  have h2 : source.offset .exports =
      source.offset .dependencies + source.dependencies.length * 8 := rfl
  have h3 : source.offset .imports = source.offset .exports + source.exports.length * 16 := rfl
  have h4 : source.offset .resources = source.offset .imports + source.imports.length * 32 := rfl
  have h5 : source.offset .bindings = source.offset .resources + source.resources.length * 72 := rfl
  have h6 : source.strings = source.offset .bindings + source.bindings.length * 8 := rfl
  have hheader : Emits (storeHeader source size) (headerImage source size) 0
      (source.offset .artifacts) (source.strings + 0) (source.strings + 0) :=
    storeHeader_emits source size (show source.offset .artifacts ≤ source.strings by omega)
  have hartifacts : Emits (emitTable 96 (storeArtifact source.strings) artifactCursor
        source.artifacts (source.offset .artifacts) 0)
      (emitTable 96 (artifactImage source.strings) artifactCursor source.artifacts
        (source.offset .artifacts) 0) (source.offset .artifacts) (source.offset .dependencies)
      (source.strings + 0) (source.strings + source.exportsCursor) :=
    emitTable_strings (fun _ _ _ => storeArtifact_emits) (by omega)
  have hdependencies : Emits (emitTable 8 storeDependency sameCursor source.dependencies
        (source.offset .dependencies) source.exportsCursor)
      (emitTable 8 storeDependency sameCursor source.dependencies (source.offset .dependencies)
        source.exportsCursor) (source.offset .dependencies) (source.offset .exports)
      (source.strings + source.exportsCursor)
      (source.strings + source.dependencies.foldl sameCursor source.exportsCursor) :=
    emitTable_strings (fun _ _ _ => storeDependency_emits) (by omega)
  have hexports : Emits (emitTable 16 (storeExport source.strings) exportCursor source.exports
        (source.offset .exports) source.exportsCursor)
      (emitTable 16 (storeExport source.strings) exportCursor source.exports
        (source.offset .exports) source.exportsCursor) (source.offset .exports)
      (source.offset .imports) (source.strings + source.exportsCursor)
      (source.strings + source.importsCursor) :=
    emitTable_strings (fun _ _ _ => storeExport_emits) (by omega)
  have himports : Emits (emitTable 32 (storeImport source.strings) importCursor source.imports
        (source.offset .imports) source.importsCursor)
      (emitTable 32 (storeImport source.strings) importCursor source.imports
        (source.offset .imports) source.importsCursor) (source.offset .imports)
      (source.offset .resources) (source.strings + source.importsCursor)
      (source.strings + source.finalCursor) :=
    emitTable_strings (fun _ _ _ => storeImport_emits) (by omega)
  have hresources : Emits (emitTable 72 storeResource sameCursor source.resources
        (source.offset .resources) source.finalCursor)
      (emitTable 72 resourceImage sameCursor source.resources (source.offset .resources)
        source.finalCursor) (source.offset .resources) (source.offset .bindings)
      (source.strings + source.finalCursor)
      (source.strings + source.resources.foldl sameCursor source.finalCursor) :=
    emitTable_strings (fun _ _ _ => storeResource_emits) (by omega)
  have hbindings : Emits (emitTable 8 storeBinding sameCursor source.bindings
        (source.offset .bindings) source.finalCursor)
      (emitTable 8 storeBinding sameCursor source.bindings (source.offset .bindings)
        source.finalCursor) (source.offset .bindings) source.strings
      (source.strings + source.finalCursor)
      (source.strings + source.bindings.foldl sameCursor source.finalCursor) :=
    emitTable_strings (fun _ _ _ => storeBinding_emits) (by omega)
  rw [foldl_sameCursor] at hdependencies hresources hbindings
  exact (((((hheader.append hartifacts (le_refl _) (by omega)).append hdependencies (le_refl _)
    (by omega)).append hexports (le_refl _) (by omega)).append himports (le_refl _)
    (by omega)).append hresources (le_refl _) (by omega)).append hbindings (le_refl _) (by omega)

end Whole

end Kobox.Manifest
