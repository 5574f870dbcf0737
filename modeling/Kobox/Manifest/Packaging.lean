import Kobox.Closure.Canonical
import Kobox.Manifest.RoundTrip

/-!
# Sealed closures as manifests

The controller's closure (`src/closure.c`) and the wire manifest
(`protocol/src/closure_manifest.c`) check their records on their own. What sealing has established
is all that the encoder and the decoder ask for.
-/

namespace Kobox.Manifest
open ByteMemory Protocol Closure List

/-! ### The manifest of a closure -/

/-- `KB2_CLOSURE_ARTIFACT_SHARED_PROVIDER` and `KB2_CLOSURE_ARTIFACT_RELOCATABLE_MODULE`. -/
def artifactKindCode : ArtifactKind → UInt32
  | .sharedProvider => 0
  | .relocatableModule => 1

/-- `KB2_CLOSURE_SYMBOL_FUNCTION` and `KB2_CLOSURE_SYMBOL_OBJECT`. -/
def symbolKindCode : SymbolKind → UInt32
  | .function => 0
  | .object => 1

/-- The `KB2_CLOSURE_RESOURCE_` types. -/
def resourceTypeCode : ResourceType → UInt32
  | .memory => 0
  | .device => 1
  | .storage => 2
  | .notification => 3
  | .channel => 4

def digestOf (bytes : List UInt8) : Digest := loadDigest (ofList bytes) 0

def artifactFlags (a : ArtifactRecord) : UInt32 :=
  (if a.isRoot then flagRoot else 0) ||| (if a.nativeLifecycle then flagNativeLinux else 0)

def lifecycleName (a : ArtifactRecord) (symbol : NameBuffer) : List UInt8 :=
  if a.nativeLifecycle then [] else symbol.text

def packArtifact (contentSize : UInt32 → UInt64) (a : ArtifactRecord) : Artifact (List UInt8) where
  nodeId := a.nodeId
  kind := artifactKindCode a.kind
  flags := artifactFlags a
  contentSize := contentSize a.nodeId
  contentDigest := digestOf a.contentDigest
  namespaceName := a.namespaceName.text
  initSymbol := lifecycleName a a.initSymbol
  quiesceSymbol := lifecycleName a a.quiesceSymbol
  cleanupSymbol := lifecycleName a a.cleanupSymbol

def packDependency (d : DependencyRecord) : Dependency := ⟨d.consumerNodeId, d.providerNodeId⟩

def packExport (e : ExportRecord) : Symbol (List UInt8) :=
  ⟨e.nodeId, symbolKindCode e.kind, e.symbol.text⟩

def packImport (i : ImportRecord) : Import (List UInt8) :=
  ⟨i.consumerNodeId, i.providerNodeId, symbolKindCode i.kind, i.flags, i.consumerSymbol.text,
    i.providerSymbol.text⟩

def packResource (r : ResourceRecord) : Resource :=
  ⟨r.slotId, resourceTypeCode r.type, r.minimumCount, r.maximumCount, r.requiredRights,
    r.maximumRights, r.flags, digestOf r.interfaceSchemaDigest⟩

def packBinding (b : ResourceBindingRecord) : Binding := ⟨b.slotId, b.nodeId⟩

/-- The manifest source of the records, in stored order, with a content size for each node. -/
def pack (contentSize : UInt32 → UInt64) (r : Records) : Source where
  artifacts := r.artifacts.map (packArtifact contentSize)
  dependencies := r.dependencies.map packDependency
  exports := r.exports.map packExport
  imports := r.imports.map packImport
  resources := r.resources.map packResource
  bindings := r.resourceBindings.map packBinding

/-! ### The encoder's checks -/

theorem stringValid_eq (name : List UInt8) : stringValid name = nameValid (some name) := by
  have hlength : (!(name.length == 0 || decide (name.length > 127))) =
      (name.length != 0 && decide (name.length ≤ nameMax)) := by
    rw [Bool.eq_iff_iff, Bool.not_eq_true', Bool.or_eq_false_iff, Bool.and_eq_true,
      beq_eq_false_iff_ne, bne_iff_ne, decide_eq_false_iff_not, decide_eq_true_eq, Nat.not_lt]
    rfl
  rw [stringValid, nameValid, hlength]
  rfl

theorem stringValid_text {buffer : NameBuffer} (h : Named buffer) :
    stringValid buffer.text = true := by
  rw [stringValid_eq]
  exact h.valid

theorem digestOf_bytes {digest : List UInt8} (h : DigestValid digest) :
    (digestOf digest).bytes = digest := by
  have hread := read_ofList digest
  rw [h.size] at hread
  exact hread

theorem digestOf_nonzero {digest : List UInt8} (h : DigestValid digest) :
    Protocol.digestIsZero (digestOf digest) = false := by
  have hnonzero := h.nonzero
  rw [← Bool.not_eq_true] at hnonzero ⊢
  rw [digestIsZero_iff, digestOf_bytes h]
  intro hzero
  exact hnonzero (all_eq_true.mpr fun byte hbyte => beq_iff_eq.mpr (hzero byte hbyte))

theorem artifactFlags_native (a : ArtifactRecord) :
    artifactFlags a &&& flagNativeLinux ≠ 0 ↔ a.nativeLifecycle = true := by
  rw [artifactFlags]
  cases a.isRoot <;> cases a.nativeLifecycle <;> decide

theorem artifactFlags_root (a : ArtifactRecord) :
    artifactFlags a &&& flagRoot ≠ 0 ↔ a.isRoot = true := by
  rw [artifactFlags]
  cases a.isRoot <;> cases a.nativeLifecycle <;> decide

theorem artifactFlags_known (a : ArtifactRecord) :
    artifactFlags a &&& ~~~(flagRoot ||| flagNativeLinux) = 0 := by
  rw [artifactFlags]
  cases a.isRoot <;> cases a.nativeLifecycle <;> decide

theorem lifecycleValid_pack {a : ArtifactRecord} {symbol : NameBuffer}
    (hnamed : a.nativeLifecycle = false → Named symbol) :
    LifecycleValid (artifactFlags a) (lifecycleName a symbol) := by
  unfold LifecycleValid lifecycleName
  cases hnative : a.nativeLifecycle with
  | true =>
    rw [if_pos ((artifactFlags_native a).mpr hnative)]
    rfl
  | false =>
    rw [if_neg (by rw [artifactFlags_native, hnative]; nofun)]
    exact stringValid_text (hnamed hnative)

section Pack
variable {r : Records} (hs : r.Sound) (hc : r.Sealable) (contentSize : UInt32 → UInt64)
include hs hc

theorem stringsValid_pack : (pack contentSize r).StringsValid where
  artifacts := by
    intro _ hmem
    obtain ⟨a, ha, rfl⟩ := mem_map.mp hmem
    have hvalid := hs.artifacts.valid a ha
    have hlifecycle := hvalid.lifecycle (hc.artifacts.lifecycle a ha)
    exact artifactStringsValid_iff.mpr ⟨stringValid_text hvalid.name,
      lifecycleValid_pack fun hnative => (hlifecycle hnative).1,
      lifecycleValid_pack fun hnative => (hlifecycle hnative).2.1,
      lifecycleValid_pack fun hnative => (hlifecycle hnative).2.2⟩
  exports := by
    intro _ hmem
    obtain ⟨e, he, rfl⟩ := mem_map.mp hmem
    exact stringValid_text (hs.exports.valid e he).name
  imports := by
    intro _ hmem
    obtain ⟨i, hi, rfl⟩ := mem_map.mp hmem
    have hvalid := hs.imports.valid i hi
    rw [Bool.and_eq_true]
    exact ⟨stringValid_text hvalid.consumerName, stringValid_text hvalid.providerName⟩

theorem sourceValid_pack : sourceValid (pack contentSize r) = true := by
  refine sourceValid_iff.mpr ⟨?_, fun t => ?_, fun _ hmem => ?_⟩
  · simp only [pack, length_map]
    exact fun hzero => hc.artifacts.nonempty (length_eq_zero_iff.mp hzero)
  · cases t
    all_goals simp only [Tables.count, pack, length_map]
    · exact hs.artifacts.bounded
    · exact hs.dependencies.bounded
    · exact hs.exports.bounded
    · exact hs.imports.bounded
    · exact hs.resources.bounded
    · exact hs.resourceBindings.bounded
  · obtain ⟨x, hx, rfl⟩ := mem_map.mp hmem
    exact digestOf_nonzero (hs.resources.valid x hx).digest

omit hs hc in
theorem declares_pack {nodeId : UInt32} (h : r.Declares nodeId) :
    (pack contentSize r).Declares nodeId := by
  obtain ⟨a, ha, rfl⟩ := h
  exact ⟨_, mem_map_of_mem ha, rfl⟩

theorem valid_pack (hsizes : ∀ a ∈ r.artifacts, contentSize a.nodeId ≠ 0)
    (hascending : r.artifacts.Pairwise fun a b => a.nodeId < b.nodeId) :
    (pack contentSize r).Valid where
  artifacts := by
    intro _ hmem
    obtain ⟨a, ha, rfl⟩ := mem_map.mp hmem
    have hkind : artifactKindCode a.kind ≤ artifactKindMax := by
      cases a.kind <;> decide
    exact ⟨(hs.artifacts.valid a ha).nodeId, hsizes a ha, hkind, artifactFlags_known a⟩
  ascending := pairwise_map.mpr hascending
  root := by
    obtain ⟨a, ha, hroot⟩ := hc.artifacts.root
    exact ⟨_, mem_map_of_mem ha, (artifactFlags_root a).mpr hroot⟩
  dependencies := by
    intro _ hmem
    obtain ⟨d, hd, rfl⟩ := mem_map.mp hmem
    obtain ⟨hconsumer, hprovider⟩ := hc.graph.joined d hd
    exact ⟨(hs.dependencies.valid d hd).noLoop, declares_pack contentSize hconsumer,
      declares_pack contentSize hprovider⟩
  exports := by
    intro _ hmem
    obtain ⟨e, he, rfl⟩ := mem_map.mp hmem
    have hkind : symbolKindCode e.kind ≤ symbolKindMax := by
      cases e.kind <;> decide
    exact ⟨hkind, declares_pack contentSize (hc.symbols.exports e he)⟩
  imports := by
    intro _ hmem
    obtain ⟨i, hi, rfl⟩ := mem_map.mp hmem
    have hvalid := hs.imports.valid i hi
    have himport := hc.symbols.imports i hi
    have hkind : symbolKindCode i.kind ≤ symbolKindMax := by
      cases i.kind <;> decide
    have hconsumer := declares_pack contentSize himport.consumer
    rcases himport.provider with hzero | ⟨hdeclared, ⟨d, hd, hfrom, hto⟩, -⟩
    · have hdistinct : i.consumerNodeId ≠ i.providerNodeId := hzero ▸ hvalid.consumer
      exact ⟨⟨hdistinct, hkind, hvalid.flags⟩, hconsumer, .inl hzero⟩
    · -- the consumer depends on the provider, and no dependency is a loop
      have hdistinct : i.consumerNodeId ≠ i.providerNodeId := by
        rw [← hfrom, ← hto]
        exact (hs.dependencies.valid d hd).noLoop
      exact ⟨⟨hdistinct, hkind, hvalid.flags⟩, hconsumer,
        .inr (declares_pack contentSize hdeclared)⟩
  resources := by
    intro _ hmem
    obtain ⟨x, hx, rfl⟩ := mem_map.mp hmem
    have hvalid := hs.resources.valid x hx
    exact ⟨hvalid.slotId, hvalid.counts, hvalid.within⟩
  bindings := by
    intro _ hmem
    obtain ⟨b, hb, rfl⟩ := mem_map.mp hmem
    exact ⟨(hs.resourceBindings.valid b hb).slotId,
      declares_pack contentSize (hc.resources.bindings b hb).2⟩

end Pack

/-! ### Sealed closures -/

theorem ascending_of_sorted {α : Type} {key : α → UInt32} {l : List α}
    (hsorted : l.Pairwise fun a b => compare (key a) (key b) ≠ .gt) (hunique : (l.map key).Nodup) :
    l.Pairwise fun a b => key a < key b := by
  have hne : l.Pairwise fun a b => key a ≠ key b := pairwise_map.mp hunique
  refine (hsorted.and hne).imp fun {a b} h => ?_
  by_contra hlt
  exact h.1 (by simp only [compare, compareOfLessAndEq, if_neg hlt, if_neg h.2])

/-- What sealing has established of the sorted records. -/
structure Sealed (r : Records) : Prop where
  sound : r.Sound
  sealable : r.Sealable
  artifacts : r.artifacts.Pairwise fun a b => compareArtifacts a b ≠ .gt
  dependencies : r.dependencies.Pairwise fun a b => compareDependencies a b ≠ .gt
  exports : r.exports.Pairwise fun a b => compareExports a b ≠ .gt
  imports : r.imports.Pairwise fun a b => compareImports a b ≠ .gt
  resources : r.resources.Pairwise fun a b => compareResources a b ≠ .gt
  resourceBindings : r.resourceBindings.Pairwise fun a b => compareResourceBindings a b ≠ .gt

theorem sealed_records {qsort : Qsort} {grants : ℕ → Bool} {s closure : Storage}
    (hs : s.Wellformed) (hseal : builderSeal qsort grants s = .ok closure) :
    Sealed closure.records := by
  have hgranted := builderSeal_granted hseal
  have hsealable := sealable_of_builderSeal hs hgranted
  rw [builderSeal_ok qsort hs hsealable] at hgranted
  obtain rfl := Except.ok.inj hgranted
  have hpermuted : (s.records.sealed qsort s.manifestDigest).records.Permuted s.records :=
    Records.sealed_permuted qsort s.manifestDigest
  have hartifacts : (s.records.sealed qsort s.manifestDigest).records.artifacts =
      qsort.artifacts.sort s.records.artifacts := Table.records_full _
  have hdependencies : (s.records.sealed qsort s.manifestDigest).records.dependencies =
      qsort.dependencies.sort s.records.dependencies := Table.records_full _
  have hexports : (s.records.sealed qsort s.manifestDigest).records.exports =
      qsort.exports.sort s.records.exports := Table.records_full _
  have himports : (s.records.sealed qsort s.manifestDigest).records.imports =
      qsort.imports.sort s.records.imports := Table.records_full _
  have hresources : (s.records.sealed qsort s.manifestDigest).records.resources =
      qsort.resources.sort s.records.resources := Table.records_full _
  have hbindings : (s.records.sealed qsort s.manifestDigest).records.resourceBindings =
      qsort.resourceBindings.sort s.records.resourceBindings := Table.records_full _
  exact
    { sound := hpermuted.sound hs.sound
      sealable := hpermuted.symm.sealable hsealable
      artifacts := hartifacts ▸ qsort.artifacts.sorted _
      dependencies := hdependencies ▸ qsort.dependencies.sorted _
      exports := hexports ▸ qsort.exports.sorted _
      imports := himports ▸ qsort.imports.sorted _
      resources := hresources ▸ qsort.resources.sorted _
      resourceBindings := hbindings ▸ qsort.resourceBindings.sorted _ }

namespace Sealed
variable {r : Records} (h : Sealed r)
include h

theorem artifacts_ascending : r.artifacts.Pairwise fun a b => a.nodeId < b.nodeId :=
  ascending_of_sorted h.artifacts h.sound.artifacts.unique

theorem resources_ascending : r.resources.Pairwise fun a b => a.slotId < b.slotId :=
  ascending_of_sorted h.resources h.sound.resources.unique

end Sealed

/-- The manifest of every sealed closure is encoded into a buffer that is large enough, the
produced bytes are accepted, and the accessors return the closure's records in order. -/
theorem sealed_closure_packaged (qsort : Qsort) (grants : ℕ → Bool) (digest : List UInt8)
    (calls : List (Call × Bool)) (closure : Storage) (contentSize : UInt32 → UInt64)
    (hseal : builderSeal qsort grants (run (.created digest) calls) = .ok closure)
    (hsizes : ∀ a ∈ closure.records.artifacts, contentSize a.nodeId ≠ 0) :
    ∃ size, ∀ buffer : List UInt8, size ≤ buffer.length → ∀ out,
      ∃ bytes, encode buffer (pack contentSize closure.records) = .ok (bytes, size) ∧
        (decode (some (bytes.take size)) out).1 = .ok ∧
        ∃ tables, (decode (some (bytes.take size)) out).2.Reads tables ∧
          tables.map (decode (some (bytes.take size)) out).2.string =
            pack contentSize closure.records := by
  have hsealed := sealed_records ((Storage.wellformed_created digest).run calls) hseal
  have hs := hsealed.sound
  have hc := hsealed.sealable
  have hsize := sourceSize_of_valid (sourceValid_pack hs hc contentSize)
    (stringsValid_pack hs hc contentSize)
  have hvalid := valid_pack hs hc contentSize hsizes hsealed.artifacts_ascending
  refine ⟨(pack contentSize closure.records).strings + (pack contentSize closure.records).finalCursor,
    fun buffer hle out => ?_⟩
  have hencode := encode_eq_ok.mpr ⟨hsize, hle, rfl⟩
  exact ⟨_, hencode, (encoded_of_encode hencode).decode_ok hvalid out⟩

namespace Sample

def calls : List (Call × Bool) :=
  (Closure.Sample.declareModule :: Closure.Sample.declareProvider :: Closure.Sample.rest).map
    fun call => (call, true)

theorem validates :
    (validateStorage (run (.created Closure.Sample.digest) calls) fun _ => true).1 = .ok := by
  decide +kernel

theorem creates : create (some Closure.Sample.digest) true =
    (.ok, some (.created Closure.Sample.digest)) := by decide

theorem wellformed : (run (.created Closure.Sample.digest) calls).Wellformed :=
  (Storage.wellformed_of_create (congrArg Prod.snd creates)).run calls

theorem sealable : (run (.created Closure.Sample.digest) calls).records.Sealable := by
  by_contra hnot
  have hrefused := (validateStorage_decides wellformed).refused hnot
  rw [validates] at hrefused
  cases hrefused

end Sample

theorem sealed_closure_packaged_of_sample : ∃ s closure size,
    create (some Closure.Sample.digest) true = (.ok, some s) ∧
    builderSeal .insertion (fun _ => true) (run s Sample.calls) = .ok closure ∧
    (∀ t ∈ Section.all, (pack (fun _ => 1) closure.records).count t ≠ 0) ∧
    ∃ bytes, encode (List.replicate size 0) (pack (fun _ => 1) closure.records) = .ok (bytes, size) ∧
      (decode (some (bytes.take size)) .zero).1 = .ok := by
  have hseal := builderSeal_ok .insertion Sample.wellformed Sample.sealable
  obtain ⟨size, hsize⟩ := sealed_closure_packaged .insertion (fun _ => true) Closure.Sample.digest
    Sample.calls _ (fun _ => 1) hseal fun _ _ => by decide
  obtain ⟨bytes, hencode, hdecode, -⟩ := hsize (List.replicate size 0)
    (by rw [length_replicate]) .zero
  exact ⟨_, _, size, Sample.creates, hseal, by decide +kernel, bytes, hencode, hdecode⟩

end Kobox.Manifest
