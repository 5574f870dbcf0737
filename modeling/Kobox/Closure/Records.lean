import Kobox.Closure.Tables
import Kobox.Library.KeyedList

/-!
# The records of a builder
-/

namespace Kobox.Closure
open List
open Control (digestSize)

structure Records where
  artifacts : List ArtifactRecord
  dependencies : List DependencyRecord
  exports : List ExportRecord
  imports : List ImportRecord
  resources : List ResourceRecord
  resourceBindings : List ResourceBindingRecord

def Records.empty : Records := ⟨[], [], [], [], [], []⟩

def Storage.records (s : Storage) : Records :=
  ⟨s.artifacts.records, s.dependencies.records, s.exports.records, s.imports.records,
    s.resources.records, s.resourceBindings.records⟩

/-- A digest of the right size that is not all zero. -/
structure DigestValid (digest : List UInt8) : Prop where
  size : digest.length = digestSize
  nonzero : digestIsZero digest = false

/-- A native artifact and one whose lifecycle is open have no lifecycle names. -/
structure ArtifactRecord.Valid (a : ArtifactRecord) : Prop where
  nodeId : a.nodeId ≠ 0
  digest : DigestValid a.contentDigest
  name : Named a.namespaceName
  lifecycle : a.lifecycleSet = true → a.nativeLifecycle = false →
    Named a.initSymbol ∧ Named a.quiesceSymbol ∧ Named a.cleanupSymbol
  nameless : a.lifecycleSet = false ∨ a.nativeLifecycle = true →
    a.initSymbol = .zero ∧ a.quiesceSymbol = .zero ∧ a.cleanupSymbol = .zero
  native : a.nativeLifecycle = true → a.lifecycleSet = true
  root : a.isRoot = true → a.kind = .relocatableModule

/-- The checks of `kb2_closure_builder_add_dependency`, duplicates apart. -/
structure DependencyRecord.Valid (d : DependencyRecord) : Prop where
  consumer : d.consumerNodeId ≠ 0
  provider : d.providerNodeId ≠ 0
  noLoop : d.consumerNodeId ≠ d.providerNodeId

/-- An export of a node under a valid name. -/
structure ExportRecord.Valid (e : ExportRecord) : Prop where
  nodeId : e.nodeId ≠ 0
  name : Named e.symbol

/-- An import under valid names, with no unknown flag. -/
structure ImportRecord.Valid (i : ImportRecord) : Prop where
  consumer : i.consumerNodeId ≠ 0
  consumerName : Named i.consumerSymbol
  providerName : Named i.providerSymbol
  flags : i.flags &&& ~~~importOptional = 0

/-- A slot that some object can fill with known rights; a required one asks for an object. -/
structure ResourceRecord.Valid (r : ResourceRecord) : Prop where
  slotId : r.slotId ≠ 0
  digest : DigestValid r.interfaceSchemaDigest
  flags : r.flags &&& ~~~knownResourceFlags = 0
  maximum : r.maximumCount ≠ 0
  counts : r.minimumCount ≤ r.maximumCount
  required : r.flags &&& resourceRequired ≠ 0 → r.minimumCount ≠ 0
  rights : r.maximumRights ≠ 0
  known : r.maximumRights &&& ~~~knownResourceRights r.type = 0
  within : r.requiredRights &&& ~~~r.maximumRights = 0

/-- A binding names a slot and a node. -/
structure ResourceBindingRecord.Valid (b : ResourceBindingRecord) : Prop where
  slotId : b.slotId ≠ 0
  nodeId : b.nodeId ≠ 0

def DependencyRecord.key (d : DependencyRecord) : UInt32 × UInt32 :=
  (d.consumerNodeId, d.providerNodeId)

def ExportRecord.key (e : ExportRecord) : UInt32 × List UInt8 := (e.nodeId, e.symbol.text)

def ImportRecord.key (i : ImportRecord) : UInt32 × List UInt8 :=
  (i.consumerNodeId, i.consumerSymbol.text)

def ResourceBindingRecord.key (b : ResourceBindingRecord) : UInt32 × UInt32 := (b.slotId, b.nodeId)

/-- The invariant of a builder's records. -/
structure Records.Sound (r : Records) : Prop where
  artifacts : Keyed ArtifactRecord.nodeId ArtifactRecord.Valid maxArtifacts r.artifacts
  namespaces : (r.artifacts.map fun a => a.namespaceName.text).Nodup
  dependencies : Keyed DependencyRecord.key DependencyRecord.Valid maxDependencies r.dependencies
  exports : Keyed ExportRecord.key ExportRecord.Valid maxSymbols r.exports
  imports : Keyed ImportRecord.key ImportRecord.Valid maxSymbols r.imports
  resources : Keyed ResourceRecord.slotId ResourceRecord.Valid maxResources r.resources
  resourceBindings : Keyed ResourceBindingRecord.key ResourceBindingRecord.Valid
    maxResourceBindings r.resourceBindings

theorem Records.sound_empty : Records.empty.Sound where
  artifacts := .nil _ _ _
  namespaces := nodup_nil
  dependencies := .nil _ _ _
  exports := .nil _ _ _
  imports := .nil _ _ _
  resources := .nil _ _ _
  resourceBindings := .nil _ _ _

def ArtifactRecord.declared (nodeId : UInt32) (kind : ArtifactKind) (digest name : List UInt8) :
    ArtifactRecord :=
  { ArtifactRecord.zero with
    nodeId, kind, contentDigest := digest, namespaceName := copyName .zero name }

def ArtifactRecord.withLifecycle (a : ArtifactRecord) (init quiesce cleanup : List UInt8) :
    ArtifactRecord :=
  { a with
    initSymbol := copyName a.initSymbol init
    quiesceSymbol := copyName a.quiesceSymbol quiesce
    cleanupSymbol := copyName a.cleanupSymbol cleanup
    lifecycleSet := true }

def ArtifactRecord.withNativeLifecycle (a : ArtifactRecord) : ArtifactRecord :=
  { a with lifecycleSet := true, nativeLifecycle := true }

def ArtifactRecord.asRoot (a : ArtifactRecord) : ArtifactRecord := { a with isRoot := true }

def rewriteNode (nodeId : UInt32) (write : ArtifactRecord → ArtifactRecord)
    (artifacts : List ArtifactRecord) : List ArtifactRecord :=
  artifacts.map fun a => if a.nodeId == nodeId then write a else a

/-- The builder with records `r` takes the call, and has records `r'` after it. -/
inductive Accepts (r : Records) : Call → Records → Prop
  | addArtifact (nodeId : UInt32) (kind : ArtifactKind) (digest name : List UInt8)
      (hid : nodeId ≠ 0) (hdigest : DigestValid digest) (hname : nameValid (some name) = true)
      (hnew : ∀ a ∈ r.artifacts, a.nodeId ≠ nodeId ∧ a.namespaceName.text ≠ name)
      (hroom : r.artifacts.length < maxArtifacts) :
      Accepts r (.addArtifact nodeId (some kind) (some digest) (some name))
        { r with artifacts := r.artifacts ++ [.declared nodeId kind digest name] }
  | setLifecycle (nodeId : UInt32) (init quiesce cleanup : List UInt8)
      (hid : nodeId ≠ 0) (hinit : nameValid (some init) = true)
      (hquiesce : nameValid (some quiesce) = true) (hcleanup : nameValid (some cleanup) = true)
      (hopen : ∃ a ∈ r.artifacts, a.nodeId = nodeId ∧ a.lifecycleSet = false) :
      Accepts r (.setLifecycle nodeId (some init) (some quiesce) (some cleanup))
        { r with artifacts := rewriteNode nodeId (·.withLifecycle init quiesce cleanup) r.artifacts }
  | setNativeLifecycle (nodeId : UInt32) (hid : nodeId ≠ 0)
      (hopen : ∃ a ∈ r.artifacts, a.nodeId = nodeId ∧ a.lifecycleSet = false) :
      Accepts r (.setNativeLifecycle nodeId)
        { r with artifacts := rewriteNode nodeId (·.withNativeLifecycle) r.artifacts }
  | markRoot (nodeId : UInt32) (hid : nodeId ≠ 0)
      (hopen : ∃ a ∈ r.artifacts,
        a.nodeId = nodeId ∧ a.kind = .relocatableModule ∧ a.isRoot = false) :
      Accepts r (.markRoot nodeId)
        { r with artifacts := rewriteNode nodeId (·.asRoot) r.artifacts }
  | addDependency (d : DependencyRecord) (hvalid : d.Valid)
      (hnew : ∀ d' ∈ r.dependencies, d'.key ≠ d.key)
      (hroom : r.dependencies.length < maxDependencies) :
      Accepts r (.addDependency d.consumerNodeId d.providerNodeId)
        { r with dependencies := r.dependencies ++ [d] }
  | addExport (nodeId : UInt32) (name : List UInt8) (kind : SymbolKind)
      (hid : nodeId ≠ 0) (hname : nameValid (some name) = true)
      (hnew : ∀ e ∈ r.exports, e.key ≠ (nodeId, name))
      (hroom : r.exports.length < maxSymbols) :
      Accepts r (.addExport nodeId (some name) (some kind))
        { r with exports := r.exports ++ [⟨copyName .zero name, nodeId, kind⟩] }
  | addImport (consumerNodeId : UInt32) (consumer : List UInt8) (providerNodeId : UInt32)
      (provider : List UInt8) (kind : SymbolKind) (flags : UInt32)
      (hid : consumerNodeId ≠ 0) (hconsumer : nameValid (some consumer) = true)
      (hprovider : nameValid (some provider) = true) (hflags : flags &&& ~~~importOptional = 0)
      (hnew : ∀ i ∈ r.imports, i.key ≠ (consumerNodeId, consumer))
      (hroom : r.imports.length < maxSymbols) :
      Accepts r (.addImport consumerNodeId (some consumer) providerNodeId (some provider)
          (some kind) flags)
        { r with imports := r.imports ++ [⟨copyName .zero consumer, copyName .zero provider,
            consumerNodeId, providerNodeId, kind, flags⟩] }
  | addResource (x : ResourceRecord) (hvalid : x.Valid)
      (hnew : ∀ y ∈ r.resources, y.slotId ≠ x.slotId)
      (hroom : r.resources.length < maxResources) :
      Accepts r (.addResource x.slotId (some x.type) (some x.interfaceSchemaDigest) x.minimumCount
          x.maximumCount x.requiredRights x.maximumRights x.flags)
        { r with resources := r.resources ++ [x] }
  | bindResource (b : ResourceBindingRecord) (hvalid : b.Valid)
      (hnew : ∀ b' ∈ r.resourceBindings, b'.key ≠ b.key)
      (hroom : r.resourceBindings.length < maxResourceBindings) :
      Accepts r (.bindResource b.slotId b.nodeId)
        { r with resourceBindings := r.resourceBindings ++ [b] }

theorem Accepts.unique {r r₁ r₂ : Records} {call : Call} (h₁ : Accepts r call r₁)
    (h₂ : Accepts r call r₂) : r₁ = r₂ := by
  generalize hcall : call = call' at h₂
  cases h₁ with
  | addDependency d =>
    cases h₂ with
    | addDependency d' => cases d; cases d'; cases hcall; rfl
    | _ => cases hcall
  | addResource x =>
    cases h₂ with
    | addResource x' => cases x; cases x'; cases hcall; rfl
    | _ => cases hcall
  | bindResource b =>
    cases h₂ with
    | bindResource b' => cases b; cases b'; cases hcall; rfl
    | _ => cases hcall
  | _ =>
    cases h₂ <;> cases hcall
    all_goals rfl

theorem ArtifactRecord.valid_declared {nodeId : UInt32} {kind : ArtifactKind}
    {digest name : List UInt8} (hid : nodeId ≠ 0) (hdigest : DigestValid digest)
    (hname : nameValid (some name) = true) :
    (ArtifactRecord.declared nodeId kind digest name).Valid where
  nodeId := hid
  digest := hdigest
  name := named_copyName hname
  lifecycle := nofun
  nameless _ := ⟨rfl, rfl, rfl⟩
  native := nofun
  root := nofun

namespace ArtifactRecord.Valid
variable {a : ArtifactRecord}

theorem withLifecycle (h : a.Valid) (hopen : a.lifecycleSet = false)
    {init quiesce cleanup : List UInt8} (hinit : nameValid (some init) = true)
    (hquiesce : nameValid (some quiesce) = true) (hcleanup : nameValid (some cleanup) = true) :
    (a.withLifecycle init quiesce cleanup).Valid := by
  obtain ⟨hi, hq, hc⟩ := h.nameless (.inl hopen)
  have hnative : a.nativeLifecycle = false :=
    Bool.eq_false_iff.mpr fun hn => by simp [h.native hn] at hopen
  refine ⟨h.nodeId, h.digest, h.name, fun _ _ => ?_, ?_, fun _ => rfl, h.root⟩
  · simp only [ArtifactRecord.withLifecycle, hi, hq, hc]
    exact ⟨named_copyName hinit, named_copyName hquiesce, named_copyName hcleanup⟩
  · rintro (hset | hn)
    · exact absurd hset (by simp [ArtifactRecord.withLifecycle])
    · exact absurd (hnative.symm.trans hn) (by decide)

theorem withNativeLifecycle (h : a.Valid) (hopen : a.lifecycleSet = false) :
    a.withNativeLifecycle.Valid :=
  ⟨h.nodeId, h.digest, h.name, nofun, fun _ => h.nameless (.inl hopen), fun _ => rfl, h.root⟩

theorem asRoot (h : a.Valid) (hkind : a.kind = .relocatableModule) : a.asRoot.Valid :=
  ⟨h.nodeId, h.digest, h.name, h.lifecycle, h.nameless, h.native, fun _ => hkind⟩

end ArtifactRecord.Valid

namespace Records.Sound
variable {r r' : Records}

theorem rewrite (h : r.Sound) {nodeId : UInt32} {write : ArtifactRecord → ArtifactRecord}
    (hid : ∀ a, (write a).nodeId = a.nodeId)
    (hname : ∀ a, (write a).namespaceName = a.namespaceName)
    (hvalid : ∀ a ∈ r.artifacts, a.nodeId = nodeId → (write a).Valid) :
    Records.Sound { r with artifacts := rewriteNode nodeId write r.artifacts } := by
  refine { h with artifacts := ?_, namespaces := ?_ }
  · refine h.artifacts.map (fun a => ?_) fun a ha => ?_
    · split_ifs <;> simp [hid]
    · split_ifs with htest
      · exact hvalid a ha (beq_iff_eq.mp htest)
      · exact h.artifacts.valid a ha
  · change ((r.artifacts.map _).map _).Nodup
    rw [map_map]
    refine (congrArg List.Nodup (map_congr_left fun a _ => ?_)).mpr h.namespaces
    simp only [Function.comp_apply]
    split_ifs <;> simp [hname]

theorem artifact_eq (h : r.Sound) {a b : ArtifactRecord} (ha : a ∈ r.artifacts)
    (hb : b ∈ r.artifacts) (hid : a.nodeId = b.nodeId) : a = b := h.artifacts.inj ha hb hid

theorem accepts {call : Call} (h : r.Sound) (hcall : Accepts r call r') : r'.Sound := by
  cases hcall with
  | addArtifact nodeId kind digest name hid hdigest hname hnew hroom =>
    refine { h with artifacts := ?_, namespaces := ?_ }
    · exact h.artifacts.add (ArtifactRecord.valid_declared hid hdigest hname)
        (fun a ha => (hnew a ha).1) hroom
    · rw [map_append, nodup_append]
      refine ⟨h.namespaces, nodup_singleton _, fun text htext text' htext' => ?_⟩
      obtain ⟨a, ha, rfl⟩ := mem_map.mp htext
      rw [map_singleton, mem_singleton] at htext'
      rw [htext', ArtifactRecord.declared, text_copyName hname]
      exact (hnew a ha).2
  | setLifecycle nodeId init quiesce cleanup hid hinit hquiesce hcleanup hopen =>
    obtain ⟨a, ha, rfl, hset⟩ := hopen
    refine h.rewrite (fun _ => rfl) (fun _ => rfl) fun b hb hba => ?_
    rw [h.artifact_eq hb ha hba]
    exact (h.artifacts.valid a ha).withLifecycle hset hinit hquiesce hcleanup
  | setNativeLifecycle nodeId hid hopen =>
    obtain ⟨a, ha, rfl, hset⟩ := hopen
    refine h.rewrite (fun _ => rfl) (fun _ => rfl) fun b hb hba => ?_
    rw [h.artifact_eq hb ha hba]
    exact (h.artifacts.valid a ha).withNativeLifecycle hset
  | markRoot nodeId hid hopen =>
    obtain ⟨a, ha, rfl, hkind, -⟩ := hopen
    refine h.rewrite (fun _ => rfl) (fun _ => rfl) fun b hb hba => ?_
    rw [h.artifact_eq hb ha hba]
    exact (h.artifacts.valid a ha).asRoot hkind
  | addDependency d hvalid hnew hroom =>
    exact { h with dependencies := h.dependencies.add hvalid hnew hroom }
  | addExport nodeId name kind hid hname hnew hroom =>
    refine { h with exports := h.exports.add ⟨hid, named_copyName hname⟩ (fun e he => ?_) hroom }
    rw [show ExportRecord.key ⟨copyName .zero name, nodeId, kind⟩ = (nodeId, name) from
      Prod.ext rfl (text_copyName hname .zero)]
    exact hnew e he
  | addImport consumerNodeId consumer providerNodeId provider kind flags hid hconsumer hprovider
      hflags hnew hroom =>
    have hvalid : ImportRecord.Valid ⟨copyName .zero consumer, copyName .zero provider,
        consumerNodeId, providerNodeId, kind, flags⟩ :=
      ⟨hid, named_copyName hconsumer, named_copyName hprovider, hflags⟩
    refine { h with imports := h.imports.add hvalid (fun i hi => ?_) hroom }
    rw [show ImportRecord.key ⟨copyName .zero consumer, copyName .zero provider, consumerNodeId,
      providerNodeId, kind, flags⟩ = (consumerNodeId, consumer) from
      Prod.ext rfl (text_copyName hconsumer .zero)]
    exact hnew i hi
  | addResource x hvalid hnew hroom =>
    exact { h with resources := h.resources.add hvalid hnew hroom }
  | bindResource b hvalid hnew hroom =>
    exact { h with resourceBindings := h.resourceBindings.add hvalid hnew hroom }

end Records.Sound

end Kobox.Closure
