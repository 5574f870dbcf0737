import Kobox.Closure.Graph
import Kobox.Closure.Invariant

/-!
# What sealing decides
-/

namespace Kobox.Closure
open List
open Control (Status)
open Relation (TransGen ReflTransGen)
variable {s : Storage} {n : ℕ}

def Records.Exports (r : Records) (nodeId : UInt32) (name : List UInt8) (kind : SymbolKind) : Prop :=
  ∃ e ∈ r.exports, e.nodeId = nodeId ∧ e.kind = kind ∧ e.symbol.text = name

/-- The names of the artifact's lifecycle are functions it exports. -/
structure Records.LifecycleExported (r : Records) (a : ArtifactRecord) : Prop where
  init : r.Exports a.nodeId a.initSymbol.text .function
  quiesce : r.Exports a.nodeId a.quiesceSymbol.text .function
  cleanup : r.Exports a.nodeId a.cleanupSymbol.text .function

/-- The lifecycles of the artifacts, all native or none, and the roots. -/
structure Records.ArtifactsValid (r : Records) : Prop where
  nonempty : r.artifacts ≠ []
  lifecycle : ∀ a ∈ r.artifacts, a.lifecycleSet = true
  uniform : (∀ a ∈ r.artifacts, a.nativeLifecycle = true) ∨
    ∀ a ∈ r.artifacts, a.nativeLifecycle = false
  exported : ∀ a ∈ r.artifacts, a.nativeLifecycle = false → r.LifecycleExported a
  provider : (∀ a ∈ r.artifacts, a.nativeLifecycle = true) →
    ∃! a, a ∈ r.artifacts ∧ a.kind = .sharedProvider
  root : ∃ a ∈ r.artifacts, a.isRoot = true

/-- The import's provider is node 0, or one the consumer depends on, which exports the name unless
the import is optional. -/
structure Records.ImportValid (r : Records) (i : ImportRecord) : Prop where
  consumer : r.Declares i.consumerNodeId
  provider : i.providerNodeId = 0 ∨
    (r.Declares i.providerNodeId ∧ r.DependsOn i.consumerNodeId i.providerNodeId ∧
      (r.Exports i.providerNodeId i.providerSymbol.text i.kind ∨ i.flags &&& importOptional ≠ 0))

/-- Exports are of declared nodes, and every import is met. -/
structure Records.SymbolsValid (r : Records) : Prop where
  exports : ∀ e ∈ r.exports, r.Declares e.nodeId
  imports : ∀ i ∈ r.imports, r.ImportValid i

/-- Every slot is bound, and one that is not shared is bound to one node. -/
structure Records.ResourcesValid (r : Records) : Prop where
  bindings : ∀ b ∈ r.resourceBindings,
    (∃ x ∈ r.resources, x.slotId = b.slotId) ∧ r.Declares b.nodeId
  bound : ∀ x ∈ r.resources, ∃ b ∈ r.resourceBindings, b.slotId = x.slotId
  exclusive : ∀ x ∈ r.resources, x.flags &&& resourceShared = 0 →
    ∃! b, b ∈ r.resourceBindings ∧ b.slotId = x.slotId

/-- The records are a closure. -/
structure Records.Sealable (r : Records) : Prop where
  artifacts : r.ArtifactsValid
  graph : r.GraphValid
  symbols : r.SymbolsValid
  resources : r.ResourcesValid

section
variable {s : Storage}

theorem findExport_isSome_iff {nodeId : UInt32} {symbol : NameBuffer} {kind : SymbolKind} :
    (findExport s nodeId symbol kind).isSome = true ↔ s.records.Exports nodeId symbol.text kind := by
  simp only [findExport, find?_isSome, Records.Exports, Bool.and_eq_true, beq_iff_eq,
    strcmp_eq_iff, and_assoc]
  rfl

theorem lifecycleExported_iff {a : ArtifactRecord} :
    lifecycleExported s a = true ↔ s.records.LifecycleExported a := by
  simp only [lifecycleExported, Bool.and_eq_true, findExport_isSome_iff, and_assoc]
  exact ⟨fun h => ⟨h.1, h.2.1, h.2.2⟩, fun h => ⟨h.init, h.quiesce, h.cleanup⟩⟩

/-- An artifact the loop of `kb2_validate_artifacts` goes past. -/
structure ArtifactPasses (s : Storage) (native : Bool) (a : ArtifactRecord) : Prop where
  lifecycle : a.lifecycleSet = true
  native : a.nativeLifecycle = native
  exported : a.nativeLifecycle = false → lifecycleExported s a = true
  root : a.isRoot = true → a.kind = .relocatableModule

theorem countArtifacts_iff {native : Bool} {l : List ArtifactRecord} (p q : ℕ) {p' q' : ℕ} :
    countArtifacts s native l p q = some (p', q') ↔
      (∀ a ∈ l, ArtifactPasses s native a) ∧
        p' = p + l.countP (fun a => a.kind = .sharedProvider) ∧
        q' = q + l.countP ArtifactRecord.isRoot := by
  induction l generalizing p q with
  | nil => simp [countArtifacts, eq_comm]
  | cons a rest ih =>
    have hpass : ArtifactPasses s native a ↔
        ¬(a.lifecycleSet = false ∨ a.nativeLifecycle ≠ native) ∧
          ¬(a.nativeLifecycle = false ∧ lifecycleExported s a = false) ∧
            (a.isRoot = true → a.kind = .relocatableModule) := by
      constructor
      · rintro ⟨hset, hnative, hexported, hroot⟩
        refine ⟨by simp [hset, hnative], fun h => ?_, hroot⟩
        rw [hexported h.1] at h
        exact absurd h.2 (by decide)
      · rintro ⟨hset, hexported, hroot⟩
        simp only [not_or, not_not, Bool.not_eq_false, not_and] at hset hexported
        exact ⟨hset.1, hset.2, hexported, hroot⟩
    rw [forall_mem_cons, hpass, countP_cons, countP_cons, countArtifacts]
    by_cases hset : a.lifecycleSet = false ∨ a.nativeLifecycle ≠ native
    · simp [hset]
    · by_cases hexported : a.nativeLifecycle = false ∧ lifecycleExported s a = false
      · simp [hexported]
      · rw [if_neg hset, if_neg hexported]
        by_cases hroot : a.isRoot = true
        · cases hkind : a.kind with
          | sharedProvider => simp [hroot]
          | relocatableModule =>
            simp only [hroot, if_true, ne_eq, not_true_eq_false, if_false, ih]
            simp [hset, hexported, Nat.add_assoc, Nat.add_comm]
        · rw [if_neg hroot, ih]
          simp [hset, hexported, hroot, Nat.add_assoc, Nat.add_comm]

theorem artifactsValid_iff (hs : s.records.Sound) {first : ArtifactRecord}
    {rest : List ArtifactRecord} (hrecords : s.records.artifacts = first :: rest) :
    s.records.ArtifactsValid ↔
      (∀ a ∈ s.records.artifacts, ArtifactPasses s first.nativeLifecycle a) ∧
        (first.nativeLifecycle = true →
          s.records.artifacts.countP (fun a => a.kind = .sharedProvider) = 1) ∧
        s.records.artifacts.countP ArtifactRecord.isRoot ≠ 0 := by
  have hfirst : first ∈ s.records.artifacts := hrecords ▸ mem_cons_self
  have hone : s.records.artifacts.countP (fun a => a.kind = .sharedProvider) = 1 ↔
      ∃! a, a ∈ s.records.artifacts ∧ a.kind = .sharedProvider := by
    simpa using hs.artifacts.nodup.countP_eq_one_iff fun a => decide (a.kind = .sharedProvider)
  have hroot : s.records.artifacts.countP ArtifactRecord.isRoot ≠ 0 ↔
      ∃ a ∈ s.records.artifacts, a.isRoot = true := by
    rw [← Nat.pos_iff_ne_zero, countP_pos_iff]
  rw [hone, hroot]
  constructor
  · intro h
    refine ⟨fun a ha => ⟨h.lifecycle a ha, ?_, fun hn => ?_, (hs.artifacts.valid a ha).root⟩, ?_,
      h.root⟩
    · rcases h.uniform with hu | hu
      · rw [hu a ha, hu first hfirst]
      · rw [hu a ha, hu first hfirst]
    · exact lifecycleExported_iff.mpr (h.exported a ha hn)
    · intro hn
      refine h.provider fun a ha => ?_
      rcases h.uniform with hu | hu
      · exact hu a ha
      · exact absurd (hn.symm.trans (hu first hfirst)) (by decide)
  · rintro ⟨hpass, hprovider, hroot⟩
    refine ⟨hrecords ▸ cons_ne_nil _ _, fun a ha => (hpass a ha).lifecycle, ?_, fun a ha hn =>
      lifecycleExported_iff.mp ((hpass a ha).exported hn), fun hall => hprovider (hall first hfirst),
      hroot⟩
    cases hn : first.nativeLifecycle with
    | true => exact .inl fun a ha => (hpass a ha).native.trans hn
    | false => exact .inr fun a ha => (hpass a ha).native.trans hn

theorem validateArtifacts_decides (hs : s.records.Sound) :
    Decides (validateArtifacts s) s.records.ArtifactsValid := by
  unfold validateArtifacts
  split
  · rename_i hrecords
    exact ⟨fun h => absurd hrecords h.nonempty, fun _ => rfl⟩
  · rename_i first rest hrecords
    have hvalid := artifactsValid_iff hs hrecords
    rw [show s.records.artifacts = first :: rest from hrecords] at hvalid
    split
    · rename_i hloop
      refine ⟨fun h => ?_, fun _ => rfl⟩
      have hsome := (countArtifacts_iff 0 0).mpr ⟨(hvalid.mp h).1, rfl, rfl⟩
      rw [hloop] at hsome
      cases hsome
    · rename_i providers roots hloop
      obtain ⟨hpass, hproviders, hroots⟩ := (countArtifacts_iff 0 0).mp hloop
      rw [Nat.zero_add] at hproviders hroots
      rw [← hproviders, ← hroots] at hvalid
      rw [hvalid]
      split_ifs with hnative hzero
      · exact ⟨fun h => absurd (h.2.1 hnative.1) hnative.2, fun _ => rfl⟩
      · exact ⟨fun h => absurd hzero h.2.2, fun _ => rfl⟩
      · refine ⟨fun _ => rfl, fun h => absurd ⟨hpass, fun hn => ?_, hzero⟩ h⟩
        by_contra hne
        exact hnative ⟨hn, hne⟩

theorem hasDependency_iff {consumer provider : UInt32} :
    hasDependency s consumer provider = true ↔ s.records.DependsOn consumer provider := by
  simp only [hasDependency, any_eq_true, Bool.and_eq_true, beq_iff_eq, Records.DependsOn]
  rfl

section
variable (hs : s.records.Sound)
include hs

theorem importValid_iff {i : ImportRecord} :
    importValid s (buildNodeMap s) i = true ↔ s.records.ImportValid i := by
  simp only [importValid, Bool.and_eq_true, Bool.or_eq_true, beq_iff_eq, bne_iff_ne,
    nodeMapFind_isSome_iff hs.artifacts.unique, hasDependency_iff, findExport_isSome_iff, and_assoc]
  exact ⟨fun h => ⟨h.1, h.2⟩, fun h => ⟨h.consumer, h.provider⟩⟩

theorem validateSymbols_decides :
    Decides (validateSymbols s (buildNodeMap s)) s.records.SymbolsValid := by
  have hexports : s.exports.records.all
      (fun record => (nodeMapFind (buildNodeMap s) record.nodeId).isSome) = true ↔
        ∀ e ∈ s.records.exports, s.records.Declares e.nodeId := by
    simp only [all_eq_true, nodeMapFind_isSome_iff hs.artifacts.unique]
    rfl
  have himports : s.imports.records.all (importValid s (buildNodeMap s)) = true ↔
      ∀ i ∈ s.records.imports, s.records.ImportValid i := by
    simp only [all_eq_true, importValid_iff hs]
    rfl
  unfold validateSymbols
  split_ifs with he hi
  · refine ⟨fun h => ?_, fun _ => rfl⟩
    exact absurd (he.symm.trans (hexports.mpr h.exports)) (by decide)
  · refine ⟨fun h => ?_, fun _ => rfl⟩
    exact absurd (hi.symm.trans (himports.mpr h.imports)) (by decide)
  · rw [Bool.not_eq_false] at he hi
    exact ⟨fun _ => rfl, fun h => absurd ⟨hexports.mp he, himports.mp hi⟩ h⟩

theorem bindingValid_iff {b : ResourceBindingRecord} :
    bindingValid s (buildNodeMap s) b = true ↔
      (∃ x ∈ s.records.resources, x.slotId = b.slotId) ∧ s.records.Declares b.nodeId := by
  simp only [bindingValid, findResource, Bool.and_eq_true, find?_isSome, beq_iff_eq,
    nodeMapFind_isSome_iff hs.artifacts.unique]
  rfl

theorem slotBound_iff {x : ResourceRecord} :
    slotBound s x = true ↔ (∃ b ∈ s.records.resourceBindings, b.slotId = x.slotId) ∧
      (x.flags &&& resourceShared = 0 →
        ∃! b, b ∈ s.records.resourceBindings ∧ b.slotId = x.slotId) := by
  have hpos : s.records.resourceBindings.countP (fun b => b.slotId == x.slotId) ≠ 0 ↔
      ∃ b ∈ s.records.resourceBindings, b.slotId = x.slotId := by
    rw [← Nat.pos_iff_ne_zero, countP_pos_iff]
    simp only [beq_iff_eq]
  have hone : s.records.resourceBindings.countP (fun b => b.slotId == x.slotId) = 1 ↔
      ∃! b, b ∈ s.records.resourceBindings ∧ b.slotId = x.slotId := by
    simpa using hs.resourceBindings.nodup.countP_eq_one_iff fun b => b.slotId == x.slotId
  rw [← hpos, ← hone]
  simp only [slotBound, Bool.not_eq_true', Bool.or_eq_false_iff, beq_eq_false_iff_ne,
    Bool.and_eq_false_imp, beq_iff_eq, bne_eq_false_iff_eq]
  rfl

theorem validateResources_decides :
    Decides (validateResources s (buildNodeMap s)) s.records.ResourcesValid := by
  have hbindings : s.resourceBindings.records.all (bindingValid s (buildNodeMap s)) = true ↔
      ∀ b ∈ s.records.resourceBindings,
        (∃ x ∈ s.records.resources, x.slotId = b.slotId) ∧ s.records.Declares b.nodeId := by
    simp only [all_eq_true, bindingValid_iff hs]
    rfl
  have hslots : s.resources.records.all (slotBound s) = true ↔
      ∀ x ∈ s.records.resources, (∃ b ∈ s.records.resourceBindings, b.slotId = x.slotId) ∧
        (x.flags &&& resourceShared = 0 →
          ∃! b, b ∈ s.records.resourceBindings ∧ b.slotId = x.slotId) := by
    simp only [all_eq_true, slotBound_iff hs]
    rfl
  unfold validateResources
  split_ifs with hb hr
  · refine ⟨fun h => ?_, fun _ => rfl⟩
    exact absurd (hb.symm.trans (hbindings.mpr h.bindings)) (by decide)
  · refine ⟨fun h => ?_, fun _ => rfl⟩
    have hall := hslots.mpr fun x hx => ⟨h.bound x hx, h.exclusive x hx⟩
    exact absurd (hr.symm.trans hall) (by decide)
  · rw [Bool.not_eq_false] at hb hr
    have hall := hslots.mp hr
    exact ⟨fun _ => rfl, fun h => absurd
      ⟨hbindings.mp hb, fun x hx => (hall x hx).1, fun x hx => (hall x hx).2⟩ h⟩

end

/-! ### Sealing -/

theorem validateStorage_decides (hs : s.Wellformed) :
    Decides (validateStorage s fun _ => true).1 s.records.Sealable := by
  have hcount := hs.fits.artifacts.length_records
  have hdeps := hs.fits.dependencies.length_records
  have hsize : ¬sizeMax / nodeMapEntrySize < s.artifacts.count := by
    have hle : s.artifacts.records.length ≤ maxArtifacts := hs.sound.artifacts.bounded
    have hmax : maxArtifacts ≤ sizeMax / nodeMapEntrySize := by decide
    omega
  have hartifacts := validateArtifacts_decides hs.sound
  have hgraph := validateGraph_decides hs.sound.artifacts.unique hcount hdeps
    (hdeps ▸ hs.sound.dependencies.bounded) 1
  have hsymbols := validateSymbols_decides hs.sound
  have hresources := validateResources_decides hs.sound
  simp only [validateStorage, if_neg hsize, Bool.true_eq_false, if_false]
  by_cases ha : s.records.ArtifactsValid
  · rw [hartifacts.ok ha, if_neg (by decide)]
    by_cases hg : s.records.GraphValid
    · rw [hgraph.ok hg, if_neg (by decide)]
      by_cases hy : s.records.SymbolsValid
      · rw [hsymbols.ok hy, if_neg (by decide)]
        by_cases hr : s.records.ResourcesValid
        · exact ⟨fun _ => hresources.ok hr, fun h => absurd ⟨ha, hg, hy, hr⟩ h⟩
        · exact ⟨fun h => absurd h.resources hr, fun _ => hresources.refused hr⟩
      · rw [hsymbols.refused hy, if_pos (by decide)]
        exact ⟨fun h => absurd h.symbols hy, fun _ => rfl⟩
    · rw [hgraph.refused hg, if_pos (by decide)]
      exact ⟨fun h => absurd h.graph hg, fun _ => rfl⟩
  · rw [hartifacts.refused ha, if_pos (by decide)]
    exact ⟨fun h => absurd h.artifacts ha, fun _ => rfl⟩

end

def Table.full {α : Type} (l : List α) : Table α := ⟨l, l.length⟩

variable {α : Type}

theorem Table.records_full (l : List α) : (Table.full l).records = l :=
  take_length

theorem cloneArray_ok {t : Table α} {zero : α} {maximumCount : ℕ} (itemSize : ℕ)
    (h : t.Fits zero maximumCount) (hsize : maximumCount ≤ sizeMax / itemSize) (n : ℕ) :
    ∃ n', cloneArray (fun _ => true) itemSize t n = .ok (.full t.records, n') := by
  have hlength := h.length_records
  have hcount := h.count_le
  have hcapacity := h.capacity_le
  unfold cloneArray
  by_cases hzero : t.count = 0
  · rw [if_pos hzero]
    rw [hzero] at hlength
    rw [eq_nil_of_length_eq_zero hlength]
    exact ⟨n, rfl⟩
  · rw [if_neg hzero, if_neg (by omega), if_neg nofun, Table.full, hlength]
    exact ⟨n + 1, rfl⟩

theorem sortArray_full {compare : α → α → Ordering} (qsort : Sorter α compare) (l : List α) :
    sortArray qsort (.full l) = .full (qsort.sort l) := by
  have hperm := qsort.perm l
  unfold sortArray
  rw [Table.records_full]
  by_cases hlen : 1 < l.length
  · rw [if_pos (by exact hlen)]
    simp [Table.full, hperm.length_eq]
  · rw [if_neg (by exact hlen)]
    congr 1
    rcases l with - | ⟨x, - | ⟨y, rest⟩⟩
    · exact hperm.eq_nil.symm
    · exact (perm_singleton.mp hperm).symm
    · simp at hlen

def Records.sealed (qsort : Qsort) (digest : List UInt8) (r : Records) : Storage where
  artifacts := .full (qsort.artifacts.sort r.artifacts)
  dependencies := .full (qsort.dependencies.sort r.dependencies)
  exports := .full (qsort.exports.sort r.exports)
  imports := .full (qsort.imports.sort r.imports)
  resources := .full (qsort.resources.sort r.resources)
  resourceBindings := .full (qsort.resourceBindings.sort r.resourceBindings)
  manifestDigest := digest

theorem clone_ok (qsort : Qsort) (hf : s.Fits) (n : ℕ) :
    clone qsort (fun _ => true) s n = .ok (s.records.sealed qsort s.manifestDigest) := by
  obtain ⟨n₁, h₁⟩ := cloneArray_ok artifactRecordSize hf.artifacts (by decide) (n + 1)
  obtain ⟨n₂, h₂⟩ := cloneArray_ok dependencyRecordSize hf.dependencies (by decide) n₁
  obtain ⟨n₃, h₃⟩ := cloneArray_ok exportRecordSize hf.exports (by decide) n₂
  obtain ⟨n₄, h₄⟩ := cloneArray_ok importRecordSize hf.imports (by decide) n₃
  obtain ⟨n₅, h₅⟩ := cloneArray_ok resourceRecordSize hf.resources (by decide) n₄
  obtain ⟨n₆, h₆⟩ := cloneArray_ok resourceBindingRecordSize hf.resourceBindings
    (by decide) n₅
  rw [clone, if_neg nofun, cloneTables, h₁]
  simp only [bind, Except.bind, h₂, h₃, h₄, h₅, h₆, pure, Except.pure, Except.map, storageSort,
    sortArray_full]
  rfl

theorem builderSeal_ok (qsort : Qsort) (hs : s.Wellformed) (h : s.records.Sealable) :
    builderSeal qsort (fun _ => true) s = .ok (s.records.sealed qsort s.manifestDigest) := by
  have hok := (validateStorage_decides hs).ok h
  simp only [builderSeal, hok, ne_eq, not_true_eq_false, if_false]
  exact clone_ok qsort hs.fits _

theorem builderSeal_refused (qsort : Qsort) (hs : s.Wellformed) (h : ¬s.records.Sealable) :
    builderSeal qsort (fun _ => true) s = .error .invalidConfiguration := by
  have hrefused := (validateStorage_decides hs).refused h
  simp [builderSeal, hrefused]

theorem sealable_of_builderSeal {qsort : Qsort} {closure : Storage} (hs : s.Wellformed)
    (hok : builderSeal qsort (fun _ => true) s = .ok closure) : s.records.Sealable := by
  by_contra hnot
  rw [builderSeal_refused qsort hs hnot] at hok
  cases hok

section Granted
variable {grants : ℕ → Bool}

theorem cloneArray_granted {α : Type} {itemSize : ℕ} {t : Table α} {result : Table α × ℕ}
    (h : cloneArray grants itemSize t n = .ok result) :
    cloneArray (fun _ => true) itemSize t n = .ok result := by
  unfold cloneArray at h ⊢
  split_ifs at h with hzero hsize hgrant
  · rw [if_pos hzero]
    exact h
  · rw [if_neg hzero, if_neg hsize, if_neg nofun]
    exact h

theorem bind_eq_ok {ε α β : Type} {x : Except ε α} {f : α → Except ε β} {y : β} :
    (x >>= f) = .ok y ↔ ∃ a, x = .ok a ∧ f a = .ok y := by
  cases x with
  | error e => simp [bind, Except.bind]
  | ok a => simp [bind, Except.bind]

theorem cloneTables_granted {result : Storage} (h : cloneTables grants s n = .ok result) :
    cloneTables (fun _ => true) s n = .ok result := by
  unfold cloneTables at h ⊢
  obtain ⟨⟨artifacts, n₁⟩, h₁, h⟩ := bind_eq_ok.mp h
  obtain ⟨⟨dependencies, n₂⟩, h₂, h⟩ := bind_eq_ok.mp h
  obtain ⟨⟨exports, n₃⟩, h₃, h⟩ := bind_eq_ok.mp h
  obtain ⟨⟨imports, n₄⟩, h₄, h⟩ := bind_eq_ok.mp h
  obtain ⟨⟨resources, n₅⟩, h₅, h⟩ := bind_eq_ok.mp h
  obtain ⟨⟨bindings, n₆⟩, h₆, h⟩ := bind_eq_ok.mp h
  rw [cloneArray_granted h₁]
  exact bind_eq_ok.mpr ⟨_, rfl, bind_eq_ok.mpr ⟨_, cloneArray_granted h₂,
    bind_eq_ok.mpr ⟨_, cloneArray_granted h₃, bind_eq_ok.mpr ⟨_, cloneArray_granted h₄,
    bind_eq_ok.mpr ⟨_, cloneArray_granted h₅, bind_eq_ok.mpr ⟨_, cloneArray_granted h₆, h⟩⟩⟩⟩⟩⟩

theorem validateGraph_granted {map : List NodeMapEntry} (h : validateGraph s map grants n = .ok) :
    validateGraph s map (fun _ => true) n = .ok := by
  have hall : graphAllocated s (fun _ => true) n = true := by simp [graphAllocated]
  unfold validateGraph at h ⊢
  split_ifs at h
  rw [hall, if_neg Bool.false_ne_true.symm]
  exact h

theorem validateStorage_granted (h : validateStorage s grants = (.ok, n)) :
    validateStorage s (fun _ => true) = (.ok, n) := by
  unfold validateStorage at h ⊢
  dsimp only at h ⊢
  by_cases hartifacts : validateArtifacts s ≠ .ok
  · rw [if_pos hartifacts] at h
    exact absurd (Prod.mk.inj h).1 hartifacts
  rw [if_neg hartifacts] at h ⊢
  by_cases hsize : sizeMax / nodeMapEntrySize < s.artifacts.count
  · rw [if_pos hsize] at h
    cases h
  rw [if_neg hsize] at h ⊢
  by_cases hgrant : grants 0 = false
  · rw [if_pos hgrant] at h
    cases h
  rw [if_neg hgrant] at h
  rw [if_neg (nofun : ¬true = false)]
  by_cases hgraph : validateGraph s (buildNodeMap s) grants 1 ≠ .ok
  · rw [if_pos hgraph] at h
    exact absurd (Prod.mk.inj h).1 hgraph
  rw [if_neg hgraph] at h
  rw [validateGraph_granted (not_not.mp hgraph), if_neg (by decide)]
  exact h

theorem builderSeal_granted {qsort : Qsort} {closure : Storage}
    (h : builderSeal qsort grants s = .ok closure) :
    builderSeal qsort (fun _ => true) s = .ok closure := by
  unfold builderSeal at h ⊢
  rcases hvalidate : validateStorage s grants with ⟨status, n⟩
  rw [hvalidate] at h
  dsimp only at h
  by_cases hstatus : status ≠ .ok
  · rw [if_pos hstatus] at h
    cases h
  obtain rfl := not_not.mp hstatus
  rw [if_neg hstatus] at h
  rw [validateStorage_granted hvalidate]
  dsimp only
  rw [if_neg hstatus]
  unfold clone at h ⊢
  split_ifs at h
  rw [if_neg (nofun : ¬true = false)]
  cases htables : cloneTables grants s (n + 1) with
  | error e =>
    rw [htables] at h
    cases h
  | ok tables =>
    rw [htables] at h
    rw [cloneTables_granted htables]
    exact h

end Granted

/-- After any history of calls, failed ones included, sealing returns a closure if and only
if the records are one. -/
theorem seal_decides_closures (qsort : Qsort) (digest : List UInt8) (calls : List (Call × Bool)) :
    (∃ closure, builderSeal qsort (fun _ => true) (run (.created digest) calls) = .ok closure) ↔
      (run (.created digest) calls).records.Sealable := by
  have hs := (Storage.wellformed_created digest).run calls
  constructor
  · rintro ⟨closure, hok⟩
    exact sealable_of_builderSeal hs hok
  · intro h
    exact ⟨_, builderSeal_ok qsort hs h⟩

end Kobox.Closure
