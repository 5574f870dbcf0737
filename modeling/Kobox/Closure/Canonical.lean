import Kobox.Closure.Rebuild
import Kobox.Closure.Sealable

/-!
# The sealed closure is canonical
-/

namespace Kobox.Closure
open List
open Control (Status)
variable {call : Call} {a : ArtifactRecord} {s : Storage}

/-! ### The comparisons -/

instance : Std.TransCmp compareArtifacts :=
  inferInstanceAs (Std.TransCmp (compareOn ArtifactRecord.nodeId))

instance : Std.TransCmp compareDependencies :=
  inferInstanceAs (Std.TransCmp (compareLex (compareOn DependencyRecord.consumerNodeId)
    (compareOn DependencyRecord.providerNodeId)))

instance : Std.TransCmp compareExports :=
  inferInstanceAs (Std.TransCmp (compareLex (compareOn ExportRecord.nodeId)
    (compareLex (compareOn fun e : ExportRecord => e.symbol.text)
      (compareOn fun e : ExportRecord => e.kind.code))))

instance : Std.TransCmp compareImports :=
  inferInstanceAs (Std.TransCmp (compareLex (compareOn ImportRecord.consumerNodeId)
    (compareLex (compareOn fun i : ImportRecord => i.consumerSymbol.text)
      (compareOn ImportRecord.providerNodeId))))

instance : Std.TransCmp compareResources :=
  inferInstanceAs (Std.TransCmp (compareOn ResourceRecord.slotId))

instance : Std.TransCmp compareResourceBindings :=
  inferInstanceAs (Std.TransCmp (compareLex (compareOn ResourceBindingRecord.slotId)
    (compareOn ResourceBindingRecord.nodeId)))

theorem compareArtifacts_key (a b : ArtifactRecord) (h : compareArtifacts a b = .eq) :
    a.nodeId = b.nodeId := Std.LawfulEqOrd.compare_eq_iff_eq.mp h

theorem compareDependencies_key (d d' : DependencyRecord) (h : compareDependencies d d' = .eq) :
    d.key = d'.key := by
  obtain ⟨hc, hp⟩ := Ordering.then_eq_eq.mp h
  exact Prod.ext (Std.LawfulEqOrd.compare_eq_iff_eq.mp hc) (Std.LawfulEqOrd.compare_eq_iff_eq.mp hp)

theorem compareExports_key (e e' : ExportRecord) (h : compareExports e e' = .eq) :
    e.key = e'.key := by
  obtain ⟨hn, hrest⟩ := Ordering.then_eq_eq.mp h
  obtain ⟨hs, -⟩ := Ordering.then_eq_eq.mp hrest
  exact Prod.ext (Std.LawfulEqOrd.compare_eq_iff_eq.mp hn) (strcmp_eq_iff.mp hs)

theorem compareImports_key (i i' : ImportRecord) (h : compareImports i i' = .eq) :
    i.key = i'.key := by
  obtain ⟨hn, hrest⟩ := Ordering.then_eq_eq.mp h
  obtain ⟨hs, -⟩ := Ordering.then_eq_eq.mp hrest
  exact Prod.ext (Std.LawfulEqOrd.compare_eq_iff_eq.mp hn) (strcmp_eq_iff.mp hs)

theorem compareResources_key (x y : ResourceRecord) (h : compareResources x y = .eq) :
    x.slotId = y.slotId := Std.LawfulEqOrd.compare_eq_iff_eq.mp h

theorem compareResourceBindings_key (b b' : ResourceBindingRecord)
    (h : compareResourceBindings b b' = .eq) : b.key = b'.key := by
  obtain ⟨hs, hn⟩ := Ordering.then_eq_eq.mp h
  exact Prod.ext (Std.LawfulEqOrd.compare_eq_iff_eq.mp hs) (Std.LawfulEqOrd.compare_eq_iff_eq.mp hn)

def Sorter.insertion {α : Type} (compare : α → α → Ordering) [Std.TransCmp compare] :
    Sorter α compare where
  sort l := l.insertionSort fun a b => compare a b ≠ .gt
  perm l := perm_insertionSort _ l
  sorted l := by
    have : Std.Total fun a b => compare a b ≠ .gt := by
      refine ⟨fun a b => ?_⟩
      have hswap : compare b a = (compare a b).swap := Std.OrientedCmp.eq_swap
      rw [hswap]
      cases compare a b <;> decide
    have : IsTrans α fun a b => compare a b ≠ .gt :=
      ⟨fun a b c hab hbc => Ordering.isLE_iff_ne_gt.mp (Std.TransCmp.isLE_trans
        (Ordering.isLE_iff_ne_gt.mpr hab) (Ordering.isLE_iff_ne_gt.mpr hbc))⟩
    exact pairwise_insertionSort _ l

def Qsort.insertion : Qsort where
  artifacts := .insertion _
  dependencies := .insertion _
  exports := .insertion _
  imports := .insertion _
  resources := .insertion _
  resourceBindings := .insertion _

theorem Sorter.sort_eq {α κ : Type} {compare : α → α → Ordering} [Std.OrientedCmp compare]
    {key : α → κ} {Valid : α → Prop} {maximum : ℕ} {l l' : List α} (sorter : Sorter α compare)
    (hcmp : ∀ x y, compare x y = .eq → key x = key y) (hl : Keyed key Valid maximum l)
    (hp : l.Perm l') : sorter.sort l = sorter.sort l' :=
  (hl.perm (sorter.perm l)).eq_of_sorted hcmp
    ((sorter.perm l).trans (hp.trans (sorter.perm l').symm)) (sorter.sorted l) (sorter.sorted l')

/-! ### Records that differ in their order only -/

/-- The same records of every kind, in any order. -/
structure Records.Permuted (r r' : Records) : Prop where
  artifacts : r.artifacts.Perm r'.artifacts
  dependencies : r.dependencies.Perm r'.dependencies
  exports : r.exports.Perm r'.exports
  imports : r.imports.Perm r'.imports
  resources : r.resources.Perm r'.resources
  resourceBindings : r.resourceBindings.Perm r'.resourceBindings

namespace Records.Permuted
variable {r r' : Records}

variable (h : r.Permuted r')
include h

theorem symm : r'.Permuted r :=
  ⟨h.artifacts.symm, h.dependencies.symm, h.exports.symm, h.imports.symm, h.resources.symm,
    h.resourceBindings.symm⟩

theorem sound (hs : r'.Sound) : r.Sound where
  artifacts := hs.artifacts.perm h.artifacts
  namespaces := (h.artifacts.map _).nodup_iff.mpr hs.namespaces
  dependencies := hs.dependencies.perm h.dependencies
  exports := hs.exports.perm h.exports
  imports := hs.imports.perm h.imports
  resources := hs.resources.perm h.resources
  resourceBindings := hs.resourceBindings.perm h.resourceBindings

theorem calls : r.calls.Perm r'.calls := by
  refine (h.artifacts.flatMap_right _).append ((h.dependencies.map _).append ((h.exports.map _).append
    ((h.imports.map _).append ((h.resources.map _).append (h.resourceBindings.map _)))))

theorem declares : r.Declares = r'.Declares := by
  funext nodeId
  simp only [Records.Declares, h.artifacts.mem_iff]

theorem exported : r.Exports = r'.Exports := by
  funext nodeId name kind
  simp only [Records.Exports, h.exports.mem_iff]

theorem dependsOn : r.DependsOn = r'.DependsOn := by
  funext consumer provider
  simp only [Records.DependsOn, h.dependencies.mem_iff]

theorem artifactsValid (ha : r.ArtifactsValid) : r'.ArtifactsValid where
  nonempty hnil := ha.nonempty (List.Perm.eq_nil (hnil ▸ h.artifacts))
  lifecycle := by simpa only [h.artifacts.mem_iff] using ha.lifecycle
  uniform := by simpa only [h.artifacts.mem_iff] using ha.uniform
  exported a hmem hn := by
    have hall := ha.exported a (h.artifacts.mem_iff.mpr hmem) hn
    exact ⟨h.exported ▸ hall.init, h.exported ▸ hall.quiesce, h.exported ▸ hall.cleanup⟩
  provider := by simpa only [h.artifacts.mem_iff] using ha.provider
  root := by simpa only [h.artifacts.mem_iff] using ha.root

theorem graphValid (hg : r.GraphValid) : r'.GraphValid where
  joined := by
    have hjoined := hg.joined
    simpa only [Records.Joined, h.declares, h.dependencies.mem_iff] using hjoined
  layered := by
    have hlayered := hg.layered
    simpa only [Records.Layered, h.dependencies.mem_iff, h.artifacts.mem_iff] using hlayered
  acyclic := by
    have hacyclic := hg.acyclic
    simpa only [Records.Acyclic, h.dependsOn] using hacyclic
  rooted := by
    have hrooted := hg.rooted
    simpa only [Records.Rooted, h.dependsOn, h.artifacts.mem_iff] using hrooted

theorem symbolsValid (hy : r.SymbolsValid) : r'.SymbolsValid where
  exports := by simpa only [h.declares, h.exports.mem_iff] using hy.exports
  imports i hi := by
    have hvalid := hy.imports i (h.imports.mem_iff.mpr hi)
    refine ⟨h.declares ▸ hvalid.consumer, ?_⟩
    simpa only [h.declares, h.dependsOn, h.exported] using hvalid.provider

theorem resourcesValid (hr : r.ResourcesValid) : r'.ResourcesValid where
  bindings := by
    simpa only [h.declares, h.resources.mem_iff, h.resourceBindings.mem_iff] using hr.bindings
  bound := by simpa only [h.resources.mem_iff, h.resourceBindings.mem_iff] using hr.bound
  exclusive := by simpa only [h.resources.mem_iff, h.resourceBindings.mem_iff] using hr.exclusive

theorem sealable (hs : r.Sealable) : r'.Sealable :=
  ⟨h.artifactsValid hs.artifacts, h.graphValid hs.graph, h.symbolsValid hs.symbols,
    h.resourcesValid hs.resources⟩

theorem sealed (hs : r.Sound) (qsort : Qsort) (digest : List UInt8) :
    r.sealed qsort digest = r'.sealed qsort digest := by
  simp only [Records.sealed,
    qsort.artifacts.sort_eq compareArtifacts_key hs.artifacts h.artifacts,
    qsort.dependencies.sort_eq compareDependencies_key hs.dependencies h.dependencies,
    qsort.exports.sort_eq compareExports_key hs.exports h.exports,
    qsort.imports.sort_eq compareImports_key hs.imports h.imports,
    qsort.resources.sort_eq compareResources_key hs.resources h.resources,
    qsort.resourceBindings.sort_eq compareResourceBindings_key hs.resourceBindings
      h.resourceBindings]

end Records.Permuted

/-! ### Records of the same calls -/

namespace ArtifactRecord
variable {a : ArtifactRecord} {call : Call}

theorem mem_lifecycleCalls : call ∈ a.lifecycleCalls ↔ a.lifecycleSet = true ∧
    ((a.nativeLifecycle = true ∧ call = .setNativeLifecycle a.nodeId) ∨
      (a.nativeLifecycle = false ∧ call = .setLifecycle a.nodeId (some a.initSymbol.text)
        (some a.quiesceSymbol.text) (some a.cleanupSymbol.text))) := by
  unfold lifecycleCalls
  cases a.lifecycleSet <;> cases a.nativeLifecycle <;> simp

theorem mem_rootCalls : call ∈ a.rootCalls ↔ a.isRoot = true ∧ call = .markRoot a.nodeId := by
  unfold rootCalls
  cases a.isRoot <;> simp

theorem mem_artifactCalls :
    call ∈ a.calls ↔ call = a.declareCall ∨ call ∈ a.lifecycleCalls ∨ call ∈ a.rootCalls := by
  rw [calls, mem_cons, mem_append]

theorem lifecycleSet_iff : a.lifecycleSet = true ↔ ∃ call, call ∈ a.lifecycleCalls := by
  simp only [mem_lifecycleCalls]
  cases a.lifecycleSet <;> cases a.nativeLifecycle <;> simp

theorem isRoot_iff : a.isRoot = true ↔ .markRoot a.nodeId ∈ a.rootCalls := by
  simp [mem_rootCalls]

theorem eq_of_calls {b : ArtifactRecord} (ha : a.Valid) (hb : b.Valid)
    (hdeclare : b.declareCall = a.declareCall)
    (hlifecycle : ∀ call, call ∈ a.lifecycleCalls ↔ call ∈ b.lifecycleCalls)
    (hroot : ∀ call, call ∈ a.rootCalls ↔ call ∈ b.rootCalls) : a = b := by
  simp only [declareCall, Call.addArtifact.injEq, Option.some.injEq] at hdeclare
  obtain ⟨hid, hkind, hdigest, htext⟩ := hdeclare
  have hname := hb.name.ext ha.name htext
  have hisRoot : a.isRoot = b.isRoot := by
    rw [Bool.eq_iff_iff, isRoot_iff, isRoot_iff, hid, hroot]
  have hset : a.lifecycleSet = b.lifecycleSet := by
    rw [Bool.eq_iff_iff, lifecycleSet_iff, lifecycleSet_iff]
    exact exists_congr hlifecycle
  have hrest : a.nativeLifecycle = b.nativeLifecycle ∧ a.initSymbol = b.initSymbol ∧
      a.quiesceSymbol = b.quiesceSymbol ∧ a.cleanupSymbol = b.cleanupSymbol := by
    cases hs : a.lifecycleSet with
    | false =>
      have hs' : b.lifecycleSet = false := hset ▸ hs
      obtain ⟨hi, hq, hc⟩ := ha.nameless (.inl hs)
      obtain ⟨hi', hq', hc'⟩ := hb.nameless (.inl hs')
      have hn : a.nativeLifecycle = false :=
        Bool.eq_false_iff.mpr fun hn => by simp [ha.native hn] at hs
      have hn' : b.nativeLifecycle = false :=
        Bool.eq_false_iff.mpr fun hn => by simp [hb.native hn] at hs'
      simp [hi, hq, hc, hi', hq', hc', hn, hn']
    | true =>
      have hs' : b.lifecycleSet = true := hset ▸ hs
      cases hn : a.nativeLifecycle with
      | true =>
        have hcall := (hlifecycle (.setNativeLifecycle a.nodeId)).mp
          (mem_lifecycleCalls.mpr ⟨hs, .inl ⟨hn, rfl⟩⟩)
        rw [mem_lifecycleCalls] at hcall
        rcases hcall.2 with ⟨hn', -⟩ | ⟨-, hcall⟩
        · obtain ⟨hi, hq, hc⟩ := ha.nameless (.inr hn)
          obtain ⟨hi', hq', hc'⟩ := hb.nameless (.inr hn')
          simp [hi, hq, hc, hi', hq', hc', hn']
        · cases hcall
      | false =>
        have hcall := (hlifecycle _).mp (mem_lifecycleCalls.mpr ⟨hs, .inr ⟨hn, rfl⟩⟩)
        rw [mem_lifecycleCalls] at hcall
        rcases hcall.2 with ⟨-, hcall⟩ | ⟨hn', hcall⟩
        · cases hcall
        · simp only [Call.setLifecycle.injEq, Option.some.injEq] at hcall
          obtain ⟨-, hi, hq, hc⟩ := hcall
          obtain ⟨hai, haq, hac⟩ := ha.lifecycle hs hn
          obtain ⟨hbi, hbq, hbc⟩ := hb.lifecycle hs' hn'
          exact ⟨hn'.symm, hai.ext hbi hi, haq.ext hbq hq, hac.ext hbc hc⟩
  obtain ⟨hnative, hi, hq, hc⟩ := hrest
  cases a
  cases b
  simp_all

theorem calls_inter {b : ArtifactRecord} (ha : call ∈ a.calls) (hb : call ∈ b.calls) :
    a.nodeId = b.nodeId ∧ (call = a.declareCall → call = b.declareCall) ∧
      (call ∈ a.lifecycleCalls → call ∈ b.lifecycleCalls) ∧
        (call ∈ a.rootCalls → call ∈ b.rootCalls) := by
  simp only [mem_artifactCalls, mem_lifecycleCalls, mem_rootCalls] at ha hb ⊢
  rcases ha with rfl | ⟨-, ⟨-, rfl⟩ | ⟨-, rfl⟩⟩ | ⟨-, rfl⟩
  all_goals simp_all [declareCall]

end ArtifactRecord

section
variable {r : Records}

theorem mem_calls : call ∈ r.calls ↔
    (∃ a ∈ r.artifacts, call ∈ a.calls) ∨ (∃ d ∈ r.dependencies, d.call = call) ∨
      (∃ e ∈ r.exports, e.call = call) ∨ (∃ i ∈ r.imports, i.call = call) ∨
        (∃ x ∈ r.resources, x.call = call) ∨ ∃ b ∈ r.resourceBindings, b.call = call := by
  simp only [Records.calls, mem_append, mem_flatMap, mem_map]

theorem not_artifact_call (ha : call ∈ a.calls) :
    (∀ d : DependencyRecord, call ≠ d.call) ∧ (∀ e : ExportRecord, call ≠ e.call) ∧
      (∀ i : ImportRecord, call ≠ i.call) ∧ (∀ x : ResourceRecord, call ≠ x.call) ∧
        ∀ b : ResourceBindingRecord, call ≠ b.call := by
  simp only [ArtifactRecord.mem_artifactCalls, ArtifactRecord.mem_lifecycleCalls,
    ArtifactRecord.mem_rootCalls] at ha
  rcases ha with rfl | ⟨-, ⟨-, rfl⟩ | ⟨-, rfl⟩⟩ | ⟨-, rfl⟩
  all_goals simp [DependencyRecord.call, ExportRecord.call, ImportRecord.call,
    ResourceRecord.call, ResourceBindingRecord.call, ArtifactRecord.declareCall]

theorem artifact_of_mem_calls (ha : call ∈ a.calls) (h : call ∈ r.calls) :
    ∃ b ∈ r.artifacts, call ∈ b.calls := by
  obtain ⟨hd, he, hi, hx, hb⟩ := not_artifact_call ha
  rcases mem_calls.mp h with h | ⟨d, -, h⟩ | ⟨e, -, h⟩ | ⟨i, -, h⟩ | ⟨x, -, h⟩ | ⟨b, -, h⟩
  · exact h
  · exact absurd h.symm (hd d)
  · exact absurd h.symm (he e)
  · exact absurd h.symm (hi i)
  · exact absurd h.symm (hx x)
  · exact absurd h.symm (hb b)

variable {r' : Records}

theorem artifacts_subset (hs : r.Sound) (hs' : r'.Sound)
    (hcalls : ∀ call, call ∈ r.calls ↔ call ∈ r'.calls) (ha : a ∈ r.artifacts) :
    a ∈ r'.artifacts := by
  have hmem : ∀ {r : Records} {a : ArtifactRecord}, a ∈ r.artifacts → ∀ {call}, call ∈ a.calls →
      call ∈ r.calls := fun ha _ hcall => mem_calls.mpr (.inl ⟨_, ha, hcall⟩)
  have hdeclared : a.declareCall ∈ a.calls := mem_cons_self
  obtain ⟨b, hb, hcall⟩ := artifact_of_mem_calls hdeclared ((hcalls _).mp (hmem ha hdeclared))
  obtain ⟨hid, hdeclare, -⟩ := ArtifactRecord.calls_inter hdeclared hcall
  -- each call of one artifact is a call of the other, since a node has one artifact
  have hforward : ∀ {call}, call ∈ a.calls → call ∈ b.calls := by
    intro call hc
    obtain ⟨b', hb', hc'⟩ := artifact_of_mem_calls hc ((hcalls _).mp (hmem ha hc))
    rwa [hs'.artifact_eq hb hb' (hid.symm.trans (ArtifactRecord.calls_inter hc hc').1)]
  have hbackward : ∀ {call}, call ∈ b.calls → call ∈ a.calls := by
    intro call hc
    obtain ⟨a', ha', hc'⟩ := artifact_of_mem_calls hc ((hcalls _).mpr (hmem hb hc))
    rwa [hs.artifact_eq ha ha' (hid.trans (ArtifactRecord.calls_inter hc hc').1)]
  have heq : a = b := by
    refine ArtifactRecord.eq_of_calls (hs.artifacts.valid a ha) (hs'.artifacts.valid b hb)
      (hdeclare rfl).symm (fun call => ⟨fun h => ?_, fun h => ?_⟩)
      fun call => ⟨fun h => ?_, fun h => ?_⟩
    · have hc := ArtifactRecord.mem_artifactCalls.mpr (.inr (.inl h))
      exact (ArtifactRecord.calls_inter hc (hforward hc)).2.2.1 h
    · have hc := ArtifactRecord.mem_artifactCalls.mpr (.inr (.inl h))
      exact (ArtifactRecord.calls_inter hc (hbackward hc)).2.2.1 h
    · have hc := ArtifactRecord.mem_artifactCalls.mpr (.inr (.inr h))
      exact (ArtifactRecord.calls_inter hc (hforward hc)).2.2.2 h
    · have hc := ArtifactRecord.mem_artifactCalls.mpr (.inr (.inr h))
      exact (ArtifactRecord.calls_inter hc (hbackward hc)).2.2.2 h
  rwa [heq]

theorem mem_dependencies_iff {d : DependencyRecord} : d ∈ r.dependencies ↔ d.call ∈ r.calls := by
  rw [mem_calls]
  constructor
  · intro hd
    exact .inr (.inl ⟨d, hd, rfl⟩)
  · rintro (⟨a, -, ha⟩ | ⟨d', hd', h⟩ | ⟨_, _, h⟩ | ⟨_, _, h⟩ | ⟨_, _, h⟩ | ⟨_, _, h⟩)
    · exact absurd rfl ((not_artifact_call ha).1 d)
    · cases d
      cases d'
      cases h
      exact hd'
    all_goals cases h

theorem mem_exports_iff (hs : r.Sound) {e : ExportRecord} (he : e.Valid) :
    e ∈ r.exports ↔ e.call ∈ r.calls := by
  rw [mem_calls]
  constructor
  · intro he
    exact .inr (.inr (.inl ⟨e, he, rfl⟩))
  · rintro (⟨a, -, ha⟩ | ⟨_, _, h⟩ | ⟨e', he', h⟩ | ⟨_, _, h⟩ | ⟨_, _, h⟩ | ⟨_, _, h⟩)
    · exact absurd rfl ((not_artifact_call ha).2.1 e)
    · cases h
    · simp only [ExportRecord.call, Call.addExport.injEq, Option.some.injEq] at h
      have hname := (hs.exports.valid e' he').name.ext he.name h.2.1
      cases e
      cases e'
      simp_all
    all_goals cases h

theorem mem_imports_iff (hs : r.Sound) {i : ImportRecord} (hi : i.Valid) :
    i ∈ r.imports ↔ i.call ∈ r.calls := by
  rw [mem_calls]
  constructor
  · intro hi
    exact .inr (.inr (.inr (.inl ⟨i, hi, rfl⟩)))
  · rintro (⟨a, -, ha⟩ | ⟨_, _, h⟩ | ⟨_, _, h⟩ | ⟨i', hi', h⟩ | ⟨_, _, h⟩ | ⟨_, _, h⟩)
    · exact absurd rfl ((not_artifact_call ha).2.2.1 i)
    · cases h
    · cases h
    · simp only [ImportRecord.call, Call.addImport.injEq, Option.some.injEq] at h
      have hvalid := hs.imports.valid i' hi'
      have hconsumer := hvalid.consumerName.ext hi.consumerName h.2.1
      have hprovider := hvalid.providerName.ext hi.providerName h.2.2.2.1
      cases i
      cases i'
      simp_all
    all_goals cases h

theorem mem_resources_iff {x : ResourceRecord} : x ∈ r.resources ↔ x.call ∈ r.calls := by
  rw [mem_calls]
  constructor
  · intro hx
    exact .inr (.inr (.inr (.inr (.inl ⟨x, hx, rfl⟩))))
  · rintro (⟨a, -, ha⟩ | ⟨_, _, h⟩ | ⟨_, _, h⟩ | ⟨_, _, h⟩ | ⟨x', hx', h⟩ | ⟨_, _, h⟩)
    · exact absurd rfl ((not_artifact_call ha).2.2.2.1 x)
    · cases h
    · cases h
    · cases h
    · cases x
      cases x'
      cases h
      exact hx'
    · cases h

theorem mem_resourceBindings_iff {b : ResourceBindingRecord} :
    b ∈ r.resourceBindings ↔ b.call ∈ r.calls := by
  rw [mem_calls]
  constructor
  · intro hb
    exact .inr (.inr (.inr (.inr (.inr ⟨b, hb, rfl⟩))))
  · rintro (⟨a, -, ha⟩ | ⟨_, _, h⟩ | ⟨_, _, h⟩ | ⟨_, _, h⟩ | ⟨_, _, h⟩ | ⟨b', hb', h⟩)
    · exact absurd rfl ((not_artifact_call ha).2.2.2.2 b)
    · cases h
    · cases h
    · cases h
    · cases h
    · cases b
      cases b'
      cases h
      exact hb'

theorem Records.Permuted.of_calls (hs : r.Sound) (hs' : r'.Sound) (hp : r.calls.Perm r'.calls) :
    r.Permuted r' := by
  have hcalls : ∀ call, call ∈ r.calls ↔ call ∈ r'.calls := fun _ => hp.mem_iff
  constructor
  · refine hs.artifacts.perm_of_mem hs'.artifacts fun a => ⟨artifacts_subset hs hs' hcalls, ?_⟩
    exact artifacts_subset hs' hs fun call => (hcalls call).symm
  · refine hs.dependencies.perm_of_mem hs'.dependencies fun d => ?_
    rw [mem_dependencies_iff, mem_dependencies_iff, hcalls]
  · refine hs.exports.perm_of_mem hs'.exports fun e => ⟨fun he => ?_, fun he => ?_⟩
    · have hvalid := hs.exports.valid e he
      rwa [mem_exports_iff hs' hvalid, ← hcalls, ← mem_exports_iff hs hvalid]
    · have hvalid := hs'.exports.valid e he
      rwa [mem_exports_iff hs hvalid, hcalls, ← mem_exports_iff hs' hvalid]
  · refine hs.imports.perm_of_mem hs'.imports fun i => ⟨fun hi => ?_, fun hi => ?_⟩
    · have hvalid := hs.imports.valid i hi
      rwa [mem_imports_iff hs' hvalid, ← hcalls, ← mem_imports_iff hs hvalid]
    · have hvalid := hs'.imports.valid i hi
      rwa [mem_imports_iff hs hvalid, hcalls, ← mem_imports_iff hs' hvalid]
  · refine hs.resources.perm_of_mem hs'.resources fun x => ?_
    rw [mem_resources_iff, mem_resources_iff, hcalls]
  · refine hs.resourceBindings.perm_of_mem hs'.resourceBindings fun b => ?_
    rw [mem_resourceBindings_iff, mem_resourceBindings_iff, hcalls]

end

/-! ### Sealed closures -/

theorem Table.fits_full {α : Type} {l : List α} {maximumCount : ℕ} (zero : α)
    (h : l.length ≤ maximumCount) : (Table.full l).Fits zero maximumCount where
  count_le := Nat.le_refl _
  capacity_le := h
  fresh x hx := by
    change x ∈ l.drop l.length at hx
    rw [drop_length] at hx
    cases hx

section
variable (qsort : Qsort) (digest : List UInt8) {r : Records}

theorem Records.sealed_permuted : (r.sealed qsort digest).records.Permuted r := by
  constructor
  all_goals
    simp only [Records.sealed, Storage.records, Table.records_full]
    exact Sorter.perm _ _

theorem Records.Sound.sealed_wellformed (h : r.Sound) : (r.sealed qsort digest).Wellformed := by
  have hs := (Records.sealed_permuted qsort digest).sound h
  have hbound : ∀ {α κ : Type} {key : α → κ} {Valid : α → Prop} {maximum : ℕ} {l : List α},
      Keyed key Valid maximum (Table.full l).records → l.length ≤ maximum := fun hk => by
    have hle := hk.bounded
    rwa [Table.records_full] at hle
  exact ⟨⟨Table.fits_full _ (hbound hs.artifacts), Table.fits_full _ (hbound hs.dependencies),
    Table.fits_full _ (hbound hs.exports), Table.fits_full _ (hbound hs.imports),
    Table.fits_full _ (hbound hs.resources), Table.fits_full _ (hbound hs.resourceBindings)⟩, hs⟩

theorem Records.Sound.sealed_sealed (h : r.Sound) :
    (r.sealed qsort digest).records.sealed qsort digest = r.sealed qsort digest := by
  have hp := Records.sealed_permuted qsort digest (r := r)
  exact hp.sealed (hp.sound h) qsort digest

end

theorem builderSeal_congr (qsort : Qsort) {s' : Storage} (hs : s.Wellformed) (hs' : s'.Wellformed)
    (hp : s.records.Permuted s'.records) (hdigest : s.manifestDigest = s'.manifestDigest) :
    builderSeal qsort (fun _ => true) s = builderSeal qsort (fun _ => true) s' := by
  by_cases h : s.records.Sealable
  · rw [builderSeal_ok qsort hs h, builderSeal_ok qsort hs' (hp.sealable h),
      hp.sealed hs.sound, hdigest]
  · rw [builderSeal_refused qsort hs h,
      builderSeal_refused qsort hs' fun h' => h (hp.symm.sealable h')]

theorem runAll_calls {digest : List UInt8} {calls : List Call}
    (hs : runAll (.created digest) calls = some s) : s.records.calls.Perm calls := by
  obtain ⟨-, haccepted, -⟩ := runAll_accepted (Storage.wellformed_created digest) hs
  have hcalls := haccepted.calls Records.sound_empty
  rwa [show Records.empty.calls = [] from rfl, append_nil] at hcalls

theorem permuted_of_runAll {digest : List UInt8} {calls calls' : List Call} {s' : Storage}
    (hperm : calls.Perm calls') (hs : runAll (.created digest) calls = some s)
    (hs' : runAll (.created digest) calls' = some s') :
    s.Wellformed ∧ s'.Wellformed ∧ s.records.Permuted s'.records ∧ s.manifestDigest = digest ∧
      s'.manifestDigest = digest := by
  have hcreated := Storage.wellformed_created digest
  obtain ⟨hw, -, hdigest⟩ := runAll_accepted hcreated hs
  obtain ⟨hw', -, hdigest'⟩ := runAll_accepted hcreated hs'
  refine ⟨hw, hw', .of_calls hw.sound hw'.sound ?_, hdigest, hdigest'⟩
  exact (runAll_calls hs).trans (hperm.trans (runAll_calls hs').symm)

/-- Two builders that got the same calls in some order, all of them successful, seal to the
same status and the same closure. A copy of the closure is the closure, and its records
stand for calls that succeed and that, in any order in which they do, seal to it again. -/
theorem sealed_closure_canonical (qsort : Qsort) (digest : List UInt8) (calls calls' : List Call)
    (s s' : Storage) (hperm : calls.Perm calls') (hs : runAll (.created digest) calls = some s)
    (hs' : runAll (.created digest) calls' = some s') :
    builderSeal qsort (fun _ => true) s = builderSeal qsort (fun _ => true) s' ∧
      ∀ closure, builderSeal qsort (fun _ => true) s = .ok closure →
        (∀ n, clone qsort (fun _ => true) closure n = .ok closure) ∧
        (∃ t, runAll (.created closure.manifestDigest) closure.records.calls = some t) ∧
        ∀ rebuild t, rebuild.Perm closure.records.calls →
          runAll (.created closure.manifestDigest) rebuild = some t →
            builderSeal qsort (fun _ => true) t = .ok closure := by
  obtain ⟨hw, hw', hp, hdigest, hdigest'⟩ := permuted_of_runAll hperm hs hs'
  refine ⟨builderSeal_congr qsort hw hw' hp (hdigest.trans hdigest'.symm), fun closure hok => ?_⟩
  have hsealable := sealable_of_builderSeal hw hok
  rw [builderSeal_ok qsort hw hsealable, hdigest] at hok
  obtain rfl := Except.ok.inj hok
  have hclosed := hw.sound.sealed_wellformed qsort digest
  have hpermuted := Records.sealed_permuted qsort digest (r := s.records)
  refine ⟨fun n => ?_, ?_, fun rebuild t hrebuild ht => ?_⟩
  · rw [clone_ok qsort hclosed.fits]
    exact congrArg _ (hw.sound.sealed_sealed qsort digest)
  · obtain ⟨t, ht, -⟩ := runAll_of_accepted (Storage.wellformed_created digest)
      hclosed.sound.accepted
    exact ⟨t, ht⟩
  · -- the rebuilt calls are a permutation of the calls the builder got
    have hcalls : rebuild.Perm calls := hrebuild.trans (hpermuted.calls.trans (runAll_calls hs))
    obtain ⟨hwt, -, hpt, hdt, -⟩ := permuted_of_runAll hcalls ht hs
    rw [builderSeal_congr qsort hwt hw hpt (hdt.trans hdigest.symm),
      builderSeal_ok qsort hw hsealable, hdigest]

/-! A native closure of a root module and the provider it depends on, built in two orders. -/

namespace Sample

def digest : List UInt8 := List.replicate 32 1

def declareModule : Call := .addArtifact 1 (some .relocatableModule) (some digest) (some [109])

def declareProvider : Call := .addArtifact 2 (some .sharedProvider) (some digest) (some [112])

def rest : List Call :=
  [.setNativeLifecycle 1, .setNativeLifecycle 2, .markRoot 1, .addDependency 1 2,
    .addExport 2 (some [102]) (some .function),
    .addImport 1 (some [103]) 2 (some [102]) (some .function) 0,
    .addResource 7 (some .memory) (some digest) 1 1 1 3 1, .bindResource 7 1]

theorem runs :
    ((runAll (.created digest) (declareModule :: declareProvider :: rest)).map fun s =>
      (validateStorage s fun _ => true).1) = some .ok ∧
    ((runAll (.created digest) (declareProvider :: declareModule :: rest)).map fun s =>
      (validateStorage s fun _ => true).1) = some .ok := by
  decide +kernel

end Sample

theorem sealed_closure_of_sample : ∃ s s' closure,
    runAll (.created Sample.digest) (Sample.declareModule :: Sample.declareProvider :: Sample.rest) =
      some s ∧
    runAll (.created Sample.digest) (Sample.declareProvider :: Sample.declareModule :: Sample.rest) =
      some s' ∧
    builderSeal .insertion (fun _ => true) s = .ok closure ∧
    builderSeal .insertion (fun _ => true) s' = .ok closure := by
  obtain ⟨hrun, hrun'⟩ := Sample.runs
  obtain ⟨s, hs, hok⟩ := Option.map_eq_some_iff.mp hrun
  obtain ⟨s', hs', -⟩ := Option.map_eq_some_iff.mp hrun'
  have hseal : builderSeal .insertion (fun _ => true) s =
      clone .insertion (fun _ => true) s (validateStorage s fun _ => true).2 := by
    simp [builderSeal, hok]
  have hclone := clone_ok .insertion
    (runAll_accepted (Storage.wellformed_created Sample.digest) hs).1.fits
    (validateStorage s fun _ => true).2
  have hsame := sealed_closure_canonical .insertion Sample.digest _ _ s s' (.swap ..) hs hs'
  exact ⟨s, s', _, hs, hs', hseal.trans hclone, hsame.1.symm.trans (hseal.trans hclone)⟩

end Kobox.Closure
