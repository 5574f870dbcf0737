import Kobox.Closure.Invariant

/-!
# The calls a closure is built with
-/

namespace Kobox.Closure
open List
open Control (Status)
variable {r r' : Records} {a : ArtifactRecord}

def runAll (s : Storage) : List Call → Option Storage
  | [] => some s
  | call :: rest =>
    if (perform s call true).1 = .ok then runAll (perform s call true).2 rest else none

/-- The records accept the calls one after another. -/
inductive Accepted : Records → List Call → Records → Prop
  | nil (r : Records) : Accepted r [] r
  | cons {r r' r'' : Records} {call : Call} {rest : List Call} (hcall : Accepts r call r')
      (hrest : Accepted r' rest r'') : Accepted r (call :: rest) r''

theorem Accepted.append {r'' : Records} {calls rest : List Call} (h : Accepted r calls r')
    (hrest : Accepted r' rest r'') : Accepted r (calls ++ rest) r'' := by
  induction h with
  | nil => exact hrest
  | cons hcall _ ih => exact .cons hcall (ih hrest)

theorem runAll_accepted {s s' : Storage} (hs : s.Wellformed) {calls : List Call}
    (h : runAll s calls = some s') :
    s'.Wellformed ∧ Accepted s.records calls s'.records ∧ s'.manifestDigest = s.manifestDigest := by
  induction calls generalizing s with
  | nil =>
    obtain rfl := Option.some.inj h
    exact ⟨hs, .nil _, rfl⟩
  | cons call rest ih =>
    rw [runAll] at h
    split_ifs at h with hok
    have hperformed := perform_behaves.ok hs.fits hs.sound hok
    obtain ⟨hs', hrest, hdigest⟩ := ih (hs.perform call true) h
    exact ⟨hs', .cons hperformed.accepts hrest, hdigest.trans hperformed.digest⟩

theorem runAll_of_accepted {s : Storage} (hs : s.Wellformed) {calls : List Call}
    (h : Accepted s.records calls r) : ∃ s', runAll s calls = some s' ∧ s'.records = r := by
  generalize hr : s.records = r₀ at h
  induction h generalizing s with
  | nil => exact ⟨s, rfl, hr⟩
  | cons hcall _ ih =>
    subst hr
    have hok := perform_accepted hs.fits hs.sound hcall
    have hperformed := perform_behaves.ok hs.fits hs.sound hok
    obtain ⟨s', hs', hr'⟩ := ih (hs.perform _ true) (hperformed.accepts.unique hcall)
    exact ⟨s', by rw [runAll, if_pos hok, hs'], hr'⟩

/-! ### Calls of the records -/

namespace ArtifactRecord

def declareCall (a : ArtifactRecord) : Call :=
  .addArtifact a.nodeId (some a.kind) (some a.contentDigest) (some a.namespaceName.text)

def lifecycleCalls (a : ArtifactRecord) : List Call :=
  if a.lifecycleSet = false then []
  else if a.nativeLifecycle = true then [.setNativeLifecycle a.nodeId]
  else [.setLifecycle a.nodeId (some a.initSymbol.text) (some a.quiesceSymbol.text)
    (some a.cleanupSymbol.text)]

def rootCalls (a : ArtifactRecord) : List Call :=
  if a.isRoot = true then [.markRoot a.nodeId] else []

def calls (a : ArtifactRecord) : List Call := a.declareCall :: (a.lifecycleCalls ++ a.rootCalls)

end ArtifactRecord

def DependencyRecord.call (d : DependencyRecord) : Call :=
  .addDependency d.consumerNodeId d.providerNodeId

def ExportRecord.call (e : ExportRecord) : Call :=
  .addExport e.nodeId (some e.symbol.text) (some e.kind)

def ImportRecord.call (i : ImportRecord) : Call :=
  .addImport i.consumerNodeId (some i.consumerSymbol.text) i.providerNodeId
    (some i.providerSymbol.text) (some i.kind) i.flags

def ResourceRecord.call (x : ResourceRecord) : Call :=
  .addResource x.slotId (some x.type) (some x.interfaceSchemaDigest) x.minimumCount x.maximumCount
    x.requiredRights x.maximumRights x.flags

def ResourceBindingRecord.call (b : ResourceBindingRecord) : Call := .bindResource b.slotId b.nodeId

def Records.calls (r : Records) : List Call :=
  r.artifacts.flatMap ArtifactRecord.calls ++ (r.dependencies.map DependencyRecord.call ++
    (r.exports.map ExportRecord.call ++ (r.imports.map ImportRecord.call ++
      (r.resources.map ResourceRecord.call ++
        r.resourceBindings.map ResourceBindingRecord.call))))

/-! ### Every sequence is a permutation of the calls of its records -/

theorem rewriteNode_of_ne {nodeId : UInt32} (write : ArtifactRecord → ArtifactRecord)
    {artifacts : List ArtifactRecord} (hne : ∀ b ∈ artifacts, b.nodeId ≠ nodeId) :
    rewriteNode nodeId write artifacts = artifacts := by
  conv_rhs => rw [← map_id artifacts]
  exact map_congr_left fun b hb => if_neg fun h => hne b hb (beq_iff_eq.mp h)

theorem rewriteNode_split (write : ArtifactRecord → ArtifactRecord)
    {before after : List ArtifactRecord} (hbefore : ∀ b ∈ before, b.nodeId ≠ a.nodeId)
    (hafter : ∀ b ∈ after, b.nodeId ≠ a.nodeId) :
    rewriteNode a.nodeId write (before ++ a :: after) = before ++ write a :: after := by
  have hb := rewriteNode_of_ne write hbefore
  have ha := rewriteNode_of_ne write hafter
  unfold rewriteNode at hb ha ⊢
  rw [map_append, map_cons, hb, ha, if_pos (beq_self_eq_true _)]

theorem flatMap_rewriteNode {nodeId : UInt32} {write : ArtifactRecord → ArtifactRecord}
    {call : Call} {artifacts : List ArtifactRecord}
    (hn : (artifacts.map ArtifactRecord.nodeId).Nodup) (ha : a ∈ artifacts)
    (hid : a.nodeId = nodeId) (hcalls : (write a).calls.Perm (call :: a.calls)) :
    ((rewriteNode nodeId write artifacts).flatMap ArtifactRecord.calls).Perm
      (call :: artifacts.flatMap ArtifactRecord.calls) := by
  subst hid
  obtain ⟨before, after, rfl⟩ := append_of_mem ha
  have hne : ∀ b ∈ before ++ after, b.nodeId ≠ a.nodeId := by
    intro b hb heq
    have hnodup := (perm_middle.map ArtifactRecord.nodeId).nodup_iff.mp hn
    rw [map_cons, nodup_cons] at hnodup
    exact hnodup.1 (heq ▸ mem_map_of_mem hb)
  have hrewrite := rewriteNode_split write
    (fun b hb => hne b (mem_append_left after hb))
    fun b hb => hne b (mem_append_right before hb)
  rw [hrewrite, flatMap_append, flatMap_cons, flatMap_append, flatMap_cons]
  exact ((List.Perm.append_left _ (hcalls.append_right _)).trans perm_middle)

namespace ArtifactRecord
variable {a : ArtifactRecord}

theorem calls_withLifecycle (h : a.Valid) (hopen : a.lifecycleSet = false)
    {init quiesce cleanup : List UInt8} (hinit : nameValid (some init) = true)
    (hquiesce : nameValid (some quiesce) = true) (hcleanup : nameValid (some cleanup) = true) :
    (a.withLifecycle init quiesce cleanup).calls.Perm
      (.setLifecycle a.nodeId (some init) (some quiesce) (some cleanup) :: a.calls) := by
  have hnative : a.nativeLifecycle = false :=
    Bool.eq_false_iff.mpr fun hn => by simp [h.native hn] at hopen
  simp only [calls, declareCall, lifecycleCalls, rootCalls, withLifecycle, hopen, hnative,
    text_copyName hinit, text_copyName hquiesce, text_copyName hcleanup]
  exact List.Perm.swap _ _ _

theorem calls_withNativeLifecycle (hopen : a.lifecycleSet = false) :
    a.withNativeLifecycle.calls.Perm (.setNativeLifecycle a.nodeId :: a.calls) := by
  simp only [calls, declareCall, lifecycleCalls, rootCalls, withNativeLifecycle, hopen]
  exact List.Perm.swap _ _ _

theorem calls_asRoot (hopen : a.isRoot = false) :
    a.asRoot.calls.Perm (.markRoot a.nodeId :: a.calls) := by
  have hroot : a.asRoot.calls = (a.declareCall :: a.lifecycleCalls) ++ [.markRoot a.nodeId] := rfl
  have hnone : a.rootCalls = [] := by simp [rootCalls, hopen]
  rw [hroot, calls, hnone, append_nil]
  exact perm_append_singleton _ _

end ArtifactRecord

variable {call : Call} {α : Type}

theorem perm_insert {l l' : List Call} (before : List Call) (h : l.Perm (call :: l')) :
    (before ++ l).Perm (call :: (before ++ l')) := (h.append_left before).trans perm_middle

theorem perm_added {toCall : α → Call} {x : α} (hx : toCall x = call) (l : List α)
    (after : List Call) :
    ((l ++ [x]).map toCall ++ after).Perm (call :: (l.map toCall ++ after)) := by
  rw [map_append, map_singleton, hx]
  exact (perm_append_singleton _ _).append_right _

theorem Accepts.calls (hs : r.Sound) (h : Accepts r call r') : r'.calls.Perm (call :: r.calls) := by
  cases h with
  | addArtifact nodeId kind digest name hid hdigest hname =>
    have hnew : (ArtifactRecord.declared nodeId kind digest name).calls =
        [.addArtifact nodeId (some kind) (some digest) (some name)] := by
      simp [ArtifactRecord.calls, ArtifactRecord.declareCall, ArtifactRecord.lifecycleCalls,
        ArtifactRecord.rootCalls, ArtifactRecord.declared, ArtifactRecord.zero, text_copyName hname]
    simp only [Records.calls, flatMap_append, flatMap_singleton, hnew, append_assoc]
    exact perm_middle
  | setLifecycle nodeId init quiesce cleanup hid hinit hquiesce hcleanup hopen =>
    obtain ⟨a, ha, rfl, hset⟩ := hopen
    have hcalls := ArtifactRecord.calls_withLifecycle (hs.artifacts.valid a ha) hset hinit hquiesce
      hcleanup
    exact (flatMap_rewriteNode hs.artifacts.unique ha rfl hcalls).append_right _
  | setNativeLifecycle nodeId hid hopen =>
    obtain ⟨a, ha, rfl, hset⟩ := hopen
    have hcalls := ArtifactRecord.calls_withNativeLifecycle hset
    exact (flatMap_rewriteNode hs.artifacts.unique ha rfl hcalls).append_right _
  | markRoot nodeId hid hopen =>
    obtain ⟨a, ha, rfl, -, hroot⟩ := hopen
    have hcalls := ArtifactRecord.calls_asRoot hroot
    exact (flatMap_rewriteNode hs.artifacts.unique ha rfl hcalls).append_right _
  | addDependency d => exact perm_insert _ (perm_added rfl _ _)
  | addExport nodeId name kind hid hname =>
    have hcall : ExportRecord.call ⟨copyName .zero name, nodeId, kind⟩ =
        .addExport nodeId (some name) (some kind) := by
      rw [ExportRecord.call, text_copyName hname]
    exact perm_insert _ (perm_insert _ (perm_added hcall _ _))
  | addImport consumerNodeId consumer providerNodeId provider kind flags hid hconsumer hprovider =>
    have hcall : ImportRecord.call ⟨copyName .zero consumer, copyName .zero provider,
        consumerNodeId, providerNodeId, kind, flags⟩ = .addImport consumerNodeId (some consumer)
          providerNodeId (some provider) (some kind) flags := by
      rw [ImportRecord.call, text_copyName hconsumer, text_copyName hprovider]
    exact perm_insert _ (perm_insert _ (perm_insert _ (perm_added hcall _ _)))
  | addResource x =>
    exact perm_insert _ (perm_insert _ (perm_insert _ (perm_insert _ (perm_added rfl _ _))))
  | bindResource b =>
    refine perm_insert _ (perm_insert _ (perm_insert _ (perm_insert _ (perm_insert _ ?_))))
    rw [map_append]
    exact perm_append_singleton _ _

theorem Accepted.calls (hs : r.Sound) {calls : List Call} (h : Accepted r calls r') :
    r'.calls.Perm (calls ++ r.calls) := by
  induction h with
  | nil => exact .refl _
  | cons hcall _ ih =>
    refine (ih (hs.accepts hcall)).trans ?_
    exact ((hcall.calls hs).append_left _).trans perm_middle

/-! ### The calls of the records succeed -/

theorem accepted_table {calls : α → List Call} (records : List α → Records) (l : List α)
    (hstep : ∀ before x after, l = before ++ x :: after →
      Accepted (records before) (calls x) (records (before ++ [x]))) :
    Accepted (records []) (l.flatMap calls) (records l) := by
  suffices h : ∀ before after, l = before ++ after →
      Accepted (records before) (after.flatMap calls) (records l) from h [] l rfl
  intro before after hl
  induction after generalizing before with
  | nil =>
    rw [append_nil] at hl
    rw [← hl]
    exact .nil _
  | cons x after ih =>
    rw [flatMap_cons]
    exact (hstep before x after hl).append
      (ih (before ++ [x]) (by rw [hl, append_assoc, singleton_append]))

theorem accepted_records {call : α → Call} (records : List α → Records) (l : List α)
    (hstep : ∀ before x after, l = before ++ x :: after →
      Accepts (records before) (call x) (records (before ++ [x]))) :
    Accepted (records []) (l.map call) (records l) := by
  rw [← flatMap_pure_eq_map]
  exact accepted_table records l fun before x after hl => .cons (hstep before x after hl) (.nil _)

theorem ArtifactRecord.Valid.declared (h : a.Valid) (hopen : a.lifecycleSet = false) :
    ArtifactRecord.declared a.nodeId a.kind a.contentDigest a.namespaceName.text =
      { a with isRoot := false } := by
  have hname := h.name.padded
  obtain ⟨hi, hq, hc⟩ := h.nameless (.inl hopen)
  have hnative : a.nativeLifecycle = false :=
    Bool.eq_false_iff.mpr fun hn => by simp [h.native hn] at hopen
  rw [ArtifactRecord.declared, ← hname, hi, hq, hc, hopen, hnative]
  rfl

section
variable {r : Records} {before : List ArtifactRecord} {a : ArtifactRecord}

theorem accepted_last {x y : ArtifactRecord} {call : Call} (write : ArtifactRecord → ArtifactRecord)
    (hnew : ∀ b ∈ before, b.nodeId ≠ x.nodeId) (hy : write x = y)
    (h : Accepts { r with artifacts := before ++ [x] } call
      { r with artifacts := rewriteNode x.nodeId write (before ++ [x]) }) :
    Accepted { r with artifacts := before ++ [x] } [call] { r with artifacts := before ++ [y] } := by
  rw [rewriteNode_split write hnew fun _ hb => absurd hb not_mem_nil, hy] at h
  exact .cons h (.nil _)

theorem accepted_lifecycle (h : a.Valid) (hnew : ∀ b ∈ before, b.nodeId ≠ a.nodeId) :
    Accepted { r with artifacts := before ++
        [.declared a.nodeId a.kind a.contentDigest a.namespaceName.text] } a.lifecycleCalls
      { r with artifacts := before ++ [{ a with isRoot := false }] } := by
  have hopen : ∃ b ∈ before ++ [ArtifactRecord.declared a.nodeId a.kind a.contentDigest
      a.namespaceName.text], b.nodeId = a.nodeId ∧ b.lifecycleSet = false :=
    ⟨_, mem_append_right _ (mem_singleton_self _), rfl, rfl⟩
  have hname := h.name.padded
  unfold ArtifactRecord.lifecycleCalls
  split_ifs with hset hnative
  · rw [h.declared hset]
    exact .nil _
  · obtain ⟨hi, hq, hc⟩ := h.nameless (.inr hnative)
    refine accepted_last _ hnew ?_ (.setNativeLifecycle a.nodeId h.nodeId hopen)
    rw [ArtifactRecord.declared, ← hname, hi, hq, hc, h.native hnative, hnative]
    rfl
  · rw [Bool.not_eq_false] at hset
    rw [Bool.not_eq_true] at hnative
    obtain ⟨hi, hq, hc⟩ := h.lifecycle hset hnative
    refine accepted_last _ hnew ?_
      (.setLifecycle a.nodeId _ _ _ h.nodeId hi.valid hq.valid hc.valid hopen)
    simp only [ArtifactRecord.withLifecycle, ArtifactRecord.declared, ArtifactRecord.zero, ← hname,
      ← hi.padded, ← hq.padded, ← hc.padded, hset, hnative]

theorem accepted_root (h : a.Valid) (hnew : ∀ b ∈ before, b.nodeId ≠ a.nodeId) :
    Accepted { r with artifacts := before ++ [{ a with isRoot := false }] } a.rootCalls
      { r with artifacts := before ++ [a] } := by
  unfold ArtifactRecord.rootCalls
  split_ifs with hroot
  · refine accepted_last (·.asRoot) hnew ?_ (.markRoot a.nodeId h.nodeId
      ⟨_, mem_append_right _ (mem_singleton_self _), rfl, h.root hroot, rfl⟩)
    rw [ArtifactRecord.asRoot, ← hroot]
  · rw [Bool.not_eq_true] at hroot
    rw [← hroot]
    exact .nil _

theorem accepted_artifact {after : List ArtifactRecord}
    (h : Keyed ArtifactRecord.nodeId ArtifactRecord.Valid maxArtifacts (before ++ a :: after))
    (hname : ∀ b ∈ before, b.namespaceName.text ≠ a.namespaceName.text) :
    Accepted { r with artifacts := before } a.calls { r with artifacts := before ++ [a] } := by
  obtain ⟨ha, hnew, hroom⟩ := h.split
  have hdeclare := Accepts.addArtifact (r := { r with artifacts := before }) a.nodeId a.kind
    a.contentDigest a.namespaceName.text ha.nodeId ha.digest ha.name.valid
    (fun b hb => ⟨hnew b hb, hname b hb⟩) hroom
  exact .cons hdeclare ((accepted_lifecycle ha hnew).append (accepted_root ha hnew))

end

namespace Records.Sound
variable {r : Records}

section
variable (h : r.Sound) (r₀ : Records)
include h

theorem accepted_artifacts :
    Accepted { r₀ with artifacts := [] } (r.artifacts.flatMap ArtifactRecord.calls)
      { r₀ with artifacts := r.artifacts } := by
  refine accepted_table (fun l => { r₀ with artifacts := l }) _ fun before a after hl => ?_
  have hkeyed := h.artifacts
  have hnames := h.namespaces
  rw [hl] at hkeyed hnames
  refine accepted_artifact hkeyed fun b hb heq => ?_
  rw [map_append, map_cons, nodup_append] at hnames
  exact hnames.2.2 _ (mem_map_of_mem hb) _ mem_cons_self heq

theorem accepted_dependencies :
    Accepted { r₀ with dependencies := [] } (r.dependencies.map DependencyRecord.call)
      { r₀ with dependencies := r.dependencies } := by
  refine accepted_records (fun l => { r₀ with dependencies := l }) _ fun before d after hl => ?_
  obtain ⟨hvalid, hnew, hroom⟩ := (hl ▸ h.dependencies).split
  exact .addDependency d hvalid hnew hroom

theorem accepted_exports :
    Accepted { r₀ with exports := [] } (r.exports.map ExportRecord.call)
      { r₀ with exports := r.exports } := by
  refine accepted_records (fun l => { r₀ with exports := l }) _ fun before e after hl => ?_
  obtain ⟨hvalid, hnew, hroom⟩ := (hl ▸ h.exports).split
  have haccepts := Accepts.addExport (r := { r₀ with exports := before }) e.nodeId e.symbol.text
    e.kind hvalid.nodeId hvalid.name.valid hnew hroom
  rwa [← hvalid.name.padded] at haccepts

theorem accepted_imports :
    Accepted { r₀ with imports := [] } (r.imports.map ImportRecord.call)
      { r₀ with imports := r.imports } := by
  refine accepted_records (fun l => { r₀ with imports := l }) _ fun before i after hl => ?_
  obtain ⟨hvalid, hnew, hroom⟩ := (hl ▸ h.imports).split
  have haccepts := Accepts.addImport (r := { r₀ with imports := before }) i.consumerNodeId
    i.consumerSymbol.text i.providerNodeId i.providerSymbol.text i.kind i.flags hvalid.consumer
    hvalid.consumerName.valid hvalid.providerName.valid hvalid.flags hnew hroom
  rwa [← hvalid.consumerName.padded, ← hvalid.providerName.padded] at haccepts

theorem accepted_resources :
    Accepted { r₀ with resources := [] } (r.resources.map ResourceRecord.call)
      { r₀ with resources := r.resources } := by
  refine accepted_records (fun l => { r₀ with resources := l }) _ fun before x after hl => ?_
  obtain ⟨hvalid, hnew, hroom⟩ := (hl ▸ h.resources).split
  exact .addResource x hvalid hnew hroom

theorem accepted_bindings :
    Accepted { r₀ with resourceBindings := [] } (r.resourceBindings.map ResourceBindingRecord.call)
      { r₀ with resourceBindings := r.resourceBindings } := by
  refine accepted_records (fun l => { r₀ with resourceBindings := l }) _ fun before b after hl => ?_
  obtain ⟨hvalid, hnew, hroom⟩ := (hl ▸ h.resourceBindings).split
  exact .bindResource b hvalid hnew hroom

end

theorem accepted (h : r.Sound) : Accepted .empty r.calls r := by
  have h₁ := h.accepted_artifacts .empty
  have h₂ := h.accepted_dependencies { Records.empty with artifacts := r.artifacts }
  have h₃ := h.accepted_exports
    { Records.empty with artifacts := r.artifacts, dependencies := r.dependencies }
  have h₄ := h.accepted_imports { r with imports := [], resources := [], resourceBindings := [] }
  have h₅ := h.accepted_resources { r with resources := [], resourceBindings := [] }
  have h₆ := h.accepted_bindings { r with resourceBindings := [] }
  exact h₁.append (h₂.append (h₃.append (h₄.append (h₅.append h₆))))

end Records.Sound

end Kobox.Closure
