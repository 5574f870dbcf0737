import Kobox.Closure.Records

/-!
# Closure builder: invariant and atomicity
-/

namespace Kobox.Closure
open List
open Control (Status digestSize)
variable {s : Storage} {nodeId : UInt32} {call : Call}

/-- The tables keep to their maxima. -/
structure Storage.Fits (s : Storage) : Prop where
  artifacts : s.artifacts.Fits .zero maxArtifacts
  dependencies : s.dependencies.Fits .zero maxDependencies
  exports : s.exports.Fits .zero maxSymbols
  imports : s.imports.Fits .zero maxSymbols
  resources : s.resources.Fits .zero maxResources
  resourceBindings : s.resourceBindings.Fits .zero maxResourceBindings

theorem Storage.fits_created (digest : List UInt8) : (Storage.created digest).Fits :=
  ⟨Table.fits_empty _ _, Table.fits_empty _ _, Table.fits_empty _ _, Table.fits_empty _ _,
    Table.fits_empty _ _, Table.fits_empty _ _⟩

/-- What a call that returns OK did. -/
structure Performed (s : Storage) (call : Call) (s' : Storage) : Prop where
  fits : s'.Fits
  accepts : Accepts s.records call s'.records
  digest : s'.manifestDigest = s.manifestDigest

theorem resourceValid_iff {x : ResourceRecord} :
    x.Valid ↔ x.slotId ≠ 0 ∧ DigestValid x.interfaceSchemaDigest ∧
      x.flags &&& ~~~knownResourceFlags = 0 ∧
      resourceValid x.type x.minimumCount x.maximumCount x.requiredRights x.maximumRights
        x.flags = true := by
  simp only [resourceValid, Bool.not_eq_true', Bool.or_eq_false_iff, beq_eq_false_iff_ne,
    decide_eq_false_iff_not, bne_eq_false_iff_eq, Bool.and_eq_false_imp, bne_iff_ne]
  constructor
  · intro h
    exact ⟨h.slotId, h.digest, h.flags,
      ⟨⟨⟨⟨h.maximum, UInt32.not_lt.mpr h.counts⟩, h.rights⟩, h.known⟩, h.within⟩, h.required⟩
  · rintro ⟨hid, hdigest, hflags, ⟨⟨⟨⟨hmax, hcounts⟩, hrights⟩, hknown⟩, hwithin⟩, hrequired⟩
    exact ⟨hid, hdigest, hflags, hmax, UInt32.not_lt.mp hcounts, hrequired, hrights, hknown,
      hwithin⟩

theorem findArtifact_iff (hs : s.records.Sound) {a : ArtifactRecord} :
    findArtifact s nodeId = some a ↔ a ∈ s.records.artifacts ∧ a.nodeId = nodeId := by
  constructor
  · intro hfind
    exact ⟨mem_of_find?_eq_some hfind, by simpa using find?_some hfind⟩
  · rintro ⟨ha, rfl⟩
    cases hfind : findArtifact s a.nodeId with
    | none =>
      exact absurd (beq_self_eq_true a.nodeId) (find?_eq_none.mp hfind a ha)
    | some b =>
      have hid : b.nodeId = a.nodeId := by simpa using find?_some hfind
      rw [hs.artifact_eq (mem_of_find?_eq_some hfind) ha hid]

/-! ### The operations -/

/-- A call is refused and changes nothing, or it is performed. -/
structure Behaves (s : Storage) (call : Call) (r : Result) : Prop where
  refused : r.1 ≠ .ok → r.2 = s
  ok : s.Fits → s.records.Sound → r.1 = .ok → Performed s call r.2

section
variable {s : Storage} {allocated : Bool} {status : Status}

theorem Behaves.refuse (hs : status ≠ .ok) : Behaves s call (status, s) :=
  ⟨fun _ => rfl, fun _ _ h => absurd h hs⟩

theorem Behaves.unless {c : Prop} [Decidable c] {r : Result} (hs : status ≠ .ok)
    (h : ¬c → Behaves s call r) : Behaves s call (if c then (status, s) else r) := by
  split_ifs with hc
  · exact .refuse hs
  · exact h hc

theorem addArtifact_behaves {kind : Option ArtifactKind} {digest name : Option (List UInt8)} :
    Behaves s (.addArtifact nodeId kind digest name)
      (addArtifact s nodeId kind digest name allocated) := by
  unfold addArtifact
  split
  · rename_i kind digest name
    refine .unless (by simp) fun hargs => .unless (by simp) fun hzero => .unless (by simp) fun hdup =>
      ⟨fun h => congrArg (fun artifacts => { s with artifacts }) (Table.add_refused h),
        fun hf _ h => ?_⟩
    obtain ⟨hfits, hadd, hroom⟩ := hf.artifacts.add (by decide) h
    simp only [not_or, not_not, Bool.not_eq_false, Bool.not_eq_true] at hargs hzero
    refine ⟨{ hf with artifacts := hfits }, ?_, rfl⟩
    refine (congrArg (fun artifacts => Accepts s.records _ { s.records with artifacts }) hadd).mpr ?_
    refine .addArtifact nodeId kind digest name hargs.1 ⟨hargs.2.1, hzero⟩ hargs.2.2
      (fun a ha => ?_) hroom
    simp only [any_eq_true, Bool.or_eq_true, beq_iff_eq, nameEquals_iff, not_exists, not_and,
      not_or] at hdup
    exact hdup a ha
  · exact .refuse (by simp)

theorem Behaves.update {refused : ArtifactRecord → Prop} [DecidablePred refused]
    {write : ArtifactRecord → ArtifactRecord}
    (haccepts : ∀ found ∈ s.records.artifacts, found.nodeId = nodeId → ¬refused found →
      Accepts s.records call
        { s.records with artifacts := rewriteNode nodeId write s.records.artifacts }) :
    Behaves s call (match findArtifact s nodeId with
      | none => (.invalidConfiguration, s)
      | some found =>
        if refused found then (.invalidConfiguration, s)
        else (.ok, { s with
          artifacts := s.artifacts.update (fun record => record.nodeId == nodeId) write })) := by
  cases hfind : findArtifact s nodeId with
  | none => exact .refuse (by simp)
  | some found =>
    refine .unless (by simp) fun hrefused => ⟨fun h => absurd rfl h, fun hf hs _ => ?_⟩
    obtain ⟨hmem, hid⟩ := (findArtifact_iff hs).mp hfind
    obtain ⟨hfits, hupdate⟩ := hf.artifacts.update (fun record => record.nodeId == nodeId) write
    have hrewrite := hupdate.trans (hs.artifacts.modify_first (fun _ => beq_iff_eq) write)
    refine ⟨{ hf with artifacts := hfits }, ?_, rfl⟩
    exact (congrArg (fun artifacts => Accepts s.records call { s.records with artifacts })
      hrewrite).mpr (haccepts found hmem hid hrefused)

theorem setLifecycle_behaves {init quiesce cleanup : Option (List UInt8)} :
    Behaves s (.setLifecycle nodeId init quiesce cleanup)
      (setLifecycle s nodeId init quiesce cleanup) := by
  unfold setLifecycle
  split
  · rename_i init quiesce cleanup
    refine .unless (by simp) fun hargs => .update fun found hmem hid hset => ?_
    simp only [not_or, Bool.not_eq_false] at hargs
    exact .setLifecycle nodeId init quiesce cleanup hargs.1 hargs.2.1 hargs.2.2.1 hargs.2.2.2
      ⟨found, hmem, hid, Bool.eq_false_iff.mpr hset⟩
  · exact .refuse (by simp)

theorem setNativeLifecycle_behaves :
    Behaves s (.setNativeLifecycle nodeId) (setNativeLifecycle s nodeId) :=
  .unless (by simp) fun hzero => .update fun found hmem hid hset =>
    .setNativeLifecycle nodeId hzero ⟨found, hmem, hid, Bool.eq_false_iff.mpr hset⟩

theorem markRoot_behaves : Behaves s (.markRoot nodeId) (markRoot s nodeId) := by
  refine .unless (by simp) fun hzero => .update fun found hmem hid hset => ?_
  simp only [not_or, not_not, Bool.not_eq_true] at hset
  exact .markRoot nodeId hzero ⟨found, hmem, hid, hset⟩

theorem addDependency_behaves {consumer provider : UInt32} :
    Behaves s (.addDependency consumer provider)
      (addDependency s consumer provider allocated) := by
  refine .unless (by simp) fun hzero => .unless (by simp) fun hdup =>
    ⟨fun h => congrArg (fun dependencies => { s with dependencies }) (Table.add_refused h),
      fun hf _ h => ?_⟩
  obtain ⟨hfits, hadd, hroom⟩ := hf.dependencies.add (by decide) h
  simp only [not_or] at hzero hdup
  refine ⟨{ hf with dependencies := hfits }, ?_, rfl⟩
  refine (congrArg (fun dependencies => Accepts s.records _ { s.records with dependencies })
    hadd).mpr ?_
  refine .addDependency ⟨consumer, provider⟩ ⟨hzero.1, hzero.2, hdup.1⟩ (fun d hd hkey => ?_) hroom
  refine hdup.2 (any_eq_true.mpr ⟨d, hd, ?_⟩)
  simpa [DependencyRecord.key] using hkey

theorem addExport_behaves {symbol : Option (List UInt8)} {kind : Option SymbolKind} :
    Behaves s (.addExport nodeId symbol kind) (addExport s nodeId symbol kind allocated) := by
  unfold addExport
  split
  · rename_i name kind
    refine .unless (by simp) fun hargs => .unless (by simp) fun hdup =>
      ⟨fun h => congrArg (fun exports => { s with exports }) (Table.add_refused h),
        fun hf _ h => ?_⟩
    obtain ⟨hfits, hadd, hroom⟩ := hf.exports.add (by decide) h
    simp only [not_or, Bool.not_eq_false] at hargs
    refine ⟨{ hf with exports := hfits }, ?_, rfl⟩
    refine (congrArg (fun exports => Accepts s.records _ { s.records with exports }) hadd).mpr ?_
    refine .addExport nodeId name kind hargs.1 hargs.2 (fun e he hkey => hdup ?_) hroom
    refine any_eq_true.mpr ⟨e, he, ?_⟩
    simpa [ExportRecord.key, nameEquals_iff] using hkey
  · exact .refuse (by simp)

theorem addImport_behaves {consumerNodeId providerNodeId flags : UInt32}
    {consumer provider : Option (List UInt8)} {kind : Option SymbolKind} :
    Behaves s (.addImport consumerNodeId consumer providerNodeId provider kind flags)
      (addImport s consumerNodeId consumer providerNodeId provider kind flags allocated) := by
  unfold addImport
  split
  · rename_i consumer provider kind
    refine .unless (by simp) fun hargs => .unless (by simp) fun hdup =>
      ⟨fun h => congrArg (fun imports => { s with imports }) (Table.add_refused h),
        fun hf _ h => ?_⟩
    obtain ⟨hfits, hadd, hroom⟩ := hf.imports.add (by decide) h
    simp only [not_or, not_not, Bool.not_eq_false] at hargs
    refine ⟨{ hf with imports := hfits }, ?_, rfl⟩
    refine (congrArg (fun imports => Accepts s.records _ { s.records with imports }) hadd).mpr ?_
    refine .addImport consumerNodeId consumer providerNodeId provider kind flags hargs.1 hargs.2.1
      hargs.2.2.1 hargs.2.2.2 (fun i hi hkey => hdup ?_) hroom
    refine any_eq_true.mpr ⟨i, hi, ?_⟩
    simpa [ImportRecord.key, nameEquals_iff] using hkey
  · exact .refuse (by simp)

theorem addResource_behaves {slotId minimum maximum flags : UInt32} {type : Option ResourceType}
    {digest : Option (List UInt8)} {required rights : UInt64} :
    Behaves s (.addResource slotId type digest minimum maximum required rights flags)
      (addResource s slotId type digest minimum maximum required rights flags allocated) := by
  unfold addResource
  split
  · rename_i type digest
    refine .unless (by simp) fun hargs => .unless (by simp) fun hzero =>
      .unless (by simp) fun hvalid => .unless (by simp) fun hdup =>
      ⟨fun h => congrArg (fun resources => { s with resources }) (Table.add_refused h),
        fun hf _ h => ?_⟩
    obtain ⟨hfits, hadd, hroom⟩ := hf.resources.add (by decide) h
    simp only [not_or, not_not, Bool.not_eq_true] at hargs hzero
    refine ⟨{ hf with resources := hfits }, ?_, rfl⟩
    refine (congrArg (fun resources => Accepts s.records _ { s.records with resources }) hadd).mpr ?_
    refine .addResource ⟨digest, required, rights, slotId, type, minimum, maximum, flags⟩
      (resourceValid_iff.mpr ⟨hargs.1, ⟨hargs.2.1, hzero⟩, hargs.2.2, Bool.not_eq_false _ ▸ hvalid⟩)
      (fun x hx hid => hdup ?_) hroom
    exact any_eq_true.mpr ⟨x, hx, beq_iff_eq.mpr hid⟩
  · exact .refuse (by simp)

theorem bindResource_behaves {slotId : UInt32} :
    Behaves s (.bindResource slotId nodeId) (bindResource s slotId nodeId allocated) := by
  refine .unless (by simp) fun hzero => .unless (by simp) fun hdup =>
    ⟨fun h => congrArg (fun resourceBindings => { s with resourceBindings }) (Table.add_refused h),
      fun hf _ h => ?_⟩
  obtain ⟨hfits, hadd, hroom⟩ := hf.resourceBindings.add (by decide) h
  simp only [not_or] at hzero
  refine ⟨{ hf with resourceBindings := hfits }, ?_, rfl⟩
  refine (congrArg (fun resourceBindings => Accepts s.records _ { s.records with resourceBindings })
    hadd).mpr ?_
  refine .bindResource ⟨slotId, nodeId⟩ ⟨hzero.1, hzero.2⟩ (fun b hb hkey => hdup ?_) hroom
  refine any_eq_true.mpr ⟨b, hb, ?_⟩
  simpa [ResourceBindingRecord.key] using hkey

theorem perform_behaves : Behaves s call (perform s call allocated) := by
  cases call with
  | addArtifact => exact addArtifact_behaves
  | setLifecycle => exact setLifecycle_behaves
  | setNativeLifecycle => exact setNativeLifecycle_behaves
  | markRoot => exact markRoot_behaves
  | addDependency => exact addDependency_behaves
  | addExport => exact addExport_behaves
  | addImport => exact addImport_behaves
  | addResource => exact addResource_behaves
  | bindResource => exact bindResource_behaves

theorem perform_accepted (hf : s.Fits) (hs : s.records.Sound) {r : Records}
    (h : Accepts s.records call r) : (perform s call true).1 = .ok := by
  cases h with
  | addArtifact nodeId kind digest name hid hdigest hname hnew hroom =>
    have hdup : ¬(s.artifacts.records.any fun record =>
        record.nodeId == nodeId || nameEquals record.namespaceName name) = true := by
      simp only [any_eq_true, Bool.or_eq_true, beq_iff_eq, nameEquals_iff, not_exists,
        not_and, not_or]
      exact hnew
    simp only [perform, addArtifact, hdigest.size, hdigest.nonzero, hname, hid, hdup]
    exact hf.artifacts.add_ok hroom (by decide) (by decide) _
  | setLifecycle nodeId init quiesce cleanup hid hinit hquiesce hcleanup hopen =>
    obtain ⟨a, ha, hnode, hset⟩ := hopen
    have hfind := (findArtifact_iff hs).mpr ⟨ha, hnode⟩
    simp [perform, setLifecycle, hid, hinit, hquiesce, hcleanup, hfind, hset]
  | setNativeLifecycle nodeId hid hopen =>
    obtain ⟨a, ha, hnode, hset⟩ := hopen
    have hfind := (findArtifact_iff hs).mpr ⟨ha, hnode⟩
    simp [perform, setNativeLifecycle, hid, hfind, hset]
  | markRoot nodeId hid hopen =>
    obtain ⟨a, ha, hnode, hkind, hroot⟩ := hopen
    have hfind := (findArtifact_iff hs).mpr ⟨ha, hnode⟩
    simp [perform, markRoot, hid, hfind, hkind, hroot]
  | addDependency d hvalid hnew hroom =>
    have hdup : ¬hasDependency s d.consumerNodeId d.providerNodeId = true := by
      intro hany
      obtain ⟨d', hd', hkey⟩ := any_eq_true.mp hany
      exact hnew d' hd' (by simpa [DependencyRecord.key] using hkey)
    simp only [perform, addDependency, hvalid.consumer, hvalid.provider, hvalid.noLoop, hdup]
    exact hf.dependencies.add_ok hroom (by decide) (by decide) _
  | addExport nodeId name kind hid hname hnew hroom =>
    have hdup : ¬(s.exports.records.any fun record =>
        record.nodeId == nodeId && nameEquals record.symbol name) = true := by
      intro hany
      obtain ⟨e, he, hkey⟩ := any_eq_true.mp hany
      exact hnew e he (by simpa [ExportRecord.key, nameEquals_iff] using hkey)
    simp only [perform, addExport, hid, hname, hdup]
    exact hf.exports.add_ok hroom (by decide) (by decide) _
  | addImport consumerNodeId consumer providerNodeId provider kind flags hid hconsumer hprovider
      hflags hnew hroom =>
    have hdup : ¬(s.imports.records.any fun record =>
        record.consumerNodeId == consumerNodeId && nameEquals record.consumerSymbol consumer) =
          true := by
      intro hany
      obtain ⟨i, hi, hkey⟩ := any_eq_true.mp hany
      exact hnew i hi (by simpa [ImportRecord.key, nameEquals_iff] using hkey)
    simp only [perform, addImport, hid, hconsumer, hprovider, hflags, hdup]
    exact hf.imports.add_ok hroom (by decide) (by decide) _
  | addResource x hvalid hnew hroom =>
    have hdup : ¬(s.resources.records.any fun record => record.slotId == x.slotId) = true := by
      intro hany
      obtain ⟨y, hy, hid⟩ := any_eq_true.mp hany
      exact hnew y hy (beq_iff_eq.mp hid)
    have hchecks := (resourceValid_iff.mp hvalid).2.2.2
    simp only [perform, addResource, hvalid.slotId, hvalid.digest.size, hvalid.digest.nonzero,
      hvalid.flags, hchecks, hdup]
    exact hf.resources.add_ok hroom (by decide) (by decide) _
  | bindResource b hvalid hnew hroom =>
    have hdup : ¬(s.resourceBindings.records.any fun record =>
        record.slotId == b.slotId && record.nodeId == b.nodeId) = true := by
      intro hany
      obtain ⟨b', hb', hkey⟩ := any_eq_true.mp hany
      exact hnew b' hb' (by simpa [ResourceBindingRecord.key] using hkey)
    simp only [perform, bindResource, hvalid.slotId, hvalid.nodeId, hdup]
    exact hf.resourceBindings.add_ok hroom (by decide) (by decide) _

end

/-- What holds of the storage of a builder. -/
structure Storage.Wellformed (s : Storage) : Prop where
  fits : s.Fits
  sound : s.records.Sound

theorem Storage.wellformed_created (digest : List UInt8) : (Storage.created digest).Wellformed :=
  ⟨Storage.fits_created digest, Records.sound_empty⟩

/-- The runs start at what `create` returns. -/
theorem create_eq_some {manifestDigest : Option (List UInt8)} {allocated : Bool} :
    (create manifestDigest allocated).2 = some s ↔ ∃ digest, manifestDigest = some digest ∧
      digest.length = digestSize ∧ digestIsZero digest = false ∧ allocated = true ∧
      s = .created digest := by
  unfold create
  cases manifestDigest with
  | none => simp
  | some digest =>
    dsimp only
    split_ifs with hlength hzero hallocated
    · simp [hlength]
    · simp [hzero]
    · simp [hallocated]
    · simp only [Option.some.injEq, exists_eq_left', not_not.mp hlength,
        Bool.eq_false_iff.mpr hzero, eq_true_of_ne_false hallocated, true_and, eq_comm]

theorem Storage.wellformed_of_create {manifestDigest : Option (List UInt8)} {allocated : Bool}
    (h : (create manifestDigest allocated).2 = some s) : s.Wellformed := by
  obtain ⟨digest, -, -, -, -, rfl⟩ := create_eq_some.mp h
  exact wellformed_created digest

theorem Storage.Wellformed.perform (h : s.Wellformed) (call : Call) (allocated : Bool) :
    (Closure.perform s call allocated).2.Wellformed := by
  by_cases hok : (Closure.perform s call allocated).1 = .ok
  · have hperformed := perform_behaves.ok h.fits h.sound hok
    exact ⟨hperformed.fits, h.sound.accepts hperformed.accepts⟩
  · rwa [perform_behaves.refused hok]

theorem Storage.Wellformed.run (h : s.Wellformed) (calls : List (Call × Bool)) :
    (Closure.run s calls).Wellformed := by
  induction calls generalizing s with
  | nil => exact h
  | cons c rest ih => exact ih (h.perform c.1 c.2)

/-- After any calls on a created builder, with an allocator that may fail at each of them,
the records are sound and the tables keep to their maxima. A further call that returns OK
adds or rewrites the record it names and no other; one that does not changes nothing. -/
theorem builder_invariant (digest : List UInt8) (calls : List (Call × Bool)) :
    let s := run (.created digest) calls
    s.records.Sound ∧ s.Fits ∧
      ∀ call allocated,
        ((perform s call allocated).1 = .ok →
          Accepts s.records call (perform s call allocated).2.records) ∧
        ((perform s call allocated).1 ≠ .ok → (perform s call allocated).2 = s) := by
  intro s
  have hs : s.Wellformed := (Storage.wellformed_created digest).run calls
  refine ⟨hs.sound, hs.fits, fun call allocated => ⟨fun hok => ?_, perform_behaves.refused⟩⟩
  exact (perform_behaves.ok hs.fits hs.sound hok).accepts

end Kobox.Closure
