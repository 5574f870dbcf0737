import Kobox.Grant.Authority
import Kobox.Manifest.Packaging

/-!
# Grants for sealed closures
-/

namespace Kobox.Grant
open ByteMemory Protocol List
variable {p : Manifest.Resource × SlotChoice}

/-! ### Choices -/

/-- An object to be granted, with the roles of its handles. -/
structure ObjectChoice where
  objectId : UInt64
  grantedRights : UInt64
  roles : List UInt32
  deriving DecidableEq

/-- What is granted to a slot. -/
inductive SlotChoice where
  | absent
  | present (objects : List ObjectChoice)
  deriving DecidableEq

namespace SlotChoice

def objects : SlotChoice → List ObjectChoice
  | absent => []
  | present objects => objects

def state : SlotChoice → UInt32
  | absent => stateAbsent
  | present _ => statePresent

theorem state_le (choice : SlotChoice) : choice.state ≤ statePresent := by
  cases choice with
  | absent => exact (by decide : stateAbsent ≤ statePresent)
  | present objects => exact UInt32.le_refl statePresent

end SlotChoice

def chosenObjects (choices : List (Manifest.Resource × SlotChoice)) :
    List (UInt32 × ObjectChoice) :=
  choices.flatMap fun p => p.2.objects.map fun object => (p.1.slotId, object)

def chosenHandles (choices : List (Manifest.Resource × SlotChoice)) : List (UInt64 × UInt32) :=
  (chosenObjects choices).flatMap fun entry => entry.2.roles.map fun role =>
    (entry.2.objectId, role)

def chosen (generation : UInt64) (closureManifestDigest : Digest)
    (choices : List (Manifest.Resource × SlotChoice)) : Source where
  generation
  closureManifestDigest
  slots := choices.map fun p => ⟨p.1.slotId, p.1.type, p.2.state, p.1.interfaceSchemaDigest⟩
  objects := (chosenObjects choices).map fun entry =>
    ⟨entry.1, entry.2.objectId, entry.2.grantedRights⟩
  handleBindings := (chosenHandles choices).zipIdx.map fun entry =>
    ⟨entry.1.1, entry.1.2, .ofNat entry.2⟩

/-- The choices are within what the resources declare. -/
structure Admissible (choices : List (Manifest.Resource × SlotChoice)) : Prop where
  absent : ∀ p ∈ choices, p.2 = .absent → p.1.flags &&& flagRequired = 0
  present : ∀ p ∈ choices, ∀ objects, p.2 = .present objects → objects ≠ [] ∧
    p.1.minimumCount.toNat ≤ objects.length ∧ objects.length ≤ p.1.maximumCount.toNat
  rights : ∀ p ∈ choices, ∀ object ∈ p.2.objects, object.grantedRights ≠ 0 ∧
    RightsWithin p.1 object.grantedRights
  objectIds : ∀ entry ∈ chosenObjects choices, entry.2.objectId ≠ 0
  ascending : (chosenObjects choices).Pairwise fun a b => a.2.objectId < b.2.objectId
  roles : ∀ entry ∈ chosenObjects choices, entry.2.roles.Pairwise (· < ·)

/-- What a grant asks of the resources of a manifest. -/
structure Grantable (resources : List Manifest.Resource) : Prop where
  ascending : resources.Pairwise fun a b => a.slotId < b.slotId
  slotId : ∀ r ∈ resources, r.slotId ≠ 0
  type : ∀ r ∈ resources, r.type ≤ resourceTypeMax
  digest : ∀ r ∈ resources, digestIsZero r.interfaceSchemaDigest = false
  rights : ∀ r ∈ resources, r.maximumRights &&& ~~~knownRights r.type = 0

theorem rights_trans {granted maximum known : UInt64} (h : granted &&& ~~~maximum = 0)
    (h' : maximum &&& ~~~known = 0) : granted &&& ~~~known = 0 := by
  rw [← UInt64.toBitVec_inj] at *
  apply BitVec.eq_of_getLsbD_eq
  intro i hi
  have hgranted := congrArg (fun x => x.getLsbD i) h
  have hmaximum := congrArg (fun x => x.getLsbD i) h'
  simp only [UInt64.toBitVec_and, UInt64.toBitVec_not, BitVec.getLsbD_and, BitVec.getLsbD_not,
    hi] at hgranted hmaximum ⊢
  cases hx : granted.toBitVec.getLsbD i <;> cases hy : maximum.toBitVec.getLsbD i <;> simp_all

/-! ### The choices as a source -/

section Chosen
variable {generation : UInt64} {digest : Digest} {choices : List (Manifest.Resource × SlotChoice)}

theorem mem_chosenObjects {entry : UInt32 × ObjectChoice} :
    entry ∈ chosenObjects choices ↔
      ∃ p ∈ choices, p.1.slotId = entry.1 ∧ entry.2 ∈ p.2.objects := by
  simp only [chosenObjects, mem_flatMap, mem_map]
  refine exists_congr fun p => and_congr_right fun _ => ?_
  constructor
  · rintro ⟨object, hobject, rfl⟩
    exact ⟨rfl, hobject⟩
  · rintro ⟨hid, hobject⟩
    exact ⟨entry.2, hobject, Prod.ext hid rfl⟩

variable (hgrantable : Grantable (choices.map Prod.fst))
include hgrantable

theorem choices_ascending : choices.Pairwise fun p q => p.1.slotId < q.1.slotId := by
  have hascending := hgrantable.ascending
  rw [pairwise_map] at hascending
  exact hascending

theorem choice_inj {q : Manifest.Resource × SlotChoice} (hp : p ∈ choices) (hq : q ∈ choices)
    (hid : p.1.slotId = q.1.slotId) : p = q := by
  have hnodup : (choices.map fun p => p.1.slotId).Nodup :=
    pairwise_map.mpr ((choices_ascending hgrantable).imp UInt32.ne_of_lt)
  exact inj_on_of_nodup_map hnodup hp hq hid

theorem countP_chosenObjects (hp : p ∈ choices) :
    ((chosenObjects choices).countP fun entry => entry.1 = p.1.slotId) = p.2.objects.length := by
  obtain ⟨before, after, rfl⟩ := append_of_mem hp
  have hascending := choices_ascending hgrantable
  rw [pairwise_append, pairwise_cons] at hascending
  obtain ⟨-, ⟨hafter, -⟩, hbefore⟩ := hascending
  have hnone {l : List (Manifest.Resource × SlotChoice)}
      (hl : ∀ q ∈ l, q.1.slotId ≠ p.1.slotId) :
      ((chosenObjects l).countP fun entry => entry.1 = p.1.slotId) = 0 := by
    refine countP_eq_zero.mpr fun entry hentry => ?_
    obtain ⟨q, hq, hid, -⟩ := mem_chosenObjects.mp hentry
    rw [decide_eq_true_eq, ← hid]
    exact hl q hq
  have hsplit : chosenObjects (before ++ p :: after) = chosenObjects before ++
      (p.2.objects.map (fun object => (p.1.slotId, object)) ++ chosenObjects after) := by
    simp only [chosenObjects, flatMap_append, flatMap_cons]
  have hown : ((p.2.objects.map fun object => (p.1.slotId, object)).countP fun entry =>
      entry.1 = p.1.slotId) = p.2.objects.length := by
    rw [countP_map]
    exact countP_eq_length.mpr fun _ _ => decide_eq_true rfl
  rw [hsplit, countP_append, countP_append, hown,
    hnone fun q hq => UInt32.ne_of_lt (hbefore q hq p mem_cons_self),
    hnone fun q hq => (UInt32.ne_of_lt (hafter q hq)).symm]
  omega

theorem objectsOf_chosen (hp : p ∈ choices) :
    objectsOf (chosen generation digest choices).objects p.1.slotId = p.2.objects.length := by
  rw [← countP_chosenObjects hgrantable hp, objectsOf, Runs.size, chosen, map_map,
    countP_map]
  refine countP_congr fun entry _ => ?_
  simp only [Function.comp_apply, decide_eq_true_eq, UInt32.toNat_inj]

variable (hadmissible : Admissible choices)
include hadmissible

theorem rightsKnown_chosen (hp : p ∈ choices) {object : ObjectChoice}
    (hobject : object ∈ p.2.objects) :
    rightsKnown p.1.type object.grantedRights = true := by
  obtain ⟨hnonzero, -, hmaximum⟩ := hadmissible.rights p hp object hobject
  have hknown := hgrantable.rights p.1 (mem_map_of_mem hp)
  have hwithin := rights_trans hmaximum hknown
  have hsome : knownRights p.1.type ≠ 0 := by
    intro hzero
    rw [hzero] at hwithin
    exact hnonzero (by simpa using hwithin)
  simp [rightsKnown, hwithin, hsome]

theorem chosen_objects_granted {object : ObjectSource}
    (hobject : object ∈ (chosen generation digest choices).objects) :
    object.Valid ∧ Granted (chosen generation digest choices).slots object := by
  obtain ⟨entry, hentry, rfl⟩ := mem_map.mp hobject
  obtain ⟨p, hp, hid, hchosen⟩ := mem_chosenObjects.mp hentry
  have hslotId := hgrantable.slotId p.1 (mem_map_of_mem hp)
  refine ⟨⟨hid ▸ hslotId, hadmissible.objectIds entry hentry,
    (hadmissible.rights p hp entry.2 hchosen).1⟩, _, mem_map_of_mem hp, hid, ?_,
    rightsKnown_chosen hgrantable hadmissible hp hchosen⟩
  obtain ⟨resource, choice⟩ := p
  cases choice with
  | absent => cases hchosen
  | present objects => rfl

omit hgrantable in
theorem chosenHandles_ascending : (chosenHandles choices).Pairwise Precedes := by
  refine pairwise_flatMap.mpr ⟨fun entry hentry => ?_, ?_⟩
  · refine pairwise_map.mpr ((hadmissible.roles entry hentry).imp fun hlt => ?_)
    exact .inr ⟨rfl, hlt⟩
  · refine hadmissible.ascending.imp fun {a b} hlt x hx y hy => ?_
    obtain ⟨role, -, rfl⟩ := mem_map.mp hx
    obtain ⟨role', -, rfl⟩ := mem_map.mp hy
    exact .inl hlt

theorem chosen_ruled (hlimit : (chosenHandles choices).length ≤ 65536) :
    Ruled (chosen generation digest choices).slots (chosen generation digest choices).objects
      (chosen generation digest choices).handleBindings where
  slotsValid := by
    intro slot hslot
    obtain ⟨p, hp, rfl⟩ := List.mem_map.mp hslot
    have hresource : p.1 ∈ choices.map Prod.fst := List.mem_map_of_mem hp
    exact ⟨hgrantable.slotId _ hresource, hgrantable.type _ hresource, p.2.state_le,
      hgrantable.digest _ hresource⟩
  slotsAscending := by
    rw [chosen, List.map_map, List.pairwise_map]
    exact (choices_ascending hgrantable).imp fun hlt => UInt32.lt_iff_toNat_lt.mp hlt
  objectsGranted _ hobject := chosen_objects_granted hgrantable hadmissible hobject
  objectsOrdered := by
    rw [chosen, List.map_map, List.pairwise_map, chosenObjects]
    refine List.pairwise_flatMap.mpr ⟨fun p _ => ?_, ?_⟩
    · exact List.pairwise_map.mpr (List.pairwise_of_forall fun _ _ => le_refl _)
    · refine (choices_ascending hgrantable).imp fun {p q} hlt x hx y hy => ?_
      obtain ⟨object, -, rfl⟩ := List.mem_map.mp hx
      obtain ⟨object', -, rfl⟩ := List.mem_map.mp hy
      exact (UInt32.lt_iff_toNat_lt.mp hlt).le
  objectsAscending := by
    rw [chosen, List.map_map, List.pairwise_map]
    exact hadmissible.ascending.imp fun hlt => UInt64.lt_iff_toNat_lt.mp hlt
  bindingsOwned := by
    intro binding hbinding
    obtain ⟨handle, hhandle, rfl⟩ := List.mem_map.mp hbinding
    obtain ⟨entry, hentry, hrole⟩ := List.mem_flatMap.mp (List.fst_mem_of_mem_zipIdx hhandle)
    obtain ⟨role, -, heq⟩ := List.mem_map.mp hrole
    rw [← heq]
    exact ⟨hadmissible.objectIds entry hentry, _, List.mem_map_of_mem hentry, rfl⟩
  indices := by
    rintro ⟨binding, index⟩ hentry
    have hget := List.mem_zipIdx_iff_getElem?.mp hentry
    simp only [chosen, List.getElem?_map, List.getElem?_zipIdx, Option.map_map,
      Option.map_eq_some_iff, Nat.zero_add] at hget
    obtain ⟨handle, hhandle, rfl⟩ := hget
    obtain ⟨hlt, -⟩ := List.getElem?_eq_some_iff.mp hhandle
    exact UInt32.toNat_ofNat_of_lt' ((hlt.trans_le hlimit).trans (by decide))
  bindingsAscending := by
    have hkeys : (chosen generation digest choices).handleBindings.map HandleBinding.key =
        chosenHandles choices := by
      rw [chosen, List.map_map]
      exact List.zipIdx_map_fst 0 _
    rw [hkeys]
    exact chosenHandles_ascending hadmissible

theorem chosen_valid (hgeneration : generation ≠ 0) (hdigest : digestIsZero digest = false)
    (hlimits : ∀ t, (chosen generation digest choices).count t ≤ t.limit) :
    (chosen generation digest choices).Valid := by
  have hhandles := hlimits .handleBindings
  simp only [Source.count, chosen, length_map, length_zipIdx, Section.limit] at hhandles
  refine ⟨hgeneration, hdigest, hlimits, chosen_ruled hgrantable hadmissible hhandles, ?_⟩
  intro slot hslot
  obtain ⟨p, hp, rfl⟩ := mem_map.mp hslot
  rw [objectsOf_chosen hgrantable hp]
  cases hchoice : p.2 with
  | absent => exact ⟨fun _ => rfl, by rintro ⟨⟩⟩
  | present objects =>
    have hsome := (hadmissible.present p hp objects hchoice).1
    exact ⟨by rintro ⟨⟩, fun _ => length_eq_zero_iff.not.mpr hsome⟩

theorem chosen_meets (hvalid : (chosen generation digest choices).Valid) :
    List.Forall₂ (Slot.Meets (chosen generation digest choices).contents.objects)
      (chosen generation digest choices).contents.slots (choices.map Prod.fst) := by
  have hsource := (chosen generation digest choices).contents_source
  have hranged := (chosen generation digest choices).contents_ranged hvalid.limits
  have hcover := slotsCover (hsource.symm ▸ hvalid) hranged
  have hslots : (chosen generation digest choices).contents.slots = choices.map fun p =>
      SlotSource.placed (chosen generation digest choices).objects
        ⟨p.1.slotId, p.1.type, p.2.state, p.1.interfaceSchemaDigest⟩ := map_map
  rw [hslots, forall₂_map_left_iff, forall₂_map_right_iff, forall₂_same]
  intro p hp
  have hslot : SlotSource.placed (chosen generation digest choices).objects
      ⟨p.1.slotId, p.1.type, p.2.state, p.1.interfaceSchemaDigest⟩ ∈
      (chosen generation digest choices).contents.slots := hslots ▸ mem_map_of_mem hp
  obtain ⟨-, hcount⟩ := hranged.slots _ hslot
  rw [hsource, show SlotSource.slotId _ = p.1.slotId from rfl,
    objectsOf_chosen hgrantable hp] at hcount
  refine ⟨rfl, rfl, rfl, fun habsent => ?_, fun hpresent => ?_⟩
  · cases hchoice : p.2 with
    | absent => exact hadmissible.absent p hp hchoice
    | present objects =>
      rw [hchoice] at habsent
      cases habsent
  · cases hchoice : p.2 with
    | absent =>
      rw [hchoice] at hpresent
      exact absurd rfl hpresent
    | present objects =>
      obtain ⟨-, hmin, hmax⟩ := hadmissible.present p hp objects hchoice
      rw [hchoice] at hcount hslot
      refine ⟨?_, ?_, fun i hi => ?_⟩
      · rw [UInt32.le_iff_toNat_le, hcount]
        exact hmin
      · rw [UInt32.le_iff_toNat_le, hcount]
        exact hmax
      · -- what stands in the range of the slot was chosen for the slot
        have hrun := hcover.run (mem_map_of_mem (f := Slot.range) hslot) hi
        rw [getElem?_map] at hrun
        obtain ⟨object, hobject, hid⟩ := Option.map_eq_some_iff.mp hrun
        refine ⟨object, hobject, ?_⟩
        obtain ⟨source, hlisted, rfl⟩ := mem_map.mp (mem_of_getElem? hobject)
        obtain ⟨entry, hentry, rfl⟩ := mem_map.mp hlisted
        obtain ⟨q, hq, hqid, hchosen⟩ := mem_chosenObjects.mp hentry
        obtain rfl := choice_inj hgrantable hp hq
          ((UInt32.toNat_inj.mp hid).symm.trans hqid.symm)
        exact (hadmissible.rights p hp entry.2 hchosen).2

end Chosen

theorem knownRights_code (type : Closure.ResourceType) :
    knownRights (Manifest.resourceTypeCode type) = Closure.knownResourceRights type := by
  cases type <;> decide

theorem grantable_pack {r : Closure.Records} (hs : r.Sound)
    (hascending : r.resources.Pairwise fun a b => a.slotId < b.slotId)
    (contentSize : UInt32 → UInt64) :
    Grantable (Manifest.pack contentSize r).resources where
  ascending := pairwise_map.mpr hascending
  slotId := forall_mem_map.mpr fun x hx => (hs.resources.valid x hx).slotId
  type := forall_mem_map.mpr fun x _ => by
    simp only [Manifest.packResource]
    cases x.type <;> decide
  digest := forall_mem_map.mpr fun x hx => by
    have hdigest := (hs.resources.valid x hx).digest
    rw [digestIsZero, Manifest.packResource, Manifest.digestOf_bytes hdigest]
    exact hdigest.nonzero
  rights := forall_mem_map.mpr fun x hx => by
    rw [Manifest.packResource, knownRights_code]
    exact (hs.resources.valid x hx).known

/-- Every admissible choice for the slots of a sealed closure is encoded as a grant, and the
grant is decoded and validated against the manifest of the closure. -/
theorem sealed_closure_grantable (qsort : Closure.Qsort) (grants : ℕ → Bool)
    (digest : List UInt8) (calls : List (Closure.Call × Bool)) (closure : Closure.Storage)
    (hseal : Closure.builderSeal qsort grants (Closure.run (.created digest) calls) = .ok closure)
    (contentSize : UInt32 → UInt64)
    (hsizes : ∀ a ∈ closure.records.artifacts, contentSize a.nodeId ≠ 0)
    (manifestBuffer manifest : List UInt8) (manifestSize : ℕ)
    (hmanifest : Manifest.encode manifestBuffer (Manifest.pack contentSize closure.records) =
      .ok (manifest, manifestSize))
    (hdigest : digestIsZero (sha256 (manifest.take manifestSize)) = false)
    (generation : UInt64) (hgeneration : generation ≠ 0)
    (choices : List (Manifest.Resource × SlotChoice))
    (hchoices : choices.map Prod.fst = (Manifest.pack contentSize closure.records).resources)
    (hadmissible : Admissible choices)
    (hlimits : ∀ t, (chosen generation (sha256 (manifest.take manifestSize)) choices).count t ≤
      t.limit) :
    ∃ size, ∀ buffer : List UInt8, size ≤ buffer.length →
      ∃ bytes, encode buffer (chosen generation (sha256 (manifest.take manifestSize)) choices) =
          .ok (bytes, size) ∧
        ∀ out manifestOut, (decode (some (bytes.take size)) out).1 = .ok ∧
          (Manifest.decode (some (manifest.take manifestSize)) manifestOut).1 = .ok ∧
          validateManifest (decode (some (bytes.take size)) out).2
            (Manifest.decode (some (manifest.take manifestSize)) manifestOut).2 = .ok := by
  have hsealed :=
    Manifest.sealed_records ((Closure.Storage.wellformed_created digest).run calls) hseal
  have hgrantable : Grantable (choices.map Prod.fst) :=
    hchoices ▸ grantable_pack hsealed.sound hsealed.resources_ascending contentSize
  have hvalid := chosen_valid hgrantable hadmissible hgeneration hdigest hlimits
  refine ⟨(chosen generation (sha256 (manifest.take manifestSize)) choices).contents.size,
    fun buffer hfits => ?_⟩
  have hencode := encode_eq_ok.mpr ⟨hvalid, rfl, hfits, rfl⟩
  have hrepresents := (represents_iff_encode hencode).mp rfl
  refine ⟨_, hencode, fun out manifestOut => ?_⟩
  obtain ⟨haccepted, tables, htables, hread⟩ := (Manifest.encoded_of_encode hmanifest).decode_ok
    (Manifest.valid_pack hsealed.sound hsealed.sealable contentSize hsizes
      hsealed.artifacts_ascending) manifestOut
  have hresources : tables.resources = choices.map Prod.fst :=
    (congrArg Manifest.Tables.resources hread).trans hchoices.symm
  have hmeets := chosen_meets hgrantable hadmissible hvalid
  rw [← hresources] at hmeets
  exact ⟨decode_ok_iff.mpr ⟨_, hvalid, hrepresents⟩, haccepted,
    hrepresents.validate hvalid haccepted htables rfl hmeets out⟩

namespace Sample

def calls : List (Closure.Call × Bool) :=
  [(.addArtifact 1 (some .relocatableModule) (some digest.bytes) (some [109]), true),
    (.addExport 1 (some [102]) (some .function), true),
    (.setLifecycle 1 (some [102]) (some [102]) (some [102]), true), (.markRoot 1, true),
    (.addResource 9 (some .notification) (some digest.bytes) 1 1 1 3 1, true),
    (.addResource 7 (some .memory) (some digest.bytes) 1 2 1 3 1, true),
    (.addResource 8 (some .channel) (some digest.bytes) 1 1 1 3 0, true),
    (.bindResource 8 1, true), (.bindResource 7 1, true), (.bindResource 9 1, true)]

def storage : Closure.Storage := Closure.run (.created digest.bytes) calls

theorem wellformed : storage.Wellformed :=
  (Closure.Storage.wellformed_created digest.bytes).run calls

theorem validates : (Closure.validateStorage storage fun _ => true).1 = .ok := by decide +kernel

theorem sealable : storage.records.Sealable := by
  by_contra hnot
  have hrefused := (Closure.validateStorage_decides wellformed).refused hnot
  rw [validates] at hrefused
  cases hrefused

theorem packed : Manifest.pack (fun _ => 1)
    (storage.records.sealed .insertion storage.manifestDigest).records = manifestSource := by
  decide +kernel

def choices : List (Manifest.Resource × SlotChoice) :=
  [(⟨7, 0, 1, 2, 1, 3, 1, digest⟩, .present [⟨1, 1, [0, 4]⟩, ⟨2, 3, []⟩]),
    (⟨8, 4, 1, 1, 1, 3, 0, digest⟩, .absent),
    (⟨9, 3, 1, 1, 1, 3, 1, digest⟩, .present [⟨5, 1, [0]⟩])]

theorem admissible : Admissible choices where
  absent := by simp [choices]
  present := by simp [choices]
  rights := by
    unfold RightsWithin
    decide
  objectIds := by decide
  ascending := by decide
  roles := by decide

end Sample

theorem sealed_closure_grantable_of_sample : ∃ closure size,
    Closure.builderSeal .insertion (fun _ => true) Sample.storage = .ok closure ∧
    ∃ bytes, encode (List.replicate size 0)
        (chosen 1 (sha256 (Sample.manifest.take 485)) Sample.choices) = .ok (bytes, size) ∧
      validateManifest (decode (some (bytes.take size)) .zero).2
        (Manifest.decode (some (Sample.manifest.take 485)) .zero).2 = .ok := by
  have hseal := Closure.builderSeal_ok .insertion Sample.wellformed Sample.sealable
  have hmanifest := Sample.manifest_encoded
  rw [← Sample.packed] at hmanifest
  obtain ⟨size, hsize⟩ := sealed_closure_grantable .insertion (fun _ => true) Sample.digest.bytes
    Sample.calls _ hseal (fun _ => 1) (fun _ _ => by decide) _ _ _ hmanifest Sample.digest_nonzero
    1 (by decide) Sample.choices (by rw [Sample.packed]; rfl) Sample.admissible
    (fun t => by cases t <;> decide)
  obtain ⟨bytes, hencode, hdecode⟩ := hsize (List.replicate size 0) length_replicate.ge
  exact ⟨_, size, hseal, bytes, hencode, (hdecode .zero .zero).2.2⟩

end Kobox.Grant
