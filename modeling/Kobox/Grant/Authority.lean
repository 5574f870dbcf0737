import Kobox.Grant.Canonical
import Kobox.Manifest.RoundTrip
import Kobox.Protocol.Sha256
import Mathlib.Data.List.Nodup

/-!
# Grants against manifests (`kb2_resource_grant_validate_manifest`)
-/

namespace Kobox.Grant
open Protocol Listing List
variable {requirement : Manifest.Resource} {slot : Slot}

def flagRequired : UInt32 := 1

def rightsWithin (requirement : Manifest.Resource) (object : Object) : Bool :=
  !(object.grantedRights &&& requirement.requiredRights != requirement.requiredRights ||
    object.grantedRights &&& ~~~requirement.maximumRights != 0)

def validateSlot (grant : Grant) (requirement : Manifest.Resource) (slot : Slot) : Status :=
  if slot.slotId ≠ requirement.slotId ∨ slot.resourceType ≠ requirement.type ∨
      slot.interfaceSchemaDigest ≠ requirement.interfaceSchemaDigest then .schemaMismatch
  else if slot.state = stateAbsent then
    if requirement.flags &&& flagRequired ≠ 0 then .malformed else .ok
  else if slot.objectCount < requirement.minimumCount ∨
      slot.objectCount > requirement.maximumCount then .malformed
  else if (List.range slot.objectCount.toNat).all fun i =>
      passes (grant.objectAt (slot.objectStart.toNat + i)) (rightsWithin requirement) then .ok
  else .malformed

def validateSlots (grant : Grant) (manifest : Manifest) : List ℕ → Status
  | [] => .ok
  | index :: rest =>
    match manifest.resourceAt index, grant.slotAt index with
    | .ok requirement, .ok slot =>
      match validateSlot grant requirement slot with
      | .ok => validateSlots grant manifest rest
      | status => status
    | _, _ => .malformed

/-- `kb2_resource_grant_validate_manifest`. A NULL `bytes` is the empty list. -/
def validateManifest (grant : Grant) (manifest : Manifest) : Status :=
  if grant.bytes = [] ∨ manifest.bytes = [] then .invalidArgument
  else if grant.closureManifestDigest ≠ sha256 manifest.bytes then .schemaMismatch
  else if grant.counts .slots ≠ manifest.counts .resources then .malformed
  else validateSlots grant manifest (List.range (grant.counts .slots).toNat)

def RightsWithin (requirement : Manifest.Resource) (grantedRights : UInt64) : Prop :=
  grantedRights &&& requirement.requiredRights = requirement.requiredRights ∧
    grantedRights &&& ~~~requirement.maximumRights = 0

/-- A slot is what its requirement describes, as far as validation looks. -/
structure Slot.Meets (objects : List Object) (slot : Slot) (requirement : Manifest.Resource) :
    Prop where
  slotId : slot.slotId = requirement.slotId
  resourceType : slot.resourceType = requirement.type
  interfaceSchemaDigest : slot.interfaceSchemaDigest = requirement.interfaceSchemaDigest
  absent : slot.state = stateAbsent → requirement.flags &&& flagRequired = 0
  present : slot.state ≠ stateAbsent →
    requirement.minimumCount ≤ slot.objectCount ∧ slot.objectCount ≤ requirement.maximumCount ∧
      ∀ i < slot.objectCount.toNat, ∃ object, objects[slot.objectStart.toNat + i]? = some object ∧
        RightsWithin requirement object.grantedRights

theorem rightsWithin_iff {object : Object} :
    rightsWithin requirement object = true ↔ RightsWithin requirement object.grantedRights := by
  simp only [rightsWithin, Bool.not_eq_true', Bool.or_eq_false_iff, bne_eq_false_iff_eq,
    RightsWithin]

section Validation
variable {grant : Grant} {manifest : Manifest} {c : Contents}
  {tables : Manifest.Tables Manifest.Slice}

theorem validateSlot_eq_ok (hreads : grant.Reads c) :
    validateSlot grant requirement slot = .ok ↔ slot.Meets c.objects requirement := by
  have hobjects : ((List.range slot.objectCount.toNat).all fun i =>
      passes (grant.objectAt (slot.objectStart.toNat + i)) (rightsWithin requirement)) = true ↔
      ∀ i < slot.objectCount.toNat, ∃ object,
        c.objects[slot.objectStart.toNat + i]? = some object ∧
          RightsWithin requirement object.grantedRights := by
    simp only [all_eq_true, mem_range]
    refine forall₂_congr fun i _ => ?_
    rw [← toOption_access hreads.objectAt_iff]
    cases grant.objectAt (slot.objectStart.toNat + i) with
    | error status => simp [passes, Except.toOption]
    | ok object => simp [passes, Except.toOption, rightsWithin_iff]
  unfold validateSlot
  constructor
  · intro h
    split_ifs at h with hsame habsent hrequired hcount hrights
    all_goals simp only [not_or, not_not, ne_eq] at hsame
    · rw [not_ne_iff] at hrequired
      exact ⟨hsame.1, hsame.2.1, hsame.2.2, fun _ => hrequired, fun hn => absurd habsent hn⟩
    · simp only [not_or, UInt32.not_lt, gt_iff_lt] at hcount
      exact ⟨hsame.1, hsame.2.1, hsame.2.2, fun hn => absurd hn habsent,
        fun _ => ⟨hcount.1, hcount.2, hobjects.mp hrights⟩⟩
  · intro h
    rw [if_neg (by simp [h.slotId, h.resourceType, h.interfaceSchemaDigest])]
    by_cases habsent : slot.state = stateAbsent
    · rw [if_pos habsent, if_neg (not_not.mpr (h.absent habsent))]
    · obtain ⟨hmin, hmax, hrights⟩ := h.present habsent
      rw [if_neg habsent, if_neg (not_or.mpr ⟨UInt32.not_lt.mpr hmin, UInt32.not_lt.mpr hmax⟩),
        if_pos (hobjects.mpr hrights)]

theorem validateSlots_eq_ok {indices : List ℕ} :
    validateSlots grant manifest indices = .ok ↔
      ∀ index ∈ indices, ∃ requirement slot, manifest.resourceAt index = .ok requirement ∧
        grant.slotAt index = .ok slot ∧ validateSlot grant requirement slot = .ok := by
  induction indices with
  | nil => exact iff_of_true rfl nofun
  | cons index rest ih =>
    rw [forall_mem_cons, ← ih, validateSlots]
    cases manifest.resourceAt index with
    | error status => simp
    | ok requirement =>
      cases grant.slotAt index with
      | error status => simp
      | ok slot =>
        dsimp only
        cases hslot : validateSlot grant requirement slot <;> simp [hslot]

theorem forall₂_iff_getElem? {α β : Type} {R : α → β → Prop} {l : List α} {l' : List β} :
    List.Forall₂ R l l' ↔ l.length = l'.length ∧
      ∀ i < l.length, ∃ x y, l[i]? = some x ∧ l'[i]? = some y ∧ R x y := by
  rw [List.forall₂_iff_get]
  refine and_congr_right fun hlength => ?_
  constructor
  · intro h i hi
    exact ⟨l[i], l'[i], List.getElem?_eq_getElem hi, List.getElem?_eq_getElem (hlength ▸ hi),
      h i hi (hlength ▸ hi)⟩
  · intro h i hi hi'
    obtain ⟨x, y, hx, hy, hR⟩ := h i hi
    obtain ⟨_, rfl⟩ := List.getElem?_eq_some_iff.mp hx
    obtain ⟨_, rfl⟩ := List.getElem?_eq_some_iff.mp hy
    exact hR

theorem validateManifest_eq_ok (hreads : grant.Reads c) (htables : manifest.Reads tables)
    (hgrant : grant.bytes ≠ []) (hmanifest : manifest.bytes ≠ []) :
    validateManifest grant manifest = .ok ↔
      c.closureManifestDigest = sha256 manifest.bytes ∧
        List.Forall₂ (Slot.Meets c.objects) c.slots tables.resources := by
  have hresource {index : ℕ} {requirement : Manifest.Resource} :
      manifest.resourceAt index = .ok requirement ↔ tables.resources[index]? = some requirement :=
    access_iff htables.resources fun hread => (Manifest.resourceAt_eq_ok.mp hread).1
  have hlength : grant.counts .slots = manifest.counts .resources ↔
      c.slots.length = tables.resources.length := by
    rw [hreads.slots.length, htables.resources.length, UInt32.toNat_inj]
  have hslots : validateSlots grant manifest (List.range (grant.counts .slots).toNat) = .ok ↔
      ∀ i < c.slots.length, ∃ slot requirement, c.slots[i]? = some slot ∧
        tables.resources[i]? = some requirement ∧ slot.Meets c.objects requirement := by
    rw [validateSlots_eq_ok, hreads.slots.length]
    simp only [mem_range, hresource, hreads.slotAt_iff, validateSlot_eq_ok hreads]
    refine forall₂_congr fun i _ => ?_
    rw [exists_comm]
    simp only [and_left_comm]
  have hnull : ¬(grant.bytes = [] ∨ manifest.bytes = []) := not_or.mpr ⟨hgrant, hmanifest⟩
  rw [validateManifest, if_neg hnull, forall₂_iff_getElem?, ← hreads.closureManifestDigest,
    ← hslots, ← hlength]
  by_cases hdigest : grant.closureManifestDigest = sha256 manifest.bytes
  · rw [if_neg (not_not.mpr hdigest)]
    by_cases hcount : grant.counts .slots = manifest.counts .resources
    · rw [if_neg (not_not.mpr hcount)]
      simp only [hdigest, hcount, true_and]
    · rw [if_pos hcount]
      simp [hcount]
  · rw [if_pos hdigest]
    simp [hdigest]

end Validation

theorem Represents.validate {bytes manifestBytes : List UInt8} {source : Source}
    {manifestOut : Manifest} {tables : Manifest.Tables Manifest.Slice}
    (h : Represents bytes source.contents) (hvalid : source.Valid)
    (haccepted : (Manifest.decode (some manifestBytes) manifestOut).1 = .ok)
    (htables : (Manifest.decode (some manifestBytes) manifestOut).2.Reads tables)
    (hdigest : source.closureManifestDigest = sha256 manifestBytes)
    (hmeets : List.Forall₂ (Slot.Meets source.contents.objects) source.contents.slots
      tables.resources) (out : Grant) :
    validateManifest (decode (some bytes) out).2
      (Manifest.decode (some manifestBytes) manifestOut).2 = .ok := by
  have hreads := (h.decode_reads hvalid out source.contents).mpr rfl
  have hgrant : (decode (some bytes) out).2 = ofHeader bytes := by
    rw [decode, decodeBuffer_eq_ok.mpr ⟨rfl, source, hvalid, h⟩]
  have hmanifest := Manifest.decode_manifest haccepted
  have hbytes : (decode (some bytes) out).2.bytes ≠ [] := by
    rw [hgrant]
    intro hnil
    have hsize := h.size
    rw [show bytes = [] from hnil] at hsize
    have hheader := headerSize_le_tablesEnd source.contents.count
    exact absurd (hheader.trans (le_of_eq hsize.symm)) (by decide)
  have hmanifestBytes : (Manifest.decode (some manifestBytes) manifestOut).2.bytes ≠ [] := by
    rw [hmanifest]
    intro hnil
    rw [show manifestBytes = [] from hnil] at haccepted
    cases haccepted
  refine (validateManifest_eq_ok hreads htables hbytes hmanifestBytes).mpr ⟨?_, hmeets⟩
  rw [hmanifest]
  exact hdigest

/-- A slot gives what its requirement asks for. -/
structure Slot.Fulfils (c : Contents) (slot : Slot) (requirement : Manifest.Resource) : Prop where
  slotId : slot.slotId = requirement.slotId
  resourceType : slot.resourceType = requirement.type
  interfaceSchemaDigest : slot.interfaceSchemaDigest = requirement.interfaceSchemaDigest
  state : slot.state = stateAbsent ∨ slot.state = statePresent
  counted : slot.objectCount.toNat = c.objects.countP fun object => object.slotId = slot.slotId
  present : slot.state = statePresent →
    requirement.minimumCount ≤ slot.objectCount ∧ slot.objectCount ≤ requirement.maximumCount
  absent : slot.state = stateAbsent → requirement.flags &&& flagRequired = 0 ∧
    (∀ object ∈ c.objects, object.slotId ≠ slot.slotId) ∧
    ∀ binding ∈ c.handleBindings, ∀ object ∈ c.objects, object.objectId = binding.objectId →
      object.slotId ≠ slot.slotId
  rights : ∀ object ∈ c.objects, object.slotId = slot.slotId →
    RightsWithin requirement object.grantedRights ∧
      object.grantedRights &&& ~~~knownRights slot.resourceType = 0 ∧ object.grantedRights ≠ 0

/-- The grant is bound to the manifest by its digest and gives each resource what it asks for. No
object is outside a slot, and no handle outside an object. -/
structure Authorized (manifestBytes : List UInt8) (resources : List Manifest.Resource)
    (c : Contents) : Prop where
  digest : c.closureManifestDigest = sha256 manifestBytes
  slots : List.Forall₂ (Slot.Fulfils c) c.slots resources
  owned : ∀ object ∈ c.objects, ∃! index : ℕ, ∃ slot, c.slots[index]? = some slot ∧
    slot.slotId = object.slotId
  slotRanges : Runs.Covers (c.objects.map fun object => object.slotId.toNat)
    (c.slots.map Slot.range) 0
  objectIds : (c.objects.map fun object => object.objectId).Nodup
  handleRanges : Runs.Covers (c.handleBindings.map fun binding => binding.objectId.toNat)
    (c.objects.map Object.range) 0
  transfers : ∀ (index : ℕ) (binding : HandleBinding), c.handleBindings[index]? = some binding →
    binding.transferHandleIndex.toNat = index
  roles : c.handleBindings.Pairwise fun a b => a.objectId = b.objectId → a.role ≠ b.role

section Authorized
variable {c : Contents} {resources : List Manifest.Resource}

theorem slot_inj (h : c.source.Valid) {slot' : Slot} (hslot : slot ∈ c.slots)
    (hslot' : slot' ∈ c.slots) (hid : slot.slotId = slot'.slotId) : slot = slot' := by
  have hascending := h.ruled.slotsAscending
  rw [Contents.source, map_map] at hascending
  refine inj_on_of_nodup_map (hascending.imp ne_of_lt) hslot hslot' ?_
  exact congrArg UInt32.toNat hid

theorem slots_nodup (h : c.source.Valid) : c.slots.Nodup := by
  have hascending := h.ruled.slotsAscending
  rw [Contents.source, map_map] at hascending
  exact List.Nodup.of_map _ (hascending.imp ne_of_lt)

theorem countP_slot (objects : List Object) (slotId : UInt32) :
    objectsOf (objects.map Object.toObjectSource) slotId =
      objects.countP fun object => object.slotId = slotId := by
  rw [objectsOf, Runs.size, map_map, countP_map]
  refine countP_congr fun object _ => ?_
  simp only [Function.comp_apply, decide_eq_true_eq, UInt32.toNat_inj]

variable (hvalid : c.source.Valid) (hranged : c.Ranged)
include hvalid hranged

theorem slotsCover :
    Runs.Covers (c.objects.map fun object => object.slotId.toNat) (c.slots.map Slot.range) 0 := by
  have hslots := hvalid.ruled.slotsAscending
  have hobjects := hvalid.ruled.objectsOrdered
  rw [Contents.source, map_map] at hslots hobjects
  refine (Contents.slotsCover_iff hslots hobjects fun object hobject => ?_).mpr hranged.slots
  exact (hvalid.ruled.objectsGranted _ (mem_map_of_mem hobject)).2

theorem fulfils_of_meets (hslot : slot ∈ c.slots) (h : slot.Meets c.objects requirement) :
    slot.Fulfils c requirement := by
  have hsource := mem_map_of_mem (f := Slot.toSlotSource) hslot
  have hcount := (hranged.slots slot hslot).2
  rw [Contents.source, countP_slot] at hcount
  have hpopulated := hvalid.populated slot.toSlotSource hsource
  rw [show c.source.objects = c.objects.map Object.toObjectSource from rfl, countP_slot,
    ← hcount] at hpopulated
  -- an absent slot has no objects
  have hempty : slot.state = stateAbsent → ∀ object ∈ c.objects, object.slotId ≠ slot.slotId := by
    intro habsent object hobject
    have hzero := hcount.symm.trans (hpopulated.1 habsent)
    have hnone := countP_eq_zero.mp hzero object hobject
    simpa using hnone
  refine ⟨h.slotId, h.resourceType, h.interfaceSchemaDigest, ?_, hcount, fun hpresent => ?_,
    fun habsent => ?_, fun object hobject hid => ?_⟩
  · have hstate := (hvalid.ruled.slotsValid _ hsource).state
    have hle : slot.state.toNat ≤ 1 := UInt32.le_iff_toNat_le.mp hstate
    rw [← UInt32.toNat_inj, ← UInt32.toNat_inj]
    exact Nat.le_one_iff_eq_zero_or_eq_one.mp hle
  · have hne : slot.state ≠ stateAbsent := by
      rw [hpresent]
      decide
    obtain ⟨hmin, hmax, -⟩ := h.present hne
    exact ⟨hmin, hmax⟩
  · exact ⟨h.absent habsent, hempty habsent, fun _ _ object hobject _ => hempty habsent object hobject⟩
  · have hpresent : slot.state ≠ stateAbsent := fun habsent => hempty habsent object hobject hid
    obtain ⟨-, -, hrights⟩ := h.present hpresent
    obtain ⟨hobjectValid, hgranted⟩ :=
      hvalid.ruled.objectsGranted _ (mem_map_of_mem (f := Object.toObjectSource) hobject)
    -- the object is in the range of its slot, where validation has seen it
    obtain ⟨i, hi⟩ := mem_iff_getElem?.mp hobject
    have hkey : (c.objects.map fun object => object.slotId.toNat)[i]? =
        some object.slotId.toNat := by
      rw [getElem?_map, hi, Option.map_some]
    obtain ⟨r, hr, hsame, hlow, hhigh⟩ :=
      (slotsCover hvalid hranged).exists_range (Nat.zero_le i) hkey
    obtain ⟨slot', hslot', rfl⟩ := mem_map.mp hr
    obtain rfl := slot_inj hvalid hslot hslot'
      (UInt32.toNat_inj.mp ((congrArg UInt32.toNat hid).symm.trans hsame.symm))
    dsimp only [Slot.range] at hlow hhigh
    obtain ⟨seen, hseen, hwithin⟩ := hrights (i - slot.objectStart.toNat) (by omega)
    rw [Nat.add_sub_cancel' hlow, hi] at hseen
    obtain rfl := Option.some.inj hseen
    -- the slot that granted the object is this one
    obtain ⟨granting, hgranting, hgrantingId, -, hknown⟩ := hgranted
    obtain ⟨slot', hslot', rfl⟩ := mem_map.mp hgranting
    obtain rfl := slot_inj hvalid hslot hslot' (hid.symm.trans hgrantingId.symm)
    refine ⟨hwithin, ?_, hobjectValid.grantedRights⟩
    simp only [rightsKnown, Bool.not_eq_true', Bool.or_eq_false_iff, bne_eq_false_iff_eq] at hknown
    exact hknown.2

theorem authorized_of_meets {manifestBytes : List UInt8}
    (hdigest : c.closureManifestDigest = sha256 manifestBytes)
    (hmeets : List.Forall₂ (Slot.Meets c.objects) c.slots resources) :
    Authorized manifestBytes resources c where
  digest := hdigest
  slots := by
    rw [forall₂_iff_getElem?] at hmeets ⊢
    refine ⟨hmeets.1, fun i hi => ?_⟩
    obtain ⟨slot, requirement, hslot, hrequirement, hmeets⟩ := hmeets.2 i hi
    exact ⟨slot, requirement, hslot, hrequirement,
      fulfils_of_meets hvalid hranged (mem_of_getElem? hslot) hmeets⟩
  owned := by
    intro object hobject
    obtain ⟨-, granting, hgranting, hid, -⟩ :=
      hvalid.ruled.objectsGranted _ (mem_map_of_mem (f := Object.toObjectSource) hobject)
    obtain ⟨slot, hslot, rfl⟩ := mem_map.mp hgranting
    obtain ⟨index, hindex⟩ := mem_iff_getElem?.mp hslot
    refine ⟨index, ⟨slot, hindex, hid⟩, ?_⟩
    rintro index' ⟨slot', hindex', hid'⟩
    obtain rfl := slot_inj hvalid hslot (mem_of_getElem? hindex') (hid.trans hid'.symm)
    have hbound : index' < c.slots.length := (List.getElem?_eq_some_iff.mp hindex').1
    exact (getElem?_inj hbound (slots_nodup hvalid)).mp (hindex'.trans hindex.symm)
  slotRanges := slotsCover hvalid hranged
  objectIds := by
    have hascending := hvalid.ruled.objectsAscending
    rw [Contents.source, map_map, pairwise_map] at hascending
    refine pairwise_map.mpr (hascending.imp fun hlt heq => ?_)
    exact absurd (congrArg UInt64.toNat heq) (Nat.ne_of_lt hlt)
  handleRanges := (Contents.objectsCover_iff hvalid.ruled).mpr hranged.objects
  transfers := by
    intro index binding hbinding
    exact hvalid.ruled.indices (binding, index) (mem_zipIdx_iff_getElem?.mpr hbinding)
  roles := by
    refine (pairwise_map.mp hvalid.ruled.bindingsAscending).imp fun {a b} hlt hid hrole => ?_
    rcases hlt with hlt | ⟨-, hlt⟩
    · exact UInt64.ne_of_lt hlt hid
    · exact UInt32.ne_of_lt hlt hrole

end Authorized

/-- A grant that is validated against a manifest gives what its resources ask for. -/
theorem validated_grant_authorized (grantBytes manifestBytes : List UInt8) (grantOut : Grant)
    (manifestOut : Manifest) (hgrant : (decode (some grantBytes) grantOut).1 = .ok)
    (hmanifest : (Manifest.decode (some manifestBytes) manifestOut).1 = .ok)
    (hvalidate : validateManifest (decode (some grantBytes) grantOut).2
      (Manifest.decode (some manifestBytes) manifestOut).2 = .ok) :
    ∃ c tables, (decode (some grantBytes) grantOut).2.Reads c ∧
      (Manifest.decode (some manifestBytes) manifestOut).2.Reads tables ∧
      Authorized manifestBytes tables.resources c := by
  obtain ⟨source, hvalid, hrepresents⟩ := decode_ok_iff.mp hgrant
  have hreads := (hrepresents.decode_reads hvalid grantOut source.contents).mpr rfl
  obtain ⟨-, tables, htables, -⟩ := Manifest.decode_ok_iff.mp hmanifest
  rw [← Manifest.decode_manifest hmanifest] at htables
  refine ⟨source.contents, tables, hreads, htables, ?_⟩
  have hbytes : (Manifest.decode (some manifestBytes) manifestOut).2.bytes = manifestBytes := by
    rw [Manifest.decode_manifest hmanifest]
    rfl
  have hnull : ¬((decode (some grantBytes) grantOut).2.bytes = [] ∨
      (Manifest.decode (some manifestBytes) manifestOut).2.bytes = []) := by
    intro hnull
    rw [validateManifest, if_pos hnull] at hvalidate
    cases hvalidate
  obtain ⟨hdigest, hmeets⟩ := (validateManifest_eq_ok hreads htables (not_or.mp hnull).1
    (not_or.mp hnull).2).mp hvalidate
  rw [hbytes] at hdigest
  refine authorized_of_meets ?_ (source.contents_ranged hvalid.limits) hdigest hmeets
  rw [source.contents_source]
  exact hvalid

/-! ### A sample -/

namespace Sample

def digest : Digest := ⟨List.replicate 32 1, length_replicate⟩

def manifestSource : Manifest.Source where
  artifacts := [⟨1, 1, 1, 1, digest, [109], [102], [102], [102]⟩]
  dependencies := []
  exports := [⟨1, 0, [102]⟩]
  imports := []
  resources := [⟨7, 0, 1, 2, 1, 3, 1, digest⟩, ⟨8, 4, 1, 1, 1, 3, 0, digest⟩,
    ⟨9, 3, 1, 1, 1, 3, 1, digest⟩]
  bindings := [⟨7, 1⟩, ⟨8, 1⟩, ⟨9, 1⟩]

def manifest : List UInt8 :=
  ByteMemory.read (ByteMemory.storeAll (ByteMemory.cleared (List.replicate 485 0) 485)
    (Manifest.storeManifest manifestSource 485)) 0 485

theorem manifest_encoded :
    Manifest.encode (List.replicate 485 0) manifestSource = .ok (manifest, 485) := by
  have hsize : Manifest.sourceSize manifestSource = some 485 := by decide
  have hlength : (List.replicate 485 (0 : UInt8)).length = 485 := length_replicate
  exact Manifest.encode_eq_ok.mpr ⟨hsize, hlength.ge, by rw [hlength]; rfl⟩

theorem digest_nonzero : digestIsZero (sha256 (manifest.take 485)) = false := by decide +kernel

/-- Two objects in the first slot, the second slot absent; the first object has two handles. -/
def source (manifestDigest : Digest) : Source where
  generation := 1
  closureManifestDigest := manifestDigest
  slots := [⟨7, 0, 1, digest⟩, ⟨8, 4, 0, digest⟩, ⟨9, 3, 1, digest⟩]
  objects := [⟨7, 1, 1⟩, ⟨7, 2, 3⟩, ⟨9, 5, 1⟩]
  handleBindings := [⟨1, 0, 0⟩, ⟨1, 4, 1⟩, ⟨5, 0, 2⟩]

theorem source_digest (manifestDigest : Digest) :
    (source manifestDigest).closureManifestDigest = manifestDigest := rfl

theorem valid {manifestDigest : Digest} (h : digestIsZero manifestDigest = false) :
    (source manifestDigest).Valid := by
  have hrules := sourceValid_iff.mp (by decide : sourceValid (source digest) = true)
  exact ⟨hrules.generation, h, hrules.limits, hrules.ruled, hrules.populated⟩

theorem manifest_valid : manifestSource.Valid := by decide

theorem meets (manifestDigest : Digest) :
    List.Forall₂ (Slot.Meets (source manifestDigest).contents.objects)
      (source manifestDigest).contents.slots manifestSource.resources := by
  have hmeets : List.Forall₂ (Slot.Meets (source digest).contents.objects)
      (source digest).contents.slots manifestSource.resources := by
    refine .cons ⟨rfl, rfl, rfl, nofun, fun _ => ⟨by decide, by decide, fun i hi => ?_⟩⟩
      (.cons ⟨rfl, rfl, rfl, fun _ => rfl, fun h => absurd rfl h⟩
        (.cons ⟨rfl, rfl, rfl, nofun, fun _ => ⟨by decide, by decide, fun i hi => ?_⟩⟩ .nil))
    · have htwo : i < 2 := hi
      obtain rfl | rfl : i = 0 ∨ i = 1 := by omega
      · exact ⟨_, rfl, by decide, by decide⟩
      · exact ⟨_, rfl, by decide, by decide⟩
    · obtain rfl : i = 0 := Nat.lt_one_iff.mp hi
      exact ⟨_, rfl, by decide, by decide⟩
  exact hmeets

end Sample

theorem validated_grant_authorized_of_sample : ∃ grantBytes,
    (decode (some grantBytes) .zero).1 = .ok ∧
    ∃ c tables, (decode (some grantBytes) .zero).2.Reads c ∧
      (Manifest.decode (some (Sample.manifest.take 485)) .zero).2.Reads tables ∧
      Authorized (Sample.manifest.take 485) tables.resources c := by
  obtain ⟨haccepted, tables, htables, hread⟩ :=
    (Manifest.encoded_of_encode Sample.manifest_encoded).decode_ok Sample.manifest_valid .zero
  have hresources : tables.resources = Sample.manifestSource.resources :=
    congrArg Manifest.Tables.resources hread
  have hmeets := Sample.meets (sha256 (Sample.manifest.take 485))
  rw [← hresources] at hmeets
  have hvalid := Sample.valid Sample.digest_nonzero
  have hlength : (Sample.source (sha256 (Sample.manifest.take 485))).contents.size ≤
      (List.replicate (Sample.source (sha256 (Sample.manifest.take 485))).contents.size
        (0 : UInt8)).length := length_replicate.ge
  have hencode := encode_eq_ok.mpr ⟨hvalid, rfl, hlength, rfl⟩
  have hrepresents := (represents_iff_encode hencode).mp rfl
  have hgrant : (decode (some _) .zero).1 = .ok := decode_ok_iff.mpr ⟨_, hvalid, hrepresents⟩
  refine ⟨_, hgrant, validated_grant_authorized _ _ .zero .zero hgrant haccepted ?_⟩
  exact hrepresents.validate hvalid haccepted htables (Sample.source_digest _) hmeets .zero

end Kobox.Grant
