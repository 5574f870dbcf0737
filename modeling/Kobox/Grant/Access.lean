import Kobox.Grant.Rules

/-!
# What the accessors of a grant read
-/

namespace Kobox.Grant
open ByteMemory Protocol Listing List
variable {slot : Slot} {object : Object} {index : ℕ}

/-! ### Records -/

def slotImage (record : ℕ) (slot : Slot) : List Store :=
  [⟨record, storeU32 slot.slotId⟩, ⟨record + 4, storeU32 slot.resourceType⟩,
    ⟨record + 8, storeU32 slot.state⟩, ⟨record + 12, storeU32 slot.objectStart⟩,
    ⟨record + 16, storeU32 slot.objectCount⟩, .zeros (record + 20) 12,
    ⟨record + 32, slot.interfaceSchemaDigest.bytes⟩]

def objectImage (record : ℕ) (object : Object) : List Store :=
  [⟨record, storeU32 object.slotId⟩, .zeros (record + 4) 4,
    ⟨record + 8, storeU64 object.objectId⟩, ⟨record + 16, storeU64 object.grantedRights⟩,
    ⟨record + 24, storeU32 object.handleStart⟩, ⟨record + 28, storeU32 object.handleCount⟩]

def bindingImage (record : ℕ) (binding : HandleBinding) : List Store :=
  [⟨record, storeU64 binding.objectId⟩, ⟨record + 8, storeU32 binding.role⟩,
    ⟨record + 12, storeU32 binding.transferHandleIndex⟩]

section Records
variable {grant : Grant} {index : ℕ}

theorem slotAt_eq_ok :
    grant.slotAt index = .ok slot ↔
      index < (grant.counts .slots).toNat ∧
        Held grant.memory (slotImage (grant.record .slots index) slot) ∧ slot.Valid := by
  unfold slotAt
  dsimp only
  simp only [slotImage, held_cons, held_nil, holds_storeU32_iff, holds_digest_iff,
    holds_zeros_iff]
  constructor
  · intro h
    split_ifs at h with hindex hbad
    obtain rfl := Except.ok.inj h
    simp only [not_or, gt_iff_lt, UInt32.not_lt, Bool.not_eq_true, Bool.not_eq_false] at hbad
    obtain ⟨hid, htype, hstate, hdigest, hreserved⟩ := hbad
    exact ⟨Nat.not_le.mp hindex, ⟨rfl, rfl, rfl, rfl, rfl, hreserved, rfl, trivial⟩,
      ⟨hid, htype, hstate, hdigest⟩⟩
  · rintro ⟨hindex, ⟨hid, htype, hstate, hstart, hcount, hreserved, hdigest, -⟩, hvalid⟩
    rw [if_neg (Nat.not_le.mpr hindex), hid, htype, hstate, hstart, hcount, hreserved, hdigest,
      if_neg]
    simp only [not_or, gt_iff_lt, UInt32.not_lt, Bool.not_eq_true, Bool.not_eq_false, and_true]
    exact ⟨hvalid.slotId, hvalid.resourceType, hvalid.state, hvalid.digest⟩

theorem objectAt_eq_ok :
    grant.objectAt index = .ok object ↔
      index < (grant.counts .objects).toNat ∧
        Held grant.memory (objectImage (grant.record .objects index) object) ∧ object.Valid := by
  unfold objectAt
  dsimp only
  simp only [objectImage, held_cons, held_nil, holds_storeU32_iff, holds_storeU64_iff,
    holds_zeros_iff]
  constructor
  · intro h
    split_ifs at h with hindex hbad
    obtain rfl := Except.ok.inj h
    simp only [not_or, Bool.not_eq_false] at hbad
    obtain ⟨hslot, hid, hrights, hreserved⟩ := hbad
    exact ⟨Nat.not_le.mp hindex, ⟨rfl, hreserved, rfl, rfl, rfl, rfl, trivial⟩,
      ⟨hslot, hid, hrights⟩⟩
  · rintro ⟨hindex, ⟨hslot, hreserved, hid, hrights, hstart, hcount, -⟩, hvalid⟩
    rw [if_neg (Nat.not_le.mpr hindex), hslot, hreserved, hid, hrights, hstart, hcount, if_neg]
    simp only [not_or, Bool.not_eq_false, and_true]
    exact ⟨hvalid.slotId, hvalid.objectId, hvalid.grantedRights⟩

theorem bindingAt_eq_ok {binding : HandleBinding} :
    grant.bindingAt index = .ok binding ↔
      index < (grant.counts .handleBindings).toNat ∧
        Held grant.memory (bindingImage (grant.record .handleBindings index) binding) ∧
        binding.objectId ≠ 0 := by
  unfold bindingAt
  dsimp only
  simp only [bindingImage, held_cons, held_nil, holds_storeU32_iff, holds_storeU64_iff]
  constructor
  · intro h
    split_ifs at h with hindex hbad
    obtain rfl := Except.ok.inj h
    exact ⟨Nat.not_le.mp hindex, ⟨rfl, rfl, rfl, trivial⟩, hbad⟩
  · rintro ⟨hindex, ⟨hid, hrole, htransfer, -⟩, hpos⟩
    rw [if_neg (Nat.not_le.mpr hindex), hid, hrole, htransfer, if_neg hpos]

end Records

/-- What a grant says: its header's values and its records with their ranges. -/
structure Contents where
  generation : UInt64
  closureManifestDigest : Digest
  slots : List Slot
  objects : List Object
  handleBindings : List HandleBinding
  deriving DecidableEq

namespace Contents

def source (c : Contents) : Source where
  generation := c.generation
  closureManifestDigest := c.closureManifestDigest
  slots := c.slots.map Slot.toSlotSource
  objects := c.objects.map Object.toObjectSource
  handleBindings := c.handleBindings

/-- Every slot has the range of its objects, and every object that of its handles. -/
structure Ranged (c : Contents) : Prop where
  slots : ∀ slot ∈ c.slots,
    slot.objectStart.toNat = objectsBefore c.source.objects slot.slotId ∧
      slot.objectCount.toNat = objectsOf c.source.objects slot.slotId
  objects : ∀ object ∈ c.objects,
    object.handleStart.toNat = handlesBefore c.handleBindings object.objectId ∧
      object.handleCount.toNat = handlesOf c.handleBindings object.objectId

end Contents

/-- The accessors return the contents. -/
structure Reads (grant : Grant) (c : Contents) : Prop where
  generation : grant.generation = c.generation
  closureManifestDigest : grant.closureManifestDigest = c.closureManifestDigest
  slots : Lists (fun index slot => grant.slotAt index = .ok slot) (grant.counts .slots).toNat
    c.slots
  objects : Lists (fun index object => grant.objectAt index = .ok object)
    (grant.counts .objects).toNat c.objects
  handleBindings : Lists (fun index binding => grant.bindingAt index = .ok binding)
    (grant.counts .handleBindings).toNat c.handleBindings

def Slot.range (slot : Slot) : Runs.Range ℕ :=
  ⟨slot.slotId.toNat, slot.objectStart.toNat, slot.objectCount.toNat⟩

def Object.range (object : Object) : Runs.Range ℕ :=
  ⟨object.objectId.toNat, object.handleStart.toNat, object.handleCount.toNat⟩

section Loops
variable {grant : Grant} {slots : List Slot} {objects : List Object}
  {bindings : List HandleBinding}

theorem decodeSlot_eq_some
    (hobjects : ∀ {index x}, grant.objectAt index = .ok x ↔ objects[index]? = some x)
    (hcount : (grant.counts .objects).toNat = objects.length)
    (state : UInt32 × ℕ) (slot : Slot) (state' : UInt32 × ℕ) :
    grant.decodeSlot state slot = some state' ↔
      ((state.1.toNat < slot.slotId.toNat ∧ (slot.state = stateAbsent → slot.objectCount = 0) ∧
          (slot.state = statePresent → slot.objectCount ≠ 0)) ∧
        slot.range.start = state.2 ∧ ∀ i < slot.range.count,
          (objects.map fun object => object.slotId.toNat)[state.2 + i]? = some slot.range.key) ∧
      (slot.slotId, state.2 + slot.range.count) = state' := by
  obtain ⟨prior, cursor⟩ := state
  have hrun : ((List.range slot.objectCount.toNat).all fun i =>
      passes (grant.objectAt (cursor + i)) fun object => object.slotId == slot.slotId) = true ↔
      ∀ i < slot.objectCount.toNat,
        (objects.map fun object => object.slotId.toNat)[cursor + i]? = some slot.slotId.toNat :=
    all_passes_run hobjects fun x => by rw [beq_iff_eq, UInt32.toNat_inj]
  unfold decodeSlot
  dsimp only [Slot.range]
  rw [hcount]
  constructor
  · intro h
    split_ifs at h with hbad hkeys
    simp only [not_or, not_and, UInt32.not_le, not_not, UInt32.lt_iff_toNat_lt] at hbad
    obtain ⟨hprior, hstart, -, habsent, hpresent⟩ := hbad
    exact ⟨⟨⟨hprior, habsent, hpresent⟩, hstart, hrun.mp hkeys⟩, Option.some.inj h⟩
  · rintro ⟨⟨⟨hprior, habsent, hpresent⟩, hstart, hkeys⟩, rfl⟩
    have hfits := Runs.run_fits hkeys
    rw [length_map] at hfits
    rw [if_neg, if_pos (hrun.mpr hkeys)]
    simp only [not_or, not_and, UInt32.not_le, not_not, UInt32.lt_iff_toNat_lt]
    exact ⟨hprior, hstart, by omega, habsent, hpresent⟩

theorem decodedSlot_iff (hslots : ∀ {index x}, grant.slotAt index = .ok x ↔ slots[index]? = some x)
    (hcount : (grant.counts .slots).toNat = slots.length)
    (hascending : (slots.map fun slot => slot.slotId.toNat).Pairwise (· < ·)) {slotId : UInt32} :
    ((grant.decodedSlotIndex slotId).bind fun index => (grant.slotAt index).toOption) = some slot ↔
      slot ∈ slots ∧ slot.slotId = slotId := by
  unfold decodedSlotIndex
  simp only [toOption_access hslots, hcount]
  rw [BinarySearch.find_get_eq_some_iff hascending, UInt32.toNat_inj]

theorem decodeObject_eq_some
    (hslots : ∀ {index x}, grant.slotAt index = .ok x ↔ slots[index]? = some x)
    (hslotCount : (grant.counts .slots).toNat = slots.length)
    (hascending : (slots.map fun slot => slot.slotId.toNat).Pairwise (· < ·))
    (hbindings : ∀ {index x}, grant.bindingAt index = .ok x ↔ bindings[index]? = some x)
    (hcount : (grant.counts .handleBindings).toNat = bindings.length)
    (state : (UInt32 × UInt64) × ℕ) (object : Object) (state' : (UInt32 × UInt64) × ℕ) :
    grant.decodeObject state object = some state' ↔
      ((state.1.1.toNat ≤ object.slotId.toNat ∧ state.1.2.toNat < object.objectId.toNat ∧
          Granted (slots.map Slot.toSlotSource) object.toObjectSource) ∧
        object.range.start = state.2 ∧ ∀ i < object.range.count,
          (bindings.map fun binding => binding.objectId.toNat)[state.2 + i]? =
            some object.range.key) ∧
      ((object.slotId, object.objectId), state.2 + object.range.count) = state' := by
  obtain ⟨prior, cursor⟩ := state
  have hrun : ((List.range object.handleCount.toNat).all fun i =>
      passes (grant.bindingAt (cursor + i)) fun binding => binding.objectId == object.objectId) =
      true ↔ ∀ i < object.handleCount.toNat,
        (bindings.map fun binding => binding.objectId.toNat)[cursor + i]? =
          some object.objectId.toNat :=
    all_passes_run hbindings fun x => by rw [beq_iff_eq, UInt64.toNat_inj]
  have hfind {slot : Slot} :
      ((grant.decodedSlotIndex object.slotId).bind fun index => (grant.slotAt index).toOption) =
        some slot ↔ slot ∈ slots ∧ slot.slotId = object.slotId :=
    decodedSlot_iff hslots hslotCount hascending
  unfold decodeObject
  dsimp only [Object.range]
  rw [hcount]
  constructor
  · intro h
    split at h
    · cases h
    rename_i hbad
    simp only [not_or, UInt32.not_lt, UInt64.not_le, not_not, UInt64.lt_iff_toNat_lt,
      UInt32.le_iff_toNat_le] at hbad
    obtain ⟨hslot, hprior, hstart, -⟩ := hbad
    split at h
    · cases h
    · rename_i slot hsome
      obtain ⟨hmem, hid⟩ := hfind.mp hsome
      split_ifs at h with hrefused hkeys
      simp only [not_or, not_not, Bool.not_eq_false] at hrefused
      exact ⟨⟨⟨hslot, hprior, slot.toSlotSource, mem_map_of_mem hmem, hid, hrefused⟩, hstart,
        hrun.mp hkeys⟩, Option.some.inj h⟩
  · rintro ⟨⟨⟨hslot, hprior, source, hmem, hid, hstate, hrights⟩, hstart, hkeys⟩, rfl⟩
    obtain ⟨slot, hlisted, rfl⟩ := mem_map.mp hmem
    have hfits := Runs.run_fits hkeys
    rw [length_map] at hfits
    rw [if_neg, hfind.mpr ⟨hlisted, hid⟩]
    · dsimp only
      rw [if_neg, if_pos (hrun.mpr hkeys)]
      simp only [not_or, not_not, Bool.not_eq_false]
      exact ⟨hstate, hrights⟩
    · simp only [not_or, UInt32.not_lt, UInt64.not_le, not_not, UInt64.lt_iff_toNat_lt,
        UInt32.le_iff_toNat_le]
      exact ⟨hslot, hprior, hstart, by omega⟩

theorem decodeBinding_eq_some
    (hobjects : ∀ {index x}, grant.objectAt index = .ok x ↔ objects[index]? = some x)
    (hcount : (grant.counts .objects).toNat = objects.length)
    (hascending : (objects.map fun object => object.objectId.toNat).Pairwise (· < ·))
    (prior : UInt64 × UInt32) (entry : HandleBinding × ℕ) (next : UInt64 × UInt32) :
    grant.decodeBinding prior entry = some next ↔
      ((∃ object ∈ objects.map Object.toObjectSource, object.objectId = entry.1.objectId) ∧
        bindingPlaced entry.2 prior entry.1 = true) ∧ entry.1.key = next := by
  have hfind := BinarySearch.find_ne_none_iff hascending entry.1.objectId.toNat
  simp only [UInt64.toNat_inj] at hfind
  refine Scan.guard_eq_some ?_
  unfold decodedObjectIndex
  simp only [toOption_access hobjects, hcount]
  rw [not_or, Bool.not_eq_false, ← ne_eq, hfind]
  simp only [mem_map, exists_exists_and_eq_and]

end Loops

/-! ### What the decoder accepts -/

theorem Contents.slotsCover_iff {c : Contents}
    (hslots : (c.slots.map fun slot => slot.slotId.toNat).Pairwise (· < ·))
    (hordered : (c.objects.map fun object => object.slotId.toNat).Pairwise (· ≤ ·))
    (hgranted : ∀ object ∈ c.objects, Granted c.source.slots object.toObjectSource) :
    Runs.Covers (c.objects.map fun object => object.slotId.toNat) (c.slots.map Slot.range) 0 ↔
      ∀ slot ∈ c.slots,
        slot.objectStart.toNat = objectsBefore c.source.objects slot.slotId ∧
          slot.objectCount.toNat = objectsOf c.source.objects slot.slotId := by
  have hkeys : (c.slots.map Slot.range).map Runs.Range.key =
      c.slots.map fun slot => slot.slotId.toNat := map_map
  have hobjects : c.source.objects.map (fun object => object.slotId.toNat) =
      c.objects.map fun object => object.slotId.toNat := map_map
  have hbelongs : ∀ x ∈ c.objects.map (fun object => object.slotId.toNat),
      x ∈ (c.slots.map Slot.range).map Runs.Range.key := by
    intro x hx
    obtain ⟨object, hobject, rfl⟩ := mem_map.mp hx
    obtain ⟨source, hsource, hid, -⟩ := hgranted object hobject
    obtain ⟨slot, hslot, rfl⟩ := mem_map.mp hsource
    rw [hkeys, ← hid]
    exact mem_map_of_mem hslot
  simp only [objectsBefore, objectsOf, hobjects]
  rw [Runs.covers_iff (.start (hkeys ▸ hslots) hbelongs) hordered, forall_mem_map]
  rfl

theorem Contents.objectsCover_iff {c : Contents}
    (hruled : Ruled c.source.slots c.source.objects c.handleBindings) :
    Runs.Covers (c.handleBindings.map fun binding => binding.objectId.toNat)
        (c.objects.map Object.range) 0 ↔
      ∀ object ∈ c.objects,
        object.handleStart.toNat = handlesBefore c.handleBindings object.objectId ∧
          object.handleCount.toNat = handlesOf c.handleBindings object.objectId := by
  have hkeys : (c.objects.map Object.range).map Runs.Range.key =
      c.source.objects.map fun object => object.objectId.toNat := by
    rw [Contents.source, map_map, map_map]
    rfl
  have hbelongs : ∀ x ∈ c.handleBindings.map (fun binding => binding.objectId.toNat),
      x ∈ (c.objects.map Object.range).map Runs.Range.key := by
    intro x hx
    obtain ⟨binding, hbinding, rfl⟩ := mem_map.mp hx
    obtain ⟨-, object, hobject, hid⟩ := hruled.bindingsOwned binding hbinding
    rw [hkeys, ← hid]
    exact mem_map_of_mem hobject
  rw [Runs.covers_iff (.start (hkeys ▸ hruled.objectsAscending) hbelongs) hruled.handlesOrdered,
    forall_mem_map]
  rfl

section Reads
variable {grant : Grant} {c : Contents}

namespace Reads

variable (h : grant.Reads c)
include h

theorem slotAt_iff : grant.slotAt index = .ok slot ↔ c.slots[index]? = some slot :=
  access_iff h.slots fun hread => (slotAt_eq_ok.mp hread).1

theorem objectAt_iff : grant.objectAt index = .ok object ↔ c.objects[index]? = some object :=
  access_iff h.objects fun hread => (objectAt_eq_ok.mp hread).1

theorem bindingAt_iff {binding : HandleBinding} :
    grant.bindingAt index = .ok binding ↔ c.handleBindings[index]? = some binding :=
  access_iff h.handleBindings fun hread => (bindingAt_eq_ok.mp hread).1

theorem unique {c' : Contents} (h' : grant.Reads c') : c = c' := by
  cases c
  cases c'
  have hslots := h.slots.unique h'.slots fun _ _ _ hx hy => Except.ok.inj (hx.symm.trans hy)
  have hobjects := h.objects.unique h'.objects fun _ _ _ hx hy => Except.ok.inj (hx.symm.trans hy)
  have hbindings := h.handleBindings.unique h'.handleBindings
    fun _ _ _ hx hy => Except.ok.inj (hx.symm.trans hy)
  have hgeneration := h.generation.symm.trans h'.generation
  have hdigest := h.closureManifestDigest.symm.trans h'.closureManifestDigest
  simp only [Contents.mk.injEq]
  exact ⟨hgeneration, hdigest, hslots, hobjects, hbindings⟩

theorem slot_valid (hslot : slot ∈ c.slots) : slot.Valid := by
  obtain ⟨index, -, -, hread⟩ := h.slots.of_mem hslot
  exact (slotAt_eq_ok.mp hread).2.2

theorem object_valid (hobject : object ∈ c.objects) : object.Valid := by
  obtain ⟨index, -, -, hread⟩ := h.objects.of_mem hobject
  exact (objectAt_eq_ok.mp hread).2.2

theorem slots_loop_iff :
    (∃ prior, c.slots.foldlM grant.decodeSlot (0, 0) =
      some (prior, (grant.counts .objects).toNat)) ↔
      (c.slots.map fun slot => slot.slotId.toNat).Pairwise (· < ·) ∧
      (∀ slot ∈ c.slots, (slot.state = stateAbsent → slot.objectCount = 0) ∧
        (slot.state = statePresent → slot.objectCount ≠ 0)) ∧
      Runs.Covers (c.objects.map fun object => object.slotId.toNat) (c.slots.map Slot.range) 0 := by
  have hcount := h.objects.length.symm
  have hkeys : (grant.counts .objects).toNat =
      (c.objects.map fun object => object.slotId.toNat).length := by
    rw [length_map, hcount]
  rw [hkeys, Runs.foldlM_covers_iff Slot.range
      (fun prior slot => prior.toNat < slot.slotId.toNat ∧
        (slot.state = stateAbsent → slot.objectCount = 0) ∧
        (slot.state = statePresent → slot.objectCount ≠ 0))
      (fun _ slot => slot.slotId) (decodeSlot_eq_some h.objectAt_iff hcount), Scan.passes_and,
    Scan.passes_prior (· < ·) UInt32.toNat (fun slot : Slot => slot.slotId.toNat) fun _ _ => rfl,
    Scan.passes_forall, and_assoc, and_assoc]
  refine and_iff_right fun slot hslot => ?_
  exact pos_toNat_iff32.mpr (h.slot_valid hslot).slotId

theorem objects_loop_iff (hslots : (c.slots.map fun slot => slot.slotId.toNat).Pairwise (· < ·)) :
    (∃ prior, c.objects.foldlM grant.decodeObject ((0, 0), 0) =
      some (prior, (grant.counts .handleBindings).toNat)) ↔
      (c.objects.map fun object => object.slotId.toNat).Pairwise (· ≤ ·) ∧
      (c.objects.map fun object => object.objectId.toNat).Pairwise (· < ·) ∧
      (∀ object ∈ c.objects, Granted c.source.slots object.toObjectSource) ∧
      Runs.Covers (c.handleBindings.map fun binding => binding.objectId.toNat)
        (c.objects.map Object.range) 0 := by
  have hcount := h.handleBindings.length.symm
  have hkeys : (grant.counts .handleBindings).toNat =
      (c.handleBindings.map fun binding => binding.objectId.toNat).length := by
    rw [length_map, hcount]
  rw [hkeys, Runs.foldlM_covers_iff Object.range
      (fun prior object => prior.1.toNat ≤ object.slotId.toNat ∧
        prior.2.toNat < object.objectId.toNat ∧ Granted c.source.slots object.toObjectSource)
      (fun _ object => (object.slotId, object.objectId))
      (decodeObject_eq_some h.slotAt_iff h.slots.length.symm hslots h.bindingAt_iff hcount),
    Scan.passes_and, Scan.passes_and,
    Scan.passes_prior (· ≤ ·) (fun prior : UInt32 × UInt64 => prior.1.toNat)
      (fun object : Object => object.slotId.toNat) fun _ _ => rfl,
    Scan.passes_prior (· < ·) (fun prior : UInt32 × UInt64 => prior.2.toNat)
      (fun object : Object => object.objectId.toNat) fun _ _ => rfl,
    Scan.passes_forall]
  have hpos : ∀ object ∈ c.objects, (0 : UInt64).toNat < object.objectId.toNat := by
    intro object hobject
    exact pos_toNat_iff64.mpr (h.object_valid hobject).objectId
  have hzero : ∀ object ∈ c.objects, (0 : UInt32).toNat ≤ object.slotId.toNat :=
    fun _ _ => Nat.zero_le _
  rw [and_iff_right hzero, and_iff_right hpos, and_assoc, and_assoc]

theorem loops_iff :
    ((∃ prior, c.slots.foldlM grant.decodeSlot (0, 0) =
        some (prior, (grant.counts .objects).toNat)) ∧
      (∃ prior, c.objects.foldlM grant.decodeObject ((0, 0), 0) =
        some (prior, (grant.counts .handleBindings).toNat)) ∧
      (c.handleBindings.zipIdx.foldlM grant.decodeBinding (0, 0)).isSome = true) ↔
      Ruled c.source.slots c.source.objects c.handleBindings ∧
        Populated c.source.slots c.source.objects ∧ c.Ranged := by
  have hslotKeys : c.source.slots.map (fun slot => slot.slotId.toNat) =
      c.slots.map fun slot => slot.slotId.toNat := map_map
  have hobjectSlots : c.source.objects.map (fun object => object.slotId.toNat) =
      c.objects.map fun object => object.slotId.toNat := map_map
  have hobjectKeys : c.source.objects.map (fun object => object.objectId.toNat) =
      c.objects.map fun object => object.objectId.toNat := map_map
  have hpos : ∀ object ∈ c.source.objects, object.objectId ≠ 0 := by
    intro source hsource
    obtain ⟨object, hobject, rfl⟩ := mem_map.mp hsource
    exact (h.object_valid hobject).objectId
  have hcountZero {slot : Slot} : slot.objectCount = 0 ↔ slot.objectCount.toNat = 0 :=
    UInt32.toNat_inj.symm
  rw [h.slots_loop_iff]
  constructor
  · rintro ⟨⟨hslots, hstates, hslotsCover⟩, hobjects, hhandles⟩
    obtain ⟨hordered, hascending, hgranted, hobjectsCover⟩ := (h.objects_loop_iff hslots).mp hobjects
    obtain ⟨howned, hindices, hkeys⟩ := (bindings_pass_iff
      (decodeBinding_eq_some h.objectAt_iff h.objects.length.symm hascending) hpos).mp hhandles
    have hruled : Ruled c.source.slots c.source.objects c.handleBindings := by
      refine ⟨forall_mem_map.mpr fun slot hslot => h.slot_valid hslot, hslotKeys ▸ hslots,
        forall_mem_map.mpr fun object hobject => ?_, hobjectSlots ▸ hordered,
        hobjectKeys ▸ hascending, howned, hindices, hkeys⟩
      exact ⟨h.object_valid hobject, hgranted object hobject⟩
    have hslotRanges := (Contents.slotsCover_iff hslots hordered hgranted).mp hslotsCover
    refine ⟨hruled, forall_mem_map.mpr fun slot hslot => ?_, hslotRanges,
      (Contents.objectsCover_iff hruled).mp hobjectsCover⟩
    rw [← (hslotRanges slot hslot).2, ne_eq, ← hcountZero]
    exact hstates slot hslot
  · rintro ⟨hruled, hpopulated, hranged⟩
    have hslots := hslotKeys ▸ hruled.slotsAscending
    have hordered := hobjectSlots ▸ hruled.objectsOrdered
    have hascending := hobjectKeys ▸ hruled.objectsAscending
    have hgranted : ∀ object ∈ c.objects, Granted c.source.slots object.toObjectSource :=
      fun object hobject => (hruled.objectsGranted _ (mem_map_of_mem hobject)).2
    refine ⟨⟨hslots, fun slot hslot => ?_, ?_⟩, ?_, ?_⟩
    · have hstate := hpopulated _ (mem_map_of_mem hslot)
      rw [← (hranged.slots slot hslot).2, ne_eq, ← hcountZero] at hstate
      exact hstate
    · exact (Contents.slotsCover_iff hslots hordered hgranted).mpr hranged.slots
    · exact (h.objects_loop_iff hslots).mpr ⟨hordered, hascending, hgranted,
        (Contents.objectsCover_iff hruled).mpr hranged.objects⟩
    · exact (bindings_pass_iff
        (decodeBinding_eq_some h.objectAt_iff h.objects.length.symm hascending) hpos).mpr
        ⟨hruled.bindingsOwned, hruled.indices, hruled.bindingsAscending⟩

end Reads

theorem tablesValid_iff :
    grant.tablesValid = true ↔
      ∃ c, grant.Reads c ∧ Ruled c.source.slots c.source.objects c.handleBindings ∧
        Populated c.source.slots c.source.objects ∧ c.Ranged := by
  have hloops : grant.tablesValid = true ↔
      (∃ prior, readEach grant.slotAt (fun s entry => grant.decodeSlot s entry.1)
        (grant.counts .slots).toNat (0, 0) = some (prior, (grant.counts .objects).toNat)) ∧
      (∃ prior, readEach grant.objectAt (fun s entry => grant.decodeObject s entry.1)
        (grant.counts .objects).toNat ((0, 0), 0) =
          some (prior, (grant.counts .handleBindings).toNat)) ∧
      (readEach grant.bindingAt grant.decodeBinding (grant.counts .handleBindings).toNat
        (0, 0)).isSome = true := by
    unfold tablesValid
    cases readEach grant.slotAt (fun s entry => grant.decodeSlot s entry.1)
        (grant.counts .slots).toNat (0, 0) with
    | none => simp
    | some slotsEnd =>
      cases readEach grant.objectAt (fun s entry => grant.decodeObject s entry.1)
          (grant.counts .objects).toNat ((0, 0), 0) with
      | none => simp
      | some objectsEnd => simp [Prod.ext_iff]
  simp only [hloops, Option.isSome_iff_exists, readEach_eq_some, Scan.foldlM_zipIdx_fst]
  constructor
  · rintro ⟨⟨slotsEnd, slots, hslots, hslotsLoop⟩, ⟨objectsEnd, objects, hobjects, hobjectsLoop⟩,
      bindingsEnd, bindings, hbindings, hbindingsLoop⟩
    let c : Contents := ⟨grant.generation, grant.closureManifestDigest, slots, objects, bindings⟩
    have hreads : grant.Reads c := ⟨rfl, rfl, hslots, hobjects, hbindings⟩
    refine ⟨c, hreads, hreads.loops_iff.mp ⟨⟨slotsEnd, hslotsLoop⟩, ⟨objectsEnd, hobjectsLoop⟩, ?_⟩⟩
    exact Option.isSome_iff_exists.mpr ⟨bindingsEnd, hbindingsLoop⟩
  · rintro ⟨c, hreads, hvalid⟩
    obtain ⟨⟨slotsEnd, hslotsLoop⟩, ⟨objectsEnd, hobjectsLoop⟩, hbindingsLoop⟩ :=
      hreads.loops_iff.mpr hvalid
    obtain ⟨bindingsEnd, hbindingsLoop⟩ := Option.isSome_iff_exists.mp hbindingsLoop
    exact ⟨⟨slotsEnd, c.slots, hreads.slots, hslotsLoop⟩,
      ⟨objectsEnd, c.objects, hreads.objects, hobjectsLoop⟩,
      bindingsEnd, c.handleBindings, hreads.handleBindings, hbindingsLoop⟩

end Reads

end Kobox.Grant
