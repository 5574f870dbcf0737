import Kobox.Grant.Codec
import Kobox.Library.Runs

/-!
# The rules of a grant
-/

namespace Kobox.Grant
open Protocol List

/-! ### Rules -/

/-- A slot by itself. -/
structure SlotSource.Valid (slot : SlotSource) : Prop where
  slotId : slot.slotId ≠ 0
  resourceType : slot.resourceType ≤ resourceTypeMax
  state : slot.state ≤ statePresent
  digest : digestIsZero slot.interfaceSchemaDigest = false

/-- An object by itself. -/
structure ObjectSource.Valid (object : ObjectSource) : Prop where
  slotId : object.slotId ≠ 0
  objectId : object.objectId ≠ 0
  grantedRights : object.grantedRights ≠ 0

def Granted (slots : List SlotSource) (object : ObjectSource) : Prop :=
  ∃ slot ∈ slots, slot.slotId = object.slotId ∧ slot.state = statePresent ∧
    rightsKnown slot.resourceType object.grantedRights = true

/-- What handle bindings are ordered by: the object, then the role. -/
def HandleBinding.key (binding : HandleBinding) : UInt64 × UInt32 := (binding.objectId, binding.role)

def Precedes (a b : UInt64 × UInt32) : Prop := a.1 < b.1 ∨ (a.1 = b.1 ∧ a.2 < b.2)

/-- The tables of a grant are canonical: each is sorted, objects lie in granted slots, and the
handles of the transfer are numbered in order. -/
structure Ruled (slots : List SlotSource) (objects : List ObjectSource)
    (bindings : List HandleBinding) : Prop where
  slotsValid : ∀ slot ∈ slots, slot.Valid
  slotsAscending : (slots.map fun slot => slot.slotId.toNat).Pairwise (· < ·)
  objectsGranted : ∀ object ∈ objects, object.Valid ∧ Granted slots object
  objectsOrdered : (objects.map fun object => object.slotId.toNat).Pairwise (· ≤ ·)
  objectsAscending : (objects.map fun object => object.objectId.toNat).Pairwise (· < ·)
  bindingsOwned : ∀ binding ∈ bindings, binding.objectId ≠ 0 ∧
    ∃ object ∈ objects, object.objectId = binding.objectId
  indices : ∀ entry ∈ bindings.zipIdx, entry.1.transferHandleIndex.toNat = entry.2
  bindingsAscending : (bindings.map HandleBinding.key).Pairwise Precedes

def objectsBefore (objects : List ObjectSource) (slotId : UInt32) : ℕ :=
  Runs.before (objects.map fun object => object.slotId.toNat) slotId.toNat

def objectsOf (objects : List ObjectSource) (slotId : UInt32) : ℕ :=
  Runs.size (objects.map fun object => object.slotId.toNat) slotId.toNat

def handlesBefore (bindings : List HandleBinding) (objectId : UInt64) : ℕ :=
  Runs.before (bindings.map fun binding => binding.objectId.toNat) objectId.toNat

def handlesOf (bindings : List HandleBinding) (objectId : UInt64) : ℕ :=
  Runs.size (bindings.map fun binding => binding.objectId.toNat) objectId.toNat

def Populated (slots : List SlotSource) (objects : List ObjectSource) : Prop :=
  ∀ slot ∈ slots, (slot.state = stateAbsent → objectsOf objects slot.slotId = 0) ∧
    (slot.state = statePresent → objectsOf objects slot.slotId ≠ 0)

section Loops
variable {slots : List SlotSource} {objects : List ObjectSource} {bindings : List HandleBinding}

theorem pos_toNat_iff32 {x : UInt32} : 0 < x.toNat ↔ x ≠ 0 := by
  rw [Nat.pos_iff_ne_zero, ne_eq, ne_eq, ← UInt32.toNat_inj]
  rfl

theorem pos_toNat_iff64 {x : UInt64} : 0 < x.toNat ↔ x ≠ 0 := by
  rw [Nat.pos_iff_ne_zero, ne_eq, ne_eq, ← UInt64.toNat_inj]
  rfl

theorem checkSlot_eq_some {prior next : UInt32} {slot : SlotSource} :
    checkSlot prior slot = some next ↔
      (prior.toNat < slot.slotId.toNat ∧ slot.resourceType ≤ resourceTypeMax ∧
        slot.state ≤ statePresent ∧ digestIsZero slot.interfaceSchemaDigest = false) ∧
      slot.slotId = next := by
  refine Scan.guard_eq_some ?_
  rw [← UInt32.lt_iff_toNat_lt]
  simp only [not_or, UInt32.not_le, gt_iff_lt, UInt32.not_lt, Bool.not_eq_true]

theorem slots_pass_iff :
    (slots.foldlM checkSlot 0).isSome = true ↔
      (∀ slot ∈ slots, slot.Valid) ∧
        (slots.map fun slot => slot.slotId.toNat).Pairwise (· < ·) := by
  rw [Scan.isSome_foldlM_iff fun _ _ _ => checkSlot_eq_some, Scan.passes_and,
    Scan.passes_prior (· < ·) UInt32.toNat (fun slot : SlotSource => slot.slotId.toNat)
      fun _ _ => rfl, Scan.passes_forall]
  constructor
  · rintro ⟨⟨hpos, hascending⟩, hrest⟩
    refine ⟨fun slot hslot => ?_, hascending⟩
    obtain ⟨htype, hstate, hdigest⟩ := hrest slot hslot
    exact ⟨pos_toNat_iff32.mp (hpos slot hslot), htype, hstate, hdigest⟩
  · rintro ⟨hvalid, hascending⟩
    refine ⟨⟨fun slot hslot => pos_toNat_iff32.mpr (hvalid slot hslot).slotId, hascending⟩,
      fun slot hslot => ?_⟩
    have hslot := hvalid slot hslot
    exact ⟨hslot.resourceType, hslot.state, hslot.digest⟩

theorem checkObject_eq_some
    (hslots : (slots.map fun slot => slot.slotId.toNat).Pairwise (· < ·))
    {prior next : UInt32 × UInt64} {object : ObjectSource} :
    checkObject slots prior object = some next ↔
      (prior.1.toNat ≤ object.slotId.toNat ∧ prior.2.toNat < object.objectId.toNat ∧
        object.grantedRights ≠ 0 ∧ Granted slots object) ∧
      (object.slotId, object.objectId) = next := by
  have hfind {slot : SlotSource} :
      ((sourceSlotIndex slots object.slotId).bind fun index => slots[index]?) = some slot ↔
        slot ∈ slots ∧ slot.slotId = object.slotId := by
    rw [sourceSlotIndex, BinarySearch.find_get_eq_some_iff hslots, UInt32.toNat_inj]
  unfold checkObject
  split
  · rename_i hnone
    constructor
    · nofun
    · rintro ⟨⟨-, -, -, slot, hslot, hid, -⟩, -⟩
      rw [hfind.mpr ⟨hslot, hid⟩] at hnone
      cases hnone
  · rename_i slot hsome
    obtain ⟨hslot, hid⟩ := hfind.mp hsome
    refine Scan.guard_eq_some ?_
    rw [← UInt64.lt_iff_toNat_lt, ← UInt32.le_iff_toNat_le]
    simp only [not_or, UInt32.not_lt, UInt64.not_le, Bool.not_eq_false, not_not, ne_eq]
    refine and_congr_right fun _ => and_congr_right fun _ => and_congr_right fun _ => ?_
    constructor
    · rintro ⟨hstate, hrights⟩
      exact ⟨slot, hslot, hid, hstate, hrights⟩
    · rintro ⟨slot', hslot', hid', hstate, hrights⟩
      -- the ids of the slots are distinct
      have hsame := hfind.mpr ⟨hslot', hid'⟩
      rw [hsome] at hsame
      rw [Option.some.inj hsame]
      exact ⟨hstate, hrights⟩

theorem objects_pass_iff (hvalid : ∀ slot ∈ slots, slot.Valid)
    (hslots : (slots.map fun slot => slot.slotId.toNat).Pairwise (· < ·)) :
    (objects.foldlM (checkObject slots) (0, 0)).isSome = true ↔
      (∀ object ∈ objects, object.Valid ∧ Granted slots object) ∧
        (objects.map fun object => object.slotId.toNat).Pairwise (· ≤ ·) ∧
        (objects.map fun object => object.objectId.toNat).Pairwise (· < ·) := by
  rw [Scan.isSome_foldlM_iff fun _ _ _ => checkObject_eq_some hslots, Scan.passes_and,
    Scan.passes_and,
    Scan.passes_prior (· ≤ ·) (fun prior : UInt32 × UInt64 => prior.1.toNat)
      (fun object : ObjectSource => object.slotId.toNat) fun _ _ => rfl,
    Scan.passes_prior (· < ·) (fun prior : UInt32 × UInt64 => prior.2.toNat)
      (fun object : ObjectSource => object.objectId.toNat) fun _ _ => rfl, Scan.passes_forall]
  constructor
  · rintro ⟨⟨-, hordered⟩, ⟨hpos, hascending⟩, hrest⟩
    refine ⟨fun object hobject => ?_, hordered, hascending⟩
    obtain ⟨hrights, hgranted⟩ := hrest object hobject
    obtain ⟨slot, hslot, hid, -⟩ := id hgranted
    exact ⟨⟨hid ▸ (hvalid slot hslot).slotId, pos_toNat_iff64.mp (hpos object hobject), hrights⟩,
      hgranted⟩
  · rintro ⟨hall, hordered, hascending⟩
    refine ⟨⟨fun object _ => Nat.zero_le _, hordered⟩, ⟨fun object hobject => ?_, hascending⟩,
      fun object hobject => ?_⟩
    · exact pos_toNat_iff64.mpr (hall object hobject).1.objectId
    · exact ⟨(hall object hobject).1.grantedRights, (hall object hobject).2⟩

theorem advance_eq {α κ : Type} [BEq κ] [LawfulBEq κ] {toNat : κ → ℕ} (hinj : toNat.Injective)
    (key : α → κ) (l : List α) (cursor : ℕ) (k : κ) :
    cursor + ((l.drop cursor).takeWhile fun x => key x == k).length =
      Runs.advance (l.map fun x => toNat (key x)) cursor (toNat k) := by
  have htest : (fun x => key x == k) = (fun n => decide (n = toNat k)) ∘ fun x => toNat (key x) := by
    funext x
    rw [Function.comp_apply, Bool.eq_iff_iff, beq_iff_eq, decide_eq_true_eq, hinj.eq_iff]
  rw [Runs.advance, ← map_drop, takeWhile_map, length_map, htest]

theorem objectCursor_eq (cursor : ℕ) (slot : SlotSource) :
    objectCursor objects cursor slot =
      Runs.advance (objects.map fun object => object.slotId.toNat) cursor slot.slotId.toNat :=
  advance_eq (fun _ _ => UInt32.toNat_inj.mp) ObjectSource.slotId objects cursor slot.slotId

theorem handleCursor_eq (cursor : ℕ) (object : ObjectSource) :
    handleCursor bindings cursor object =
      Runs.advance (bindings.map fun binding => binding.objectId.toNat) cursor
        object.objectId.toNat :=
  advance_eq (fun _ _ => UInt64.toNat_inj.mp) HandleBinding.objectId bindings cursor object.objectId

theorem objectCursor_found
    (hslots : (slots.map fun slot => slot.slotId.toNat).Pairwise (· < ·))
    (hordered : (objects.map fun object => object.slotId.toNat).Pairwise (· ≤ ·))
    (hgranted : ∀ object ∈ objects, Granted slots object) :
    (∀ j slot, slots[j]? = some slot →
      (slots.take j).foldl (objectCursor objects) 0 = objectsBefore objects slot.slotId ∧
      objectCursor objects ((slots.take j).foldl (objectCursor objects) 0) slot =
        objectsBefore objects slot.slotId + objectsOf objects slot.slotId) ∧
    slots.foldl (objectCursor objects) 0 = objects.length := by
  refine Runs.found objectCursor_eq hslots hordered fun object hobject => ?_
  obtain ⟨slot, hslot, hid, -⟩ := hgranted object hobject
  exact ⟨slot, hslot, by rw [hid]⟩

theorem checkPopulated_eq_some {cursor next : ℕ} {slot : SlotSource} :
    checkPopulated objects cursor slot = some next ↔
      ((slot.state = stateAbsent → objectCursor objects cursor slot = cursor) ∧
        (slot.state = statePresent → objectCursor objects cursor slot ≠ cursor)) ∧
      objectCursor objects cursor slot = next := by
  refine Scan.guard_eq_some ?_
  rw [not_or, not_and, not_and, not_ne_iff]

theorem populated_pass_iff
    (hslots : (slots.map fun slot => slot.slotId.toNat).Pairwise (· < ·))
    (hordered : (objects.map fun object => object.slotId.toNat).Pairwise (· ≤ ·))
    (hgranted : ∀ object ∈ objects, Granted slots object) :
    slots.foldlM (checkPopulated objects) 0 = some objects.length ↔ Populated slots objects := by
  obtain ⟨hruns, hall⟩ := objectCursor_found hslots hordered hgranted
  rw [Scan.foldlM_eq_some_iff fun _ _ _ => checkPopulated_eq_some, and_iff_left hall,
    Scan.passes_iff_getElem?]
  -- the cursor moves at a slot exactly when the slot has objects
  have hmoves : ∀ j slot, slots[j]? = some slot →
      (objectCursor objects ((slots.take j).foldl (objectCursor objects) 0) slot =
        (slots.take j).foldl (objectCursor objects) 0 ↔ objectsOf objects slot.slotId = 0) := by
    intro j slot hslot
    obtain ⟨hcursor, hnext⟩ := hruns j slot hslot
    rw [hnext, hcursor]
    exact Nat.add_eq_left
  constructor
  · intro h slot hslot
    obtain ⟨j, hj⟩ := mem_iff_getElem?.mp hslot
    have hslot := h j slot hj
    rw [ne_eq, hmoves j slot hj] at hslot
    exact hslot
  · intro h j slot hj
    rw [ne_eq, hmoves j slot hj]
    exact h slot (mem_of_getElem? hj)

theorem Ruled.handlesOrdered (h : Ruled slots objects bindings) :
    (bindings.map fun binding => binding.objectId.toNat).Pairwise (· ≤ ·) := by
  have hpairs := pairwise_map.mp h.bindingsAscending
  refine pairwise_map.mpr (hpairs.imp fun {a b} hab => ?_)
  rcases hab with hlt | ⟨heq, -⟩
  · exact (UInt64.lt_iff_toNat_lt.mp hlt).le
  · exact (congrArg UInt64.toNat heq).le

theorem Ruled.handleCursor_found (h : Ruled slots objects bindings) :
    (∀ j object, objects[j]? = some object →
      (objects.take j).foldl (handleCursor bindings) 0 = handlesBefore bindings object.objectId ∧
      handleCursor bindings ((objects.take j).foldl (handleCursor bindings) 0) object =
        handlesBefore bindings object.objectId + handlesOf bindings object.objectId) ∧
    objects.foldl (handleCursor bindings) 0 = bindings.length := by
  refine Runs.found handleCursor_eq h.objectsAscending h.handlesOrdered fun binding hbinding => ?_
  obtain ⟨object, hobject, hid⟩ := (h.bindingsOwned binding hbinding).2
  exact ⟨object, hobject, by rw [hid]⟩

instance : IsTrans (UInt64 × UInt32) Precedes where
  trans a b c hab hbc := by
    simp only [Precedes, UInt64.lt_iff_toNat_lt, UInt32.lt_iff_toNat_lt,
      ← UInt64.toNat_inj] at *
    omega

theorem bindingPlaced_iff {index : ℕ} {prior : UInt64 × UInt32} {binding : HandleBinding} :
    bindingPlaced index prior binding = true ↔
      binding.transferHandleIndex.toNat = index ∧ ¬binding.objectId < prior.1 ∧
        ¬(binding.objectId = prior.1 ∧ (index = 0 ∨ binding.role ≤ prior.2)) := by
  simp only [bindingPlaced, Bool.not_eq_true', Bool.or_eq_false_iff, Bool.and_eq_false_iff,
    bne_eq_false_iff_eq, beq_eq_false_iff_ne, decide_eq_false_iff_not, ne_eq, not_and, not_or,
    and_assoc]
  tauto

theorem bindingPlaced_succ {index : ℕ} {prior : UInt64 × UInt32} {binding : HandleBinding}
    (hindex : index ≠ 0) :
    bindingPlaced index prior binding = true ↔
      binding.transferHandleIndex.toNat = index ∧
        Precedes prior binding.key := by
  rw [bindingPlaced_iff]
  refine and_congr_right fun _ => ?_
  simp only [Precedes, HandleBinding.key, UInt64.lt_iff_toNat_lt, UInt32.lt_iff_toNat_lt,
    UInt32.le_iff_toNat_le, ← UInt64.toNat_inj]
  omega

theorem passes_placed_iff (hpos : ∀ binding ∈ bindings, binding.objectId ≠ 0) :
    Scan.Passes (fun prior (entry : HandleBinding × ℕ) =>
        bindingPlaced entry.2 prior entry.1 = true)
      (fun _ entry => entry.1.key) bindings.zipIdx (0, 0) ↔
      (∀ entry ∈ bindings.zipIdx, entry.1.transferHandleIndex.toNat = entry.2) ∧
        (bindings.map HandleBinding.key).Pairwise Precedes := by
  cases bindings with
  | nil => exact ⟨fun _ => ⟨nofun, .nil⟩, fun _ => trivial⟩
  | cons first rest =>
    have hfirst : bindingPlaced 0 (0, 0) first = true ↔ first.transferHandleIndex.toNat = 0 := by
      rw [bindingPlaced_iff]
      refine and_iff_left ⟨UInt64.not_lt.mpr UInt64.zero_le, ?_⟩
      rintro ⟨hzero, -⟩
      exact hpos first mem_cons_self hzero
    have hrest : ∀ prior, ∀ entry ∈ rest.zipIdx 1, bindingPlaced entry.2 prior entry.1 = true ↔
        entry.1.transferHandleIndex.toNat = entry.2 ∧ Precedes prior entry.1.key := by
      intro prior entry hentry
      have hindex := le_snd_of_mem_zipIdx hentry
      exact bindingPlaced_succ (by omega)
    have hkeys : rest.map HandleBinding.key = (rest.zipIdx 1).map fun entry => entry.1.key := by
      conv_lhs => rw [← zipIdx_map_fst 1 rest, map_map]
      rfl
    rw [zipIdx_cons, Scan.Passes, hfirst, Scan.passes_congr hrest, Scan.passes_and,
      Scan.passes_forall,
      Scan.passes_prior Precedes (fun prior => prior)
        (fun entry : HandleBinding × ℕ => entry.1.key) fun _ _ => rfl,
      forall_mem_cons, map_cons, pairwise_cons, hkeys, forall_mem_map,
      and_assoc]

theorem bindings_pass_iff {step : UInt64 × UInt32 → HandleBinding × ℕ → Option (UInt64 × UInt32)}
    (hstep : ∀ prior entry next, step prior entry = some next ↔
      ((∃ object ∈ objects, object.objectId = entry.1.objectId) ∧
        bindingPlaced entry.2 prior entry.1 = true) ∧ entry.1.key = next)
    (hobjects : ∀ object ∈ objects, object.objectId ≠ 0) :
    (bindings.zipIdx.foldlM step (0, 0)).isSome = true ↔
      (∀ binding ∈ bindings, binding.objectId ≠ 0 ∧
        ∃ object ∈ objects, object.objectId = binding.objectId) ∧
      (∀ entry ∈ bindings.zipIdx, entry.1.transferHandleIndex.toNat = entry.2) ∧
      (bindings.map HandleBinding.key).Pairwise Precedes := by
  have hentries : (∀ entry ∈ bindings.zipIdx,
      ∃ object ∈ objects, object.objectId = entry.1.objectId) ↔
      ∀ binding ∈ bindings, binding.objectId ≠ 0 ∧
        ∃ object ∈ objects, object.objectId = binding.objectId := by
    conv_rhs => rw [← zipIdx_map_fst 0 bindings, forall_mem_map]
    refine forall₂_congr fun entry _ => ⟨fun howner => ⟨?_, howner⟩, And.right⟩
    obtain ⟨object, hobject, hid⟩ := howner
    exact hid ▸ hobjects object hobject
  rw [Scan.isSome_foldlM_iff hstep, Scan.passes_and, Scan.passes_forall, hentries]
  refine and_congr_right fun howned => ?_
  exact passes_placed_iff fun binding hbinding => (howned binding hbinding).1

theorem checkBinding_eq_some
    (hobjects : (objects.map fun object => object.objectId.toNat).Pairwise (· < ·))
    (prior : UInt64 × UInt32) (entry : HandleBinding × ℕ) (next : UInt64 × UInt32) :
    checkBinding objects prior entry = some next ↔
      ((∃ object ∈ objects, object.objectId = entry.1.objectId) ∧
        bindingPlaced entry.2 prior entry.1 = true) ∧ entry.1.key = next := by
  refine Scan.guard_eq_some ?_
  have hfind := BinarySearch.find_ne_none_iff hobjects entry.1.objectId.toNat
  simp only [UInt64.toNat_inj] at hfind
  rw [not_or, Bool.not_eq_false, ← ne_eq, sourceObjectIndex, hfind]

end Loops

/-- What `source_valid` checks. -/
structure Source.Valid (source : Source) : Prop where
  generation : source.generation ≠ 0
  digest : digestIsZero source.closureManifestDigest = false
  limits : ∀ t, source.count t ≤ t.limit
  ruled : Ruled source.slots source.objects source.handleBindings
  populated : Populated source.slots source.objects

theorem sourceValid_iff {source : Source} : sourceValid source = true ↔ source.Valid := by
  have hlimits : Section.all.all (fun t => decide (source.count t ≤ t.limit)) = true ↔
      ∀ t, source.count t ≤ t.limit := by
    simp only [all_eq_true, decide_eq_true_eq]
    exact ⟨fun h t => h t t.mem_all, fun h t _ => h t⟩
  simp only [sourceValid, Bool.and_eq_true, bne_iff_ne, Bool.not_eq_true', beq_iff_eq,
    hlimits, slots_pass_iff]
  constructor
  · rintro ⟨⟨⟨⟨⟨⟨hgeneration, hdigest⟩, hlimits⟩, hvalid, hslots⟩, hobjects⟩, hpopulated⟩, hbindings⟩
    obtain ⟨hgranted, hordered, hascending⟩ := (objects_pass_iff hvalid hslots).mp hobjects
    obtain ⟨howned, hindices, hkeys⟩ := (bindings_pass_iff (checkBinding_eq_some hascending)
      fun object hobject => (hgranted object hobject).1.objectId).mp hbindings
    refine ⟨hgeneration, hdigest, hlimits,
      ⟨hvalid, hslots, hgranted, hordered, hascending, howned, hindices, hkeys⟩, ?_⟩
    exact (populated_pass_iff hslots hordered fun object hobject =>
      (hgranted object hobject).2).mp hpopulated
  · rintro ⟨hgeneration, hdigest, hlimits, hruled, hpopulated⟩
    refine ⟨⟨⟨⟨⟨⟨hgeneration, hdigest⟩, hlimits⟩, hruled.slotsValid, hruled.slotsAscending⟩, ?_⟩,
      ?_⟩, ?_⟩
    · exact (objects_pass_iff hruled.slotsValid hruled.slotsAscending).mpr
        ⟨hruled.objectsGranted, hruled.objectsOrdered, hruled.objectsAscending⟩
    · exact (populated_pass_iff hruled.slotsAscending hruled.objectsOrdered
        fun object hobject => (hruled.objectsGranted object hobject).2).mpr hpopulated
    · exact (bindings_pass_iff (checkBinding_eq_some hruled.objectsAscending)
        fun object hobject => (hruled.objectsGranted object hobject).1.objectId).mpr
        ⟨hruled.bindingsOwned, hruled.indices, hruled.bindingsAscending⟩

end Kobox.Grant
