import Kobox.Grant.Access
import Kobox.Library.Images

/-!
# The image of a grant
-/

namespace Kobox.Grant
open ByteMemory Protocol Listing List

theorem Section.forall_iff {p : Section → Prop} :
    (∀ t, p t) ↔ p .slots ∧ p .objects ∧ p .handleBindings := by
  constructor
  · exact fun h => ⟨h _, h _, h _⟩
  · rintro ⟨hslots, hobjects, hbindings⟩ t
    cases t
    · exact hslots
    · exact hobjects
    · exact hbindings

/-- The checks of the header. -/
structure Framed (grant : Grant) : Prop where
  high : grant.bytes.length ≤ uint32Max
  abi : Holds grant.memory 4 abiIdentity
  schema : Holds grant.memory 8 schemaDigest
  total : (loadU32 grant.memory 0).toNat = grant.bytes.length
  reserved : bytesAreZero grant.memory 104 24 = true
  limits : ∀ t, (grant.counts t).toNat ≤ t.limit
  offsets : ∀ t, (grant.offsets t).toNat = tablesEnd (fun t => (grant.counts t).toNat) t.before
  stop : tablesEnd (fun t => (grant.counts t).toNat) Section.all = grant.bytes.length
  generation : grant.generation ≠ 0
  digest : digestIsZero grant.closureManifestDigest = false

theorem checkOffsets_eq_some {grant : Grant} {stop : ℕ} :
    checkOffsets grant Section.all headerSize = some stop ↔
      (∀ t, (grant.counts t).toNat ≤ t.limit) ∧
        (∀ t, (grant.offsets t).toNat =
          tablesEnd (fun t => (grant.counts t).toNat) t.before) ∧
        stop = tablesEnd (fun t => (grant.counts t).toNat) Section.all ∧ stop ≤ grant.size := by
  simp only [checkOffsets, Section.all, tablesEnd, Section.before, Section.forall_iff,
    foldl_cons, foldl_nil]
  split_ifs <;> simp only [Option.some.injEq, false_iff] <;> omega

theorem headerSize_le_tablesEnd (counts : Section → ℕ) :
    headerSize ≤ tablesEnd counts Section.all := by
  simp only [tablesEnd, Section.all, foldl_cons, foldl_nil]
  omega

theorem decodeHeader_eq_ok {buffer : List UInt8} {grant : Grant} :
    decodeHeader buffer = .ok grant ↔ grant = ofHeader buffer ∧ grant.Framed := by
  constructor
  · intro h
    unfold decodeHeader at h
    dsimp only at h
    split_ifs at h with hlow hhigh hidentity htotal
    split at h
    · cases h
    · rename_i stop hoffsets
      split_ifs at h with hrest
      obtain rfl := Except.ok.inj h
      obtain ⟨hlimits, hoffsets, hstop, -⟩ := checkOffsets_eq_some.mp hoffsets
      simp only [not_or, not_not, Bool.not_eq_false, Bool.not_eq_true] at hidentity htotal hrest
      exact ⟨rfl, Nat.not_lt.mp hhigh, hidentity.1, hidentity.2, htotal.1, htotal.2, hlimits,
        hoffsets, hstop.symm.trans hrest.1, hrest.2.1, hrest.2.2⟩
  · rintro ⟨rfl, h⟩
    have hlength : (ofHeader buffer).bytes.length = buffer.length := rfl
    have hlow : headerSize ≤ buffer.length := h.stop ▸ headerSize_le_tablesEnd _
    have hoffsets := checkOffsets_eq_some.mpr
      ⟨h.limits, h.offsets, h.stop.symm, (le_refl (ofHeader buffer).size)⟩
    have habi : read (ofList buffer) 4 4 = abiIdentity := h.abi
    have hschema : read (ofList buffer) 8 32 = schemaDigest := h.schema
    have htotal : (loadU32 (ofList buffer) 0).toNat = buffer.length := h.total
    have hreserved : bytesAreZero (ofList buffer) 104 24 = true := h.reserved
    have hhigh : buffer.length ≤ uint32Max := h.high
    unfold decodeHeader
    dsimp only
    rw [if_neg (Nat.not_lt.mpr hlow), if_neg (Nat.not_lt.mpr hhigh),
      if_neg (not_or.mpr ⟨not_not.mpr habi, not_not.mpr hschema⟩),
      if_neg (not_or.mpr ⟨not_not.mpr htotal, by rw [hreserved]; exact nofun⟩), hoffsets]
    dsimp only
    rw [if_neg]
    simp only [not_or, not_not, Bool.not_eq_true]
    exact ⟨hlength, h.generation, h.digest⟩

/-! ### The image -/

def SlotSource.placed (objects : List ObjectSource) (slot : SlotSource) : Slot where
  toSlotSource := slot
  objectStart := .ofNat (objectsBefore objects slot.slotId)
  objectCount := .ofNat (objectsOf objects slot.slotId)

def ObjectSource.placed (bindings : List HandleBinding) (object : ObjectSource) : Object where
  toObjectSource := object
  handleStart := .ofNat (handlesBefore bindings object.objectId)
  handleCount := .ofNat (handlesOf bindings object.objectId)

def Source.contents (source : Source) : Contents where
  generation := source.generation
  closureManifestDigest := source.closureManifestDigest
  slots := source.slots.map (SlotSource.placed source.objects)
  objects := source.objects.map (ObjectSource.placed source.handleBindings)
  handleBindings := source.handleBindings

namespace Contents

def count (c : Contents) : Section → ℕ
  | .slots => c.slots.length
  | .objects => c.objects.length
  | .handleBindings => c.handleBindings.length

def offset (c : Contents) (t : Section) : ℕ := tablesEnd c.count t.before

def size (c : Contents) : ℕ := tablesEnd c.count Section.all

def headerImage (c : Contents) : List Store :=
  [⟨0, storeU32 (.ofNat c.size)⟩, ⟨4, abiIdentity⟩, ⟨8, schemaDigest⟩,
    ⟨40, storeU64 c.generation⟩, ⟨48, c.closureManifestDigest.bytes⟩,
    ⟨80, storeU32 (.ofNat (c.count .slots))⟩, ⟨84, storeU32 (.ofNat (c.count .objects))⟩,
    ⟨88, storeU32 (.ofNat (c.count .handleBindings))⟩, ⟨92, storeU32 (.ofNat (c.offset .slots))⟩,
    ⟨96, storeU32 (.ofNat (c.offset .objects))⟩,
    ⟨100, storeU32 (.ofNat (c.offset .handleBindings))⟩, .zeros 104 24]

def image (c : Contents) : List Store :=
  c.headerImage ++ tableImage 64 slotImage c.slots (c.offset .slots) ++
    tableImage 32 objectImage c.objects (c.offset .objects) ++
    tableImage 16 bindingImage c.handleBindings (c.offset .handleBindings)

theorem Ranged.contents_source {c : Contents} (h : c.Ranged) : c.source.contents = c := by
  obtain ⟨generation, digest, slots, objects, bindings⟩ := c
  have hslots : slots.map (SlotSource.placed (objects.map Object.toObjectSource) ∘
      Slot.toSlotSource) = slots := by
    refine (map_congr_left (g := id) fun slot hslot => ?_).trans (map_id _)
    obtain ⟨hstart, hcount⟩ := h.slots slot hslot
    simp only [source] at hstart hcount
    rw [Function.comp_apply, SlotSource.placed, ← hstart, ← hcount, UInt32.ofNat_toNat,
      UInt32.ofNat_toNat, id]
  have hobjects : objects.map (ObjectSource.placed bindings ∘ Object.toObjectSource) =
      objects := by
    refine (map_congr_left (g := id) fun object hobject => ?_).trans (map_id _)
    obtain ⟨hstart, hcount⟩ := h.objects object hobject
    rw [Function.comp_apply, ObjectSource.placed, ← hstart, ← hcount, UInt32.ofNat_toNat,
      UInt32.ofNat_toNat, id]
  simp only [Source.contents, source, map_map, hslots, hobjects]

end Contents

namespace Source
variable (source : Source)

theorem contents_source : source.contents.source = source := by
  simp only [contents, Contents.source, map_map]
  rw [show Slot.toSlotSource ∘ SlotSource.placed source.objects = id from rfl, map_id,
    show Object.toObjectSource ∘ ObjectSource.placed source.handleBindings = id from rfl,
    map_id]

theorem contents_count : source.contents.count = source.count := by
  funext t
  cases t
  · exact length_map _
  · exact length_map _
  · rfl

theorem contents_offset (t : Section) : source.contents.offset t = source.offset t := by
  rw [Contents.offset, contents_count, offset]

theorem contents_ranged (h : ∀ t, source.count t ≤ t.limit) : source.contents.Ranged := by
  have hobjects := h .objects
  have hbindings := h .handleBindings
  simp only [count, Section.limit] at hobjects hbindings
  have hfits {n : ℕ} (hn : n ≤ 65536) : (UInt32.ofNat n).toNat = n :=
    UInt32.toNat_ofNat_of_lt' (hn.trans_lt (by decide))
  constructor
  · rw [contents_source]
    refine forall_mem_map.mpr fun slot _ => ⟨hfits ?_, hfits ?_⟩
    · exact (Runs.before_le _ _).trans (by rw [length_map]; exact hobjects)
    · exact (Runs.size_le _ _).trans (by rw [length_map]; exact hobjects)
  · refine forall_mem_map.mpr fun object _ => ⟨hfits ?_, hfits ?_⟩
    · exact (Runs.before_le _ _).trans (by rw [length_map]; exact hbindings)
    · exact (Runs.size_le _ _).trans (by rw [length_map]; exact hbindings)

end Source

section Encoder
variable {source : Source}

theorem fills_storeHeader (source : Source) :
    Fills (storeHeader source source.contents.size) source.contents.headerImage 0 headerSize := by
  rw [Contents.headerImage, source.contents_count, source.contents_offset, source.contents_offset,
    source.contents_offset]
  exact .cons 4 rfl <| .cons 4 rfl <| .cons 32 rfl <| .cons 8 rfl <|
    .cons 32 (Digest.bytes_length _) <| .cons 4 rfl <| .cons 4 rfl <| .cons 4 rfl <|
    .cons 4 rfl <| .cons 4 rfl <| .cons 4 rfl <| .skip <| .nil 128

theorem fills_storeSlot (objects : List ObjectSource) (record start : ℕ) (slot : SlotSource) :
    Fills (storeSlot objects record start slot) (slotImage record
      ⟨slot, .ofNat start, .ofNat (objectCursor objects start slot - start)⟩) record (record + 64) :=
  .cons 4 rfl <| .cons 4 rfl <| .cons 4 rfl <| .cons 4 rfl <| .cons 4 rfl <| .skip <|
    .cons 32 (Digest.bytes_length _) <| .nil _

theorem fills_storeObject (bindings : List HandleBinding) (record start : ℕ)
    (object : ObjectSource) :
    Fills (storeObject bindings record start object) (objectImage record
      ⟨object, .ofNat start, .ofNat (handleCursor bindings start object - start)⟩) record
      (record + 32) :=
  .cons 4 rfl <| .skip <| .cons 8 rfl <| .cons 8 rfl <| .cons 4 rfl <| .cons 4 rfl <| .nil _

theorem fills_storeBinding (record : ℕ) (binding : HandleBinding) :
    Fills (storeBinding record () binding) (bindingImage record binding) record (record + 16) :=
  .cons 8 rfl <| .cons 4 rfl <| .cons 4 rfl <| .nil _

theorem fills_storeGrant (h : source.Valid) :
    Fills (storeGrant source source.contents.size) source.contents.image 0
      source.contents.size := by
  have hslots := fills_emitTable (objectCursor source.objects)
    (fun slot (_ : slot ∈ source.slots) record start =>
      fills_storeSlot source.objects record start slot) (source.offset .slots) 0
  have hobjects := fills_emitTable (handleCursor source.handleBindings)
    (fun object (_ : object ∈ source.objects) record start =>
      fills_storeObject source.handleBindings record start object) (source.offset .objects) 0
  have hbindings := fills_emitTable (fun _ _ => ())
    (fun binding (_ : binding ∈ source.handleBindings) record (_ : Unit) =>
      fills_storeBinding record binding) (source.offset .handleBindings) ()
  have hslotCursors := (objectCursor_found h.ruled.slotsAscending h.ruled.objectsOrdered
    fun object hobject => (h.ruled.objectsGranted object hobject).2).1
  have hobjectCursors := h.ruled.handleCursor_found.1
  rw [emitTable_eq_tableImage (g := SlotSource.placed source.objects)] at hslots
  · rw [emitTable_eq_tableImage (g := ObjectSource.placed source.handleBindings)] at hobjects
    · have hall := (((fills_storeHeader source).append hslots).append hobjects).append hbindings
      have hsize : source.contents.size =
          source.offset .handleBindings + source.handleBindings.length * 16 := by
        rw [Contents.size, source.contents_count]
        rfl
      rw [← hsize] at hall
      rw [Contents.image, source.contents_offset, source.contents_offset, source.contents_offset]
      exact hall
    · intro j object hobject
      obtain ⟨hstart, hnext⟩ := hobjectCursors j object hobject
      rw [ObjectSource.placed, hnext, hstart, Nat.add_sub_cancel_left]
  · intro j slot hslot
    obtain ⟨hstart, hnext⟩ := hslotCursors j slot hslot
    rw [SlotSource.placed, hnext, hstart, Nat.add_sub_cancel_left]

end Encoder

end Kobox.Grant
