import Kobox.Grant.Image

/-!
# Grants have one encoding
-/

namespace Kobox.Grant
open ByteMemory Protocol Listing List
variable {source : Source} {bytes : List UInt8}

/-! ### Buffers that hold an image -/

/-- The buffer is the image of the contents. -/
structure Represents (bytes : List UInt8) (c : Contents) : Prop where
  size : bytes.length = c.size
  held : Held (ofList bytes) c.image

/-- The header's values and the tables' sizes are in range. -/
structure Contents.Bounded (c : Contents) : Prop where
  generation : c.generation ≠ 0
  digest : digestIsZero c.closureManifestDigest = false
  limits : ∀ t, c.count t ≤ t.limit

/-- The records are in range. -/
structure Contents.RecordsValid (c : Contents) : Prop where
  slots : ∀ slot ∈ c.slots, slot.Valid
  objects : ∀ object ∈ c.objects, object.Valid
  handleBindings : ∀ binding ∈ c.handleBindings, binding.objectId ≠ 0

namespace Contents.Bounded
variable {c : Contents}

theorem size_le (h : c.Bounded) : c.size ≤ uint32Max := by
  have hslots := h.limits .slots
  have hobjects := h.limits .objects
  have hbindings := h.limits .handleBindings
  simp only [Section.limit] at hslots hobjects hbindings
  simp only [size, tablesEnd, Section.all, foldl_cons, foldl_nil, Section.size,
    headerSize, uint32Max]
  omega

theorem offset_le (t : Section) : c.offset t ≤ c.size := by
  cases t <;> simp only [offset, size, tablesEnd, Section.all, Section.before, foldl_cons,
    foldl_nil] <;> omega

theorem count_le (t : Section) : c.count t ≤ c.size := by
  cases t <;> simp only [size, tablesEnd, Section.all, foldl_cons, foldl_nil,
    Section.size] <;> omega

theorem toNat_ofNat (h : c.Bounded) {n : ℕ} (hn : n ≤ c.size) : (UInt32.ofNat n).toNat = n :=
  UInt32.toNat_ofNat_of_lt' ((hn.trans h.size_le).trans_lt (by decide))

end Contents.Bounded

section Header
variable {bytes : List UInt8} {c : Contents}

theorem held_headerImage :
    Held (ofList bytes) c.headerImage ↔
      loadU32 (ofList bytes) 0 = .ofNat c.size ∧ Holds (ofList bytes) 4 abiIdentity ∧
      Holds (ofList bytes) 8 schemaDigest ∧ (ofHeader bytes).generation = c.generation ∧
      (ofHeader bytes).closureManifestDigest = c.closureManifestDigest ∧
      (∀ t, (ofHeader bytes).counts t = .ofNat (c.count t)) ∧
      (∀ t, (ofHeader bytes).offsets t = .ofNat (c.offset t)) ∧
      bytesAreZero (ofList bytes) 104 24 = true := by
  simp only [Contents.headerImage, held_cons, held_nil, holds_storeU32_iff, holds_storeU64_iff,
    holds_digest_iff, holds_zeros_iff, and_true, Section.forall_iff, and_assoc]
  rfl

theorem held_image :
    Held (ofList bytes) c.image ↔
      Held (ofList bytes) c.headerImage ∧
      (∀ j slot, c.slots[j]? = some slot →
        Held (ofList bytes) (slotImage (c.offset .slots + j * 64) slot)) ∧
      (∀ j object, c.objects[j]? = some object →
        Held (ofList bytes) (objectImage (c.offset .objects + j * 32) object)) ∧
      ∀ j binding, c.handleBindings[j]? = some binding →
        Held (ofList bytes) (bindingImage (c.offset .handleBindings + j * 16) binding) := by
  rw [Contents.image, held_append, held_append, held_append, held_tableImage, held_tableImage,
    held_tableImage, and_assoc, and_assoc]

theorem Reads.count (h : (ofHeader bytes).Reads c) (t : Section) :
    ((ofHeader bytes).counts t).toNat = c.count t := by
  cases t
  · exact h.slots.length.symm
  · exact h.objects.length.symm
  · exact h.handleBindings.length.symm

theorem represents_of_reads (hframed : (ofHeader bytes).Framed) (hreads : (ofHeader bytes).Reads c) :
    c.Bounded ∧ c.RecordsValid ∧ Represents bytes c := by
  have hcounts := hreads.count
  have hfun : (fun t => ((ofHeader bytes).counts t).toNat) = c.count := funext hcounts
  have hbounded : c.Bounded := ⟨hreads.generation ▸ hframed.generation,
    hreads.closureManifestDigest ▸ hframed.digest, fun t => hcounts t ▸ hframed.limits t⟩
  have hsize : bytes.length = c.size := by
    have hstop := hframed.stop
    rw [hfun] at hstop
    exact hstop.symm
  have hoffsets (t : Section) : ((ofHeader bytes).offsets t).toNat = c.offset t := by
    rw [hframed.offsets t, hfun]
    rfl
  have hfield {x : UInt32} {n : ℕ} (hn : n ≤ c.size) (hx : x.toNat = n) : x = .ofNat n := by
    rw [← UInt32.toNat_inj, hbounded.toNat_ofNat hn, hx]
  have hheader : Held (ofList bytes) c.headerImage := by
    refine held_headerImage.mpr ⟨hfield (le_refl _) (hframed.total.trans hsize), hframed.abi,
      hframed.schema, hreads.generation, hreads.closureManifestDigest, fun t => ?_, fun t => ?_,
      hframed.reserved⟩
    · exact hfield (Contents.Bounded.count_le t) (hcounts t)
    · exact hfield (Contents.Bounded.offset_le t) (hoffsets t)
  refine ⟨hbounded, ⟨fun slot hslot => hreads.slot_valid hslot,
    fun object hobject => hreads.object_valid hobject, fun binding hbinding => ?_⟩, hsize,
    held_image.mpr ⟨hheader, fun j slot hslot => ?_, fun j object hobject => ?_,
      fun j binding hbinding => ?_⟩⟩
  · obtain ⟨j, -, -, hread⟩ := hreads.handleBindings.of_mem hbinding
    exact (bindingAt_eq_ok.mp hread).2.2
  · rw [← hoffsets]
    exact (slotAt_eq_ok.mp (hreads.slotAt_iff.mpr hslot)).2.1
  · rw [← hoffsets]
    exact (objectAt_eq_ok.mp (hreads.objectAt_iff.mpr hobject)).2.1
  · rw [← hoffsets]
    exact (bindingAt_eq_ok.mp (hreads.bindingAt_iff.mpr hbinding)).2.1

theorem Represents.reads (h : Represents bytes c) (hbounded : c.Bounded)
    (hrecords : c.RecordsValid) : (ofHeader bytes).Framed ∧ (ofHeader bytes).Reads c := by
  obtain ⟨hheader, hslots, hobjects, hbindings⟩ := held_image.mp h.held
  obtain ⟨htotal, habi, hschema, hgeneration, hdigest, hcounts, hoffsets, hreserved⟩ :=
    held_headerImage.mp hheader
  have hcount (t : Section) : ((ofHeader bytes).counts t).toNat = c.count t := by
    rw [hcounts, hbounded.toNat_ofNat (Contents.Bounded.count_le t)]
  have hoffset (t : Section) : ((ofHeader bytes).offsets t).toNat = c.offset t := by
    rw [hoffsets, hbounded.toNat_ofNat (Contents.Bounded.offset_le t)]
  have hfun : (fun t => ((ofHeader bytes).counts t).toNat) = c.count := funext hcount
  have hlength : (ofHeader bytes).bytes.length = c.size := h.size
  constructor
  · exact
      { high := hlength ▸ hbounded.size_le
        abi := habi
        schema := hschema
        total := by
          rw [hlength, ← hbounded.toNat_ofNat (le_refl _), ← htotal]
          rfl
        reserved := hreserved
        limits := fun t => hcount t ▸ hbounded.limits t
        offsets := fun t => by
          rw [hoffset, hfun]
          rfl
        stop := by
          rw [hfun, hlength]
          rfl
        generation := hgeneration ▸ hbounded.generation
        digest := hdigest ▸ hbounded.digest }
  · refine ⟨hgeneration, hdigest, ⟨(hcount .slots).symm, fun {j slot} hslot => ?_⟩,
      ⟨(hcount .objects).symm, fun {j object} hobject => ?_⟩,
      ⟨(hcount .handleBindings).symm, fun {j binding} hbinding => ?_⟩⟩
    · refine slotAt_eq_ok.mpr ⟨?_, ?_, hrecords.slots slot (List.mem_of_getElem? hslot)⟩
      · rw [hcount]
        exact (List.getElem?_eq_some_iff.mp hslot).1
      · rw [record, hoffset]
        exact hslots j slot hslot
    · refine objectAt_eq_ok.mpr ⟨?_, ?_, hrecords.objects object (List.mem_of_getElem? hobject)⟩
      · rw [hcount]
        exact (List.getElem?_eq_some_iff.mp hobject).1
      · rw [record, hoffset]
        exact hobjects j object hobject
    · refine bindingAt_eq_ok.mpr
        ⟨?_, ?_, hrecords.handleBindings binding (List.mem_of_getElem? hbinding)⟩
      · rw [hcount]
        exact (List.getElem?_eq_some_iff.mp hbinding).1
      · rw [record, hoffset]
        exact hbindings j binding hbinding

end Header

/-! ### What the decoder accepts -/

theorem Source.Valid.bounded (h : source.Valid) : source.contents.Bounded := by
  refine ⟨h.generation, h.digest, fun t => ?_⟩
  rw [source.contents_count]
  exact h.limits t

theorem Source.Valid.recordsValid (h : source.Valid) :
    source.contents.RecordsValid := by
  refine ⟨forall_mem_map.mpr h.ruled.slotsValid,
    forall_mem_map.mpr fun object hobject => (h.ruled.objectsGranted object hobject).1,
    fun binding hbinding => (h.ruled.bindingsOwned binding hbinding).1⟩

theorem decodeBuffer_eq_ok {grant : Grant} :
    decodeBuffer bytes = .ok grant ↔
      grant = ofHeader bytes ∧ ∃ source : Source, source.Valid ∧ Represents bytes source.contents := by
  have hsplit : decodeBuffer bytes = .ok grant ↔
      decodeHeader bytes = .ok grant ∧ grant.tablesValid = true := by
    unfold decodeBuffer
    cases decodeHeader bytes with
    | error status => simp
    | ok grant' =>
      dsimp only
      constructor
      · intro h
        split_ifs at h with hvalid
        obtain rfl := Except.ok.inj h
        exact ⟨rfl, hvalid⟩
      · rintro ⟨h, hvalid⟩
        obtain rfl := Except.ok.inj h
        rw [if_pos hvalid]
  rw [hsplit, decodeHeader_eq_ok, tablesValid_iff]
  constructor
  · rintro ⟨⟨rfl, hframed⟩, c, hreads, hruled, hpopulated, hranged⟩
    obtain ⟨hbounded, -, hrepresents⟩ := represents_of_reads hframed hreads
    refine ⟨rfl, c.source, ?_, hranged.contents_source.symm ▸ hrepresents⟩
    refine ⟨hbounded.generation, hbounded.digest, fun t => ?_, hruled, hpopulated⟩
    rw [← c.source.contents_count, hranged.contents_source]
    exact hbounded.limits t
  · rintro ⟨rfl, source, hvalid, hrepresents⟩
    obtain ⟨hframed, hreads⟩ := hrepresents.reads hvalid.bounded hvalid.recordsValid
    refine ⟨⟨rfl, hframed⟩, source.contents, hreads, ?_⟩
    rw [source.contents_source]
    exact ⟨hvalid.ruled, hvalid.populated, source.contents_ranged hvalid.limits⟩

theorem decodeBuffer_ne_ok : decodeBuffer bytes ≠ .error .ok := by
  have hheader : decodeHeader bytes ≠ .error .ok := by
    unfold decodeHeader
    dsimp only
    repeat' split
    all_goals exact nofun
  unfold decodeBuffer
  split
  · rename_i h
    exact fun hstatus => hheader (h.trans hstatus)
  · split_ifs <;> exact nofun

theorem decode_ok_iff {out : Grant} :
    (decode (some bytes) out).1 = .ok ↔
      ∃ source : Source, source.Valid ∧ Represents bytes source.contents := by
  unfold decode
  dsimp only
  cases h : decodeBuffer bytes with
  | ok grant => exact iff_of_true rfl (decodeBuffer_eq_ok.mp h).2
  | error status =>
    constructor
    · intro hstatus
      obtain rfl : status = .ok := hstatus
      exact absurd h decodeBuffer_ne_ok
    · intro hsource
      rw [decodeBuffer_eq_ok.mpr ⟨rfl, hsource⟩] at h
      cases h

theorem Represents.decode_reads (h : Represents bytes source.contents) (hvalid : source.Valid)
    (out : Grant) (c : Contents) :
    (decode (some bytes) out).2.Reads c ↔ c = source.contents := by
  have hreads := (h.reads hvalid.bounded hvalid.recordsValid).2
  have hdecode : (decode (some bytes) out).2 = ofHeader bytes := by
    rw [decode, decodeBuffer_eq_ok.mpr ⟨rfl, source, hvalid, h⟩]
  rw [hdecode]
  constructor
  · exact fun hc => hc.unique hreads
  · rintro rfl
    exact hreads

theorem Represents.unique {bytes' : List UInt8} (h : Represents bytes source.contents)
    (hvalid : source.Valid) (h' : Represents bytes' source.contents) : bytes = bytes' :=
  (fills_storeGrant hvalid).unique h.size h'.size h.held h'.held

variable {size : ℕ}

theorem sourceSize_eq_some :
    sourceSize source = some size ↔ source.Valid ∧ size = source.contents.size := by
  have hsum {result : ℕ} : Section.all.foldlM (fun size t => addSize size (source.count t) t.size)
      headerSize = some result ↔ result = source.contents.size ∧ result ≤ sizeMax := by
    have hnext : ∀ (size : ℕ) (t : Section), size ≤ size + source.count t * t.size :=
      fun _ _ => Nat.le_add_right _ _
    have hstep : ∀ (size : ℕ) (t : Section) (result : ℕ), size ≤ sizeMax →
        (addSize size (source.count t) t.size = some result ↔
          True ∧ result = size + source.count t * t.size ∧ result ≤ sizeMax) := by
      intro size t result hsize
      rw [addSize_eq_some hsize, true_and]
    rw [foldlM_eq_some hnext hstep (by decide), Contents.size, source.contents_count]
    exact and_iff_right fun _ _ => trivial
  unfold sourceSize
  constructor
  · intro h
    split_ifs at h with hvalid
    obtain ⟨total, htotal, hlast⟩ := Option.bind_eq_some_iff.mp h
    split_ifs at hlast
    obtain rfl := Option.some.inj hlast
    exact ⟨sourceValid_iff.mp hvalid, (hsum.mp htotal).1⟩
  · rintro ⟨hvalid, rfl⟩
    have hsize := hvalid.bounded.size_le
    have hmax : source.contents.size ≤ sizeMax := hsize.trans (by decide)
    rw [if_pos (sourceValid_iff.mpr hvalid), hsum.mpr ⟨rfl, hmax⟩]
    exact if_pos hsize

theorem encode_eq_ok {buffer result : List UInt8} :
    encode buffer source = .ok (result, size) ↔
      source.Valid ∧ size = source.contents.size ∧ size ≤ buffer.length ∧
        result = read (storeAll (cleared buffer size) (storeGrant source size)) 0 buffer.length := by
  have hsize {n : ℕ} : encodedSize source = .ok n ↔ source.Valid ∧ n = source.contents.size := by
    rw [← sourceSize_eq_some, encodedSize]
    cases sourceSize source <;> simp
  unfold encode
  constructor
  · intro h
    split at h
    · cases h
    · rename_i n hn
      split_ifs at h with hfits
      obtain ⟨rfl, rfl⟩ := Prod.mk.inj (Except.ok.inj h)
      obtain ⟨hvalid, hn⟩ := hsize.mp hn
      exact ⟨hvalid, hn, Nat.not_lt.mp hfits, rfl⟩
  · rintro ⟨hvalid, rfl, hfits, rfl⟩
    rw [hsize.mpr ⟨hvalid, rfl⟩]
    exact if_neg (Nat.not_lt.mpr hfits)

theorem represents_iff_encode {buffer result : List UInt8}
    (h : encode buffer source = .ok (result, size)) :
    result.take size = bytes ↔ Represents bytes source.contents := by
  obtain ⟨hvalid, rfl, hfits, rfl⟩ := encode_eq_ok.mp h
  rw [(fills_storeGrant hvalid).encoded_iff hfits]
  exact ⟨fun ⟨hsize, hheld⟩ => ⟨hsize, hheld⟩, fun h => ⟨h.size, h.held⟩⟩

/-- Decoding accepts what encoding makes and reads its source, and a grant has one encoding. -/
theorem grant_codec_bijective :
    (∀ (bytes : List UInt8) (out : Grant), (decode (some bytes) out).1 = .ok ↔
      ∃ source buffer result size, sourceValid source = true ∧
        encode buffer source = .ok (result, size) ∧ result.take size = bytes) ∧
    (∀ source buffer result size out c, encode buffer source = .ok (result, size) →
      (decode (some (result.take size)) out).1 = .ok ∧
        ((decode (some (result.take size)) out).2.Reads c ↔ c = source.contents) ∧
        source.contents.source = source ∧ source.contents.Ranged) ∧
    (∀ source, sourceValid source = true → ∃ size, ∀ buffer : List UInt8, size ≤ buffer.length →
      ∃ result, encode buffer source = .ok (result, size)) ∧
    ∀ (bytes bytes' : List UInt8) (out out' : Grant) (c : Contents),
      (decode (some bytes) out).1 = .ok → (decode (some bytes') out').1 = .ok →
      (decode (some bytes) out).2.Reads c → (decode (some bytes') out').2.Reads c →
      bytes = bytes' := by
  refine ⟨fun bytes out => ?_, fun source buffer result size out c h => ?_, fun source hvalid => ?_,
    fun bytes bytes' out out' c h h' hreads hreads' => ?_⟩
  · rw [decode_ok_iff]
    constructor
    · rintro ⟨source, hvalid, hrepresents⟩
      have hencode := encode_eq_ok.mpr ⟨hvalid, rfl, hrepresents.size.ge, rfl⟩
      exact ⟨source, bytes, _, _, sourceValid_iff.mpr hvalid, hencode,
        (represents_iff_encode hencode).mpr hrepresents⟩
    · rintro ⟨source, buffer, result, size, hvalid, hencode, hbytes⟩
      exact ⟨source, sourceValid_iff.mp hvalid, (represents_iff_encode hencode).mp hbytes⟩
  · have hvalid := (encode_eq_ok.mp h).1
    have hrepresents := (represents_iff_encode h).mp rfl
    exact ⟨decode_ok_iff.mpr ⟨source, hvalid, hrepresents⟩,
      hrepresents.decode_reads hvalid out c, source.contents_source,
      source.contents_ranged hvalid.limits⟩
  · refine ⟨source.contents.size, fun buffer hfits => ?_⟩
    exact ⟨_, encode_eq_ok.mpr ⟨sourceValid_iff.mp hvalid, rfl, hfits, rfl⟩⟩
  · obtain ⟨source, hvalid, hrepresents⟩ := decode_ok_iff.mp h
    obtain ⟨source', hvalid', hrepresents'⟩ := decode_ok_iff.mp h'
    have hc := (hrepresents.decode_reads hvalid out c).mp hreads
    have hc' := (hrepresents'.decode_reads hvalid' out' c).mp hreads'
    exact hrepresents.unique hvalid ((hc'.symm.trans hc) ▸ hrepresents')

end Kobox.Grant
