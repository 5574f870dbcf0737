import Kobox.Protocol.Accepted
import Kobox.Protocol.Descriptor

/-!
# Channel descriptors have one encoding
-/

namespace Kobox.Protocol.Descriptor
open ByteMemory Listing List
variable {model : Model} {size : ℕ}

/-! ### Images -/

def queueImage (record : ℕ) (queue : Queue) : List Store :=
  encodeQueue record queue ++ [.zeros (record + 60) 4]

def regionImage (record : ℕ) (region : Region) : List Store :=
  encodeRegion record region ++ [.zeros (record + 24) 8]

def headerImage (model : Model) : List Store :=
  encodeHeader model ++ [.zeros 88 4, .zeros 92 4]

def modelImage (model : Model) : List Store :=
  headerImage model ++
    tableImage queueDescriptorSize queueImage model.queues headerSize ++
    tableImage regionDescriptorSize regionImage model.regions model.regionTableOffset

theorem fills_queue (record : ℕ) (queue : Queue) :
    Fills (encodeQueue record queue) (queueImage record queue) record (record + 64) :=
  .cons 4 rfl <| .cons 4 rfl <| .cons 4 rfl <| .cons 4 rfl <| .cons 8 rfl <| .cons 8 rfl <|
    .cons 8 rfl <| .cons 4 rfl <| .cons 4 rfl <| .cons 4 rfl <| .cons 4 rfl <| .cons 4 rfl <|
    .skip <| .nil _

theorem fills_region (record : ℕ) (region : Region) :
    Fills (encodeRegion record region) (regionImage record region) record (record + 32) :=
  .cons 4 rfl <| .cons 4 rfl <| .cons 8 rfl <| .cons 8 rfl <| .skip <| .nil _

theorem fills_header (model : Model) :
    Fills (encodeHeader model) (headerImage model) 0 headerSize :=
  .cons 4 rfl <| .cons 4 rfl <| .cons 32 rfl <| .cons 8 rfl <| .cons 8 rfl <| .cons 8 rfl <|
    .cons 4 rfl <| .cons 4 rfl <| .cons 4 rfl <| .cons 4 rfl <| .cons 4 rfl <| .cons 4 rfl <|
    .skip <| .skip <| .nil _

theorem fills_model (model : Model) :
    Fills (encodeModel model) (modelImage model) 0 model.size :=
  ((fills_header model).append (fills_tableImage (fun queue _ record => fills_queue record queue) _)
    |>.append (fills_tableImage (fun region _ record => fills_region record region) _))

def format : Format Model := ⟨Model.size, encodeModel, modelImage, fills_model⟩

section Held
variable {memory : Memory} {record : ℕ}

theorem decodeQueue_eq_some {queue : Queue} :
    decodeQueue memory record = some queue ↔ Held memory (queueImage record queue) := by
  simp only [queueImage, encodeQueue, cons_append, nil_append, held_cons, held_nil,
    holds_storeU32_iff, holds_storeU64_iff, holds_zeros_iff32, and_true]
  unfold decodeQueue
  obtain ⟨⟩ := queue
  split_ifs with hreserved
  · simp [hreserved]
  · simp [not_not.mp hreserved]

theorem decodeRegion_eq_some {region : Region} :
    decodeRegion memory record = some region ↔ Held memory (regionImage record region) := by
  simp only [regionImage, encodeRegion, cons_append, nil_append, held_cons, held_nil,
    holds_storeU32_iff, holds_storeU64_iff, holds_zeros_iff64, and_true]
  unfold decodeRegion
  obtain ⟨⟩ := region
  split_ifs with hreserved
  · simp [hreserved]
  · simp [not_not.mp hreserved]

theorem held_headerImage :
    Held memory (headerImage model) ↔
      loadU32 memory 0 = .ofNat model.size ∧ Holds memory 4 abiIdentity ∧
      Holds memory 8 schemaDigest ∧ decodeChannel memory = model.channel ∧
      loadU32 memory 72 = .ofNat model.queues.length ∧
      loadU32 memory 76 = .ofNat model.regions.length ∧
      loadU32 memory 80 = .ofNat headerSize ∧
      loadU32 memory 84 = .ofNat model.regionTableOffset ∧
      loadU32 memory 88 = 0 ∧ loadU32 memory 92 = 0 := by
  obtain ⟨⟨⟩, queues, regions⟩ := model
  simp only [headerImage, encodeHeader, cons_append, nil_append, held_cons, held_nil,
    holds_storeU32_iff, holds_storeU64_iff, holds_zeros_iff32, and_true, decodeChannel,
    Channel.mk.injEq, and_assoc]

theorem held_modelImage :
    Held memory (modelImage model) ↔
      Held memory (headerImage model) ∧
      Lists (fun i queue => decodeQueue memory (headerSize + i * queueDescriptorSize) = some queue)
        model.queues.length model.queues ∧
      Lists (fun i region =>
          decodeRegion memory (model.regionTableOffset + i * regionDescriptorSize) = some region)
        model.regions.length model.regions := by
  rw [modelImage, held_append, held_append, held_tableImage, held_tableImage, and_assoc]
  simp only [← decodeQueue_eq_some, ← decodeRegion_eq_some]
  refine and_congr_right fun _ => and_congr ?_ ?_
  · exact ⟨fun h => ⟨rfl, fun {i x} hx => h i x hx⟩, fun h i x hx => h.entry hx⟩
  · exact ⟨fun h => ⟨rfl, fun {i x} hx => h i x hx⟩, fun h i x hx => h.entry hx⟩

end Held

/-! ### The encoder -/

theorem encodedSize_eq_ok {queueCount regionCount : ℕ} :
    encodedSize queueCount regionCount = .ok size ↔
      ((minQueues ≤ queueCount ∧ queueCount ≤ maxQueues) ∧
        1 ≤ regionCount ∧ regionCount ≤ maxRegions) ∧
      size = headerSize + queueCount * queueDescriptorSize + regionCount * regionDescriptorSize := by
  have hcounts : ¬(queueCount < minQueues ∨ queueCount > maxQueues ∨ regionCount = 0 ∨
      regionCount > maxRegions) ↔ (minQueues ≤ queueCount ∧ queueCount ≤ maxQueues) ∧
        1 ≤ regionCount ∧ regionCount ≤ maxRegions := by omega
  rw [← hcounts, encodedSize]
  split
  · rename_i hbad
    simp [hbad]
  · rename_i hbad
    have hbound := hcounts.mp hbad
    simp only [maxQueues, maxRegions] at hbound
    have hsizes : sizeMax = 2 ^ 64 - 1 := rfl
    have hqueues : addSize headerSize queueCount queueDescriptorSize =
        some (headerSize + queueCount * queueDescriptorSize) := by
      refine (addSize_eq_some (by decide)).mpr ⟨rfl, ?_⟩
      simp only [headerSize, queueDescriptorSize]
      omega
    have hregions : addSize (headerSize + queueCount * queueDescriptorSize) regionCount
        regionDescriptorSize = some (headerSize + queueCount * queueDescriptorSize +
          regionCount * regionDescriptorSize) := by
      refine (addSize_eq_some ?_).mpr ⟨rfl, ?_⟩
      · simp only [headerSize, queueDescriptorSize]
        omega
      · simp only [headerSize, queueDescriptorSize, regionDescriptorSize]
        omega
    have hfits : ¬headerSize + queueCount * queueDescriptorSize +
        regionCount * regionDescriptorSize > uint32Max := by
      simp only [headerSize, queueDescriptorSize, regionDescriptorSize, uint32Max]
      omega
    rw [hqueues, Option.bind_some, hregions]
    dsimp only
    rw [if_neg hfits, Except.ok.injEq]
    exact ⟨fun h => ⟨hbad, h.symm⟩, fun h => h.2.symm⟩

def Model.Valid (model : Model) : Prop :=
  channelValidate model.channel model.queues model.regions = .ok

section Valid
variable {model : Model}

theorem valid_iff :
    model.Valid ↔ validateChannelModel model.channel model.queues model.regions = true :=
  channelValidate_iff

theorem Model.Valid.encodedSize (h : model.Valid) :
    encodedSize model.queues.length model.regions.length = .ok model.size := by
  obtain ⟨-, hqueues, hregions, -⟩ := validateChannelModel_iff.mp (valid_iff.mp h)
  exact encodedSize_eq_ok.mpr ⟨⟨hqueues, hregions⟩, rfl⟩

theorem Model.Valid.toNat_ofNat (h : model.Valid) {n : ℕ} (hn : n ≤ model.size) :
    (UInt32.ofNat n).toNat = n := by
  obtain ⟨⟨⟨-, hqueues⟩, -, hregions⟩, -⟩ := encodedSize_eq_ok.mp h.encodedSize
  refine UInt32.toNat_ofNat_of_lt' (hn.trans_lt ?_)
  simp only [maxQueues, maxRegions] at hqueues hregions
  simp only [size, regionTableOffset, headerSize, queueDescriptorSize, regionDescriptorSize,
    UInt32.size]
  omega

theorem counts_le (model : Model) :
    headerSize ≤ model.size ∧ model.queues.length ≤ model.size ∧
      model.regions.length ≤ model.size ∧ model.regionTableOffset ≤ model.size := by
  simp only [Model.size, Model.regionTableOffset, headerSize, queueDescriptorSize,
    regionDescriptorSize]
  omega

theorem channelEncode_eq_ok {buffer result : List UInt8} {encodedSizeOut : ℕ} :
    channelEncode buffer encodedSizeOut model = (.ok, result, size) ↔
      model.Valid ∧ size = model.size ∧ size ≤ buffer.length ∧
        result = format.emit buffer model := by
  unfold channelEncode
  constructor
  · intro h
    split at h
    · rename_i hsize
      obtain ⟨rfl, -⟩ := Prod.mk.inj h
      unfold Descriptor.encodedSize at hsize
      split at hsize
      · cases hsize
      · split at hsize
        · cases hsize
        · split at hsize <;> cases hsize
    · rename_i n hsize
      split_ifs at h with hfits hinvalid
      · cases h
      · cases h
      · obtain ⟨rfl, rfl⟩ := Prod.mk.inj (Prod.mk.inj h).2
        have hvalid := valid_iff.mpr (Bool.not_eq_false _ ▸ hinvalid)
        obtain rfl := (encodedSize_eq_ok.mp hsize).2
        exact ⟨hvalid, rfl, Nat.not_lt.mp hfits, rfl⟩
  · rintro ⟨hvalid, rfl, hfits, rfl⟩
    rw [hvalid.encodedSize]
    dsimp only
    rw [if_neg (Nat.not_lt.mpr hfits), if_neg (Bool.not_eq_false _ ▸ valid_iff.mp hvalid)]
    rfl

end Valid

theorem decodeTables_eq_ok {memory : Memory} {queueCount regionCount offset : ℕ} :
    decodeTables memory queueCount regionCount offset = .ok model ↔
      model.Valid ∧ decodeChannel memory = model.channel ∧
      Lists (fun i queue => decodeQueue memory (headerSize + i * queueDescriptorSize) = some queue)
        queueCount model.queues ∧
      Lists (fun i region => decodeRegion memory (offset + i * regionDescriptorSize) = some region)
        regionCount model.regions := by
  rw [valid_iff, ← mapM_range_iff, ← mapM_range_iff]
  unfold decodeTables
  constructor
  · intro h
    split at h
    · cases h
    · split at h
      · cases h
      · rename_i queues hqueues _ regions hregions
        split_ifs at h with hvalid
        obtain rfl := Except.ok.inj h
        exact ⟨Bool.not_eq_false _ ▸ hvalid, rfl, hqueues, hregions⟩
  · rintro ⟨hvalid, hchannel, hqueues, hregions⟩
    rw [hqueues, hregions, hchannel]
    dsimp only
    rw [hvalid]
    rfl

theorem channelDecode_eq_ok {bytes : List UInt8} {queueCapacity regionCapacity : ℕ} :
    channelDecode bytes queueCapacity regionCapacity = .ok model ↔
      (model.Valid ∧ model.queues.length ≤ queueCapacity ∧
        model.regions.length ≤ regionCapacity) ∧
      format.Represents (bytes.take model.size) model := by
  rw [show model.size = format.size model from rfl, Format.represents_take_iff]
  change _ ↔ _ ∧ model.size ≤ bytes.length ∧ Held (ofList bytes) (modelImage model)
  rw [held_modelImage, held_headerImage]
  unfold channelDecode
  dsimp only
  constructor
  · intro h
    split_ifs at h with hlow hidentity hreserved
    split at h
    · cases h
    · rename_i n hsize
      split_ifs at h with hoffsets hcapacity
      obtain ⟨hvalid, hchannel, hqueues, hregions⟩ := decodeTables_eq_ok.mp h
      obtain ⟨-, rfl⟩ := encodedSize_eq_ok.mp hsize
      obtain ⟨hheader, hqueueCount, hregionCount, hregionTable⟩ := counts_le model
      have hfield {x : UInt32} {n : ℕ} (hn : n ≤ model.size) (hx : x.toNat = n) : x = .ofNat n := by
        rw [← UInt32.toNat_inj, hvalid.toNat_ofNat hn, hx]
      simp only [not_or, not_not, Nat.not_lt] at hidentity hreserved hoffsets hcapacity
      obtain ⟨htotal, hqueueOffset, hregionOffset⟩ := hoffsets
      have hqueueLength := hqueues.length.symm
      have hregionLength := hregions.length.symm
      rw [hqueueOffset, hqueueLength] at hregionOffset
      rw [hqueueLength, hregionLength] at htotal hcapacity
      rw [hqueueLength] at hqueues
      rw [hregionLength, hregionOffset] at hregions
      exact ⟨⟨hvalid, hcapacity.2⟩, hcapacity.1, ⟨hfield (le_refl _) htotal, hidentity.1,
        hidentity.2, hchannel, hfield hqueueCount hqueueLength, hfield hregionCount hregionLength,
        hfield hheader hqueueOffset, hfield hregionTable hregionOffset, hreserved⟩, hqueues,
        hregions⟩
  · rintro ⟨⟨hvalid, hqueueCapacity, hregionCapacity⟩, hfits, ⟨htotal, habi, hschema, hchannel,
      hqueueCount, hregionCount, hqueueOffset, hregionOffset, hreserved0, hreserved1⟩, hqueues,
      hregions⟩
    obtain ⟨hheader, hqueueLength, hregionLength, hregionTable⟩ := counts_le model
    have habi : read (ofList bytes) 4 4 = abiIdentity := habi
    have hschema : read (ofList bytes) 8 32 = schemaDigest := hschema
    rw [if_neg (Nat.not_lt.mpr (hheader.trans hfits)),
      if_neg (not_or.mpr ⟨not_not.mpr habi, not_not.mpr hschema⟩),
      if_neg (not_or.mpr ⟨not_not.mpr hreserved0, not_not.mpr hreserved1⟩), htotal, hqueueCount,
      hregionCount, hqueueOffset, hregionOffset, hvalid.toNat_ofNat hheader,
      hvalid.toNat_ofNat hqueueLength, hvalid.toNat_ofNat hregionLength,
      hvalid.toNat_ofNat hregionTable, hvalid.toNat_ofNat (le_refl _), hvalid.encodedSize]
    dsimp only
    rw [if_neg, if_neg]
    · exact decodeTables_eq_ok.mpr ⟨hvalid, hchannel, hqueues, hregions⟩
    · simp only [not_or, Nat.not_lt]
      exact ⟨hfits, hqueueCapacity, hregionCapacity⟩
    · simp only [not_or, not_not]
      exact ⟨trivial, trivial, rfl⟩

theorem represents_encoded {buffer result : List UInt8} {encodedSizeOut : ℕ}
    (h : channelEncode buffer encodedSizeOut model = (.ok, result, size)) :
    model.Valid ∧ size = model.size ∧ format.Represents (result.take size) model := by
  obtain ⟨hvalid, rfl, hfits, rfl⟩ := channelEncode_eq_ok.mp h
  exact ⟨hvalid, rfl, (Format.emit_take_iff hfits).mp rfl⟩

theorem totalSize_eq {bytes : List UInt8} (hvalid : model.Valid)
    (h : format.Represents (bytes.take model.size) model) :
    (loadU32 (ofList bytes) 0).toNat = model.size ∧ model.size ≤ bytes.length := by
  obtain ⟨hfits, hheld⟩ := Format.represents_take_iff.mp h
  obtain ⟨htotal, -⟩ := held_headerImage.mp (held_modelImage.mp hheld).1
  rw [htotal]
  exact ⟨hvalid.toNat_ofNat (le_refl _), hfits⟩

/-- A descriptor is accepted exactly when it starts with the encoding of a valid model, which is
the model that it decodes to, and every valid model has an encoding that decodes to it. -/
theorem channel_codec_canonical :
    (∀ (bytes : List UInt8) (queueCapacity regionCapacity : ℕ) (model : Model),
      channelDecode bytes queueCapacity regionCapacity = .ok model ↔
        (model.queues.length ≤ queueCapacity ∧ model.regions.length ≤ regionCapacity) ∧
        channelValidate model.channel model.queues model.regions = .ok ∧
        ∃ buffer result size, channelEncode buffer 0 model = (.ok, result, size) ∧
          (loadU32 (ofList bytes) 0).toNat = size ∧ size ≤ bytes.length ∧
          bytes.take size = result.take size) ∧
    ∀ model : Model, channelValidate model.channel model.queues model.regions = .ok →
      ∃ size, ∀ (buffer : List UInt8) (encodedSizeOut : ℕ), size ≤ buffer.length →
        ∃ result, channelEncode buffer encodedSizeOut model = (.ok, result, size) ∧
          ∀ queueCapacity regionCapacity, model.queues.length ≤ queueCapacity →
            model.regions.length ≤ regionCapacity →
            channelDecode (result.take size) queueCapacity regionCapacity = .ok model ∧
              channelDecode result queueCapacity regionCapacity = .ok model := by
  refine ⟨fun bytes queueCapacity regionCapacity model => ?_, fun model hvalid =>
    ⟨model.size, fun buffer encodedSizeOut hfits => ?_⟩⟩
  · rw [channelDecode_eq_ok]
    constructor
    · rintro ⟨⟨hvalid, hcapacity⟩, hrepresents⟩
      have hsize : model.size ≤ (bytes.take model.size).length := hrepresents.size.ge
      refine ⟨hcapacity, hvalid, bytes.take model.size, _, _,
        channelEncode_eq_ok.mpr ⟨hvalid, rfl, hsize, rfl⟩, ?_⟩
      obtain ⟨htotal, hlength⟩ := totalSize_eq hvalid hrepresents
      exact ⟨htotal, hlength, ((Format.emit_take_iff hsize).mpr hrepresents).symm⟩
    · rintro ⟨hcapacity, hvalid, buffer, result, size, hencode, -, -, hbytes⟩
      obtain ⟨-, rfl, hrepresents⟩ := represents_encoded hencode
      exact ⟨⟨hvalid, hcapacity⟩, hbytes ▸ hrepresents⟩
  · have hencode : channelEncode buffer encodedSizeOut model =
        (.ok, format.emit buffer model, model.size) :=
      channelEncode_eq_ok.mpr ⟨hvalid, rfl, hfits, rfl⟩
    refine ⟨_, hencode, fun queueCapacity regionCapacity hqueues hregions => ?_⟩
    obtain ⟨-, -, hrepresents⟩ := represents_encoded hencode
    constructor
    · refine channelDecode_eq_ok.mpr ⟨⟨hvalid, hqueues, hregions⟩, ?_⟩
      rw [take_take, Nat.min_self]
      exact hrepresents
    · exact channelDecode_eq_ok.mpr ⟨⟨hvalid, hqueues, hregions⟩, hrepresents⟩

end Kobox.Protocol.Descriptor
