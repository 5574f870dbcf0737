import Kobox.Gpu.InlineCodec

/-!
# The completion codecs are exact inverses
-/

namespace Kobox.Gpu
open ByteMemory Protocol

namespace AttachmentCompletion
variable {completion : AttachmentCompletion} {memory : Memory}

def image (completion : AttachmentCompletion) : List Store :=
  headerImage frame completion.sessionId completion.status ++
    (argumentImage 104 ⟨completion.argumentId, argumentAttachment, flagOutput, 0,
      completion.attachment.attachmentId.toUInt64, 1⟩ ++
      attachmentImage frame.tableOffset completion.attachment)

theorem fills (completion : AttachmentCompletion) :
    Fills completion.stores completion.image 0 frame.size := by
  have hcounts : Fills [⟨56, storeU32 1⟩, ⟨64, storeU32 1⟩] (countImage frame) 56 72 :=
    .cons 4 rfl <| .skip <| .cons 4 rfl <| .blank 4 storeU32_zero <| .nil _
  refine (fills_header hcounts completion.sessionId completion.status).append ?_
  refine Fills.append ?_ (fills_attachment 136 completion.attachment)
  exact .cons 4 rfl <| .cons 4 rfl <| .cons 4 rfl <| .blank 4 storeU32_zero <| .cons 8 rfl <|
    .cons 4 rfl <| .skip <| .nil _

def success : Format AttachmentCompletion where
  size _ := frame.size
  stores := stores
  image := image
  fills := fills

theorem held_image :
    Held memory completion.image ↔
      (identityMatches memory = true ∧ loadU64 memory 40 = completion.sessionId ∧
        loadU32 memory 48 = completion.status ∧ frameMatches memory frame = true) ∧
      argumentMatches memory 104 ⟨completion.argumentId, argumentAttachment, flagOutput, 0,
        completion.attachment.attachmentId.toUInt64, 1⟩ = true ∧
      decodeAttachment memory frame.tableOffset = completion.attachment ∧
        loadU32 memory (frame.tableOffset + 44) = 0 := by
  have hfits : frame.Fits := by constructor <;> decide
  rw [image, held_append, held_append, held_headerImage hfits, argumentMatches_iff,
    held_attachmentImage]

def delegating : Delegating AttachmentCompletion where
  sessionId := sessionId
  generation completion := completion.attachment.generation
  status := status
  valid := valid
  failed := failed
  success := success
  failed_sessionId _ _ := rfl
  failed_status _ _ := rfl
  valid_error_iff completion h := by
    rw [valid, if_pos h]
    simp only [Bool.and_eq_true, bne_iff_ne, decide_eq_true_eq, beq_iff_eq]
  valid_ok completion h hvalid := by
    rw [valid, if_neg (not_not.mpr h)] at hvalid
    simp only [Bool.and_eq_true, bne_iff_ne, and_assoc] at hvalid
    exact ⟨hvalid.1, hvalid.2.2.2.2.2.2.2.1⟩
  header bytes completion h hr := by
    have hsize : bytes.length = frame.size := hr.size
    refine ⟨by rw [hsize]; decide, ?_⟩
    rw [← h]
    exact (held_image.mp hr.held).1.2.2.1

theorem decodeOk_eq_ok {expected : UInt64 × UInt64} {bytes : List UInt8}
    (hok : loadU32 (ofList bytes) 48 = statusOk) :
    decodeOk expected bytes = .ok completion ↔
      (completion.valid = true ∧ completion.status = statusOk ∧ expected.1 = completion.sessionId ∧
        expected.2 = completion.attachment.generation) ∧ success.Represents bytes completion := by
  constructor
  · intro h
    unfold decodeOk at h
    dsimp only at h
    split_ifs at h with hframe hrest
    obtain rfl := Except.ok.inj h
    simp only [not_or, not_not, Bool.not_eq_false] at hframe hrest
    obtain ⟨hsize, hidentity, hsession, hmatches⟩ := hframe
    obtain ⟨hargument, hgeneration, hreserved, hvalid⟩ := hrest
    refine ⟨⟨hvalid, hok, rfl, hgeneration.symm⟩, hsize, held_image.mpr ?_⟩
    exact ⟨⟨hidentity, hsession, rfl, hmatches⟩, hargument, rfl, hreserved⟩
  · rintro ⟨⟨hvalid, -, hsession, hgeneration⟩, hsize, hheld⟩
    obtain ⟨⟨hidentity, hsame, hstatus, hmatches⟩, hargument, hattachment, hreserved⟩ :=
      held_image.mp hheld
    have hid : loadU32 (ofList bytes) 104 = completion.argumentId := by
      rw [argumentMatches_iff, held_argumentImage, decodeArgument, Argument.mk.injEq] at hargument
      exact hargument.1.1
    unfold decodeOk
    dsimp only
    rw [hattachment, hid, hstatus, hsession, if_neg, if_neg]
    · simp only [not_or, not_not, Bool.not_eq_false]
      exact ⟨hargument, hgeneration.symm, hreserved, hvalid⟩
    · simp only [not_or, not_not, Bool.not_eq_false]
      exact ⟨hsize, hidentity, hsame, hmatches⟩

theorem codec :
    Codec delegating.format (·.valid = true)
      (fun expected completion =>
        Expected expected completion.sessionId completion.attachment.generation completion.status)
      encode decode :=
  Delegating.codec (d := delegating) fun _ _ _ hok => decodeOk_eq_ok hok

end AttachmentCompletion

/-! ### Mapping completions -/

namespace MappingCompletionFormat

/-- The layout of the record that all four formats have. -/
structure Standard (format : MappingCompletionFormat) : Prop where
  recordSize : format.recordSize = 24
  mappingIdOffset : format.mappingIdOffset = 0
  lengthOffset : format.lengthOffset = 8
  cachePolicyOffset : format.cachePolicyOffset = 16
  reservedOffset : format.reservedOffset = 20

end MappingCompletionFormat

namespace MapCompletion
variable {format : MappingCompletionFormat} {completion : MapCompletion} {memory : Memory}

def attachment (format : MappingCompletionFormat) (completion : MapCompletion) : Attachment :=
  ⟨1, attachmentMemory, completion.exchangeId, completion.generation, completion.rights,
    format.attachmentRole, attachmentShare, flagOutput⟩

def recordImage (completion : MapCompletion) : List Store :=
  [⟨216, storeU64 completion.mappingId⟩, ⟨224, storeU64 completion.length⟩,
    ⟨232, storeU32 completion.cachePolicy⟩, .zeros 236 4]

def image (format : MappingCompletionFormat) (completion : MapCompletion) : List Store :=
  headerImage (frame format) completion.sessionId statusOk ++
    (argumentImage 104 ⟨1, argumentInline, flagOutput, format.recordSchemaId, 0,
      .ofNat format.recordSize⟩ ++
      argumentImage 136 ⟨format.attachmentArgumentId, argumentAttachment, flagOutput, 0, 1, 1⟩ ++
      attachmentImage 168 (completion.attachment format) ++ completion.recordImage)

theorem fills (h : format.Standard) (completion : MapCompletion) :
    Fills (completion.stores format) (completion.image format) 0 (frame format).size := by
  obtain ⟨_, _, _, _, _, _, _, _⟩ := format
  obtain ⟨rfl, rfl, rfl, rfl, rfl⟩ := h
  refine (fills_header ?_ completion.sessionId statusOk).append ?_
  · exact .cons 4 rfl <| .skip <| .cons 4 rfl <| .cons 4 rfl <| .nil _
  refine Fills.append (Fills.append ?_ (fills_attachment 168 _)) ?_
  · exact .cons 4 rfl <| .cons 4 rfl <| .cons 4 rfl <| .cons 4 rfl <| .blank 8 storeU64_zero <|
      .cons 4 rfl <| .skip <| .cons 4 rfl <| .cons 4 rfl <| .cons 4 rfl <|
      .blank 4 storeU32_zero <| .cons 8 rfl <| .cons 4 rfl <| .skip <| .nil _
  · exact .cons 8 rfl <| .cons 8 rfl <| .cons 4 rfl <| .skip <| .nil _

def success (h : format.Standard) : Format MapCompletion where
  size _ := (frame format).size
  stores := stores format
  image := image format
  fills := fills h

theorem held_image (h : format.Standard) :
    Held memory (completion.image format) ↔
      (identityMatches memory = true ∧ loadU64 memory 40 = completion.sessionId ∧
        loadU32 memory 48 = statusOk ∧ frameMatches memory (frame format) = true) ∧
      (argumentMatches memory 104 ⟨1, argumentInline, flagOutput, format.recordSchemaId, 0,
          .ofNat format.recordSize⟩ = true ∧
        argumentMatches memory 136 ⟨format.attachmentArgumentId, argumentAttachment, flagOutput, 0,
          1, 1⟩ = true ∧
        attachmentMatches memory 168 (completion.attachment format) = true) ∧
      loadU64 memory 216 = completion.mappingId ∧ loadU64 memory 224 = completion.length ∧
        loadU32 memory 232 = completion.cachePolicy ∧ loadU32 memory 236 = 0 := by
  have hfits : (frame format).Fits := by
    constructor <;> simp only [frame, h.recordSize] <;> decide
  rw [image, held_append, held_append, held_append, held_append, held_headerImage hfits,
    argumentMatches_iff, argumentMatches_iff, attachmentMatches_iff]
  simp only [recordImage, held_cons, held_nil, holds_storeU32_iff, holds_storeU64_iff,
    holds_zeros_iff32, and_true, and_assoc]

def delegating (h : format.Standard) : Delegating MapCompletion where
  sessionId := sessionId
  generation := generation
  status := status
  valid := valid
  failed := failed
  success := success h
  failed_sessionId _ _ := rfl
  failed_status _ _ := rfl
  valid_error_iff completion hstatus := by
    rw [valid, if_pos hstatus]
    simp only [Bool.and_eq_true, bne_iff_ne, decide_eq_true_eq, beq_iff_eq]
  valid_ok completion hstatus hvalid := by
    rw [valid, if_neg (not_not.mpr hstatus)] at hvalid
    simp only [Bool.and_eq_true, bne_iff_ne, and_assoc] at hvalid
    exact ⟨hvalid.1, hvalid.2.2.2.2.2.2.2.2.1⟩
  header bytes completion _ hr := by
    have hsize : bytes.length = (frame format).size := hr.size
    refine ⟨?_, ((held_image h).mp hr.held).1.2.2.1⟩
    rw [hsize, frame, h.recordSize]
    decide

theorem decodeOk_eq_ok (h : format.Standard) {expected : UInt64 × UInt64} {bytes : List UInt8}
    (hok : loadU32 (ofList bytes) 48 = statusOk) :
    decodeOk format expected bytes = .ok completion ↔
      (completion.valid = true ∧ completion.status = statusOk ∧ expected.1 = completion.sessionId ∧
        expected.2 = completion.generation) ∧ (success h).Represents bytes completion := by
  have hmapping : 216 + format.mappingIdOffset = 216 := by rw [h.mappingIdOffset]
  have hlength : 216 + format.lengthOffset = 224 := by rw [h.lengthOffset]
  have hpolicy : 216 + format.cachePolicyOffset = 232 := by rw [h.cachePolicyOffset]
  have hreserved : 216 + format.reservedOffset = 236 := by rw [h.reservedOffset]
  unfold decodeOk
  dsimp only [frame]
  rw [hmapping, hlength, hpolicy, hreserved]
  constructor
  · intro hdecode
    split_ifs at hdecode with hframe hrest hvalid
    obtain rfl := Except.ok.inj hdecode
    simp only [not_or, not_not, Bool.not_eq_false] at hframe hrest
    obtain ⟨hsize, hidentity, hsession, hmatches⟩ := hframe
    obtain ⟨hinline, hargument, hattachment, hzero⟩ := hrest
    refine ⟨⟨hvalid, rfl, rfl, rfl⟩, hsize, (held_image h).mpr ?_⟩
    exact ⟨⟨hidentity, hsession, hok, hmatches⟩, ⟨hinline, hargument, hattachment⟩, rfl, rfl, rfl,
      hzero⟩
  · rintro ⟨⟨hvalid, hstatus, hsession, hgeneration⟩, hsize, hheld⟩
    obtain ⟨⟨hidentity, hsame, -, hmatches⟩, ⟨hinline, hargument, hattachment⟩, hid, hlength,
      hpolicy, hzero⟩ := (held_image h).mp hheld
    have hdecoded : decodeAttachment (ofList bytes) 168 = completion.attachment format := by
      rw [attachmentMatches_iff, held_attachmentImage] at hattachment
      exact hattachment.1
    obtain ⟨_, _, _, _, _, _, _, _⟩ := completion
    subst hsession hgeneration hid hlength hpolicy hstatus
    rw [hdecoded, if_neg, if_neg, if_pos]
    · rfl
    · exact hvalid
    · simp only [not_or, not_not, Bool.not_eq_false]
      exact ⟨hinline, hargument, hattachment, hzero⟩
    · simp only [not_or, not_not, Bool.not_eq_false]
      exact ⟨hsize, hidentity, hsame, hmatches⟩

theorem codec (h : format.Standard) :
    Codec (delegating h).format (·.valid = true)
      (fun expected completion =>
        Expected expected completion.sessionId completion.generation completion.status)
      (encode format) (decode format) :=
  Delegating.codec (d := delegating h) fun _ _ _ hok => decodeOk_eq_ok h hok

end MapCompletion

namespace SessionCompletion
variable {completion : SessionCompletion} {memory : Memory} {opcode : UInt32} {bytes : List UInt8}

theorem payload_cases (opcode status : UInt32) :
    ((opcode = opcodeSessionOpen ∧ status = statusOk) ∧ payload opcode status = 32) ∨
      (¬(opcode = opcodeSessionOpen ∧ status = statusOk) ∧ payload opcode status = 0) := by
  by_cases h : opcode = opcodeSessionOpen ∧ status = statusOk
  · exact .inl ⟨h, if_pos h⟩
  · exact .inr ⟨h, if_neg h⟩

def image (completion : SessionCompletion) : List Store :=
  let payload := payload completion.opcode completion.status
  headerImage (frame payload) completion.sessionId completion.status ++
    if payload ≠ 0 then
      [⟨104, storeU64 completion.sessionId⟩, ⟨112, storeU64 completion.topologyEpoch⟩,
        ⟨120, storeU64 completion.capabilities⟩, .zeros 128 8]
    else []

theorem fills (completion : SessionCompletion) :
    Fills completion.stores completion.image 0
      (frame (payload completion.opcode completion.status)).size := by
  have hcounts : Fills [⟨68, storeU32 (.ofNat (payload completion.opcode completion.status))⟩]
      (countImage (frame (payload completion.opcode completion.status))) 56 72 :=
    .blank 4 storeU32_zero <| .skip <| .blank 4 storeU32_zero <| .cons 4 rfl <| .nil _
  refine (fills_header hcounts completion.sessionId completion.status).append ?_
  rcases payload_cases completion.opcode completion.status with ⟨-, hpayload⟩ | ⟨-, hpayload⟩
  · rw [hpayload, if_pos (by decide), if_pos (by decide)]
    exact .cons 8 rfl <| .cons 8 rfl <| .cons 8 rfl <| .skip <| .nil _
  · rw [hpayload, if_neg (by decide), if_neg (by decide)]
    exact .nil _

def format : Format SessionCompletion where
  size completion := (frame (payload completion.opcode completion.status)).size
  stores := stores
  image := image
  fills := fills

theorem held_image :
    Held memory completion.image ↔
      (identityMatches memory = true ∧ loadU64 memory 40 = completion.sessionId ∧
        loadU32 memory 48 = completion.status ∧
        frameMatches memory (frame (payload completion.opcode completion.status)) = true) ∧
      (payload completion.opcode completion.status ≠ 0 →
        loadU64 memory 104 = completion.sessionId ∧ loadU64 memory 112 = completion.topologyEpoch ∧
          loadU64 memory 120 = completion.capabilities ∧ loadU64 memory 128 = 0) := by
  have hpayload := payload_cases completion.opcode completion.status
  have hfits : (frame (payload completion.opcode completion.status)).Fits := by
    constructor <;> dsimp only [frame, completionHeaderSize] <;> omega
  dsimp only [image]
  rw [held_append, held_headerImage hfits]
  refine and_congr_right fun _ => ?_
  split_ifs with hresult
  · simp only [held_cons, held_nil, holds_storeU64_iff, holds_zeros_iff64, and_true, hresult,
      ne_eq, not_false_eq_true, true_imp_iff]
  · exact ⟨fun _ hne => absurd hne hresult, fun _ => held_nil memory⟩

theorem valid_result (h : completion.valid = true)
    (hnone : payload completion.opcode completion.status = 0) :
    completion.topologyEpoch = 0 ∧ completion.capabilities = 0 := by
  have hclosed : ¬(completion.opcode = opcodeSessionOpen ∧ completion.status = statusOk) := by
    rcases payload_cases completion.opcode completion.status with ⟨-, hpayload⟩ | ⟨hclosed, -⟩
    · omega
    · exact hclosed
  simp only [valid, Bool.and_eq_true] at h
  split_ifs at h with hopcode hstatus
  · exact absurd ⟨hopcode, hstatus⟩ hclosed
  · simp only [Bool.and_eq_true, beq_iff_eq] at h
    exact ⟨h.2.1.2, h.2.2⟩
  · simp only [Bool.and_eq_true, beq_iff_eq] at h
    exact ⟨h.2.1.2, h.2.2⟩

theorem fields_of_held (h : completion.valid = true) (hheld : Held memory completion.image) :
    fields completion.opcode memory = completion := by
  obtain ⟨⟨-, hsession, hstatus, -⟩, hresult⟩ := held_image.mp hheld
  have hnone := valid_result h
  obtain ⟨_, _, _, _, _⟩ := completion
  dsimp only at hsession hstatus hresult hnone
  rw [fields, hstatus, hsession, SessionCompletion.mk.injEq]
  refine ⟨rfl, rfl, rfl, ?_⟩
  split_ifs with hpayload
  · exact ⟨(hresult hpayload).2.1, (hresult hpayload).2.2.1⟩
  · exact ⟨(hnone (not_not.mp hpayload)).1.symm, (hnone (not_not.mp hpayload)).2.symm⟩

theorem decode_eq_ok :
    decode opcode bytes = .ok completion ↔
      (completion.valid = true ∧ opcode = completion.opcode) ∧
        format.Represents bytes completion := by
  constructor
  · intro h
    unfold decode at h
    dsimp only at h
    split_ifs at h with hsize hidentity hframe hresult hvalid
    obtain rfl := Except.ok.inj h
    simp only [not_or, not_and, not_not, Bool.not_eq_false] at hidentity hframe hresult
    obtain ⟨hsize, hmatches⟩ := hframe
    refine ⟨⟨hvalid, rfl⟩, hsize, held_image.mpr ⟨⟨hidentity, rfl, rfl, hmatches⟩, fun hne => ?_⟩⟩
    obtain ⟨hsession, hreserved⟩ := hresult hne
    exact ⟨hsession, (if_pos hne).symm, (if_pos hne).symm, hreserved⟩
  · rintro ⟨⟨hvalid, rfl⟩, hsize, hheld⟩
    obtain ⟨⟨hidentity, hsession, hstatus, hmatches⟩, hresult⟩ := held_image.mp hheld
    have hsize : bytes.length = (frame (payload completion.opcode completion.status)).size := hsize
    have hheader : ¬bytes.length < completionHeaderSize := by
      rw [Nat.not_lt, hsize]
      exact Nat.le_add_right _ _
    have hfields := fields_of_held hvalid hheld
    unfold decode
    dsimp only
    rw [hstatus, hsession, hfields, if_neg hheader, hidentity, if_neg (by decide), if_neg, if_neg,
      if_pos hvalid]
    · rintro ⟨hne, hbad⟩
      obtain ⟨hsame, -, -, hreserved⟩ := hresult hne
      exact hbad.elim (fun h => h hsame) fun h => h hreserved
    · simp only [not_or, not_not, Bool.not_eq_false]
      exact ⟨hsize, hmatches⟩

theorem codec :
    Codec format (·.valid = true) (fun opcode completion => opcode = completion.opcode) encode
      decode where
  encode_iff buffer completion result size := by
    unfold encode
    split_ifs with hvalid
    · simp [hvalid]
    · rw [and_iff_right (Bool.not_eq_false _ ▸ hvalid)]
      exact emit_eq_ok (f := format)
  decode_iff _ _ _ := decode_eq_ok

end SessionCompletion

/-- With a status other than OK the encoder accepts exactly the completions without results, and
makes a header. -/
structure StatusOnly {α : Type} (encode : List UInt8 → α → Except Status (List UInt8 × ℕ))
    (status : α → UInt32) (bare : α → Prop) : Prop where
  accepted : ∀ buffer x result size, encode buffer x = .ok (result, size) →
    status x ≠ statusOk → bare x ∧ size = completionHeaderSize
  total : ∀ buffer x, status x ≠ statusOk → status x ≤ statusDeviceLost → bare x →
    completionHeaderSize ≤ buffer.length →
      ∃ result, encode buffer x = .ok (result, completionHeaderSize)

theorem statusOnly_of_codec {α κ : Type} {f : Format α} {valid : α → Bool} {accept : κ → α → Prop}
    {encode : List UInt8 → α → Except Status (List UInt8 × ℕ)}
    {decode : κ → List UInt8 → Except Status α} {status : α → UInt32} {bare : α → Prop}
    (h : Codec f (valid · = true) accept encode decode)
    (hbare : ∀ x, status x ≠ statusOk →
      (valid x = true ↔ status x ≤ statusDeviceLost ∧ bare x))
    (hsize : ∀ x, status x ≠ statusOk → valid x = true → f.size x = completionHeaderSize) :
    StatusOnly encode status bare := by
  constructor
  · intro buffer x result size hencode hstatus
    obtain ⟨hvalid, rfl, -, -⟩ := (h.encode_iff buffer x result size).mp hencode
    exact ⟨((hbare x hstatus).mp hvalid).2, hsize x hstatus hvalid⟩
  · intro buffer x hstatus hle hx hroom
    have hvalid := (hbare x hstatus).mpr ⟨hle, hx⟩
    refine ⟨f.emit buffer x, (h.encode_iff buffer x _ _).mpr ⟨hvalid, ?_, hroom, rfl⟩⟩
    exact (hsize x hstatus hvalid).symm

theorem Delegating.size_error {α : Type} {d : Delegating α} {x : α} (h : d.status x ≠ statusOk) :
    d.format.size x = completionHeaderSize := if_neg h

theorem Delegating.valid_bare {α : Type} {d : Delegating α} {x : α} (h : d.status x ≠ statusOk) :
    d.valid x = true ↔ d.status x ≤ statusDeviceLost ∧
      d.sessionId x ≠ 0 ∧ x = d.failed (d.sessionId x) (d.status x) := by
  rw [d.valid_error_iff x h, and_assoc, and_left_comm]

theorem InlineCompletion.valid_bare {completion : InlineCompletion}
    (h : completion.status ≠ statusOk) :
    completion.valid = true ↔ completion.status ≤ statusDeviceLost ∧ completion.sessionId ≠ 0 ∧
      completion = errorCompletion completion.sessionId completion.status := by
  constructor
  · intro hvalid
    obtain ⟨hsession, hstatus, -⟩ := valid_iff.mp hvalid
    exact ⟨hstatus, hsession, eq_errorCompletion hvalid h⟩
  · rintro ⟨hstatus, hsession, hc⟩
    rw [hc, errorCompletion_valid]
    exact ⟨hsession, hstatus⟩

def SessionCompletion.Bare (completion : SessionCompletion) : Prop :=
  completion.topologyEpoch = 0 ∧ completion.capabilities = 0 ∧
    ((completion.opcode = opcodeSessionOpen ∧ completion.sessionId = 0) ∨
      (completion.opcode = opcodeSessionClose ∧ completion.sessionId ≠ 0))

theorem SessionCompletion.valid_bare {completion : SessionCompletion}
    (h : completion.status ≠ statusOk) :
    completion.valid = true ↔ completion.status ≤ statusDeviceLost ∧ completion.Bare := by
  rw [valid, Bool.and_eq_true, decide_eq_true_eq, if_neg h, Bare]
  refine and_congr_right fun _ => ?_
  have hclose : opcodeSessionOpen ≠ opcodeSessionClose := by decide
  split_ifs with hopen
  · simp only [Bool.and_eq_true, beq_iff_eq, hopen, hclose]
    tauto
  · simp only [Bool.and_eq_true, beq_iff_eq, bne_iff_ne, hopen]
    tauto

theorem mapping_inverse {format : MappingCompletionFormat} (h : format.Standard) :
    ExactInverse (fun expected (completion : MapCompletion) =>
        Expected expected completion.sessionId completion.generation completion.status)
      (MapCompletion.encode format) (MapCompletion.decode format) ∧
    StatusOnly (MapCompletion.encode format) MapCompletion.status fun completion =>
      completion.sessionId ≠ 0 ∧
        completion = .failed completion.sessionId completion.status := by
  refine ⟨(MapCompletion.codec h).exactInverse, statusOnly_of_codec (MapCompletion.codec h) ?_ ?_⟩
  · exact fun completion => Delegating.valid_bare (d := MapCompletion.delegating h)
  · exact fun completion hstatus _ => Delegating.size_error hstatus

/-- Each completion codec is exactly inverse, and with a status other than OK it carries the
status and no result. -/
theorem completion_codecs_inverse :
    (ExactInverse (fun session completion => session = completion.sessionId)
        InlineCompletion.encode InlineCompletion.decode ∧
      StatusOnly InlineCompletion.encode InlineCompletion.status fun completion =>
        completion.sessionId ≠ 0 ∧
          completion = errorCompletion completion.sessionId completion.status) ∧
    (ExactInverse (fun expected completion =>
        Expected expected completion.sessionId completion.attachment.generation completion.status)
        AttachmentCompletion.encode AttachmentCompletion.decode ∧
      StatusOnly AttachmentCompletion.encode AttachmentCompletion.status fun completion =>
        completion.sessionId ≠ 0 ∧
          completion = .failed completion.sessionId completion.status) ∧
    (∀ codec ∈ [(virtgpuMapCompletionEncode, virtgpuMapCompletionDecode),
        (modeMapCompletionEncode, modeMapCompletionDecode),
        (amdgpuMapCompletionEncode, amdgpuMapCompletionDecode),
        (i915MapCompletionEncode, i915MapCompletionDecode)],
      ExactInverse (fun expected completion =>
        Expected expected completion.sessionId completion.generation completion.status)
        codec.1 codec.2 ∧
      StatusOnly codec.1 MapCompletion.status fun completion =>
        completion.sessionId ≠ 0 ∧
          completion = .failed completion.sessionId completion.status) ∧
    (ExactInverse (fun opcode completion => opcode = completion.opcode)
        SessionCompletion.encode SessionCompletion.decode ∧
      StatusOnly SessionCompletion.encode SessionCompletion.status SessionCompletion.Bare) := by
  refine ⟨⟨InlineCompletion.codec.exactInverse, ?_⟩, ⟨AttachmentCompletion.codec.exactInverse, ?_⟩,
    ?_, SessionCompletion.codec.exactInverse, ?_⟩
  · refine statusOnly_of_codec InlineCompletion.codec (fun _ => InlineCompletion.valid_bare) ?_
    intro completion hstatus hvalid
    rw [eq_errorCompletion hvalid hstatus]
    rfl
  · refine statusOnly_of_codec AttachmentCompletion.codec ?_ ?_
    · exact fun completion => Delegating.valid_bare (d := AttachmentCompletion.delegating)
    · exact fun completion hstatus _ => Delegating.size_error hstatus
  · intro codec hcodec
    simp only [List.mem_cons, List.not_mem_nil, or_false] at hcodec
    rcases hcodec with rfl | rfl | rfl | rfl
    all_goals exact mapping_inverse ⟨rfl, rfl, rfl, rfl, rfl⟩
  · refine statusOnly_of_codec SessionCompletion.codec (fun _ => SessionCompletion.valid_bare) ?_
    intro completion hstatus _
    have hnone : SessionCompletion.payload completion.opcode completion.status = 0 :=
      if_neg fun h => hstatus h.2
    change (SessionCompletion.frame _).size = _
    rw [hnone]
    rfl

end Kobox.Gpu
