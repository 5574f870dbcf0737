import Kobox.Gpu.Command

/-!
# Commands have one encoding
-/

namespace Kobox.Gpu
open ByteMemory Protocol Listing List Option

namespace Content

def headerImage (content : Content) : List Store :=
  (encodeHeader content).take 16 ++
    [.zeros 100 4, ⟨104, storeU64 content.deadlineNs⟩, .zeros 112 16]

def image (content : Content) : List Store :=
  content.headerImage ++
    tableImage argumentDescriptorSize argumentImage content.arguments commandHeaderSize ++
    tableImage spanDescriptorSize encodeSpan content.spans content.spanOffset ++
    tableImage attachmentDescriptorSize attachmentImage content.attachments
      content.attachmentOffset ++
    [⟨content.inlineOffset, content.inlineData⟩]

theorem fills_header (content : Content) :
    Fills (encodeHeader content) content.headerImage 0 commandHeaderSize :=
  .cons 4 rfl <| .cons 4 rfl <| .cons 32 rfl <| .cons 8 rfl <| .cons 8 rfl <| .cons 4 rfl <|
    .cons 4 rfl <| .cons 4 rfl <| .cons 4 rfl <| .cons 4 rfl <| .cons 4 rfl <| .cons 4 rfl <|
    .cons 4 rfl <| .cons 4 rfl <| .cons 4 rfl <| .cons 4 rfl <| .skip <| .cons 8 rfl <|
    .skip <| .nil _

theorem fills_inline (content : Content) :
    Fills (if content.inlineData.length ≠ 0 then [⟨content.inlineOffset, content.inlineData⟩]
      else []) [⟨content.inlineOffset, content.inlineData⟩] content.inlineOffset content.size := by
  split_ifs with hlength
  · exact .field _ _
  · have hempty : content.inlineData = [] := length_eq_zero_iff.mp (not_not.mp hlength)
    rw [size, hempty]
    exact .reserved _ 0

theorem fills (content : Content) : Fills (encodeContent content) content.image 0 content.size :=
  (fills_header content).append
      (fills_tableImage (fun argument _ record => fills_argument record argument) _)
    |>.append (fills_tableImage (fun span _ record => fills_span record span) _)
    |>.append (fills_tableImage (fun attachment _ record => fills_attachment record attachment) _)
    |>.append (fills_inline content)

end Content

def commandFormat : Format Content := ⟨Content.size, encodeContent, Content.image, Content.fills⟩

section Fits
variable {content : Content}

theorem Content.Fits.size_lt (h : content.Fits) : content.size < 2 ^ 32 := by
  obtain ⟨harguments, hspans, hattachments, hinline⟩ := h
  simp only [maxArguments, maxSpans, maxAttachments, maxInlineBytes] at *
  simp only [size, inlineOffset, attachmentOffset, spanOffset, commandHeaderSize,
    argumentDescriptorSize, spanDescriptorSize, attachmentDescriptorSize]
  omega

theorem Content.le_size (content : Content) :
    (content.arguments.length ≤ content.size ∧ content.spans.length ≤ content.size ∧
      content.attachments.length ≤ content.size ∧ content.inlineData.length ≤ content.size) ∧
    commandHeaderSize ≤ content.size ∧ content.spanOffset ≤ content.size ∧
      content.attachmentOffset ≤ content.size ∧ content.inlineOffset ≤ content.size := by
  simp only [size, inlineOffset, attachmentOffset, spanOffset, commandHeaderSize,
    argumentDescriptorSize, spanDescriptorSize, attachmentDescriptorSize]
  omega

theorem Content.Fits.addSize (h : content.Fits) :
    addSize commandHeaderSize content.arguments.length argumentDescriptorSize =
        some content.spanOffset ∧
      addSize content.spanOffset content.spans.length spanDescriptorSize =
        some content.attachmentOffset ∧
      addSize content.attachmentOffset content.attachments.length attachmentDescriptorSize =
        some content.inlineOffset ∧
      content.inlineData.length ≤ sizeMax - content.inlineOffset := by
  have hsize := h.size_lt
  obtain ⟨-, hheader, hspan, hattachment, hinline⟩ := content.le_size
  have hmax : sizeMax = 2 ^ 64 - 1 := rfl
  refine ⟨(addSize_eq_some ?_).mpr ⟨rfl, ?_⟩, (addSize_eq_some ?_).mpr ⟨rfl, ?_⟩,
    (addSize_eq_some ?_).mpr ⟨rfl, ?_⟩, ?_⟩
  all_goals try omega
  have hinlineSize : content.inlineOffset + content.inlineData.length = content.size := rfl
  omega

end Fits

/-! ### What the image says -/

section Held
variable {memory : Memory} {content : Content}

theorem zeros_iff32 {a : ℕ} : bytesAreZero memory a 4 = true ↔ loadU32 memory a = 0 := by
  rw [← holds_zeros_iff, holds_zeros_iff32]

/-- The counts and the inline length in the header. -/
structure Content.Counts (memory : Memory) (content : Content) : Prop where
  arguments : (loadU32 memory 68).toNat = content.arguments.length
  spans : (loadU32 memory 72).toNat = content.spans.length
  attachments : (loadU32 memory 76).toNat = content.attachments.length
  inlineData : (loadU32 memory 80).toNat = content.inlineData.length

/-- The total size and the offsets in the header. -/
structure Content.Offsets (memory : Memory) (content : Content) : Prop where
  size : (loadU32 memory 0).toNat = content.size
  arguments : (loadU32 memory 84).toNat = commandHeaderSize
  spans : (loadU32 memory 88).toNat = content.spanOffset
  attachments : (loadU32 memory 92).toNat = content.attachmentOffset
  inlineData : (loadU32 memory 96).toNat = content.inlineOffset

/-- The words of the header that are not about the layout. -/
structure Content.Words (memory : Memory) (content : Content) : Prop where
  generation : loadU64 memory 40 = content.generation
  sessionId : loadU64 memory 48 = content.sessionId
  commandSetId : loadU32 memory 56 = content.commandSetId
  commandId : loadU32 memory 60 = content.commandId
  flags : loadU32 memory 64 = content.flags
  deadlineNs : loadU64 memory 104 = content.deadlineNs

theorem held_commandHeader (h : content.Fits) :
    Held memory content.headerImage ↔
      identityMatches memory = true ∧
      (bytesAreZero memory 100 4 = true ∧ bytesAreZero memory 112 16 = true) ∧
      content.Words memory ∧ content.Counts memory ∧ content.Offsets memory := by
  have hsize := h.size_lt
  obtain ⟨⟨harguments, hspans, hattachments, hinline⟩, hheader, hspan, hattachment,
    hinlineOffset⟩ := content.le_size
  rw [identityMatches_iff]
  simp only [Content.headerImage, encodeHeader, List.take, cons_append, nil_append,
    held_cons, held_nil, holds_storeU32_iff, holds_storeU64_iff, holds_zeros_iff, and_true,
    eq_ofNat_iff hsize, eq_ofNat_iff (harguments.trans_lt hsize),
    eq_ofNat_iff (hspans.trans_lt hsize), eq_ofNat_iff (hattachments.trans_lt hsize),
    eq_ofNat_iff (hinline.trans_lt hsize), eq_ofNat_iff (hheader.trans_lt hsize),
    eq_ofNat_iff (hspan.trans_lt hsize), eq_ofNat_iff (hattachment.trans_lt hsize),
    eq_ofNat_iff (hinlineOffset.trans_lt hsize)]
  constructor
  · rintro ⟨h0, habi, hschema, h40, h48, h56, h60, h64, h68, h72, h76, h80, h84, h88, h92, h96,
      hzero, h104, hzeros⟩
    exact ⟨⟨habi, hschema⟩, ⟨hzero, hzeros⟩, ⟨h40, h48, h56, h60, h64, h104⟩,
      ⟨h68, h72, h76, h80⟩, ⟨h0, h84, h88, h92, h96⟩⟩
  · rintro ⟨⟨habi, hschema⟩, ⟨hzero, hzeros⟩, ⟨h40, h48, h56, h60, h64, h104⟩,
      ⟨h68, h72, h76, h80⟩, ⟨h0, h84, h88, h92, h96⟩⟩
    exact ⟨h0, habi, hschema, h40, h48, h56, h60, h64, h68, h72, h76, h80, h84, h88, h92, h96,
      hzero, h104, hzeros⟩

variable {offset : ℕ}

theorem decodeArguments_eq_some {arguments : List Argument} :
    decodeArguments memory offset arguments.length = some arguments ↔
      Held memory (tableImage argumentDescriptorSize argumentImage arguments offset) := by
  rw [decodeArguments, mapM_range_iff, held_tableImage]
  simp only [held_argumentImage, zeros_iff32, ite_none_right_eq_some, some.injEq]
  constructor
  · exact fun h i x hx => (h.entry hx).symm
  · exact fun h => ⟨rfl, fun {i x} hx => (h i x hx).symm⟩

theorem decodeSpans_eq {spans : List MemorySpan} :
    decodeSpans memory offset spans.length = spans ↔
      Held memory (tableImage spanDescriptorSize encodeSpan spans offset) := by
  rw [decodeSpans, map_range_iff, held_tableImage]
  simp only [held_span]
  constructor
  · exact fun h i x hx => h.entry hx
  · exact fun h => ⟨rfl, fun {i x} hx => h i x hx⟩

theorem decodeAttachments_eq_some {attachments : List Attachment} :
    decodeAttachments memory offset attachments.length = some attachments ↔
      Held memory (tableImage attachmentDescriptorSize attachmentImage attachments offset) := by
  rw [decodeAttachments, mapM_range_iff, held_tableImage]
  simp only [held_attachmentImage, zeros_iff32, ite_none_right_eq_some, some.injEq]
  constructor
  · exact fun h i x hx => (h.entry hx).symm
  · exact fun h => ⟨rfl, fun {i x} hx => (h i x hx).symm⟩

theorem held_contentImage :
    Held memory content.image ↔
      Held memory content.headerImage ∧
      decodeArguments memory commandHeaderSize content.arguments.length = some content.arguments ∧
      decodeSpans memory content.spanOffset content.spans.length = content.spans ∧
      decodeAttachments memory content.attachmentOffset content.attachments.length =
        some content.attachments ∧
      read memory content.inlineOffset content.inlineData.length = content.inlineData := by
  rw [decodeArguments_eq_some, decodeSpans_eq, decodeAttachments_eq_some, Content.image,
    held_append, held_append, held_append, held_append, held_cons, and_assoc, and_assoc, and_assoc]
  simp only [held_nil, and_true]
  rfl

theorem commandOffsetsValid_iff {size : ℕ} (h : content.Counts memory) :
    commandOffsetsValid memory size = true ↔
      content.Fits ∧ content.Offsets memory ∧ size = content.size := by
  unfold commandOffsetsValid
  rw [h.arguments, h.spans, h.attachments, h.inlineData]
  simp only [Bool.and_eq_true, decide_eq_true_eq, beq_iff_eq]
  constructor
  · rintro ⟨⟨⟨⟨⟨harguments, hspans⟩, hattachments⟩, hinline⟩, hheader⟩, hoffsets⟩
    have hfits : content.Fits := ⟨harguments, hspans, hattachments, hinline⟩
    obtain ⟨hspanOffset, hattachmentOffset, hinlineOffset, -⟩ := hfits.addSize
    rw [hspanOffset] at hoffsets
    simp only [any_some, hattachmentOffset, hinlineOffset, Bool.and_eq_true, beq_iff_eq,
      decide_eq_true_eq] at hoffsets
    obtain ⟨h88, h92, ⟨⟨h96, -⟩, hsize⟩, h0⟩ := hoffsets
    have hsize : size = content.size := hsize.symm
    exact ⟨hfits, ⟨h0.trans hsize, hheader, h88, h92, h96⟩, hsize⟩
  · rintro ⟨hfits, hoffsets, rfl⟩
    obtain ⟨hspanOffset, hattachmentOffset, hinlineOffset, hinline⟩ := hfits.addSize
    refine ⟨⟨⟨⟨⟨hfits.arguments, hfits.spans⟩, hfits.attachments⟩, hfits.inlineData⟩,
      hoffsets.arguments⟩, ?_⟩
    rw [hspanOffset]
    simp only [any_some, hattachmentOffset, hinlineOffset, Bool.and_eq_true, beq_iff_eq,
      decide_eq_true_eq]
    exact ⟨hoffsets.spans, hoffsets.attachments, ⟨⟨hoffsets.inlineData, hinline⟩, rfl⟩,
      hoffsets.size⟩

end Held

section Encode
variable {buffer result : List UInt8} {source : Source} {size : ℕ}

theorem commandEncodedSize_of_valid (h : validateSource source = true) :
    commandEncodedSize source = .ok source.size := by
  have hfits := (validateSource_iff.mp h).fits
  obtain ⟨hspan, hattachment, hoffset, hinline⟩ := hfits.addSize
  have hsize : ¬source.inlineOffset + source.inlineData.length > uint32Max := by
    have hlt : source.inlineOffset + source.inlineData.length < 2 ^ 32 := hfits.size_lt
    simp only [uint32Max]
    omega
  unfold commandEncodedSize
  simp only [h, hspan, hattachment, hoffset, bind_some, if_neg (Nat.not_lt.mpr hinline),
    if_neg hsize]
  rfl

theorem commandEncode_of_valid (h : validateSource source = true) :
    commandEncode buffer source =
      if buffer.length < source.size then (.bufferTooSmall, buffer, 0)
      else (.ok, commandFormat.emit buffer source.toContent, source.size) := by
  unfold commandEncode
  simp only [commandEncodedSize_of_valid h]
  rfl

theorem commandEncode_of_invalid (h : validateSource source = false) :
    commandEncode buffer source = (.malformed, buffer, 0) := by
  unfold commandEncode commandEncodedSize
  simp only [if_pos h]

theorem commandEncode_eq_ok :
    commandEncode buffer source = (.ok, result, size) ↔
      validateSource source = true ∧ size = source.size ∧ size ≤ buffer.length ∧
        result = commandFormat.emit buffer source.toContent := by
  cases hvalid : validateSource source with
  | false =>
    rw [commandEncode_of_invalid hvalid]
    constructor
    · intro h
      cases h
    · rintro ⟨h, -⟩
      cases h
  | true =>
    rw [commandEncode_of_valid hvalid]
    constructor
    · intro h
      split_ifs at h with hsize
      · cases h
      · obtain ⟨rfl, rfl⟩ := Prod.mk.inj (Prod.mk.inj h).2
        exact ⟨rfl, rfl, Nat.not_lt.mp hsize, rfl⟩
    · rintro ⟨-, rfl, hsize, rfl⟩
      exact if_neg (Nat.not_lt.mpr hsize)

theorem commandEncode_failed {status : Status}
    (h : commandEncode buffer source = (status, result, size)) (hstatus : status ≠ .ok) :
    result = buffer ∧ size = 0 := by
  cases hvalid : validateSource source with
  | false =>
    rw [commandEncode_of_invalid hvalid] at h
    obtain ⟨rfl, rfl⟩ := Prod.mk.inj (Prod.mk.inj h).2
    exact ⟨rfl, rfl⟩
  | true =>
    rw [commandEncode_of_valid hvalid] at h
    split_ifs at h with hsize
    · obtain ⟨rfl, rfl⟩ := Prod.mk.inj (Prod.mk.inj h).2
      exact ⟨rfl, rfl⟩
    · exact absurd (Prod.mk.inj h).1.symm hstatus

end Encode

/-- What the fields and the accessors of a decoded command say. -/
structure Command.Reads (command : Command) (content : Content) : Prop where
  generation : command.generation = content.generation
  sessionId : command.sessionId = content.sessionId
  commandSetId : command.commandSetId = content.commandSetId
  commandId : command.commandId = content.commandId
  flags : command.flags = content.flags
  deadlineNs : command.deadlineNs = content.deadlineNs
  argumentCount : command.argumentCount.toNat = content.arguments.length
  argument : ∀ index, commandArgument command index =
    (content.arguments[index]?).elim (.error .invalidArgument) .ok
  spanCount : command.spanCount.toNat = content.spans.length
  span : ∀ index, commandSpan command index =
    (content.spans[index]?).elim (.error .invalidArgument) .ok
  attachmentCount : command.attachmentCount.toNat = content.attachments.length
  attachment : ∀ index, commandAttachment command index =
    (content.attachments[index]?).elim (.error .invalidArgument) .ok
  inlineData : commandInlineData command = content.inlineData

theorem access_eq {α : Type} {l : List α} {count index : ℕ} {x : α} (hcount : count = l.length)
    (hx : ∀ y, l[index]? = some y → x = y) :
    (if count ≤ index then Except.error Status.invalidArgument else .ok x) =
      (l[index]?).elim (.error .invalidArgument) .ok := by
  split_ifs with hindex
  · rw [getElem?_eq_none (hcount ▸ hindex)]
    rfl
  · have hget := getElem?_eq_getElem (hcount ▸ Nat.not_le.mp hindex)
    rw [hget, hx _ hget]
    rfl

theorem access_unique {α : Type} {l l' : List α}
    (h : ∀ index : ℕ, (l[index]?).elim (Except.error Status.invalidArgument) Except.ok =
      (l'[index]?).elim (.error .invalidArgument) .ok) : l = l' := by
  apply ext_getElem?
  intro index
  specialize h index
  cases hl : l[index]? <;> cases hl' : l'[index]? <;> simp_all

theorem Command.Reads.unique {command : Command} {content content' : Content}
    (h : command.Reads content) (h' : command.Reads content') : content = content' := by
  have harguments := access_unique fun index => (h.argument index).symm.trans (h'.argument index)
  have hspans := access_unique fun index => (h.span index).symm.trans (h'.span index)
  have hattachments :=
    access_unique fun index => (h.attachment index).symm.trans (h'.attachment index)
  obtain ⟨_, _, _, _, _, _, _, _, _, _⟩ := content
  obtain ⟨_, _, _, _, _, _, _, _, _, _⟩ := content'
  rw [Content.mk.injEq]
  exact ⟨h.generation.symm.trans h'.generation, h.sessionId.symm.trans h'.sessionId,
    h.commandSetId.symm.trans h'.commandSetId, h.commandId.symm.trans h'.commandId,
    h.flags.symm.trans h'.flags, h.deadlineNs.symm.trans h'.deadlineNs, harguments, hspans,
    hattachments, h.inlineData.symm.trans h'.inlineData⟩

section Decode
variable {bytes : List UInt8} {content : Content} {expectedGeneration : UInt64}
  {profileKind queueClass : UInt32} {regions : List MemoryRegion} {command : Command}

theorem reads_decodeCommand (hfits : content.Fits) (h : commandFormat.Represents bytes content) :
    (decodeCommand bytes).Reads content := by
  obtain ⟨hheader, harguments, hspans, hattachments, hinline⟩ := held_contentImage.mp h.held
  obtain ⟨-, -, hwords, hcounts, hoffsets⟩ := (held_commandHeader hfits).mp hheader
  rw [decodeArguments_eq_some, held_tableImage] at harguments
  rw [decodeSpans_eq, held_tableImage] at hspans
  rw [decodeAttachments_eq_some, held_tableImage] at hattachments
  exact {
    generation := hwords.generation
    sessionId := hwords.sessionId
    commandSetId := hwords.commandSetId
    commandId := hwords.commandId
    flags := hwords.flags
    deadlineNs := hwords.deadlineNs
    argumentCount := hcounts.arguments
    argument := fun index => access_eq hcounts.arguments fun y hy => by
      rw [show (decodeCommand bytes).argumentOffset.toNat = _ from hoffsets.arguments]
      exact (held_argumentImage.mp (harguments index y hy)).1
    spanCount := hcounts.spans
    span := fun index => access_eq hcounts.spans fun y hy => by
      rw [show (decodeCommand bytes).spanOffset.toNat = _ from hoffsets.spans]
      exact held_span.mp (hspans index y hy)
    attachmentCount := hcounts.attachments
    attachment := fun index => access_eq hcounts.attachments fun y hy => by
      rw [show (decodeCommand bytes).attachmentOffset.toNat = _ from hoffsets.attachments]
      exact (held_attachmentImage.mp (hattachments index y hy)).1
    inlineData := by
      rw [commandInlineData, show (decodeCommand bytes).inlineOffset.toNat = _ from
        hoffsets.inlineData, show (decodeCommand bytes).inlineLength.toNat = _ from
        hcounts.inlineData]
      exact hinline }

theorem commandDecode_eq_ok :
    commandDecode bytes expectedGeneration profileKind queueClass regions = .ok command ↔
      ∃ content : Content, commandFormat.Represents bytes content ∧
        content.generation = expectedGeneration ∧
        validateSource ⟨content, profileKind, queueClass, regions⟩ = true ∧
        command = decodeCommand bytes := by
  unfold commandDecode
  dsimp only
  constructor
  · intro h
    split_ifs at h with hcontext hshort hidentity hreserved
    split at h
    · cases h
    · rename_i arguments harguments
      split at h
      · cases h
      · rename_i attachments hattachments
        split_ifs at h with hinvalid
        simp only [not_or, not_not, Bool.not_eq_false] at hinvalid hreserved
        obtain rfl := Except.ok.inj h
        let spans := decodeSpans (ofList bytes) (decodeCommand bytes).spanOffset.toNat
          (decodeCommand bytes).spanCount.toNat
        let source := (decodeCommand bytes).source arguments spans attachments profileKind
          queueClass regions
        have hcounts : source.toContent.Counts (ofList bytes) := by
          refine ⟨?_, ?_, ?_, ?_⟩
          · exact (mapM_range_iff.mp harguments).length.symm
          · simp [source, Command.source, spans, decodeSpans, decodeCommand]
          · exact (mapM_range_iff.mp hattachments).length.symm
          · simp [source, Command.source, commandInlineData, decodeCommand]
        obtain ⟨hfits, hoffsets, hsize⟩ := (commandOffsetsValid_iff hcounts).mp hreserved.2.2
        refine ⟨source.toContent, ⟨hsize, held_contentImage.mpr ⟨?_, ?_, ?_, ?_, ?_⟩⟩, hinvalid.1,
          hinvalid.2, rfl⟩
        · exact (held_commandHeader hfits).mpr ⟨Bool.not_eq_false _ ▸ hidentity,
            ⟨hreserved.1, hreserved.2.1⟩, ⟨rfl, rfl, rfl, rfl, rfl, rfl⟩, hcounts, hoffsets⟩
        · rw [← hoffsets.arguments, ← hcounts.arguments]
          exact harguments
        · rw [← hoffsets.spans, ← hcounts.spans]
          rfl
        · rw [← hoffsets.attachments, ← hcounts.attachments]
          exact hattachments
        · rw [← hoffsets.inlineData, ← hcounts.inlineData]
          rfl
  · rintro ⟨content, hrepresents, rfl, hvalid, rfl⟩
    have haccepted := validateSource_iff.mp hvalid
    have hreads := reads_decodeCommand haccepted.fits hrepresents
    obtain ⟨hsize, hheld⟩ := hrepresents
    obtain ⟨hheader, harguments, hspans, hattachments, hinline⟩ := held_contentImage.mp hheld
    obtain ⟨hidentity, hreserved, hwords, hcounts, hoffsets⟩ :=
      (held_commandHeader haccepted.fits).mp hheader
    have hgeneration : content.generation ≠ 0 := haccepted.generation
    have hprofile : profileKindValid profileKind = true := haccepted.profileKind
    have hlong : commandHeaderSize ≤ bytes.length := hsize ▸ content.le_size.2.1
    have hlayout := (commandOffsetsValid_iff hcounts).mpr ⟨haccepted.fits, hoffsets, hsize⟩
    have hsource : (decodeCommand bytes).source content.arguments content.spans content.attachments
        profileKind queueClass regions = ⟨content, profileKind, queueClass, regions⟩ := by
      simp only [Command.source, hreads.generation, hreads.sessionId, hreads.commandSetId,
        hreads.commandId, hreads.flags, hreads.deadlineNs, hreads.inlineData]
    rw [if_neg (by simp [hgeneration, hprofile]), if_neg (Nat.not_lt.mpr hlong),
      if_neg (Bool.not_eq_false _ ▸ hidentity),
      if_neg (by simp [hreserved.1, hreserved.2, hlayout])]
    rw [show (decodeCommand bytes).argumentOffset.toNat = _ from hoffsets.arguments,
      show (decodeCommand bytes).spanOffset.toNat = _ from hoffsets.spans,
      show (decodeCommand bytes).attachmentOffset.toNat = _ from hoffsets.attachments,
      hreads.argumentCount, hreads.spanCount, hreads.attachmentCount, harguments, hspans,
      hattachments]
    dsimp only
    rw [hsource, if_neg (by simp [hreads.generation, hvalid])]

end Decode

/-- A command that is encoded decodes, in its own context, to its fields and tables; a command that
is accepted is the encoding of what its fields and tables say, so that commands with the same
content have the same bytes; and an encoder that fails leaves the buffer as it was. -/
theorem command_codec_canonical :
    (∀ (buffer result : List UInt8) (source : Source) (size : ℕ),
      commandEncode buffer source = (.ok, result, size) →
      ∃ command, commandDecode (result.take size) source.generation source.profileKind
          source.queueClass source.regions = .ok command ∧
        command.Reads source.toContent) ∧
    (∀ (bytes : List UInt8) (generation : UInt64) (profileKind queueClass : UInt32)
      (regions : List MemoryRegion) (command : Command),
      commandDecode bytes generation profileKind queueClass regions = .ok command →
      ∃ content : Content, command.Reads content ∧ content.generation = generation ∧
        ∀ buffer : List UInt8, bytes.length ≤ buffer.length →
          ∃ result, commandEncode buffer ⟨content, profileKind, queueClass, regions⟩ =
              (.ok, result, bytes.length) ∧ result.take bytes.length = bytes) ∧
    (∀ (bytes bytes' : List UInt8) (generation generation' : UInt64)
      (profileKind profileKind' queueClass queueClass' : UInt32)
      (regions regions' : List MemoryRegion) (command command' : Command) (content : Content),
      commandDecode bytes generation profileKind queueClass regions = .ok command →
      commandDecode bytes' generation' profileKind' queueClass' regions' = .ok command' →
      command.Reads content → command'.Reads content → bytes = bytes') ∧
    ∀ (buffer result : List UInt8) (source : Source) (status : Status) (size : ℕ),
      commandEncode buffer source = (status, result, size) → status ≠ .ok →
      result = buffer ∧ size = 0 := by
  -- What a decoded command reads is the content that its bytes represent.
  have hrepresents {bytes : List UInt8} {generation : UInt64} {profileKind queueClass : UInt32}
      {regions : List MemoryRegion} {command : Command} {content : Content}
      (h : commandDecode bytes generation profileKind queueClass regions = .ok command)
      (hreads : command.Reads content) : commandFormat.Represents bytes content := by
    obtain ⟨content', hrepresents, -, hvalid, rfl⟩ := commandDecode_eq_ok.mp h
    have hreads' := reads_decodeCommand (validateSource_iff.mp hvalid).fits hrepresents
    exact hreads.unique hreads' ▸ hrepresents
  refine ⟨?_, ?_, ?_, fun _ _ _ _ _ h hstatus => commandEncode_failed h hstatus⟩
  · intro buffer result source size h
    obtain ⟨hvalid, rfl, hsize, rfl⟩ := commandEncode_eq_ok.mp h
    have hbytes := (Format.emit_take_iff (f := commandFormat) hsize).mp rfl
    exact ⟨_, commandDecode_eq_ok.mpr ⟨source.toContent, hbytes, rfl, hvalid, rfl⟩,
      reads_decodeCommand (validateSource_iff.mp hvalid).fits hbytes⟩
  · intro bytes generation profileKind queueClass regions command h
    obtain ⟨content, hbytes, hgeneration, hvalid, rfl⟩ := commandDecode_eq_ok.mp h
    refine ⟨content, reads_decodeCommand (validateSource_iff.mp hvalid).fits hbytes, hgeneration,
      fun buffer hroom => ⟨_, commandEncode_eq_ok.mpr ⟨hvalid, hbytes.size, hroom, rfl⟩, ?_⟩⟩
    rw [hbytes.size] at hroom ⊢
    exact (Format.emit_take_iff hroom).mpr hbytes
  · intro bytes bytes' _ _ _ _ _ _ _ _ command command' content h h' hreads hreads'
    exact (hrepresents h hreads).unique (hrepresents h' hreads')

end Kobox.Gpu
