import Kobox.Gpu.Contracts

/-!
# Reserved fields of inline requests (`protocol/src/gpu.c`)

Which reserved fields are tested is written out for each command in the semantic checks, and some
commands have no test: those of the i915 set, twelve of the mode set and SYNCOBJ_TRANSFER.
-/

namespace Kobox.Gpu
open ByteMemory Protocol List Option

/-! ### The layouts -/

/-- Where a reserved field begins in its record, and how many bytes it has. -/
structure ReservedField where
  offset : ℕ
  size : ℕ
  deriving DecidableEq, Repr

def coreReserved : CoreCommand → List ReservedField
  | .version => [⟨12, 4⟩]
  | .getUnique | .getClient | .setClientName | .gemClose | .gemFlink | .gemOpen
  | .primeAttachmentToHandle | .syncobjCreate | .syncobjDestroy | .readEvents => [⟨4, 4⟩]
  | .syncobjTransfer => [⟨28, 4⟩]
  | _ => []

def modeReserved : ModeCommand → List ReservedField
  | .getPlaneResources | .listLessees | .revokeLease => [⟨4, 4⟩]
  | .crtcGetSequence | .getCrtc | .getEncoder | .attachMode | .detachMode | .getFb | .removeFb
  | .createPropertyBlob | .destroyPropertyBlob | .getLease | .getFb2 | .closeFb => [⟨12, 4⟩]
  | .getProperty | .objectGetProperties | .objectSetProperty => [⟨20, 4⟩]
  | .getConnector => [⟨28, 4⟩]
  | .addFb => [⟨32, 4⟩]
  | .cursor => [⟨36, 4⟩]
  | _ => []

def virtgpuReserved : VirtgpuCommand → List ReservedField
  | .resourceCreate => [⟨52, 4⟩]
  | .resourceInfo => [⟨4, 4⟩]
  | .getCaps => [⟨12, 4⟩]
  | .resourceCreateBlob => [⟨20, 4⟩]
  | _ => []

def i915Reserved : I915Command → List ReservedField
  | .getparam | .contextGetparam | .contextDestroy => [⟨4, 4⟩]
  | .getAperture => [⟨0, 8⟩]
  | .gemCreate | .gemMmapOffset | .contextCreate | .contextSetparam => [⟨12, 4⟩]
  | .gemCreateExt => [⟨16, 8⟩]
  | .execbuffer => [⟨28, 4⟩]
  | _ => []

def amdgpuReserved : AmdgpuCommand → List ReservedField
  | .gemListHandles => [⟨4, 4⟩]
  | .boList | .sched => [⟨12, 4⟩]
  | .gemOp | .gemUserptr => [⟨20, 4⟩]
  | .gemMetadata | .fenceToHandle => [⟨28, 4⟩]
  | .gemVa => [⟨52, 4⟩]
  | _ => []

def reservedFields (commandSetId commandId : UInt32) : List ReservedField :=
  if commandSetId = coreSetId then (CoreCommand.ofId commandId).elim [] coreReserved
  else if commandSetId = modeSetId then (ModeCommand.ofId commandId).elim [] modeReserved
  else if commandSetId = virtgpuSetId then (VirtgpuCommand.ofId commandId).elim [] virtgpuReserved
  else if commandSetId = i915SetId then (I915Command.ofId commandId).elim [] i915Reserved
  else if commandSetId = amdgpuSetId then (AmdgpuCommand.ofId commandId).elim [] amdgpuReserved
  else []

def uncheckedCore : List CoreCommand := [.syncobjTransfer]

def uncheckedMode : List ModeCommand :=
  [.crtcGetSequence, .getEncoder, .attachMode, .detachMode, .getFb, .addFb, .removeFb,
    .objectSetProperty, .destroyPropertyBlob, .revokeLease, .getFb2, .closeFb]

def uncheckedI915 : List I915Command :=
  [.getparam, .getAperture, .contextGetparam, .gemCreate, .gemCreateExt, .gemMmapOffset,
    .contextCreate, .contextSetparam, .contextDestroy, .execbuffer]

def reservedChecked (commandSetId commandId : UInt32) : Bool :=
  if commandSetId = coreSetId then (CoreCommand.ofId commandId).all (!uncheckedCore.contains ·)
  else if commandSetId = modeSetId then
    (ModeCommand.ofId commandId).all (!uncheckedMode.contains ·)
  else if commandSetId = i915SetId then
    (I915Command.ofId commandId).all (!uncheckedI915.contains ·)
  else true

def ReservedField.Zero (field : ReservedField) (data : List UInt8) : Prop :=
  ∀ i < field.size, data[field.offset + i]? = some 0

section Records
variable {α β : Type} {commands : List α} {requests : List β} {commandId : UInt32}

theorem commandOfId_zip {x : α} {y : β} (h : commandOfId commands commandId = some x)
    (h' : commandOfId requests commandId = some y) : (x, y) ∈ commands.zip requests := by
  rw [commandOfId_eq_some] at h h'
  apply mem_of_getElem? (i := commandId.toNat - 1)
  rw [getElem?_zip_eq_some]
  exact ⟨h.2, h'.2⟩

theorem exists_commandOfId {x : α} (hlength : commands.length = requests.length)
    (h : commandOfId commands commandId = some x) :
    ∃ y, commandOfId requests commandId = some y := by
  obtain ⟨hid, hget⟩ := commandOfId_eq_some.mp h
  obtain ⟨hindex, -⟩ := List.getElem?_eq_some_iff.mp hget
  rw [hlength] at hindex
  exact ⟨requests.get ⟨_, hindex⟩, commandOfId_eq_some.mpr ⟨hid, List.getElem?_eq_getElem hindex⟩⟩

end Records

section Within
variable {α : Type} {source : Source} {commands : List α} {reserved : α → List ReservedField}
  {command : α}

theorem inlineRecordValid_length {recordId size : UInt32}
    (h : inlineRecordValid source recordId size = true) :
    source.inlineData.length = size.toNat := by
  obtain ⟨argument, -, h⟩ := (any_eq_true _ _).mp h
  simp only [Bool.and_eq_true, beq_iff_eq] at h
  exact h.2

theorem catalogRequestValid_within {catalog : Catalog}
    (htable : ∀ entry ∈ commands.zip catalog.requests, ∀ field ∈ reserved entry.1,
      entry.2.inlineRecordId ≠ 0 ∧ field.offset + field.size ≤ entry.2.inlineSize.toNat)
    (hcommand : commandOfId commands source.commandId = some command)
    (h : catalogRequestValid catalog source = true) :
    ∀ field ∈ reserved command, field.offset + field.size ≤ source.inlineData.length := by
  intro field hfield
  obtain ⟨request, hrequest, h⟩ := (any_eq_true _ _).mp h
  simp only [Bool.and_eq_true] at h
  obtain ⟨⟨⟨⟨-, hinline⟩, -⟩, -⟩, -⟩ := h
  obtain ⟨hrecord, hwithin⟩ := htable _ (commandOfId_zip hcommand hrequest) field hfield
  rw [inlineArgumentValid, if_neg hrecord] at hinline
  rw [inlineRecordValid_length hinline]
  exact hwithin

theorem word_zero {offset : ℕ} (hword : source.word offset = 0)
    (hwithin : offset + 4 ≤ source.inlineData.length) :
    ReservedField.Zero ⟨offset, 4⟩ source.inlineData := by
  have hread : read (ofList source.inlineData) offset 4 = List.replicate 4 0 :=
    bytesAreZero_iff.mp (zeros_iff32.mpr hword)
  rw [read_ofList_window hwithin] at hread
  intro i hi
  have hbyte := congrArg (fun bytes => bytes[i]?) hread
  simp only at hi hbyte
  rw [getElem?_take_of_lt hi, getElem?_drop, getElem?_replicate_of_lt hi] at hbyte
  exact hbyte

end Within

/-! ### What the tests establish -/

section Checked
variable {source : Source}

theorem coreRequestSemanticsValid_reserved {command : CoreCommand}
    (hcommand : CoreCommand.ofId source.commandId = some command)
    (hchecked : command ∉ uncheckedCore) (h : coreRequestSemanticsValid source = true) :
    ∀ field ∈ coreReserved command, field.size = 4 ∧ source.word field.offset = 0 := by
  unfold coreRequestSemanticsValid at h
  rw [hcommand] at h
  cases command <;> simp_all [coreReserved, uncheckedCore]

theorem modeRequestSemanticsValid_reserved {command : ModeCommand}
    (hcommand : ModeCommand.ofId source.commandId = some command)
    (hchecked : command ∉ uncheckedMode) (h : modeRequestSemanticsValid source = true) :
    ∀ field ∈ modeReserved command, field.size = 4 ∧ source.word field.offset = 0 := by
  unfold modeRequestSemanticsValid at h
  rw [hcommand, Bool.and_eq_true] at h
  replace h := h.2
  cases command <;> simp_all [modeReserved, uncheckedMode]

theorem virtgpuRequestSemanticsValid_reserved {command : VirtgpuCommand}
    (hcommand : VirtgpuCommand.ofId source.commandId = some command)
    (h : virtgpuRequestSemanticsValid source = true) :
    ∀ field ∈ virtgpuReserved command, field.size = 4 ∧ source.word field.offset = 0 := by
  unfold virtgpuRequestSemanticsValid at h
  rw [hcommand] at h
  cases command <;> simp_all [virtgpuReserved]

theorem fieldsValid_reserved {command : AmdgpuCommand} {spans : List (Option MemorySpan)}
    (h : Amdgpu.fieldsValid source spans command = true) :
    ∀ field ∈ amdgpuReserved command, field.size = 4 ∧ source.word field.offset = 0 := by
  cases command <;> simp_all [amdgpuReserved, Amdgpu.fieldsValid]

theorem zero_of_word {field : ReservedField} (h : field.size = 4 ∧ source.word field.offset = 0)
    (hwithin : field.offset + field.size ≤ source.inlineData.length) :
    field.Zero source.inlineData := by
  obtain ⟨offset, size⟩ := field
  obtain ⟨rfl, hword⟩ := h
  exact word_zero hword hwithin

theorem Source.Accepted.catalog (h : source.Accepted) {catalog : Catalog}
    (hcatalog : requestCatalog source.commandSetId = some catalog) :
    catalogRequestValid catalog source = true := by
  have hset : source.commandSetId ≠ amdgpuSetId := by
    intro hset
    rw [hset] at hcatalog
    cases hcatalog
  have hrequest := h.request
  rw [if_neg hset, genericRequestValid, hcatalog] at hrequest
  exact hrequest

theorem catalog_reserved_zero {α : Type} {commands : List α} {reserved : α → List ReservedField}
    {catalog : Catalog} {command : α} (h : source.Accepted)
    (hcatalog : requestCatalog source.commandSetId = some catalog)
    (hcommand : commandOfId commands source.commandId = some command)
    (hwords : ∀ field ∈ reserved command, field.size = 4 ∧ source.word field.offset = 0)
    (htable : ∀ entry ∈ commands.zip catalog.requests, ∀ field ∈ reserved entry.1,
      entry.2.inlineRecordId ≠ 0 ∧ field.offset + field.size ≤ entry.2.inlineSize.toNat) :
    ∀ field ∈ reserved command, field.Zero source.inlineData := by
  intro field hfield
  have hwithin := catalogRequestValid_within htable hcommand (h.catalog hcatalog) field hfield
  exact zero_of_word (hwords field hfield) hwithin

theorem amdgpu_reserved_zero (h : source.Accepted) (hset : source.commandSetId = amdgpuSetId)
    {command : AmdgpuCommand} (hcommand : AmdgpuCommand.ofId source.commandId = some command) :
    ∀ field ∈ amdgpuReserved command, field.Zero source.inlineData := by
  intro field hfield
  have hrequest := h.request
  rw [if_pos hset, Amdgpu.requestValid, hcommand, any_some, Bool.and_eq_true] at hrequest
  obtain ⟨hinline, hvalid⟩ := hrequest
  have hcs : command ≠ .cs := by
    intro hcs
    rw [hcs] at hfield
    cases hfield
  rw [if_neg hcs, Bool.and_eq_true] at hvalid
  obtain ⟨spans, -, hspans⟩ := (any_eq_true _ _).mp hvalid.2
  simp only [Bool.and_eq_true] at hspans
  obtain ⟨contract, hcontract, hrecord⟩ := (any_eq_true _ _).mp hinline
  have htable : ∀ entry ∈ AmdgpuCommand.all.zip amdgpuRequests, ∀ field ∈ amdgpuReserved entry.1,
      field.offset + field.size ≤ entry.2.size.toNat := by decide
  apply zero_of_word (fieldsValid_reserved hspans.1.1.1 field hfield)
  rw [inlineRecordValid_length hrecord]
  exact htable _ (commandOfId_zip hcommand hcontract) field hfield

theorem i915Reserved_of_checked {command : I915Command} (h : command ∉ uncheckedI915) :
    i915Reserved command = [] := by
  cases command <;> simp_all [i915Reserved, uncheckedI915]

theorem Source.Accepted.reserved_zero (h : source.Accepted)
    (hchecked : reservedChecked source.commandSetId source.commandId = true) :
    ∀ field ∈ reservedFields source.commandSetId source.commandId,
      field.Zero source.inlineData := by
  unfold reservedFields
  unfold reservedChecked at hchecked
  split_ifs at hchecked ⊢ with hcore hmode hvirtgpu hi915 hi915 hamdgpu
  · cases hcommand : CoreCommand.ofId source.commandId with
    | none => simp
    | some command =>
      have hcatalog : requestCatalog source.commandSetId = some coreCatalog := by
        rw [hcore]
        rfl
      rw [hcommand, all_some, Bool.not_eq_true', contains_eq_mem,
        decide_eq_false_iff_not] at hchecked
      have hwords := coreRequestSemanticsValid_reserved hcommand hchecked (h.core hcore)
      rw [elim_some]
      exact catalog_reserved_zero h hcatalog hcommand hwords (by decide)
  · cases hcommand : ModeCommand.ofId source.commandId with
    | none => simp
    | some command =>
      have hcatalog : requestCatalog source.commandSetId = some modeCatalog := by
        rw [hmode]
        rfl
      rw [hcommand, all_some, Bool.not_eq_true', contains_eq_mem,
        decide_eq_false_iff_not] at hchecked
      have hwords := modeRequestSemanticsValid_reserved hcommand hchecked (h.mode hmode)
      rw [elim_some]
      exact catalog_reserved_zero h hcatalog hcommand hwords (by decide)
  · rw [hi915] at hvirtgpu
    cases hvirtgpu
  · cases hcommand : VirtgpuCommand.ofId source.commandId with
    | none => simp
    | some command =>
      have hcatalog : requestCatalog source.commandSetId = some virtgpuCatalog := by
        rw [hvirtgpu]
        rfl
      have hwords := virtgpuRequestSemanticsValid_reserved hcommand (h.virtgpu hvirtgpu)
      rw [elim_some]
      exact catalog_reserved_zero h hcatalog hcommand hwords (by decide)
  · cases hcommand : I915Command.ofId source.commandId with
    | none => simp
    | some command =>
      rw [hcommand, all_some, Bool.not_eq_true', contains_eq_mem,
        decide_eq_false_iff_not] at hchecked
      simp [i915Reserved_of_checked hchecked]
  · cases hcommand : AmdgpuCommand.ofId source.commandId with
    | none => simp
    | some command => exact amdgpu_reserved_zero h hamdgpu hcommand
  · simp

end Checked

/-! ### Requests that no test refuses -/

def onesRequest (commandSetId : UInt32) (contracts : List SpanContract)
    (request : RequestContract) : Content :=
  let required := contracts.filter fun contract =>
    contract.commandId == request.commandId && contract.minimum != 0
  { generation := 1
    sessionId := 1
    commandSetId := commandSetId
    commandId := request.commandId
    flags := 0
    deadlineNs := 0
    arguments := ⟨1, argumentInline, flagInput, request.inlineRecordId, 0, request.inlineSize⟩ ::
      required.map fun contract => ⟨contract.argumentId, argumentSpan,
        directionFlags contract.direction, contract.recordId, contract.argumentId.toUInt64,
        contract.minimum⟩
    spans := required.map fun contract => ⟨contract.argumentId, 1, 0,
      contract.minimum.toUInt64 * contract.recordSize.toUInt64, directionRights contract.direction,
      contract.recordId, contract.minimum, directionFlags contract.direction⟩
    attachments := []
    inlineData := List.replicate request.inlineSize.toNat 1 }

def page : List MemoryRegion := [⟨1, spanRightRead ||| spanRightWrite, 4096⟩]

theorem core_ones_valid : ∀ entry ∈ CoreCommand.all.zip coreCatalog.requests,
    entry.1 ∈ uncheckedCore →
    validateSource ⟨onesRequest coreSetId coreCatalog.spans entry.2, profileI915, queueExecution, page⟩ =
      true := by
  decide +kernel

theorem mode_ones_valid : ∀ entry ∈ ModeCommand.all.zip modeCatalog.requests,
    entry.1 ∈ uncheckedMode →
    validateSource ⟨onesRequest modeSetId modeCatalog.spans entry.2, profileI915, queueDisplay, page⟩ =
      true := by
  decide +kernel

theorem i915_ones_valid : ∀ entry ∈ I915Command.all.zip i915Catalog.requests,
    entry.1 ∈ uncheckedI915 →
    validateSource ⟨onesRequest i915SetId i915Catalog.spans entry.2, profileI915, queueExecution, page⟩ =
      true := by
  decide +kernel

def EnforcesReserved (commandSetId commandId : UInt32) : Prop :=
  ∀ (bytes : List UInt8) (generation : UInt64) (profileKind queueClass : UInt32)
    (regions : List MemoryRegion) (command : Command),
    commandDecode bytes generation profileKind queueClass regions = .ok command →
    command.commandSetId = commandSetId → command.commandId = commandId →
    ∀ field ∈ reservedFields commandSetId commandId, field.Zero (commandInlineData command)

section Unchecked
variable {commandSetId commandId : UInt32}

theorem ReservedField.not_zero_ones {field : ReservedField} (h : 0 < field.size) (n : ℕ) :
    ¬field.Zero (List.replicate n 1) := by
  intro hzero
  have hbyte := eq_of_mem_replicate (mem_of_getElem? (hzero 0 h))
  exact absurd hbyte (by decide)

theorem EnforcesReserved.zero (h : EnforcesReserved commandSetId commandId) {source : Source}
    (hvalid : validateSource source = true) (hset : source.commandSetId = commandSetId)
    (hid : source.commandId = commandId) :
    ∀ field ∈ reservedFields commandSetId commandId, field.Zero source.inlineData := by
  have hroom : commandFormat.size source.toContent ≤
      (List.replicate (commandFormat.size source.toContent) (0 : UInt8)).length := by
    rw [length_replicate]
  have hbytes := (Format.emit_take_iff hroom).mp rfl
  have hreads := reads_decodeCommand (validateSource_iff.mp hvalid).fits hbytes
  have hdecode := commandDecode_eq_ok.mpr ⟨source.toContent, hbytes, rfl, hvalid, rfl⟩
  have hzero := h _ _ _ _ _ _ hdecode (hreads.commandSetId.trans hset)
    (hreads.commandId.trans hid)
  rw [hreads.inlineData] at hzero
  exact hzero

theorem checked_of_enforces {α : Type} [DecidableEq α] {commands unchecked : List α}
    {reserved : α → List ReservedField} {catalog : Catalog} {queueClass : UInt32}
    (hvalid : ∀ entry ∈ commands.zip catalog.requests, entry.1 ∈ unchecked →
      validateSource ⟨onesRequest commandSetId catalog.spans entry.2, profileI915, queueClass,
        page⟩ = true)
    (hwell : catalog.WellFormed) (hlength : commands.length = catalog.requests.length)
    (hreserved : reservedFields commandSetId commandId =
      (commandOfId commands commandId).elim [] reserved)
    (hfields : ∀ command ∈ unchecked, ∃ field ∈ reserved command, 0 < field.size)
    (h : EnforcesReserved commandSetId commandId) :
    (commandOfId commands commandId).all (!unchecked.contains ·) = true := by
  cases hcommand : commandOfId commands commandId with
  | none => rfl
  | some command =>
    rw [all_some, Bool.not_eq_true', contains_eq_mem, decide_eq_false_iff_not]
    intro hunchecked
    obtain ⟨request, hrequest⟩ := exists_commandOfId hlength hcommand
    obtain ⟨field, hfield, hsize⟩ := hfields command hunchecked
    have hones := hvalid _ (commandOfId_zip hcommand hrequest) hunchecked
    have hzero := h.zero hones rfl (hwell.commandOfId_iff.mp hrequest).2 field (by
      rw [hreserved, hcommand]
      exact hfield)
    exact ReservedField.not_zero_ones hsize _ hzero

end Unchecked

/-- The decoder insists on zeros in the reserved fields of the commands that `reservedChecked` lists
and of no other: of every other one it accepts some request in which they are set. -/
theorem reserved_enforced_iff (commandSetId commandId : UInt32) :
    EnforcesReserved commandSetId commandId ↔ reservedChecked commandSetId commandId = true := by
  constructor
  · intro h
    unfold reservedChecked
    split_ifs with hcore hmode hi915
    · subst hcore
      have hreserved : reservedFields coreSetId commandId =
          (CoreCommand.ofId commandId).elim [] coreReserved := rfl
      exact checked_of_enforces core_ones_valid coreCatalog_wellFormed rfl hreserved (by decide) h
    · subst hmode
      have hreserved : reservedFields modeSetId commandId =
          (ModeCommand.ofId commandId).elim [] modeReserved := rfl
      exact checked_of_enforces mode_ones_valid modeCatalog_wellFormed rfl hreserved (by decide) h
    · subst hi915
      have hreserved : reservedFields i915SetId commandId =
          (I915Command.ofId commandId).elim [] i915Reserved := rfl
      exact checked_of_enforces i915_ones_valid i915Catalog_wellFormed rfl hreserved (by decide) h
    · rfl
  · intro hchecked bytes generation profileKind queueClass regions command h hset hid
    obtain ⟨content, hbytes, -, hvalid, rfl⟩ := commandDecode_eq_ok.mp h
    have haccepted := validateSource_iff.mp hvalid
    have hreads := reads_decodeCommand haccepted.fits hbytes
    have hcontentSet : content.commandSetId = commandSetId := hreads.commandSetId.symm.trans hset
    have hcontentId : content.commandId = commandId := hreads.commandId.symm.trans hid
    rw [hreads.inlineData, ← hcontentSet, ← hcontentId]
    rw [← hcontentSet, ← hcontentId] at hchecked
    exact haccepted.reserved_zero hchecked

/-- A SYNCOBJ_TRANSFER whose reserved word, at 28, is 0x01010101. -/
def transfer : Source :=
  ⟨onesRequest coreSetId coreSpans ⟨24, 132, 32, 0, 0⟩, profileI915, queueExecution, page⟩

def transferBytes : List UInt8 := (commandEncode (List.replicate 192 0) transfer).2.1

theorem transfer_reserved_accepted :
    ∃ command, commandDecode transferBytes 1 profileI915 queueExecution page = .ok command ∧
      command.commandSetId = coreSetId ∧
      CoreCommand.ofId command.commandId = some .syncobjTransfer ∧
      reservedFields command.commandSetId command.commandId = [⟨28, 4⟩] ∧
      loadU32 (ofList (commandInlineData command)) 28 = 0x01010101 ∧
      ¬ReservedField.Zero ⟨28, 4⟩ (commandInlineData command) := by
  have hvalid : validateSource transfer = true :=
    core_ones_valid (.syncobjTransfer, ⟨24, 132, 32, 0, 0⟩) (by decide) (by decide)
  have hsize : transfer.size = 192 := by decide
  have hemit : transferBytes = commandFormat.emit (List.replicate 192 0) transfer.toContent := by
    simp only [transferBytes, commandEncode_of_valid hvalid, length_replicate, hsize,
      Nat.lt_irrefl, if_false]
  have hbytes : commandFormat.Represents transferBytes transfer.toContent := by
    have hroom : commandFormat.size transfer.toContent ≤
        (List.replicate 192 (0 : UInt8)).length := by
      rw [length_replicate]
      exact hsize.le
    have hlength : transferBytes.length = commandFormat.size transfer.toContent := by
      rw [hemit, Format.emit, read_length, length_replicate]
      exact hsize.symm
    rw [← Format.emit_take_iff hroom, ← hemit, ← hlength, take_length]
  have hreads := reads_decodeCommand (validateSource_iff.mp hvalid).fits hbytes
  refine ⟨_, commandDecode_eq_ok.mpr ⟨transfer.toContent, hbytes, rfl, hvalid, rfl⟩,
    hreads.commandSetId, ?_, ?_, ?_, ?_⟩
  · rw [hreads.commandId]
    rfl
  · rw [hreads.commandSetId, hreads.commandId]
    rfl
  · rw [hreads.inlineData]
    decide
  · rw [hreads.inlineData]
    exact ReservedField.not_zero_ones (by decide) _

end Kobox.Gpu
