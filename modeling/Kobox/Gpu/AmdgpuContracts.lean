import Kobox.Gpu.Contracts

/-!
# AMDGPU requests and their contracts
-/

namespace Kobox.Gpu
open Protocol Matching Listing List Option
variable {argument : Argument} {slot : Slot}

theorem amdgpuCatalog_wellFormed : amdgpuCatalog.WellFormed := by
  constructor <;> decide +kernel

namespace Amdgpu

/-! ### Slots -/

def spanAt (source : Source) (argumentId : UInt32) : Option MemorySpan :=
  (findArgument source argumentId).bind fun argument =>
    findSpan source.spans argument.value.toUInt32

/-- A span argument in a slot. -/
structure SlotUse (slot : Slot) (argument : Argument) (span : MemorySpan) : Prop where
  kind : argument.kind = argumentSpan
  value : argument.value = span.spanId.toUInt64
  flags : argument.flags = slot.flags
  record : slot.record argument.recordSchemaId = true
  minimum : slot.minimum ≤ argument.count
  maximum : argument.count ≤ slot.maximum
  size : recordSize argument.recordSchemaId ≠ 0
  spanFlags : span.flags = slot.flags
  rights : span.rights = if slot.flags = flagInput then spanRightRead else spanRightWrite
  length : span.length.toNat =
    argument.count.toNat * (recordSize argument.recordSchemaId).toNat

def SlotMet (source : Source) (slot : Slot) : Prop :=
  findArgument source slot.argumentId = none ∧ slot.minimum = 0 ∨
    ∃ argument, findArgument source slot.argumentId = some argument ∧
      ∃ span ∈ source.spans, SlotUse slot argument span

section Slots
variable {source : Source} {slot : Slot}

theorem slotUse_iff (hspans : SpansValid source.spans source.regions) :
    (∃ span ∈ source.spans, SlotUse slot argument span) ↔
      ¬(argument.kind ≠ argumentSpan ∨ argument.flags ≠ slot.flags ∨
        slot.record argument.recordSchemaId = false ∨ argument.count < slot.minimum ∨
        slot.maximum < argument.count ∨ uint32Max < argument.value.toNat) ∧
      ∃ span, findSpan source.spans argument.value.toUInt32 = some span ∧
        spanMatches argument span slot.flags = true := by
  simp only [spanMatches, Bool.and_eq_true, bne_iff_ne, beq_iff_eq, decide_eq_true_eq, not_or,
    ne_eq, not_not, Bool.not_eq_false, UInt32.not_lt, Nat.not_lt, hspans.findSpan_eq_some]
  constructor
  · rintro ⟨span, hspan, h⟩
    obtain ⟨hvalue, hid⟩ := value_eq_iff.mpr h.value
    obtain ⟨hfits, hlength⟩ := (length_eq_iff h.size).mpr h.length
    exact ⟨⟨h.kind, h.flags, h.record, h.minimum, h.maximum, hvalue⟩, span, ⟨hspan, hid.symm⟩,
      ⟨⟨⟨h.size, h.spanFlags⟩, h.rights⟩, hfits⟩, hlength⟩
  · rintro ⟨⟨hkind, hflags, hrecord, hminimum, hmaximum, hvalue⟩, span, ⟨hspan, hid⟩,
      ⟨⟨⟨hsize, hspanFlags⟩, hrights⟩, hfits⟩, hlength⟩
    exact ⟨span, hspan, hkind, value_eq_iff.mp ⟨hvalue, hid.symm⟩, hflags, hrecord, hminimum,
      hmaximum, hsize, hspanFlags, hrights, (length_eq_iff hsize).mp ⟨hfits, hlength⟩⟩

theorem spanValid_eq_some (hspans : SpansValid source.spans source.regions)
    (result : Option MemorySpan) :
    spanValid source slot = some result ↔
      SlotMet source slot ∧ result = spanAt source slot.argumentId := by
  unfold spanValid SlotMet spanAt
  cases hfind : findArgument source slot.argumentId with
  | none =>
    by_cases hminimum : slot.minimum = 0
    · simp [hminimum, eq_comm]
    · simp [hminimum]
  | some argument =>
    simp only [reduceCtorEq, false_and, some.injEq, false_or, exists_eq_left',
      bind_some, slotUse_iff hspans]
    cases hspan : findSpan source.spans argument.value.toUInt32 with
    | none => simp
    | some span =>
      simp only [some.injEq, exists_eq_left']
      split_ifs with hrefused hmatches
      · exact iff_of_false nofun fun h => h.1.1 hrefused
      · simp only [some.injEq, hmatches, and_true]
        exact ⟨fun h => ⟨hrefused, h.symm⟩, fun h => h.2.symm⟩
      · exact iff_of_false nofun fun h => hmatches h.1.2

def slotSpans (source : Source) (command : AmdgpuCommand) : List (Option MemorySpan) :=
  (slots command).map fun slot => spanAt source slot.argumentId

theorem mapM_spanValid (hspans : SpansValid source.spans source.regions) {command : AmdgpuCommand}
    {spans : List (Option MemorySpan)} :
    (slots command).mapM (spanValid source) = some spans ↔
      (∀ slot ∈ slots command, SlotMet source slot) ∧ spans = slotSpans source command :=
  mapM_eq_some_map_iff fun _ result => spanValid_eq_some hspans result

end Slots

def elements (source : Source) (argumentId : UInt32) : UInt32 :=
  (spanAt source argumentId).elim 0 fun span => span.elementCount

def InlineFields (source : Source) : AmdgpuCommand → Prop
  | .boList => source.word 8 = elements source 2 ∧ source.word 12 = 0
  | .info =>
    (∃ span, spanAt source 2 = some span ∧ span.length ≤ maxInfoBytes.toUInt64 ∧
      source.word 4 = span.recordSchemaId ∧ (source.word 8).toUInt64 = span.length ∧
      infoQueryRecordValid (source.word 0) span.recordSchemaId = true) ∧ source.word 12 = 0
  | .gemMetadata => source.word 24 ≤ 256 ∧ source.word 28 = 0
  | .gemVa => source.word 12 = elements source 2 ∧ source.word 52 = 0
  | .gemOp => source.word 16 = elements source 2 ∧ source.word 20 = 0
  | .gemUserptr => source.word 20 = 0
  | .waitFences => source.word 0 = elements source 2
  | .fenceToHandle => source.word 28 = 0
  | .sched => source.word 12 = 0
  | .userq =>
    source.word 56 = (spanAt source 2).elim 0 (fun span => span.recordSchemaId) ∧
      (source.word 60).toUInt64 = (spanAt source 2).elim 0 fun span => span.length
  | .userqSignal =>
    source.word 4 = elements source 2 ∧ source.word 8 = elements source 3 ∧
      source.word 12 = elements source 4
  | .userqWait =>
    source.word 4 = elements source 2 ∧ source.word 8 = elements source 3 ∧
      source.word 12 = elements source 4 ∧ source.word 16 = elements source 5 ∧
      source.word 20 = elements source 6
  | .gemListHandles => source.word 0 = elements source 2 ∧ source.word 4 = 0
  | _ => True

theorem fieldsValid_iff {source : Source} {command : AmdgpuCommand} :
    fieldsValid source (slotSpans source command) command = true ↔
      InlineFields source command := by
  cases command <;>
    simp [fieldsValid, InlineFields, slotSpans, slots, elementCount, elements, infoSpanValid,
      Option.any_eq_true, and_assoc]

/-! ### The tables -/

def Agree (slot : Slot) (contract : SpanContract) : Prop :=
  contract.argumentId = slot.argumentId ∧ contract.minimum = slot.minimum ∧
    contract.maximum = slot.maximum ∧ directionFlags contract.direction = slot.flags ∧
    directionRights contract.direction =
      if slot.flags = flagInput then spanRightRead else spanRightWrite

instance (slot : Slot) (contract : SpanContract) : Decidable (Agree slot contract) := by
  unfold Agree
  infer_instance

def slotted : List (AmdgpuCommand × RequestContract) :=
  (AmdgpuCommand.all.zip amdgpuContracts).filter fun entry => entry.1 ≠ .cs

theorem slotted_contract : ∀ entry ∈ slotted, ∀ slot ∈ slots entry.1,
    ∃ contract ∈ amdgpuSpans, contract.commandId = entry.2.commandId ∧ Agree slot contract := by
  decide +kernel

theorem slotted_record : ∀ entry ∈ slotted, ∀ slot ∈ slots entry.1,
    ∀ record ∈ amdgpuRecords, slot.record record.1 = true →
      ∃ contract ∈ amdgpuSpans, contract.commandId = entry.2.commandId ∧
        contract.recordId = record.1 ∧ contract.recordSize = record.2 ∧ Agree slot contract := by
  decide +kernel

theorem slotted_slot : ∀ entry ∈ slotted, ∀ contract ∈ amdgpuSpans,
    contract.commandId = entry.2.commandId →
      ∃ slot ∈ slots entry.1, slot.record contract.recordId = true ∧
        recordSize contract.recordId = contract.recordSize ∧ Agree slot contract := by
  decide +kernel

theorem slotted_capacity : ∀ entry ∈ slotted,
    entry.2.inlineRecordId ≠ 0 ∧ entry.2.spanCapacity = (slots entry.1).length ∧
      entry.2.attachmentCapacity = attachmentCount entry.1 ∧
      commandOfId amdgpuRequests entry.2.commandId =
        some ⟨entry.2.inlineRecordId, entry.2.inlineSize⟩ := by
  decide +kernel

theorem slotted_attachment : ∀ entry ∈ slotted,
    (∀ contract ∈ amdgpuAttachments, contract.commandId = entry.2.commandId →
      slots entry.1 = [] ∧ contract.optional = 0 ∧ contract.argumentId ≠ 1 ∧
        attachmentCount entry.1 = 1) ∧
    (attachmentCount entry.1 ≠ 0 →
      ∃ contract ∈ amdgpuAttachments, contract.commandId = entry.2.commandId) := by
  decide +kernel

theorem attachments_commandId_nodup :
    (amdgpuAttachments.map AttachmentContract.commandId).Nodup := by
  decide

theorem slots_argumentId_ne_one (command : AmdgpuCommand) :
    ∀ slot ∈ slots command, slot.argumentId ≠ 1 := by
  cases command <;> decide

/-! ### Requests -/

section Requests
variable {source : Source} {command : AmdgpuCommand} {request : RequestContract}

theorem exists_slotted (hcommand : AmdgpuCommand.ofId source.commandId = some command)
    (hcs : command ≠ .cs) :
    ∃ request, (command, request) ∈ slotted ∧ request.commandId = source.commandId := by
  obtain ⟨hid, hplace⟩ := commandOfId_eq_some.mp hcommand
  obtain ⟨hindex, -⟩ := List.getElem?_eq_some_iff.mp hplace
  have hlength : source.commandId.toNat - 1 < amdgpuContracts.length := hindex
  have hrequest := List.getElem?_eq_getElem hlength
  have hmember := amdgpuCatalog_wellFormed.commandOfId_iff.mp
    (commandOfId_eq_some.mpr ⟨hid, hrequest⟩)
  refine ⟨_, List.mem_filter.mpr ⟨?_, decide_eq_true hcs⟩, hmember.2⟩
  exact List.mem_of_getElem? (List.getElem?_zip_eq_some.mpr ⟨hplace, hrequest⟩)

theorem attachmentsValid_iff (hentry : (command, request) ∈ slotted) :
    attachmentsValid source command = true ↔
      (slots command = [] → source.spans.length = 0 ∧
        source.attachments.length = attachmentCount command) ∧
      ∀ contract ∈ amdgpuAttachments, contract.commandId = request.commandId →
        attachmentValid source contract.argumentId contract.objectClass contract.role
          contract.ownership = true := by
  simp only [slotted, AmdgpuCommand.all, amdgpuContracts, zip_cons_cons, zip_nil_right,
    mem_filter, mem_cons, not_mem_nil, or_false, Prod.mk.injEq] at hentry
  obtain ⟨hentry, hcs⟩ := hentry
  rcases hentry with ⟨rfl, rfl⟩ | ⟨rfl, rfl⟩ | ⟨rfl, rfl⟩ | ⟨rfl, rfl⟩ | ⟨rfl, rfl⟩ | ⟨rfl, rfl⟩ |
    ⟨rfl, rfl⟩ | ⟨rfl, rfl⟩ | ⟨rfl, rfl⟩ | ⟨rfl, rfl⟩ | ⟨rfl, rfl⟩ | ⟨rfl, rfl⟩ | ⟨rfl, rfl⟩ |
    ⟨rfl, rfl⟩ | ⟨rfl, rfl⟩ | ⟨rfl, rfl⟩ | ⟨rfl, rfl⟩ | ⟨rfl, rfl⟩ | ⟨rfl, rfl⟩ | ⟨rfl, rfl⟩ <;>
    simp_all [attachmentsValid, slots, amdgpuAttachments, attachmentCount, attachmentMemory,
      attachmentShare, attachmentSession, attachmentBorrow]

theorem attachmentValid_iff (htables : source.Tables) {contract : AttachmentContract}
    (hcommand : contract.commandId = source.commandId) :
    attachmentValid source contract.argumentId contract.objectClass contract.role
        contract.ownership = true ↔
      ∃ argument ∈ source.arguments, ∃ attachment ∈ source.attachments,
        AttachmentUse source contract argument attachment := by
  have hfind : ∀ attachmentId attachment,
      findAttachment source.attachments attachmentId = some attachment ↔
        attachment ∈ source.attachments ∧ attachment.attachmentId = attachmentId :=
    fun _ _ => find?_key_eq_some htables.attachments.nodup
  simp only [attachmentValid, Option.any_eq_true, Bool.and_eq_true, beq_iff_eq, decide_eq_true_eq,
    htables.arguments.findArgument_eq_some, hfind]
  constructor
  · rintro ⟨argument, ⟨hargument, hid⟩, ⟨⟨hkind, hflags⟩, hvalue⟩, attachment,
      ⟨hattachment, hattachmentId⟩, ⟨hclass, hrole⟩, hownership⟩
    exact ⟨argument, hargument, attachment, hattachment, hkind,
      value_eq_iff.mp ⟨hvalue, hattachmentId.symm⟩, hflags, hcommand, hid.symm, hclass.symm,
      hrole, hownership⟩
  · rintro ⟨argument, hargument, attachment, hattachment, h⟩
    obtain ⟨hvalue, hid⟩ := value_eq_iff.mpr h.value
    exact ⟨argument, ⟨hargument, h.argumentId.symm⟩, ⟨⟨h.kind, h.flags⟩, hvalue⟩, attachment,
      ⟨hattachment, hid.symm⟩, ⟨h.objectClass.symm, h.role⟩, h.ownership⟩

/-- What the hand-written check asks of a request apart from the fields. -/
structure Shaped (source : Source) (command : AmdgpuCommand) (request : RequestContract) :
    Prop where
  inline : InlineExact source request
  slots : ∀ slot ∈ slots command, SlotMet source slot
  attachments : ∀ contract ∈ amdgpuAttachments, contract.commandId = source.commandId →
    ∃ argument ∈ source.arguments, ∃ attachment ∈ source.attachments,
      AttachmentUse source contract argument attachment
  spanCount : source.spans.length = (slotArguments source command).length
  attachmentCount : source.attachments.length = attachmentCount command
  total : source.arguments.length = 1 + source.spans.length + source.attachments.length

theorem requestValid_iff (htables : source.Tables)
    (hcommand : AmdgpuCommand.ofId source.commandId = some command)
    (hentry : (command, request) ∈ slotted) (hid : request.commandId = source.commandId) :
    requestValid source = true ↔ Shaped source command request ∧ InlineFields source command := by
  obtain ⟨hrecord, -, -, hcontract⟩ := slotted_capacity _ hentry
  have hcs : command ≠ .cs := of_decide_eq_true (mem_filter.mp hentry).2
  have hinline : inlineRecordValid source request.inlineRecordId request.inlineSize = true ↔
      InlineExact source request := by
    rw [← inlineArgumentValid_iff htables.arguments, inlineArgumentValid, if_neg hrecord]
  have hattachment : (∀ contract ∈ amdgpuAttachments, contract.commandId = request.commandId →
      attachmentValid source contract.argumentId contract.objectClass contract.role
        contract.ownership = true) ↔
      ∀ contract ∈ amdgpuAttachments, contract.commandId = source.commandId →
        ∃ argument ∈ source.arguments, ∃ attachment ∈ source.attachments,
          AttachmentUse source contract argument attachment := by
    rw [hid]
    exact forall₃_congr fun contract _ hsame => attachmentValid_iff htables hsame
  rw [requestValid, hcommand, Option.any_some, if_neg hcs, ← hid, hcontract, Option.any_some]
  simp only [Bool.and_eq_true, hinline, attachmentsValid_iff hentry, hattachment,
    Option.any_eq_true, mapM_spanValid htables.spans, beq_iff_eq]
  constructor
  · rintro ⟨hexact, ⟨_, hattachments⟩, spans, ⟨hslots, hspans⟩, ⟨⟨hfields, hcount⟩, hcarried⟩, htotal⟩
    have hlength := length_slotArguments ((mapM_spanValid htables.spans).mpr ⟨hslots, hspans⟩)
    subst hspans
    refine ⟨⟨hexact, hslots, hattachments, hcount.trans hlength.symm, hcarried, ?_⟩,
      fieldsValid_iff.mp hfields⟩
    rw [htotal, hcount, hcarried]
  · rintro ⟨h, hfields⟩
    have hlength := length_slotArguments ((mapM_spanValid htables.spans).mpr ⟨h.slots, rfl⟩)
    refine ⟨h.inline, ⟨fun hnone => ⟨?_, h.attachmentCount⟩, h.attachments⟩, _, ⟨h.slots, rfl⟩,
      ⟨⟨fieldsValid_iff.mpr hfields, h.spanCount.trans hlength⟩, h.attachmentCount⟩, ?_⟩
    · rw [h.spanCount, slotArguments, hnone]
      rfl
    · rw [h.total, h.spanCount, hlength, h.attachmentCount]

theorem SlotUse.spanUse {span : MemorySpan} (h : SlotUse slot argument span)
    (hentry : (command, request) ∈ slotted) (hid : request.commandId = source.commandId)
    (hslot : slot ∈ slots command) (hargument : argument.argumentId = slot.argumentId) :
    ∃ contract ∈ amdgpuSpans, SpanUse source contract argument span := by
  obtain ⟨size, hsize⟩ : ∃ size, amdgpuRecords.lookup argument.recordSchemaId = some size := by
    cases hlookup : amdgpuRecords.lookup argument.recordSchemaId with
    | none => exact absurd (by rw [recordSize, hlookup]; rfl) h.size
    | some size => exact ⟨size, rfl⟩
  have hrecordSize : recordSize argument.recordSchemaId = size := by
    rw [recordSize, hsize, getD_some]
  have hmem : (argument.recordSchemaId, size) ∈ amdgpuRecords := by
    obtain ⟨before, after, hsplit, -⟩ := lookup_eq_some_iff.mp hsize
    rw [hsplit]
    exact mem_append_cons_self
  obtain ⟨contract, hcontract, hcommand, hrecord, hsizes, hplace, hminimum, hmaximum, hflags,
    hrights⟩ := slotted_record _ hentry slot hslot _ hmem h.record
  have hlength : span.length.toNat = argument.count.toNat * contract.recordSize.toNat := by
    rw [h.length, hrecordSize, hsizes]
  exact ⟨contract, hcontract, h.kind, h.value, hcommand.trans hid, hplace.trans hargument.symm,
    hrecord, hminimum ▸ h.minimum, hmaximum ▸ h.maximum, h.flags.trans hflags.symm,
    h.spanFlags.trans hflags.symm, h.rights.trans hrights.symm, hlength⟩

theorem slotUse_of_spanUse {contract : SpanContract} {span : MemorySpan}
    (h : SpanUse source contract argument span) (hcontract : contract ∈ amdgpuSpans)
    (hentry : (command, request) ∈ slotted) (hid : request.commandId = source.commandId) :
    ∃ slot ∈ slots command, argument.argumentId = slot.argumentId ∧
      SlotUse slot argument span := by
  obtain ⟨slot, hslot, hrecord, hsize, hplace, hminimum, hmaximum, hflags, hrights⟩ :=
    slotted_slot _ hentry contract hcontract (h.command.trans hid.symm)
  rw [h.record] at hrecord hsize
  refine ⟨slot, hslot, h.argumentId.symm.trans hplace, h.kind, h.value, h.flags.trans hflags,
    hrecord, hminimum ▸ h.minimum, hmaximum ▸ h.maximum, ?_, h.spanFlags.trans hflags,
    h.rights.trans hrights, ?_⟩
  · rw [hsize]
    exact amdgpuCatalog_wellFormed.sizes contract hcontract
  · rw [h.length, hsize]

theorem Shaped.shape (h : Shaped source command request) (htables : source.Tables)
    (hentry : (command, request) ∈ slotted) : source.Shape := by
  obtain ⟨hrecord, -⟩ := slotted_capacity _ hentry
  have hinline := h.inline
  rw [InlineExact, if_neg hrecord] at hinline
  obtain ⟨argument, hargument, hid, hkind, -, -, hvalue, hcount, hlength⟩ := hinline
  exact .inl ⟨⟨argument, htables.arguments.findArgument_eq_some.mpr ⟨hargument, hid⟩, hkind, hvalue,
    by rw [hcount, hlength]⟩, h.total⟩

theorem eq_of_kindCount_one (htables : source.Tables) {kind : UInt32}
    (hone : source.kindCount kind = 1) {other : Argument} (hargument : argument ∈ source.arguments)
    (hother : other ∈ source.arguments) (hkind : argument.kind = kind)
    (hotherKind : other.kind = kind) : argument = other := by
  obtain ⟨only, -, honly⟩ :=
    ((htables.arguments.nodup.of_map _).countP_eq_one_iff _).mp hone
  exact (honly argument ⟨hargument, decide_eq_true hkind⟩).trans
    (honly other ⟨hother, decide_eq_true hotherKind⟩).symm

section
variable (h : Shaped source command request) (htables : source.Tables)
  (hentry : (command, request) ∈ slotted)
include h htables hentry

theorem Shaped.span_argument (hid : request.commandId = source.commandId)
    (hargument : argument ∈ source.arguments) (hkind : argument.kind = argumentSpan) :
    ∃ contract ∈ amdgpuSpans, ∃ span ∈ source.spans, SpanUse source contract argument span := by
  have hslots := (mapM_spanValid htables.spans).mpr ⟨h.slots, rfl⟩
  have hcount := ((htables.kindCount_eq (h.shape htables hentry)).1.trans h.spanCount).trans
    (length_slotArguments hslots)
  obtain ⟨id, hplace, hfind⟩ :=
    mem_filterMap.mp (mem_slotArguments hslots hcount hargument hkind)
  obtain ⟨slot, hslot, rfl⟩ := mem_map.mp hplace
  obtain ⟨-, hargumentId⟩ := htables.arguments.findArgument_eq_some.mp hfind
  rcases h.slots slot hslot with ⟨hnone, -⟩ | ⟨found, hfound, span, hspan, huse⟩
  · rw [hfind] at hnone
    cases hnone
  · rw [hfind, some_inj] at hfound
    subst hfound
    obtain ⟨contract, hcontract, hcontractUse⟩ := huse.spanUse hentry hid hslot hargumentId
    exact ⟨contract, hcontract, span, hspan, hcontractUse⟩

theorem Shaped.attachment_argument (hid : request.commandId = source.commandId)
    (hargument : argument ∈ source.arguments) (hkind : argument.kind = argumentAttachment) :
    ∃ contract ∈ amdgpuAttachments, ∃ attachment ∈ source.attachments,
      AttachmentUse source contract argument attachment := by
  obtain ⟨-, hcount, -⟩ := htables.kindCount_eq (h.shape htables hentry)
  have hpos : 0 < source.kindCount argumentAttachment :=
    countP_pos_iff.mpr ⟨argument, hargument, decide_eq_true hkind⟩
  rw [h.attachmentCount] at hcount
  rw [hcount] at hpos
  obtain ⟨htable, hcarried⟩ := slotted_attachment _ hentry
  obtain ⟨contract, hcontract, hcommand⟩ := hcarried hpos.ne'
  obtain ⟨-, -, -, hone⟩ := htable contract hcontract hcommand
  obtain ⟨found, hfound, attachment, hattachment, huse⟩ :=
    h.attachments contract hcontract (hcommand.trans hid)
  obtain rfl := eq_of_kindCount_one htables (hcount.trans hone) hargument hfound hkind huse.kind
  exact ⟨contract, hcontract, attachment, hattachment, huse⟩

theorem Shaped.kind_of_ne (hargument : argument ∈ source.arguments)
    (hid : argument.argumentId ≠ 1) :
    argument.kind = argumentSpan ∨ argument.kind = argumentAttachment := by
  obtain ⟨hrecord, -⟩ := slotted_capacity _ hentry
  obtain ⟨hspans, hattachments, hinlines⟩ := htables.kindCount_eq (h.shape htables hentry)
  have htotal := h.total
  have hone : source.kindCount argumentInline = 1 := by omega
  have hkinds := kind_of_countP_eq Argument.kind (a := argumentSpan) (b := argumentAttachment)
    (c := argumentInline) (l := source.arguments) (by decide) (by decide) (by decide)
    (by unfold Source.kindCount at hspans hattachments hinlines; omega)
  rcases hkinds argument hargument with hspan | hattachment | hinline
  · exact .inl hspan
  · exact .inr hattachment
  · have hexact := h.inline
    rw [InlineExact, if_neg hrecord] at hexact
    obtain ⟨record, hmem, hrecordId, hrecordKind, -⟩ := hexact
    obtain rfl := eq_of_kindCount_one htables hone hargument hmem hinline hrecordKind
    exact absurd hrecordId hid

theorem Shaped.admits (hid : request.commandId = source.commandId) :
    amdgpuCatalog.Admits request source := by
  obtain ⟨-, hspanCapacity, hattachmentCapacity, -⟩ := slotted_capacity _ hentry
  obtain ⟨hspans, hattachments, -⟩ := htables.kindCount_eq (h.shape htables hentry)
  constructor
  case command => exact hid
  case inline => exact h.inline
  case others =>
    intro argument hargument hargumentId
    rcases h.kind_of_ne htables hentry hargument hargumentId with hkind | hkind
    · exact .inl (h.span_argument htables hentry hid hargument hkind)
    · exact .inr (h.attachment_argument htables hentry hid hargument hkind)
  case spansOnce =>
    exact (kindCount_iff htables.arguments htables.spans.nodup htables.arguments.spans
      (htables.arguments.span_named htables.spans)).mp hspans
  case attachmentsOnce =>
    exact (kindCount_iff htables.arguments htables.attachments.nodup htables.arguments.attachments
      (htables.arguments.attachment_named htables.attachments)).mp hattachments
  case spanCapacity =>
    rw [h.spanCount, hspanCapacity, slotArguments]
    exact (length_filterMap_le ..).trans (by rw [length_map])
  case attachmentCapacity => rw [h.attachmentCount, hattachmentCapacity]
  case requiredSpans =>
    intro contract hcontract hcommand hminimum
    obtain ⟨slot, hslot, -, -, hplace, hslotMinimum, -⟩ :=
      slotted_slot _ hentry contract hcontract (hcommand.trans hid.symm)
    rcases h.slots slot hslot with ⟨-, hzero⟩ | ⟨argument, hfind, -⟩
    · exact absurd (hslotMinimum.trans hzero) hminimum
    · obtain ⟨hargument, hargumentId⟩ := htables.arguments.findArgument_eq_some.mp hfind
      exact ⟨argument, hargument, hargumentId.trans hplace.symm⟩
  case requiredAttachments =>
    intro contract hcontract hcommand _
    obtain ⟨argument, hargument, _, _, huse⟩ := h.attachments contract hcontract hcommand
    exact ⟨argument, hargument, huse.argumentId.symm⟩

end

variable (h : amdgpuCatalog.Admits request source)
include h

theorem slotUse_of_admits (htables : source.Tables) (hentry : (command, request) ∈ slotted)
    (hslot : slot ∈ slots command) (hfind : findArgument source slot.argumentId = some argument) :
    ∃ span ∈ source.spans, SlotUse slot argument span := by
  obtain ⟨hargument, hargumentId⟩ := htables.arguments.findArgument_eq_some.mp hfind
  have hne : argument.argumentId ≠ 1 := by
    rw [hargumentId]
    exact slots_argumentId_ne_one command slot hslot
  rcases h.others argument hargument hne with
    ⟨contract, hcontract, span, hspan, huse⟩ | ⟨contract, hcontract, _, _, huse⟩
  · obtain ⟨other, hother, hotherId, hslotUse⟩ :=
      slotUse_of_spanUse huse hcontract hentry h.command
    have hsame : slot = other := inj_on_of_nodup_map (slots_argumentId_nodup command) hslot
      hother (hargumentId.symm.trans hotherId)
    exact ⟨span, hspan, hsame ▸ hslotUse⟩
  · obtain ⟨hnone, -⟩ :=
      (slotted_attachment _ hentry).1 contract hcontract (huse.command.trans h.command.symm)
    rw [hnone] at hslot
    cases hslot

theorem slotMet_of_admits (htables : source.Tables) (hentry : (command, request) ∈ slotted)
    (hslot : slot ∈ slots command) : SlotMet source slot := by
  cases hfind : findArgument source slot.argumentId with
  | some argument =>
    exact .inr ⟨argument, hfind, slotUse_of_admits h htables hentry hslot hfind⟩
  | none =>
    refine .inl ⟨hfind, ?_⟩
    by_contra hminimum
    obtain ⟨contract, hcontract, hcommand, hplace, hcontractMinimum, -⟩ :=
      slotted_contract _ hentry slot hslot
    obtain ⟨argument, hargument, hargumentId⟩ := h.requiredSpans contract hcontract
      (hcommand.trans h.command) (by rwa [hcontractMinimum])
    have hfound := htables.arguments.findArgument_eq_some.mpr
      ⟨hargument, hargumentId.trans hplace⟩
    rw [hfind] at hfound
    cases hfound

theorem attachment_of_admits (hentry : (command, request) ∈ slotted)
    {contract : AttachmentContract} (hcontract : contract ∈ amdgpuAttachments)
    (hcommand : contract.commandId = source.commandId) :
    ∃ argument ∈ source.arguments, ∃ attachment ∈ source.attachments,
      AttachmentUse source contract argument attachment := by
  obtain ⟨hnone, hoptional, hne, -⟩ :=
    (slotted_attachment _ hentry).1 contract hcontract (hcommand.trans h.command.symm)
  obtain ⟨argument, hargument, hargumentId⟩ :=
    h.requiredAttachments contract hcontract hcommand hoptional
  rcases h.others argument hargument (hargumentId ▸ hne) with
    ⟨other, hother, _, _, huse⟩ | ⟨other, hother, attachment, hattachment, huse⟩
  · obtain ⟨slot, hslot, -⟩ := slotUse_of_spanUse huse hother hentry h.command
    rw [hnone] at hslot
    cases hslot
  · obtain rfl := inj_on_of_nodup_map attachments_commandId_nodup hcontract hother
      (hcommand.trans huse.command.symm)
    exact ⟨argument, hargument, attachment, hattachment, huse⟩

theorem kindCount_of_admits (htables : source.Tables) (hentry : (command, request) ∈ slotted) :
    source.kindCount argumentSpan = (slotArguments source command).length := by
  rw [Source.kindCount, countP_eq_length_filter]
  refine List.Perm.length_eq ((perm_ext_iff_of_nodup
    ((htables.arguments.nodup.of_map _).filter _) (slotArguments_nodup command)).mpr ?_)
  intro argument
  rw [mem_filter, decide_eq_true_eq, slotArguments, mem_filterMap]
  constructor
  · rintro ⟨hargument, hkind⟩
    have hne : argument.argumentId ≠ 1 := by
      intro hid
      rcases classed_of_others htables.arguments h.inline h.others argument hargument with
        ⟨-, hinline⟩ | ⟨hskip, -⟩
      · exact absurd (hkind.symm.trans hinline) (by decide)
      · exact hskip ⟨hid, (slotted_capacity _ hentry).1⟩
    rcases h.others argument hargument hne with
      ⟨contract, hcontract, span, _, huse⟩ | ⟨_, _, _, _, huse⟩
    · obtain ⟨slot, hslot, hargumentId, -⟩ := slotUse_of_spanUse huse hcontract hentry h.command
      exact ⟨slot.argumentId, mem_map_of_mem hslot,
        htables.arguments.findArgument_eq_some.mpr ⟨hargument, hargumentId⟩⟩
    · exact absurd (hkind.symm.trans huse.kind) (by decide)
  · rintro ⟨id, hid, hfind⟩
    obtain ⟨slot, hslot, rfl⟩ := mem_map.mp hid
    obtain ⟨span, -, huse⟩ := slotUse_of_admits h htables hentry hslot hfind
    exact ⟨(htables.arguments.findArgument_eq_some.mp hfind).1, huse.kind⟩

theorem shaped_of_admits (htables : source.Tables) (hentry : (command, request) ∈ slotted) :
    Shaped source command request := by
  obtain ⟨hrecord, -, hcapacity, -⟩ := slotted_capacity _ hentry
  obtain ⟨hspans, hattachments, htotal⟩ :=
    h.counts htables.spans htables.attachments htables.arguments
  rw [if_neg hrecord, hspans, hattachments] at htotal
  refine ⟨h.inline, fun slot hslot => slotMet_of_admits h htables hentry hslot,
    fun contract hcontract hcommand => attachment_of_admits h hentry hcontract hcommand,
    hspans.symm.trans (kindCount_of_admits h htables hentry), ?_, htotal⟩
  have hle := h.attachmentCapacity
  rw [hcapacity] at hle
  obtain ⟨htable, hcarried⟩ := slotted_attachment _ hentry
  rcases Nat.eq_zero_or_pos (Amdgpu.attachmentCount command) with hzero | hpos
  · exact Nat.le_antisymm hle (by rw [hzero]; exact Nat.zero_le _)
  · obtain ⟨contract, hcontract, hcommand⟩ := hcarried hpos.ne'
    obtain ⟨-, -, -, hone⟩ := htable contract hcontract hcommand
    obtain ⟨_, _, attachment, hattachment, -⟩ :=
      attachment_of_admits h hentry hcontract (hcommand.trans h.command)
    refine Nat.le_antisymm hle ?_
    rw [hone]
    exact length_pos_of_mem hattachment

end Requests

end Amdgpu

/-- Apart from command streams, the hand-written check accepts what the contracts admit and whose
inline record has the right fields. -/
theorem amdgpu_requests_agree {source : Source} {command : AmdgpuCommand}
    (hcommand : AmdgpuCommand.ofId source.commandId = some command) (hcs : command ≠ .cs)
    (hregions : regionsValid source.regions = true)
    (hspans : spansValid source.spans source.regions = true)
    (hattachments : attachmentsValid source.attachments source.generation = true)
    (harguments : argumentsValid source = true) :
    (Amdgpu.requestValid source = true → catalogRequestValid amdgpuCatalog source = true) ∧
      (catalogRequestValid amdgpuCatalog source = true →
        (Amdgpu.requestValid source = true ↔ Amdgpu.InlineFields source command)) := by
  have htables : source.Tables := ⟨hregions, spansValid_spec hspans,
    attachmentsValid_spec hattachments, argumentsValid_spec harguments⟩
  obtain ⟨request, hentry, hid⟩ := Amdgpu.exists_slotted hcommand hcs
  have hmem : request ∈ amdgpuCatalog.requests :=
    (of_mem_zip (mem_filter.mp hentry).1).2
  rw [catalogRequestValid_iff amdgpuCatalog_wellFormed htables.spans htables.attachments
    htables.arguments, Amdgpu.requestValid_iff htables hcommand hentry hid]
  constructor
  · intro ⟨hshaped, _⟩
    exact ⟨request, hmem, hshaped.admits htables hentry hid⟩
  · intro ⟨other, hother, hadmits⟩
    have hsame := (amdgpuCatalog_wellFormed.commandOfId_iff.mpr ⟨hmem, hid⟩).symm.trans
      (amdgpuCatalog_wellFormed.commandOfId_iff.mpr ⟨hother, hadmits.command⟩)
    obtain rfl := some.inj hsame
    exact and_iff_right (Amdgpu.shaped_of_admits hadmits htables hentry)

def boList : Source where
  generation := 1
  sessionId := 1
  commandSetId := amdgpuSetId
  commandId := 4
  flags := 0
  deadlineNs := 0
  arguments := [⟨1, argumentInline, flagInput, 107, 0, 16⟩, ⟨2, argumentSpan, flagInput, 108, 1, 2⟩]
  spans := [⟨1, 1, 0, 16, spanRightRead, 108, 2, flagInput⟩]
  attachments := []
  inlineData := storeU32 0 ++ storeU32 0 ++ storeU32 2 ++ storeU32 0
  profileKind := profileAmdgpu
  queueClass := queueExecution
  regions := readable

theorem boList_agrees :
    catalogRequestValid amdgpuCatalog boList = true ∧ Amdgpu.InlineFields boList .boList := by
  have hcommand : AmdgpuCommand.ofId boList.commandId = some .boList := by decide
  have hagree := amdgpu_requests_agree hcommand (by decide) (by decide) (by decide) (by decide)
    (by decide)
  have hvalid : Amdgpu.requestValid boList = true := by decide +kernel
  exact ⟨hagree.1 hvalid, (hagree.2 (hagree.1 hvalid)).mp hvalid⟩

end Kobox.Gpu
