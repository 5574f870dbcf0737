import Kobox.Gpu.Authority

/-!
# Requests and their contracts

What `generic_request_valid` decides. The code looks for the first contract of a key, skips
contracts of an argument that it has already seen, and counts; in a catalog whose keys are distinct
and whose contracts of one argument agree, this is to meet the contracts.
-/

namespace Kobox.Gpu
open Protocol Matching List

/-- A span argument under a contract of the command. -/
structure SpanUse (source : Source) (contract : SpanContract) (argument : Argument)
    (span : MemorySpan) : Prop where
  kind : argument.kind = argumentSpan
  value : argument.value = span.spanId.toUInt64
  command : contract.commandId = source.commandId
  argumentId : contract.argumentId = argument.argumentId
  record : contract.recordId = argument.recordSchemaId
  minimum : contract.minimum ≤ argument.count
  maximum : argument.count ≤ contract.maximum
  flags : argument.flags = directionFlags contract.direction
  spanFlags : span.flags = directionFlags contract.direction
  rights : span.rights = directionRights contract.direction
  length : span.length.toNat = argument.count.toNat * contract.recordSize.toNat

/-- An attachment argument under a contract of the command. -/
structure AttachmentUse (source : Source) (contract : AttachmentContract) (argument : Argument)
    (attachment : Attachment) : Prop where
  kind : argument.kind = argumentAttachment
  value : argument.value = attachment.attachmentId.toUInt64
  flags : argument.flags = flagInput
  command : contract.commandId = source.commandId
  argumentId : contract.argumentId = argument.argumentId
  objectClass : contract.objectClass = attachment.objectClass
  role : attachment.role = contract.role
  ownership : attachment.ownership = contract.ownership

def InlineExact (source : Source) (request : RequestContract) : Prop :=
  if request.inlineRecordId = 0 then
    (∀ argument ∈ source.arguments, argument.argumentId ≠ 1) ∧ source.inlineData = []
  else
    ∃ argument ∈ source.arguments, argument.argumentId = 1 ∧ argument.kind = argumentInline ∧
      argument.flags = flagInput ∧ argument.recordSchemaId = request.inlineRecordId ∧
      argument.value = 0 ∧ argument.count = request.inlineSize ∧
      source.inlineData.length = request.inlineSize.toNat

/-- A request is as its contracts say. -/
structure Catalog.Admits (catalog : Catalog) (request : RequestContract) (source : Source) :
    Prop where
  command : request.commandId = source.commandId
  inline : InlineExact source request
  others : ∀ argument ∈ source.arguments, argument.argumentId ≠ 1 →
    (∃ contract ∈ catalog.spans, ∃ span ∈ source.spans, SpanUse source contract argument span) ∨
    ∃ contract ∈ catalog.attachments, ∃ attachment ∈ source.attachments,
      AttachmentUse source contract argument attachment
  spansOnce : ∀ argument ∈ source.arguments, ∀ other ∈ source.arguments, ∀ span ∈ source.spans,
    argument.kind = argumentSpan → other.kind = argumentSpan →
    argument.value = span.spanId.toUInt64 → other.value = span.spanId.toUInt64 → argument = other
  attachmentsOnce : ∀ argument ∈ source.arguments, ∀ other ∈ source.arguments,
    ∀ attachment ∈ source.attachments,
    argument.kind = argumentAttachment → other.kind = argumentAttachment →
    argument.value = attachment.attachmentId.toUInt64 →
    other.value = attachment.attachmentId.toUInt64 → argument = other
  spanCapacity : source.spans.length ≤ request.spanCapacity
  attachmentCapacity : source.attachments.length ≤ request.attachmentCapacity
  requiredSpans : ∀ contract ∈ catalog.spans, contract.commandId = source.commandId →
    contract.minimum ≠ 0 →
    ∃ argument ∈ source.arguments, argument.argumentId = contract.argumentId
  requiredAttachments : ∀ contract ∈ catalog.attachments,
    contract.commandId = source.commandId → contract.optional = 0 →
    ∃ argument ∈ source.arguments, argument.argumentId = contract.argumentId

/-- Some contract says how the request has the argument. -/
abbrev Catalog.Uses (catalog : Catalog) (source : Source) (argument : Argument) : Prop :=
  (∃ contract ∈ catalog.spans, ∃ span ∈ source.spans, SpanUse source contract argument span) ∨
    ∃ contract ∈ catalog.attachments, ∃ attachment ∈ source.attachments,
      AttachmentUse source contract argument attachment

/-! ### Catalogs -/

/-- What the generated catalogs have in common. -/
structure Catalog.WellFormed (catalog : Catalog) : Prop where
  ids : (catalog.requests.map fun request => request.commandId.toNat) =
    (List.range catalog.requests.length).map (· + 1)
  spanKeys : (catalog.spans.map fun contract =>
    (contract.commandId, contract.argumentId, contract.recordId)).Nodup
  attachmentKeys : (catalog.attachments.map fun contract =>
    (contract.commandId, contract.argumentId, contract.objectClass)).Nodup
  minimums : ∀ contract ∈ catalog.spans, ∀ other ∈ catalog.spans,
    contract.commandId = other.commandId → contract.argumentId = other.argumentId →
    (contract.minimum = 0 ↔ other.minimum = 0)
  optionals : ∀ contract ∈ catalog.attachments, ∀ other ∈ catalog.attachments,
    contract.commandId = other.commandId → contract.argumentId = other.argumentId →
    (contract.optional = 0 ↔ other.optional = 0)
  directions : ∀ contract ∈ catalog.spans, directionFlags contract.direction ≠ 0
  sizes : ∀ contract ∈ catalog.spans, contract.recordSize ≠ 0

theorem coreCatalog_wellFormed : coreCatalog.WellFormed := by
  constructor <;> decide +kernel

theorem modeCatalog_wellFormed : modeCatalog.WellFormed := by
  constructor <;> decide +kernel

theorem virtgpuCatalog_wellFormed : virtgpuCatalog.WellFormed := by
  constructor <;> decide +kernel

theorem i915Catalog_wellFormed : i915Catalog.WellFormed := by
  constructor <;> decide +kernel

section Lookup
variable {catalog : Catalog} {source : Source} {argument : Argument}

theorem commandOfId_eq_some {α : Type} {commands : List α} {commandId : UInt32} {x : α} :
    commandOfId commands commandId = some x ↔
      commandId ≠ 0 ∧ commands[commandId.toNat - 1]? = some x := by
  simp [commandOfId]

theorem Catalog.WellFormed.commandOfId_iff (h : catalog.WellFormed) {commandId : UInt32}
    {request : RequestContract} :
    commandOfId catalog.requests commandId = some request ↔
      request ∈ catalog.requests ∧ request.commandId = commandId := by
  have hnumber : ∀ index, catalog.requests[index]? = some request →
      request.commandId.toNat = index + 1 := by
    intro index hget
    obtain ⟨hindex, -⟩ := List.getElem?_eq_some_iff.mp hget
    have hids := congrArg (fun ids => ids[index]?) h.ids
    simp only [List.getElem?_map, hget, List.getElem?_range hindex, Option.map_some,
      Option.some.injEq] at hids
    exact hids
  rw [commandOfId_eq_some]
  constructor
  · intro ⟨hid, hget⟩
    have hpos : commandId.toNat ≠ 0 := fun hzero => hid (UInt32.toNat_inj.mp hzero)
    have hplace := hnumber _ hget
    exact ⟨List.mem_of_getElem? hget, UInt32.toNat_inj.mp (by omega)⟩
  · intro ⟨hmem, hid⟩
    obtain ⟨index, hget⟩ := List.mem_iff_getElem?.mp hmem
    have hplace := hnumber index hget
    rw [← hid, hplace]
    refine ⟨?_, hget⟩
    intro hzero
    rw [hzero] at hplace
    exact absurd hplace (by simp)

theorem Catalog.WellFormed.findSpanContract_iff (h : catalog.WellFormed)
    {commandId argumentId recordId : UInt32} {contract : SpanContract} :
    findSpanContract catalog.spans commandId argumentId recordId = some contract ↔
      contract ∈ catalog.spans ∧ contract.commandId = commandId ∧
        contract.argumentId = argumentId ∧ contract.recordId = recordId := by
  have hfind := find?_key_eq_some h.spanKeys (k := (commandId, argumentId, recordId))
    (x := contract)
  rw [Prod.mk.injEq, Prod.mk.injEq] at hfind
  rw [← hfind, findSpanContract]
  simp only [Bool.and_assoc]
  rfl

theorem Catalog.WellFormed.findAttachmentContract_iff (h : catalog.WellFormed)
    {commandId argumentId objectClass : UInt32} {contract : AttachmentContract} :
    findAttachmentContract catalog.attachments commandId argumentId objectClass = some contract ↔
      contract ∈ catalog.attachments ∧ contract.commandId = commandId ∧
        contract.argumentId = argumentId ∧ contract.objectClass = objectClass := by
  have hfind := find?_key_eq_some h.attachmentKeys (k := (commandId, argumentId, objectClass))
    (x := contract)
  rw [Prod.mk.injEq, Prod.mk.injEq] at hfind
  rw [← hfind, findAttachmentContract]
  simp only [Bool.and_assoc]
  rfl

theorem value_eq_iff {value : UInt64} {id : UInt32} :
    value.toNat ≤ uint32Max ∧ value.toUInt32 = id ↔ value = id.toUInt64 := by
  constructor
  · intro ⟨hvalue, hid⟩
    rw [← UInt64.toNat_inj, UInt32.toNat_toUInt64, ← hid, UInt64.toNat_toUInt32]
    simp only [uint32Max] at hvalue
    omega
  · intro hvalue
    have hlt := id.toNat_lt
    rw [hvalue, UInt32.toUInt32_toUInt64, UInt32.toNat_toUInt64]
    simp only [uint32Max, and_true]
    omega

theorem length_eq_iff {length : UInt64} {count size : UInt32} (hsize : size ≠ 0) :
    count.toUInt64 ≤ uint64Max / size.toUInt64 ∧ length = count.toUInt64 * size.toUInt64 ↔
      length.toNat = count.toNat * size.toNat := by
  have hfits : count.toUInt64 ≤ uint64Max / size.toUInt64 := by
    have hpos : 0 < size.toNat := by
      rw [Nat.pos_iff_ne_zero]
      intro hzero
      exact hsize (UInt32.toNat_inj.mp hzero)
    rw [UInt64.le_iff_toNat_le, UInt64.toNat_div, UInt32.toNat_toUInt64, UInt32.toNat_toUInt64,
      Nat.le_div_iff_mul_le hpos]
    have hproduct := Nat.mul_lt_mul'' count.toNat_lt size.toNat_lt
    have hmax : uint64Max.toNat = 2 ^ 64 - 1 := rfl
    omega
  rw [and_iff_right hfits, ← UInt64.toNat_inj, toNat_words_mul]

theorem spanArgumentValid_iff (hwell : catalog.WellFormed)
    (hspans : SpansValid source.spans source.regions) :
    argument.kind = argumentSpan ∧ spanArgumentValid catalog.spans source argument = true ↔
      ∃ contract ∈ catalog.spans, ∃ span ∈ source.spans,
        SpanUse source contract argument span := by
  simp only [spanArgumentValid, Option.any_eq_true, Bool.and_eq_true, decide_eq_true_eq,
    beq_iff_eq, bne_iff_ne, hwell.findSpanContract_iff, hspans.findSpan_eq_some]
  constructor
  · rintro ⟨hkind, contract, ⟨hcontract, hcommand, hargument, hrecord⟩,
      ⟨⟨⟨hvalue, hminimum⟩, hmaximum⟩, _⟩, span, ⟨hspan, hid⟩, h⟩
    obtain ⟨⟨⟨⟨hflags, hspanFlags⟩, hrights⟩, hfits⟩, hlength⟩ := h
    exact ⟨contract, hcontract, span, hspan, hkind, value_eq_iff.mp ⟨hvalue, hid.symm⟩, hcommand,
      hargument, hrecord, hminimum, hmaximum, hflags, hspanFlags, hrights,
      (length_eq_iff (hwell.sizes contract hcontract)).mp ⟨hfits, hlength⟩⟩
  · rintro ⟨contract, hcontract, span, hspan, h⟩
    obtain ⟨hvalue, hid⟩ := value_eq_iff.mpr h.value
    obtain ⟨hfits, hlength⟩ := (length_eq_iff (hwell.sizes contract hcontract)).mpr h.length
    exact ⟨h.kind, contract, ⟨hcontract, h.command, h.argumentId, h.record⟩,
      ⟨⟨⟨hvalue, h.minimum⟩, h.maximum⟩, hwell.directions contract hcontract⟩, span,
      ⟨hspan, hid.symm⟩, ⟨⟨⟨h.flags, h.spanFlags⟩, h.rights⟩, hfits⟩, hlength⟩

theorem attachmentArgumentValid_iff (hwell : catalog.WellFormed)
    (hattachments : AttachmentsValid source.attachments source.generation) :
    argument.kind = argumentAttachment ∧
        attachmentArgumentValid catalog.attachments source argument = true ↔
      ∃ contract ∈ catalog.attachments, ∃ attachment ∈ source.attachments,
        AttachmentUse source contract argument attachment := by
  have hfind : ∀ attachmentId attachment,
      findAttachment source.attachments attachmentId = some attachment ↔
        attachment ∈ source.attachments ∧ attachment.attachmentId = attachmentId :=
    fun _ _ => find?_key_eq_some hattachments.nodup
  simp only [attachmentArgumentValid, Option.any_eq_true, Bool.and_eq_true, decide_eq_true_eq,
    beq_iff_eq, hwell.findAttachmentContract_iff, hfind]
  constructor
  · rintro ⟨hkind, hvalue, attachment, ⟨hattachment, hid⟩, contract,
      ⟨hcontract, hcommand, hargument, hclass⟩, ⟨hflags, hrole⟩, hownership⟩
    exact ⟨contract, hcontract, attachment, hattachment, hkind,
      value_eq_iff.mp ⟨hvalue, hid.symm⟩, hflags, hcommand, hargument, hclass, hrole, hownership⟩
  · rintro ⟨contract, hcontract, attachment, hattachment, h⟩
    obtain ⟨hvalue, hid⟩ := value_eq_iff.mpr h.value
    exact ⟨h.kind, hvalue, attachment, ⟨hattachment, hid.symm⟩, contract,
      ⟨hcontract, h.command, h.argumentId, h.objectClass⟩, ⟨h.flags, h.role⟩, h.ownership⟩

end Lookup

section Loops
variable {catalog : Catalog} {request : RequestContract} {source : Source}

theorem inlineArgumentValid_iff (harguments : ArgumentsValid source) :
    inlineArgumentValid source request = true ↔ InlineExact source request := by
  unfold inlineArgumentValid InlineExact
  split_ifs with hrecord
  · rw [Bool.and_eq_true, Option.isNone_iff_eq_none, beq_iff_eq, length_eq_zero_iff,
      findArgument, find?_eq_none]
    simp only [beq_iff_eq]
  · simp only [inlineRecordValid, Option.any_eq_true, Bool.and_eq_true, beq_iff_eq,
      harguments.findArgument_eq_some, and_assoc]

theorem meets_iff (hwell : catalog.WellFormed) (hspans : SpansValid source.spans source.regions)
    (hattachments : AttachmentsValid source.attachments source.generation)
    (hinline : InlineExact source request) :
    (∀ argument ∈ source.arguments, Meets catalog request source argument) ↔
      ∀ argument ∈ source.arguments, argument.argumentId ≠ 1 → catalog.Uses source argument := by
  simp only [Meets, spanArgumentValid_iff hwell hspans,
    attachmentArgumentValid_iff hwell hattachments]
  constructor
  · intro h argument hargument hid
    exact (h argument hargument).resolve_left fun hfirst => hid hfirst.1
  · intro h argument hargument
    by_cases hid : argument.argumentId = 1
    · left
      refine ⟨hid, fun hrecord => ?_⟩
      rw [InlineExact, if_pos hrecord] at hinline
      exact hinline.1 argument hargument hid
    · exact .inr (h argument hargument hid)

def Classed (request : RequestContract) (argument : Argument) : Prop :=
  (argument.argumentId = 1 ∧ request.inlineRecordId ≠ 0) ∧ argument.kind = argumentInline ∨
    ¬(argument.argumentId = 1 ∧ request.inlineRecordId ≠ 0) ∧
      (argument.kind = argumentSpan ∨ argument.kind = argumentAttachment)

theorem foldl_countArgument {arguments : List Argument}
    (h : ∀ argument ∈ arguments, Classed request argument) (counts : ℕ × ℕ) :
    arguments.foldl (countArgument request) counts =
        (counts.1 + arguments.countP fun argument => argument.kind = argumentSpan,
          counts.2 + arguments.countP fun argument => argument.kind = argumentAttachment) ∧
      arguments.length = (arguments.countP fun argument => argument.kind = argumentInline) +
        (arguments.countP fun argument => argument.kind = argumentSpan) +
        arguments.countP fun argument => argument.kind = argumentAttachment := by
  induction arguments generalizing counts with
  | nil => exact ⟨rfl, rfl⟩
  | cons argument rest ih =>
    obtain ⟨hcounts, hlength⟩ :=
      ih (fun other hother => h other (mem_cons_of_mem _ hother))
        (countArgument request counts argument)
    rw [foldl_cons, hcounts, length_cons, hlength]
    simp only [countP_cons, countArgument]
    rcases h argument mem_cons_self with ⟨hskip, hkind⟩ | ⟨hskip, hkind | hkind⟩
    · simp [if_pos hskip, hkind, argumentInline, argumentSpan, argumentAttachment]
      omega
    · simp [if_neg hskip, hkind, argumentInline, argumentSpan, argumentAttachment]
      omega
    · simp [if_neg hskip, hkind, argumentInline, argumentSpan, argumentAttachment]
      omega

theorem kindCount_inline (harguments : ArgumentsValid source) (hinline : InlineExact source request)
    (hclass : ∀ argument ∈ source.arguments, Classed request argument) :
    source.kindCount argumentInline = if request.inlineRecordId = 0 then 0 else 1 := by
  have hkinds : argumentSpan ≠ argumentInline ∧ argumentAttachment ≠ argumentInline := by decide
  have hskip : ∀ argument ∈ source.arguments, argument.kind = argumentInline →
      argument.argumentId = 1 ∧ request.inlineRecordId ≠ 0 := by
    intro argument hargument hkind
    rcases hclass argument hargument with ⟨hskip, -⟩ | ⟨-, hspan | hattachment⟩
    · exact hskip
    · exact absurd (hspan.symm.trans hkind) hkinds.1
    · exact absurd (hattachment.symm.trans hkind) hkinds.2
  unfold InlineExact at hinline
  unfold Source.kindCount
  split_ifs at hinline ⊢ with hrecord
  · rw [countP_eq_zero]
    intro argument hargument hkind
    exact (hskip argument hargument (decide_eq_true_eq.mp hkind)).2 hrecord
  · obtain ⟨argument, hargument, hid, hkind, -⟩ := hinline
    rw [(harguments.nodup.of_map _).countP_eq_one_iff]
    refine ⟨argument, ⟨hargument, decide_eq_true hkind⟩, ?_⟩
    intro other ⟨hother, hotherKind⟩
    have hotherId := (hskip other hother (decide_eq_true_eq.mp hotherKind)).1
    exact inj_on_of_nodup_map harguments.nodup hother hargument (hotherId.trans hid.symm)

theorem required_iff {γ : Type} {command argumentId : γ → UInt32} {free : γ → Bool}
    {contracts : List γ} (harguments : ArgumentsValid source)
    (hagree : ∀ contract ∈ contracts, ∀ other ∈ contracts, command contract = command other →
      argumentId contract = argumentId other → (free contract = true ↔ free other = true)) :
    (contracts.zipIdx.all fun (contract, index) =>
        command contract != source.commandId || free contract ||
          ((contracts.take index).any fun earlier => command earlier == source.commandId &&
            argumentId earlier == argumentId contract) ||
          (findArgument source (argumentId contract)).isSome) = true ↔
      ∀ contract ∈ contracts, command contract = source.commandId → free contract ≠ true →
        ∃ argument ∈ source.arguments, argument.argumentId = argumentId contract := by
  have hfind : ∀ id, (findArgument source id).isSome = true ↔
      ∃ argument ∈ source.arguments, argument.argumentId = id := by
    intro id
    simp only [Option.isSome_iff_exists, harguments.findArgument_eq_some]
  let ok (contract : γ) : Prop := command contract = source.commandId → free contract ≠ true →
    ∃ argument ∈ source.arguments, argument.argumentId = argumentId contract
  let alike (earlier contract : γ) : Prop :=
    command earlier = source.commandId ∧ argumentId earlier = argumentId contract
  let turn (earlier : List γ) (contract : γ) : Bool :=
    command contract != source.commandId || free contract ||
      (earlier.any fun other => command other == source.commandId &&
        argumentId other == argumentId contract) ||
      (findArgument source (argumentId contract)).isSome
  have hturn : ∀ earlier contract, turn earlier contract = true ↔
      (∃ other ∈ earlier, alike other contract) ∨ ok contract := by
    intro earlier contract
    simp only [turn, Bool.or_eq_true, bne_iff_ne, any_eq_true, Bool.and_eq_true, beq_iff_eq,
      hfind, ok, alike]
    by_cases hcommand : command contract = source.commandId
    · by_cases hfree : free contract = true
      · simp [hcommand, hfree]
      · simp [hcommand, hfree]
    · simp [hcommand]
  have hskip : ∀ contract ∈ contracts, ∀ other ∈ contracts, alike other contract → ok other →
      ok contract := by
    rintro contract hcontract other hother ⟨hcommand, hargument⟩ hok hsame hfree
    have hfreeOther := hagree contract hcontract other hother (hsame.trans hcommand.symm)
      hargument.symm
    rw [← hargument]
    exact hok hcommand (mt hfreeOther.mpr hfree)
  have hloop := Scan.all_zipIdx_iff (l := contracts) (p := turn)
  simp only [hturn] at hloop
  exact hloop.trans (Scan.skip_alike_iff hskip)

theorem requiredSpansPresent_iff (hwell : catalog.WellFormed) (harguments : ArgumentsValid source) :
    requiredSpansPresent catalog.spans source = true ↔
      ∀ contract ∈ catalog.spans, contract.commandId = source.commandId → contract.minimum ≠ 0 →
        ∃ argument ∈ source.arguments, argument.argumentId = contract.argumentId := by
  have hagree : ∀ contract ∈ catalog.spans, ∀ other ∈ catalog.spans,
      contract.commandId = other.commandId → contract.argumentId = other.argumentId →
      ((contract.minimum == 0) = true ↔ (other.minimum == 0) = true) := by
    simpa only [beq_iff_eq] using hwell.minimums
  refine (required_iff harguments hagree).trans ?_
  simp only [beq_iff_eq, ne_eq]

theorem requiredAttachmentsPresent_iff (hwell : catalog.WellFormed)
    (harguments : ArgumentsValid source) :
    requiredAttachmentsPresent catalog.attachments source = true ↔
      ∀ contract ∈ catalog.attachments, contract.commandId = source.commandId →
        contract.optional = 0 →
        ∃ argument ∈ source.arguments, argument.argumentId = contract.argumentId := by
  have hagree : ∀ contract ∈ catalog.attachments, ∀ other ∈ catalog.attachments,
      contract.commandId = other.commandId → contract.argumentId = other.argumentId →
      ((contract.optional != 0) = true ↔ (other.optional != 0) = true) := by
    intro contract hcontract other hother hcommand hargument
    rw [bne_iff_ne, bne_iff_ne]
    exact not_congr (hwell.optionals contract hcontract other hother hcommand hargument)
  refine (required_iff harguments hagree).trans ?_
  simp only [bne_iff_ne, ne_eq, not_not]

end Loops

section Counting
variable {catalog : Catalog} {request : RequestContract} {source : Source}

theorem ArgumentsValid.span_named (h : ArgumentsValid source)
    (hspans : SpansValid source.spans source.regions) (argument : Argument)
    (hargument : argument ∈ source.arguments) (hkind : argument.kind = argumentSpan) :
    ∃ span ∈ source.spans, argument.value = span.spanId.toUInt64 := by
  have hvalid := h.references argument hargument
  rw [argumentReferencesValid, hkind, if_neg (by decide), if_neg (by decide),
    if_neg (by decide), if_neg (by decide), if_pos rfl, Bool.and_eq_true, decide_eq_true_eq,
    Option.any_eq_true] at hvalid
  obtain ⟨hvalue, span, hfind, -⟩ := hvalid
  obtain ⟨hspan, hid⟩ := hspans.findSpan_eq_some.mp hfind
  exact ⟨span, hspan, value_eq_iff.mp ⟨hvalue, hid.symm⟩⟩

theorem ArgumentsValid.attachment_named (h : ArgumentsValid source)
    (hattachments : AttachmentsValid source.attachments source.generation) (argument : Argument)
    (hargument : argument ∈ source.arguments) (hkind : argument.kind = argumentAttachment) :
    ∃ attachment ∈ source.attachments, argument.value = attachment.attachmentId.toUInt64 := by
  have hvalid := h.references argument hargument
  rw [argumentReferencesValid, hkind, if_neg (by decide), if_neg (by decide),
    if_neg (by decide), if_neg (by decide), if_neg (by decide), if_pos rfl, Bool.and_eq_true,
    Bool.and_eq_true, decide_eq_true_eq, Option.isSome_iff_exists] at hvalid
  obtain ⟨⟨-, hvalue⟩, attachment, hfind⟩ := hvalid
  obtain ⟨hattachment, hid⟩ := (find?_key_eq_some hattachments.nodup).mp hfind
  exact ⟨attachment, hattachment, value_eq_iff.mp ⟨hvalue, hid.symm⟩⟩

theorem kindCount_iff {γ : Type} {objects : List γ} {id : γ → UInt32} {kind : UInt32}
    (harguments : ArgumentsValid source) (hids : (objects.map id).Nodup)
    (hcover : ∀ object ∈ objects, ∃ argument ∈ source.arguments,
      argument.kind = kind ∧ argument.value = (id object).toUInt64)
    (hnamed : ∀ argument ∈ source.arguments, argument.kind = kind →
      ∃ object ∈ objects, argument.value = (id object).toUInt64) :
    source.kindCount kind = objects.length ↔
      ∀ argument ∈ source.arguments, ∀ other ∈ source.arguments, ∀ object ∈ objects,
        argument.kind = kind → other.kind = kind → argument.value = (id object).toUInt64 →
        other.value = (id object).toUInt64 → argument = other := by
  have hkeys := nodup_wide hids
  have hcoverKeys : ∀ key ∈ objects.map fun object => (id object).toUInt64,
      ∃ argument ∈ source.arguments, argument.kind = kind ∧ argument.value = key := by
    simpa only [forall_mem_map] using hcover
  have hnamedKeys : ∀ argument ∈ source.arguments, argument.kind = kind →
      argument.value ∈ objects.map fun object => (id object).toUInt64 := by
    intro argument hargument hkind
    obtain ⟨object, hobject, hvalue⟩ := hnamed argument hargument hkind
    exact mem_map.mpr ⟨object, hobject, hvalue.symm⟩
  have hcount := countP_eq_length_iff (harguments.nodup.of_map _) hkeys hcoverKeys hnamedKeys
  rw [length_map] at hcount
  refine hcount.trans ⟨?_, ?_⟩
  · intro h argument hargument other hother object _ hkind hotherKind hvalue hotherValue
    exact h argument hargument other hother hkind hotherKind (hvalue.trans hotherValue.symm)
  · intro h argument hargument other hother hkind hotherKind hvalue
    obtain ⟨object, hobject, hobjectValue⟩ := hnamed argument hargument hkind
    exact h argument hargument other hother object hobject hkind hotherKind hobjectValue
      (hvalue.symm.trans hobjectValue)

theorem classed_of_others (harguments : ArgumentsValid source)
    (hinline : InlineExact source request)
    (hothers : ∀ argument ∈ source.arguments, argument.argumentId ≠ 1 →
      catalog.Uses source argument) :
    ∀ argument ∈ source.arguments, Classed request argument := by
  intro argument hargument
  by_cases hid : argument.argumentId = 1
  · left
    unfold InlineExact at hinline
    split_ifs at hinline with hrecord
    · exact absurd hid (hinline.1 argument hargument)
    · obtain ⟨record, hmem, hrecordId, hkind, -⟩ := hinline
      have hsame := inj_on_of_nodup_map harguments.nodup hargument hmem
        (hid.trans hrecordId.symm)
      exact ⟨⟨hid, hrecord⟩, hsame ▸ hkind⟩
  · right
    refine ⟨fun hskip => hid hskip.1, ?_⟩
    rcases hothers argument hargument hid with ⟨_, _, _, _, huse⟩ | ⟨_, _, _, _, huse⟩
    · exact .inl huse.kind
    · exact .inr huse.kind

theorem Catalog.Admits.counts (h : catalog.Admits request source)
    (hspans : SpansValid source.spans source.regions)
    (hattachments : AttachmentsValid source.attachments source.generation)
    (harguments : ArgumentsValid source) :
    source.kindCount argumentSpan = source.spans.length ∧
      source.kindCount argumentAttachment = source.attachments.length ∧
      source.arguments.length = (if request.inlineRecordId = 0 then 0 else 1) +
        source.kindCount argumentSpan + source.kindCount argumentAttachment := by
  have hclass := classed_of_others harguments h.inline h.others
  obtain ⟨-, hlength⟩ := foldl_countArgument hclass (0, 0)
  have hinline := kindCount_inline harguments h.inline hclass
  unfold Source.kindCount at hinline
  rw [hinline] at hlength
  exact ⟨(kindCount_iff harguments hspans.nodup harguments.spans
      (harguments.span_named hspans)).mpr h.spansOnce,
    (kindCount_iff harguments hattachments.nodup harguments.attachments
      (harguments.attachment_named hattachments)).mpr h.attachmentsOnce, hlength⟩

theorem catalogRequestValid_iff (hwell : catalog.WellFormed)
    (hspans : SpansValid source.spans source.regions)
    (hattachments : AttachmentsValid source.attachments source.generation)
    (harguments : ArgumentsValid source) :
    catalogRequestValid catalog source = true ↔
      ∃ request ∈ catalog.requests, catalog.Admits request source := by
  have hspanCount := kindCount_iff harguments hspans.nodup harguments.spans
    (harguments.span_named hspans)
  have hattachmentCount := kindCount_iff harguments hattachments.nodup harguments.attachments
    (harguments.attachment_named hattachments)
  simp only [catalogRequestValid, Option.any_eq_true, Bool.and_eq_true, beq_iff_eq,
    decide_eq_true_eq, hwell.commandOfId_iff, inlineArgumentValid_iff harguments,
    Scan.foldlM_eq_some_iff requestArgument_eq_some, Scan.passes_forall,
    requiredSpansPresent_iff hwell harguments, requiredAttachmentsPresent_iff hwell harguments]
  constructor
  · rintro ⟨request, ⟨hmem, hid⟩, ⟨⟨⟨⟨⟨hcommand, hspanCapacity⟩, hattachmentCapacity⟩, hinline⟩,
      counts, ⟨hmeets, hfold⟩, ⟨hspanArguments, hattachmentArguments⟩, _⟩, hrequiredSpans⟩,
      hrequiredAttachments⟩
    have hothers := (meets_iff hwell hspans hattachments hinline).mp hmeets
    have hclass := classed_of_others harguments hinline hothers
    rw [(foldl_countArgument hclass (0, 0)).1, Nat.zero_add, Nat.zero_add] at hfold
    subst hfold
    exact ⟨request, hmem, hcommand, hinline, hothers, hspanCount.mp hspanArguments,
      hattachmentCount.mp hattachmentArguments, hspanCapacity, hattachmentCapacity,
      hrequiredSpans, hrequiredAttachments⟩
  · rintro ⟨request, hmem, h⟩
    have hclass := classed_of_others harguments h.inline h.others
    obtain ⟨hfold, -⟩ := foldl_countArgument hclass (0, 0)
    obtain ⟨hspanArguments, hattachmentArguments, hlength⟩ :=
      h.counts hspans hattachments harguments
    rw [Nat.zero_add, Nat.zero_add] at hfold
    exact ⟨request, ⟨hmem, h.command⟩, ⟨⟨⟨⟨⟨h.command, h.spanCapacity⟩, h.attachmentCapacity⟩,
      h.inline⟩, _, ⟨(meets_iff hwell hspans hattachments h.inline).mpr h.others, hfold⟩,
      ⟨hspanArguments, hattachmentArguments⟩, hlength⟩, h.requiredSpans⟩, h.requiredAttachments⟩

end Counting

/-- The generic check accepts exactly the requests that are as their contracts say. -/
theorem generic_request_exact {source : Source} {catalog : Catalog}
    (hset : (source.commandSetId, catalog) ∈ [(coreSetId, coreCatalog), (modeSetId, modeCatalog),
      (virtgpuSetId, virtgpuCatalog), (i915SetId, i915Catalog)])
    (hspans : spansValid source.spans source.regions = true)
    (hattachments : attachmentsValid source.attachments source.generation = true)
    (harguments : argumentsValid source = true) :
    genericRequestValid source = true ↔
      ∃ request ∈ catalog.requests, catalog.Admits request source := by
  have hcatalog : requestCatalog source.commandSetId = some catalog ∧ catalog.WellFormed := by
    simp only [mem_cons, not_mem_nil, or_false, Prod.mk.injEq] at hset
    rcases hset with ⟨hset, rfl⟩ | ⟨hset, rfl⟩ | ⟨hset, rfl⟩ | ⟨hset, rfl⟩
    · exact ⟨by rw [hset]; rfl, coreCatalog_wellFormed⟩
    · exact ⟨by rw [hset]; rfl, modeCatalog_wellFormed⟩
    · exact ⟨by rw [hset]; rfl, virtgpuCatalog_wellFormed⟩
    · exact ⟨by rw [hset]; rfl, i915Catalog_wellFormed⟩
  rw [genericRequestValid, hcatalog.1, Option.any_some]
  exact catalogRequestValid_iff hcatalog.2 (spansValid_spec hspans)
    (attachmentsValid_spec hattachments) (argumentsValid_spec harguments)

def clientName : Source where
  generation := 1
  sessionId := 1
  commandSetId := coreSetId
  commandId := 8
  flags := 0
  deadlineNs := 0
  arguments := [⟨1, argumentInline, flagInput, 114, 0, 8⟩, ⟨2, argumentSpan, flagInput, 101, 1, 3⟩]
  spans := [⟨1, 1, 0, 3, spanRightRead, 101, 3, flagInput⟩]
  attachments := []
  inlineData := storeU32 3 ++ storeU32 0
  profileKind := profileI915
  queueClass := queueExecution
  regions := readable

theorem clientName_exact :
    ∃ request ∈ coreCatalog.requests, coreCatalog.Admits request clientName :=
  (generic_request_exact (.head _) (by decide) (by decide) (by decide)).mp (by decide)

end Kobox.Gpu
