import Kobox.Gpu.CommandCodec
import Kobox.Gpu.Tables
import Kobox.Library.Matching

/-!
# The memory authority of accepted commands
-/

namespace Kobox.Gpu
open ByteMemory Protocol Listing Matching List
variable {argument : Argument}

def records (commandSetId : UInt32) : List (UInt32 × UInt32) :=
  if commandSetId = coreSetId then coreRecords
  else if commandSetId = modeSetId then modeRecords
  else if commandSetId = virtgpuSetId then virtgpuRecords
  else if commandSetId = i915SetId then i915Records
  else if commandSetId = amdgpuSetId then amdgpuRecords
  else []

def recordSize (commandSetId recordId : UInt32) : UInt32 :=
  ((records commandSetId).lookup recordId).getD 0

/-- READ for input, WRITE for output and both for both. -/
def ExactRights (flags rights : UInt32) : Prop :=
  flags = flagInput ∧ rights = spanRightRead ∨ flags = flagOutput ∧ rights = spanRightWrite ∨
    flags = flagInput ||| flagOutput ∧ rights = spanRightRead ||| spanRightWrite

/-- A span has the direction of its argument, exactly its rights, and the size of its records. -/
structure Covers (commandSetId : UInt32) (argument : Argument) (span : MemorySpan) : Prop where
  flags : argument.flags = span.flags
  rights : ExactRights span.flags span.rights
  count : argument.count = span.elementCount
  record : argument.recordSchemaId = span.recordSchemaId
  length : span.length.toNat =
    span.elementCount.toNat * (recordSize commandSetId span.recordSchemaId).toNat

def Source.spanKeys (source : Source) : List UInt64 :=
  source.spans.map fun span => span.spanId.toUInt64

def Source.attachmentKeys (source : Source) : List UInt64 :=
  source.attachments.map fun attachment => attachment.attachmentId.toUInt64

/-- What an accepted command may do with the registered memory. The end of a span is a sum of
natural numbers, so that one within its region does not wrap around. -/
structure Source.Authority (source : Source) : Prop where
  spanArguments : Matches (fun argument => argument.kind = argumentSpan) Argument.value
    source.arguments source.spanKeys
  attachmentArguments : Matches (fun argument => argument.kind = argumentAttachment) Argument.value
    source.arguments source.attachmentKeys
  within : ∀ span ∈ source.spans, ∃ region ∈ source.regions,
    (∀ other ∈ source.regions, other.regionId = span.regionId ↔ other = region) ∧
    span.offset.toNat + span.length.toNat ≤ region.length.toNat ∧
    region.rights &&& span.rights = span.rights
  covers : ∀ argument ∈ source.arguments, argument.kind = argumentSpan →
    ∀ span ∈ source.spans, argument.value = span.spanId.toUInt64 →
    Covers source.commandSetId argument span
  apart : ∀ (i j : ℕ) (span other : MemorySpan), i ≠ j → source.spans[i]? = some span →
    source.spans[j]? = some other → span.Writes → span.Apart other
  exchangeIds : (source.attachments.map Attachment.exchangeId).Nodup
  generation : ∀ attachment ∈ source.attachments, attachment.generation = source.generation
  inlineUnique : (source.arguments.countP fun argument => argument.kind = argumentInline) ≤ 1
  inlineCovers : ∀ argument ∈ source.arguments, argument.kind = argumentInline →
    argument.value = 0 ∧ argument.count.toNat = source.inlineData.length
  inlineAbsent : (∀ argument ∈ source.arguments, argument.kind ≠ argumentInline) →
    source.inlineData = []

/-! ### Counting -/

/-- What the checks of the tables establish. -/
structure Source.Tables (source : Source) : Prop where
  regions : regionsValid source.regions = true
  spans : SpansValid source.spans source.regions
  attachments : AttachmentsValid source.attachments source.generation
  arguments : ArgumentsValid source

theorem Source.Accepted.tables {source : Source} (h : source.Accepted) : source.Tables :=
  ⟨h.regions, spansValid_spec h.spans, attachmentsValid_spec h.attachments,
    argumentsValid_spec h.arguments⟩

def Source.InlineRecord (source : Source) (argument : Argument) : Prop :=
  findArgument source 1 = some argument ∧ argument.kind = argumentInline ∧ argument.value = 0 ∧
    argument.count.toNat = source.inlineData.length

def Source.Shape (source : Source) : Prop :=
  ((∃ argument, source.InlineRecord argument) ∧
      source.arguments.length = 1 + source.spans.length + source.attachments.length) ∨
    source.inlineData = [] ∧
      source.arguments.length = source.spans.length + source.attachments.length

def Source.kindCount (source : Source) (kind : UInt32) : ℕ :=
  source.arguments.countP fun argument => argument.kind = kind

section Counting
variable {source : Source}

theorem nodup_wide {α : Type} {id : α → UInt32} {l : List α} (h : (l.map id).Nodup) :
    (l.map fun x => (id x).toUInt64).Nodup := by
  have hwide := h.map (f := UInt32.toUInt64) fun _ _ => UInt32.toUInt64_inj.mp
  rwa [map_map] at hwide

theorem Source.Tables.spanKeys_named (h : source.Tables) :
    ∀ key ∈ source.spanKeys, ∃ argument ∈ source.arguments,
      argument.kind = argumentSpan ∧ argument.value = key := by
  intro key hkey
  obtain ⟨span, hspan, rfl⟩ := mem_map.mp hkey
  exact h.arguments.spans span hspan

theorem Source.Tables.attachmentKeys_named (h : source.Tables) :
    ∀ key ∈ source.attachmentKeys, ∃ argument ∈ source.arguments,
      argument.kind = argumentAttachment ∧ argument.value = key := by
  intro key hkey
  obtain ⟨attachment, hattachment, rfl⟩ := mem_map.mp hkey
  exact h.arguments.attachments attachment hattachment

theorem Source.InlineRecord.kindCount_pos (h : source.InlineRecord argument) :
    0 < source.kindCount argumentInline := by
  obtain ⟨hfind, hkind, -⟩ := h
  exact countP_pos_iff.mpr ⟨argument, mem_of_find?_eq_some hfind, decide_eq_true hkind⟩

theorem Source.Tables.kindCount_eq (h : source.Tables) (hshape : source.Shape) :
    source.kindCount argumentSpan = source.spans.length ∧
      source.kindCount argumentAttachment = source.attachments.length ∧
      source.kindCount argumentInline =
        source.arguments.length - (source.spans.length + source.attachments.length) := by
  have hspans := length_le_countP (nodup_wide h.spans.nodup) h.spanKeys_named
  have hattachments := length_le_countP (nodup_wide h.attachments.nodup) h.attachmentKeys_named
  have hkinds := countP_kinds_le Argument.kind (a := argumentSpan)
    (b := argumentAttachment) (c := argumentInline) (by decide) (by decide) (by decide)
    source.arguments
  rw [length_map] at hspans hattachments
  unfold kindCount
  rcases hshape with ⟨⟨argument, hinline⟩, htotal⟩ | ⟨-, htotal⟩
  · have hpos := hinline.kindCount_pos
    unfold kindCount at hpos
    omega
  · omega

end Counting

/-! ### Contracts -/

/-- What a check of a request finds of an argument and its span. -/
structure Measured (commandSetId : UInt32) (argument : Argument) (span : MemorySpan) : Prop where
  flags : argument.flags = span.flags
  rights : ExactRights span.flags span.rights
  length : span.length.toNat =
    argument.count.toNat * (recordSize commandSetId argument.recordSchemaId).toNat

def Source.Checked (source : Source) : Prop :=
  ∀ argument ∈ source.arguments, argument.kind = argumentSpan →
    ∃ span, findSpan source.spans argument.value.toUInt32 = some span ∧
      Measured source.commandSetId argument span

theorem toNat_words_mul (count size : UInt32) :
    (count.toUInt64 * size.toUInt64).toNat = count.toNat * size.toNat := by
  have hproduct := Nat.mul_lt_mul'' count.toNat_lt size.toNat_lt
  rw [UInt64.toNat_mul, UInt32.toNat_toUInt64, UInt32.toNat_toUInt64, Nat.mod_eq_of_lt hproduct]

theorem exactRights_direction {direction : UInt32} (h : directionFlags direction ≠ 0) :
    ExactRights (directionFlags direction) (directionRights direction) := by
  unfold directionFlags at h
  split at h
  · exact .inl ⟨rfl, rfl⟩
  · exact .inr (.inl ⟨rfl, rfl⟩)
  · exact .inr (.inr ⟨rfl, rfl⟩)
  · exact absurd rfl h

theorem requestCatalog_recordSize {commandSetId : UInt32} {catalog : Catalog}
    (h : requestCatalog commandSetId = some catalog) :
    ∀ contract ∈ catalog.spans, recordSize commandSetId contract.recordId = contract.recordSize := by
  unfold requestCatalog at h
  split_ifs at h with hi915 hcore hmode hvirtgpu
  · obtain rfl := Option.some.inj h
    rw [hi915]
    decide
  · obtain rfl := Option.some.inj h
    rw [hcore]
    decide
  · obtain rfl := Option.some.inj h
    rw [hmode]
    decide
  · obtain rfl := Option.some.inj h
    rw [hvirtgpu]
    decide

section Generic
variable {source : Source} {catalog : Catalog} {request : RequestContract} {argument : Argument}

theorem spanArgumentValid_measured (hcatalog : requestCatalog source.commandSetId = some catalog)
    (h : spanArgumentValid catalog.spans source argument = true) :
    ∃ span, findSpan source.spans argument.value.toUInt32 = some span ∧
      Measured source.commandSetId argument span := by
  obtain ⟨contract, hfind, h⟩ := (Option.any_eq_true _ _).mp h
  simp only [Bool.and_eq_true, bne_iff_ne] at h
  obtain ⟨⟨-, hdirection⟩, h⟩ := h
  obtain ⟨span, hspan, h⟩ := (Option.any_eq_true _ _).mp h
  simp only [Bool.and_eq_true, beq_iff_eq] at h
  obtain ⟨⟨⟨⟨hflags, hspanFlags⟩, hrights⟩, -⟩, hlength⟩ := h
  have hcontract := find?_some hfind
  simp only [Bool.and_eq_true, beq_iff_eq] at hcontract
  have hsize := requestCatalog_recordSize hcatalog contract (mem_of_find?_eq_some hfind)
  refine ⟨span, hspan, hflags.trans hspanFlags.symm, ?_, ?_⟩
  · rw [hspanFlags, hrights]
    exact exactRights_direction hdirection
  · rw [hlength, toNat_words_mul, ← hcontract.2, hsize]

def Meets (catalog : Catalog) (request : RequestContract) (source : Source)
    (argument : Argument) : Prop :=
  argument.argumentId = 1 ∧ request.inlineRecordId ≠ 0 ∨
    argument.kind = argumentSpan ∧ spanArgumentValid catalog.spans source argument = true ∨
    argument.kind = argumentAttachment ∧
      attachmentArgumentValid catalog.attachments source argument = true

def countArgument (request : RequestContract) (counts : ℕ × ℕ) (argument : Argument) : ℕ × ℕ :=
  if argument.argumentId = 1 ∧ request.inlineRecordId ≠ 0 then counts
  else if argument.kind = argumentSpan then (counts.1 + 1, counts.2)
  else (counts.1, counts.2 + 1)

theorem requestArgument_eq_some (counts : ℕ × ℕ) (argument : Argument) (counts' : ℕ × ℕ) :
    requestArgument catalog request source counts argument = some counts' ↔
      Meets catalog request source argument ∧ countArgument request counts argument = counts' := by
  have hkinds : argumentSpan ≠ argumentAttachment := by decide
  unfold requestArgument Meets countArgument
  split_ifs with hinline hspan hvalid hattachment hvalid <;> simp_all

theorem inlineRecordValid_record {recordId size : UInt32}
    (h : inlineRecordValid source recordId size = true) :
    ∃ argument, source.InlineRecord argument := by
  obtain ⟨argument, hfind, h⟩ := (Option.any_eq_true _ _).mp h
  simp only [Bool.and_eq_true, beq_iff_eq] at h
  obtain ⟨⟨⟨⟨⟨hkind, -⟩, -⟩, hvalue⟩, hcount⟩, hlength⟩ := h
  exact ⟨argument, hfind, hkind, hvalue, by rw [hcount, hlength]⟩

theorem catalogRequestValid_spec (htables : source.Tables)
    (hcatalog : requestCatalog source.commandSetId = some catalog)
    (h : catalogRequestValid catalog source = true) : source.Shape ∧ source.Checked := by
  obtain ⟨request, -, h⟩ := (Option.any_eq_true _ _).mp h
  simp only [Bool.and_eq_true] at h
  obtain ⟨⟨⟨⟨-, hinline⟩, hloop⟩, -⟩, -⟩ := h
  obtain ⟨counts, hfold, hcounts⟩ := (Option.any_eq_true _ _).mp hloop
  simp only [Bool.and_eq_true, beq_iff_eq] at hcounts
  obtain ⟨⟨hspans, hattachments⟩, htotal⟩ := hcounts
  obtain ⟨hpasses, -⟩ := (Scan.foldlM_eq_some_iff requestArgument_eq_some).mp hfold
  have hmeets := Scan.passes_forall.mp hpasses
  rw [hspans, hattachments] at htotal
  rw [inlineArgumentValid] at hinline
  constructor
  · split_ifs at hinline htotal with hrecord
    · simp only [Bool.and_eq_true, beq_iff_eq, length_eq_zero_iff] at hinline
      exact .inr ⟨hinline.2, by omega⟩
    · exact .inl ⟨inlineRecordValid_record hinline, htotal⟩
  · intro argument hargument hkind
    rcases hmeets argument hargument with ⟨hid, hrecord⟩ | ⟨-, hvalid⟩ | ⟨hattachment, -⟩
    · -- The argument that the loop skips is the inline one.
      rw [if_neg hrecord] at hinline
      obtain ⟨inline, hfind, hinlineKind, -⟩ := inlineRecordValid_record hinline
      have hsame := htables.arguments.findArgument_eq_some.mpr ⟨hargument, hid⟩
      rw [hfind, Option.some_inj] at hsame
      rw [hsame, hkind] at hinlineKind
      exact absurd hinlineKind (by decide)
    · exact spanArgumentValid_measured hcatalog hvalid
    · rw [hkind] at hattachment
      exact absurd hattachment (by decide)

theorem genericRequestValid_spec (htables : source.Tables) (h : genericRequestValid source = true) :
    source.Shape ∧ source.Checked := by
  obtain ⟨catalog, hcatalog, hvalid⟩ := (Option.any_eq_true _ _).mp h
  exact catalogRequestValid_spec htables hcatalog hvalid

end Generic

/-! ### AMDGPU -/

section Amdgpu
variable {source : Source}
open Amdgpu

theorem spanMatches_measured {span : MemorySpan} {flags : UInt32}
    (hset : source.commandSetId = amdgpuSetId) (hflags : argument.flags = flags)
    (hdirection : flags = flagInput ∨ flags = flagOutput)
    (h : spanMatches argument span flags = true) :
    Measured source.commandSetId argument span := by
  simp only [spanMatches, Bool.and_eq_true, beq_iff_eq] at h
  obtain ⟨⟨⟨⟨-, hspanFlags⟩, hrights⟩, -⟩, hlength⟩ := h
  refine ⟨hflags.trans hspanFlags.symm, ?_, ?_⟩
  · rw [hspanFlags, hrights]
    rcases hdirection with rfl | rfl
    · exact .inl ⟨rfl, rfl⟩
    · exact .inr (.inl ⟨rfl, rfl⟩)
  · rw [hlength, toNat_words_mul, hset]
    rfl

theorem csSpansValid_spec (hset : source.commandSetId = amdgpuSetId)
    (hinline : ∃ argument, source.InlineRecord argument) (h : csSpansValid source = true) :
    source.Shape ∧ source.Checked := by
  simp only [csSpansValid, Bool.and_eq_true, beq_iff_eq, List.all_eq_true, List.mem_range] at h
  obtain ⟨⟨⟨⟨-, htotal⟩, hattachments⟩, hchunks⟩, -⟩ := h
  have hchunk : ∀ index argument, source.arguments[index + 1]? = some argument →
      argument.kind = argumentSpan ∧ ∃ span,
        findSpan source.spans argument.value.toUInt32 = some span ∧
          Measured source.commandSetId argument span := by
    intro index argument hargument
    obtain ⟨hindex, -⟩ := List.getElem?_eq_some_iff.mp hargument
    have hvalid := hchunks index (by omega)
    rw [csChunkValid, hargument] at hvalid
    simp only [Option.any_some, Bool.and_eq_true, beq_iff_eq] at hvalid
    obtain ⟨⟨⟨⟨⟨⟨⟨-, hkind⟩, hflags⟩, -⟩, -⟩, -⟩, -⟩, hspan⟩ := hvalid
    obtain ⟨span, hfind, hmatches⟩ := (Option.any_eq_true _ _).mp hspan
    exact ⟨hkind, span, hfind, spanMatches_measured hset hflags (.inl rfl) hmatches⟩
  refine ⟨.inl ⟨hinline, by omega⟩, fun argument hargument hkind => ?_⟩
  obtain ⟨index, hget⟩ := List.mem_iff_getElem?.mp hargument
  cases index with
  | succ index => exact (hchunk index argument hget).2
  | zero =>
    obtain ⟨inline, hfind, hinlineKind, -⟩ := hinline
    obtain ⟨place, hplace⟩ := List.mem_iff_getElem?.mp (List.mem_of_find?_eq_some hfind)
    cases place with
    | zero =>
      rw [hget, Option.some_inj] at hplace
      rw [← hplace, hkind] at hinlineKind
      exact absurd hinlineKind (by decide)
    | succ place =>
      rw [(hchunk place inline hplace).1] at hinlineKind
      exact absurd hinlineKind (by decide)

theorem slots_argumentId_nodup (command : AmdgpuCommand) :
    ((slots command).map Slot.argumentId).Nodup := by
  cases command <;> decide

theorem slots_flags (command : AmdgpuCommand) :
    ∀ slot ∈ slots command, slot.flags = flagInput ∨ slot.flags = flagOutput := by
  cases command <;> decide

theorem spanValid_spec {slot : Slot} {result : Option MemorySpan}
    (h : Amdgpu.spanValid source slot = some result) :
    (result.isSome ↔ (findArgument source slot.argumentId).isSome) ∧
      ∀ argument, findArgument source slot.argumentId = some argument →
        argument.kind = argumentSpan ∧ argument.flags = slot.flags ∧
        ∃ span, findSpan source.spans argument.value.toUInt32 = some span ∧
          spanMatches argument span slot.flags = true := by
  unfold Amdgpu.spanValid at h
  split at h
  · rename_i hfind
    split_ifs at h
    obtain rfl := Option.some.inj h
    simp [hfind]
  · rename_i argument hfind
    split_ifs at h with hrefused
    simp only [not_or, not_not] at hrefused
    split at h
    · cases h
    · rename_i span hspan
      split_ifs at h with hmatches
      obtain rfl := Option.some.inj h
      refine ⟨by simp [hfind], fun argument' hargument => ?_⟩
      rw [hfind, Option.some_inj] at hargument
      subst hargument
      exact ⟨hrefused.1, hrefused.2.1, span, hspan, hmatches⟩

def slotArguments (source : Source) (command : AmdgpuCommand) : List Argument :=
  ((slots command).map Slot.argumentId).filterMap (findArgument source)

theorem slotArguments_nodup (command : AmdgpuCommand) :
    (slotArguments source command).Nodup := by
  refine List.Nodup.filterMap (fun id id' found hfind hfind' => ?_)
    (slots_argumentId_nodup command)
  have hid := find?_some hfind
  have hid' := find?_some hfind'
  exact (beq_iff_eq.mp hid).symm.trans (beq_iff_eq.mp hid')

theorem length_slotArguments {command : AmdgpuCommand} {spans : List (Option MemorySpan)}
    (h : (slots command).mapM (Amdgpu.spanValid source) = some spans) :
    (slotArguments source command).length = spans.countP Option.isSome := by
  rw [mapM_eq_some_iff] at h
  rw [slotArguments]
  generalize slots command = asked at h
  induction h with
  | nil => rfl
  | cons hslot _ ih =>
    obtain ⟨hpresent, -⟩ := spanValid_spec hslot
    rw [map_cons, filterMap_cons, countP_cons, ← ih]
    cases hfind : findArgument source _ with
    | none => simp_all
    | some argument => simp_all

theorem mem_slotArguments {command : AmdgpuCommand} {spans : List (Option MemorySpan)}
    (h : (slots command).mapM (Amdgpu.spanValid source) = some spans)
    (hcount : source.kindCount argumentSpan = spans.countP Option.isSome)
    (hargument : argument ∈ source.arguments) (hkind : argument.kind = argumentSpan) :
    argument ∈ slotArguments source command := by
  have hsubset : slotArguments source command ⊆
      source.arguments.filter fun argument => argument.kind = argumentSpan := by
    intro found hfound
    obtain ⟨id, hid, hfind⟩ := mem_filterMap.mp hfound
    obtain ⟨slot, hslot, rfl⟩ := mem_map.mp hid
    obtain ⟨result, hresult⟩ := exists_of_mapM h hslot
    exact mem_filter.mpr ⟨mem_of_find?_eq_some hfind,
      decide_eq_true ((spanValid_spec hresult).2 found hfind).1⟩
  have hperm := (subperm_of_subset (slotArguments_nodup command) hsubset).perm_of_length_le (by
    rw [← countP_eq_length_filter, length_slotArguments h]
    exact hcount.le)
  exact hperm.mem_iff.mpr (mem_filter.mpr ⟨hargument, decide_eq_true hkind⟩)

theorem amdgpuRequestValid_spec (htables : source.Tables)
    (hset : source.commandSetId = amdgpuSetId) (h : Amdgpu.requestValid source = true) :
    source.Shape ∧ source.Checked := by
  rw [Amdgpu.requestValid, Bool.and_eq_true] at h
  obtain ⟨hcontract, hcommand⟩ := h
  obtain ⟨contract, -, hrecord⟩ := (Option.any_eq_true _ _).mp hcontract
  obtain ⟨command, -, hvalid⟩ := (Option.any_eq_true _ _).mp hcommand
  have hinline := inlineRecordValid_record hrecord
  split_ifs at hvalid with hcs
  · exact csSpansValid_spec hset hinline hvalid
  · obtain ⟨-, hspans⟩ := Bool.and_eq_true_iff.mp hvalid
    obtain ⟨spans, hslots, hcounts⟩ := (Option.any_eq_true _ _).mp hspans
    simp only [Bool.and_eq_true, beq_iff_eq] at hcounts
    obtain ⟨⟨⟨-, hspanCount⟩, hattachmentCount⟩, htotal⟩ := hcounts
    have hshape : source.Shape := .inl ⟨hinline, by rw [hspanCount, hattachmentCount, htotal]⟩
    refine ⟨hshape, fun argument hargument hkind => ?_⟩
    have hmem := mem_slotArguments hslots ((htables.kindCount_eq hshape).1.trans hspanCount)
      hargument hkind
    obtain ⟨id, hid, hfind⟩ := mem_filterMap.mp hmem
    obtain ⟨slot, hslot, rfl⟩ := mem_map.mp hid
    obtain ⟨result, hresult⟩ := exists_of_mapM hslots hslot
    obtain ⟨-, hflags, span, hspan, hmatches⟩ := (spanValid_spec hresult).2 argument hfind
    exact ⟨span, hspan,
      spanMatches_measured hset hflags (slots_flags command slot hslot) hmatches⟩

end Amdgpu

section Accepted
variable {source : Source}

theorem Source.Accepted.request_spec (h : source.Accepted) : source.Shape ∧ source.Checked := by
  have hrequest := h.request
  split_ifs at hrequest with hset
  · exact amdgpuRequestValid_spec h.tables hset hrequest
  · exact genericRequestValid_spec h.tables hrequest

theorem argumentReferencesValid_span (hkind : argument.kind = argumentSpan)
    (h : argumentReferencesValid source argument = true) :
    ∃ span, findSpan source.spans argument.value.toUInt32 = some span ∧
      argument.count = span.elementCount ∧ argument.recordSchemaId = span.recordSchemaId := by
  rw [argumentReferencesValid, hkind, if_neg (by decide), if_neg (by decide),
    if_neg (by decide), if_neg (by decide), if_pos rfl, Bool.and_eq_true] at h
  simpa only [Option.any_eq_true, Bool.and_eq_true, beq_iff_eq] using h.2

variable (h : source.Accepted)
include h

theorem Source.Accepted.covers (hargument : argument ∈ source.arguments)
    (hkind : argument.kind = argumentSpan) {span : MemorySpan} (hspan : span ∈ source.spans)
    (hvalue : argument.value = span.spanId.toUInt64) :
    Covers source.commandSetId argument span := by
  have hfind : findSpan source.spans argument.value.toUInt32 = some span :=
    h.tables.spans.findSpan_eq_some.mpr ⟨hspan, by rw [hvalue, UInt32.toUInt32_toUInt64]⟩
  obtain ⟨named, hnamed, hcount, hrecord⟩ :=
    argumentReferencesValid_span hkind (h.tables.arguments.references argument hargument)
  obtain ⟨measured, hmeasured, hflags, hrights, hlength⟩ :=
    h.request_spec.2 argument hargument hkind
  rw [hfind, Option.some_inj] at hnamed hmeasured
  subst hnamed hmeasured
  exact ⟨hflags, hrights, hcount, hrecord, by rw [hlength, hcount, hrecord]⟩

theorem Source.Accepted.inline :
    (∃ argument, source.InlineRecord argument ∧
      ∀ other ∈ source.arguments, other.kind = argumentInline → other = argument) ∨
    source.inlineData = [] ∧ ∀ other ∈ source.arguments, other.kind ≠ argumentInline := by
  obtain ⟨-, -, hcount⟩ := h.tables.kindCount_eq h.request_spec.1
  rcases h.request_spec.1 with ⟨⟨argument, hinline⟩, htotal⟩ | ⟨hempty, htotal⟩
  · refine .inl ⟨argument, hinline, fun other hother hkind => ?_⟩
    have hone : source.kindCount argumentInline = 1 := by omega
    rw [kindCount, countP_eq_length_filter, length_eq_one_iff] at hone
    obtain ⟨only, honly⟩ := hone
    have hmem {x : Argument} (hx : x ∈ source.arguments) (hxkind : x.kind = argumentInline) :
        x = only := by
      rw [← mem_singleton, ← honly, mem_filter]
      exact ⟨hx, decide_eq_true hxkind⟩
    rw [hmem hother hkind, hmem (mem_of_find?_eq_some hinline.1) hinline.2.1]
  · have hnone : source.kindCount argumentInline = 0 := by omega
    refine .inr ⟨hempty, fun other hother hkind => ?_⟩
    exact countP_eq_zero.mp hnone other hother (decide_eq_true hkind)

theorem Source.Accepted.authority : source.Authority := by
  obtain ⟨hspanCount, hattachmentCount, -⟩ := h.tables.kindCount_eq h.request_spec.1
  have hspanKeys : source.spanKeys.length = source.spans.length := List.length_map _
  have hattachmentKeys : source.attachmentKeys.length = source.attachments.length :=
    List.length_map _
  refine {
    spanArguments := matches_of_count (nodup_wide h.tables.spans.nodup) h.tables.spanKeys_named
      (hspanCount.trans hspanKeys.symm).le
    attachmentArguments := matches_of_count (nodup_wide h.tables.attachments.nodup)
      h.tables.attachmentKeys_named (hattachmentCount.trans hattachmentKeys.symm).le
    within := ?_
    covers := fun argument hargument hkind span hspan hvalue =>
      h.covers hargument hkind hspan hvalue
    apart := ?_
    exchangeIds := h.tables.attachments.exchangeIds
    generation := h.tables.attachments.generation
    inlineUnique := ?_
    inlineCovers := ?_
    inlineAbsent := ?_ }
  · intro span hspan
    obtain ⟨region, hfind, hwithin⟩ := h.tables.spans.within span hspan
    obtain ⟨hregion, hid⟩ := (findRegion_eq_some h.regions).mp hfind
    refine ⟨region, hregion, fun other hother => ⟨fun hother' => ?_, fun hother' => hother' ▸ hid⟩,
      hwithin.inside, hwithin.rights⟩
    have hsame := (findRegion_eq_some h.regions).mpr ⟨hother, hother'⟩
    rw [hfind, Option.some_inj] at hsame
    exact hsame.symm
  · intro i j span other hij hspan hother hwrites
    have hpairs := List.pairwise_iff_getElem.mp h.tables.spans.apart
    obtain ⟨hi, rfl⟩ := List.getElem?_eq_some_iff.mp hspan
    obtain ⟨hj, rfl⟩ := List.getElem?_eq_some_iff.mp hother
    rcases Nat.lt_or_gt_of_ne hij with hlt | hlt
    · exact hpairs i j hi hj hlt (.inl hwrites)
    · exact (hpairs j i hj hi hlt (.inr hwrites)).symm
  · obtain ⟨-, -, hcount⟩ := h.tables.kindCount_eq h.request_spec.1
    unfold kindCount at hcount
    rcases h.request_spec.1 with ⟨-, htotal⟩ | ⟨-, htotal⟩
    · omega
    · omega
  · intro argument hargument hkind
    rcases h.inline with ⟨record, hrecord, hunique⟩ | ⟨-, hnone⟩
    · rw [hunique argument hargument hkind]
      exact hrecord.2.2
    · exact absurd hkind (hnone argument hargument)
  · intro hnone
    rcases h.inline with ⟨record, hrecord, -⟩ | ⟨hempty, -⟩
    · exact absurd hrecord.2.1 (hnone record (List.mem_of_find?_eq_some hrecord.1))
    · exact hempty

end Accepted

/-- An accepted command reads and writes what its arguments say and nothing else. -/
theorem accepted_command_authority {bytes : List UInt8} {generation : UInt64}
    {profileKind queueClass : UInt32} {regions : List MemoryRegion} {command : Command}
    (h : commandDecode bytes generation profileKind queueClass regions = .ok command) :
    ∃ content : Content, command.Reads content ∧
      Source.Authority ⟨content, profileKind, queueClass, regions⟩ := by
  obtain ⟨content, hbytes, -, hvalid, rfl⟩ := commandDecode_eq_ok.mp h
  have haccepted := validateSource_iff.mp hvalid
  exact ⟨content, reads_decodeCommand haccepted.fits hbytes, haccepted.authority⟩

def twoChunks : Content where
  generation := 1
  sessionId := 1
  commandSetId := amdgpuSetId
  commandId := 5
  flags := 0
  deadlineNs := 0
  arguments := [⟨1, argumentInline, flagInput, 110, 0, 16⟩,
    ⟨2, argumentSpan, flagInput, 111, 1, 1⟩, ⟨3, argumentSpan, flagInput, 113, 2, 2⟩]
  spans := [⟨1, 1, 0, 32, spanRightRead, 111, 1, flagInput⟩,
    ⟨2, 1, 32, 48, spanRightRead, 113, 2, flagInput⟩]
  attachments := []
  inlineData := storeU64 0 ++ storeU32 2 ++ storeU32 0

def readable : List MemoryRegion := [⟨1, spanRightRead, 128⟩]

theorem twoChunks_authority :
    ∃ bytes command, commandDecode bytes 1 profileAmdgpu queueExecution readable = .ok command ∧
      ∃ content : Content, command.Reads content ∧
        Source.Authority ⟨content, profileAmdgpu, queueExecution, readable⟩ := by
  have hvalid : validateSource ⟨twoChunks, profileAmdgpu, queueExecution, readable⟩ = true := by
    decide
  have hroom : commandFormat.size twoChunks ≤ (List.replicate 320 (0 : UInt8)).length := by
    rw [length_replicate]
    decide
  have hbytes := (Format.emit_take_iff hroom).mp rfl
  have hdecode := commandDecode_eq_ok.mpr ⟨twoChunks, hbytes, rfl, hvalid, rfl⟩
  exact ⟨_, _, hdecode, accepted_command_authority hdecode⟩

end Kobox.Gpu
