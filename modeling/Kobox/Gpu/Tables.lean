import Kobox.Gpu.Source
import Kobox.Library.KeyedList
import Kobox.Library.Scan

/-!
# What the checks of the tables establish
-/

namespace Kobox.Gpu
open Protocol List
variable {spans : List MemorySpan} {source : Source} {regions : List MemoryRegion}
  {region : MemoryRegion} {span : MemorySpan}

theorem regionsValid_nodup (h : regionsValid regions = true) :
    (regions.map MemoryRegion.regionId).Nodup := by
  have hturn : ∀ earlier region, regionValid earlier region = true ↔
      (regionValid [] region = true) ∧
        ∀ previous ∈ earlier, MemoryRegion.regionId previous ≠ region.regionId := by
    intro earlier region
    simp only [regionValid, Bool.and_eq_true, all_eq_true, bne_iff_ne, ne_comm]
    simp
  rw [regionsValid, Bool.and_eq_true, Scan.all_earlier_iff hturn] at h
  exact pairwise_map.mpr h.2.2

theorem findRegion_eq_some (h : regionsValid regions = true) {regionId : UInt32} :
    findRegion regions regionId = some region ↔ region ∈ regions ∧ region.regionId = regionId :=
  find?_key_eq_some (regionsValid_nodup h)

/-! ### Spans -/

def MemorySpan.Writes (span : MemorySpan) : Prop := span.rights &&& spanRightWrite ≠ 0

def MemorySpan.Apart (span other : MemorySpan) : Prop :=
  span.regionId = other.regionId →
    span.offset.toNat + span.length.toNat ≤ other.offset.toNat ∨
      other.offset.toNat + other.length.toNat ≤ span.offset.toNat

theorem MemorySpan.Apart.symm {other : MemorySpan} (h : span.Apart other) :
    other.Apart span :=
  fun hregion => (h hregion.symm).symm

/-- A span lies in its region, which gives it its rights. -/
structure MemorySpan.Within (span : MemorySpan) (region : MemoryRegion) : Prop where
  inside : span.offset.toNat + span.length.toNat ≤ region.length.toNat
  rights : region.rights &&& span.rights = span.rights

theorem spanFits_within (h : spanFits region span = true) : span.Within region := by
  simp only [spanFits, Bool.and_eq_true, bne_iff_ne, beq_iff_eq, decide_eq_true_eq] at h
  obtain ⟨⟨⟨⟨-, hoffset⟩, hlength⟩, -⟩, hrights⟩ := h
  rw [UInt64.le_iff_toNat_le, UInt64.toNat_sub_of_le _ _ hoffset] at hlength
  rw [UInt64.le_iff_toNat_le] at hoffset
  exact ⟨by omega, hrights⟩

theorem MemorySpan.Within.toNat_end (h : span.Within region) :
    (span.offset + span.length).toNat = span.offset.toNat + span.length.toNat := by
  have hregion := region.length.toNat_lt
  have hinside := h.inside
  rw [UInt64.toNat_add, Nat.mod_eq_of_lt (by omega)]

theorem spansOverlap_eq_false {other : MemorySpan} {region' : MemoryRegion} (h : span.Within region)
    (h' : other.Within region') :
    spansOverlap span other = false ↔ span.Apart other := by
  rw [MemorySpan.Apart, spansOverlap, Bool.eq_false_iff, ne_eq]
  simp only [Bool.and_eq_true, beq_iff_eq, decide_eq_true_eq, UInt64.lt_iff_toNat_lt, h.toNat_end,
    h'.toNat_end, not_and, Nat.not_lt, and_imp]
  constructor
  · intro hoverlap hregion
    rcases Nat.lt_or_ge span.offset.toNat (other.offset.toNat + other.length.toNat) with hlt | hge
    · exact .inl (hoverlap hregion hlt)
    · exact .inr hge
  · intro hapart hregion hlt
    exact (hapart hregion).resolve_right (Nat.not_le.mpr hlt)

theorem or_and_eq_zero_iff {a b mask : UInt32} :
    (a ||| b) &&& mask = 0 ↔ a &&& mask = 0 ∧ b &&& mask = 0 := by
  have hdistrib : (a ||| b) &&& mask = a &&& mask ||| b &&& mask := by
    rw [← UInt32.toNat_inj]
    simp only [UInt32.toNat_and, UInt32.toNat_or, Nat.and_or_distrib_right]
  rw [hdistrib, UInt32.or_eq_zero_iff]

/-- Spans in ascending order, each in its region, no two of which meet where one writes. -/
structure SpansValid (spans : List MemorySpan) (regions : List MemoryRegion) : Prop where
  ascending : spans.Pairwise fun span other => span.spanId < other.spanId
  within : ∀ span ∈ spans, ∃ region, findRegion regions span.regionId = some region ∧
    span.Within region
  apart : spans.Pairwise fun span other => span.Writes ∨ other.Writes → span.Apart other

theorem spansValid_spec (h : spansValid spans regions = true) :
    SpansValid spans regions := by
  have htrans : IsTrans MemorySpan fun span other => span.spanId < other.spanId :=
    ⟨fun _ _ _ => UInt32.lt_trans⟩
  have hturn : ∀ earlier span, spanValid regions earlier span = true ↔
      (∀ previous, earlier.getLast? = some previous → previous.spanId < span.spanId) ∧
      (findRegion regions span.regionId).any (spanFits · span) = true ∧
      ∀ previous ∈ earlier, (spansOverlap span previous = true →
        (span.rights ||| previous.rights) &&& spanRightWrite = 0) := by
    intro earlier span
    simp only [spanValid, Bool.and_eq_true, Option.all_eq_true, decide_eq_true_eq,
      all_eq_true, Bool.not_eq_true', Bool.and_eq_false_imp, bne_eq_false_iff_eq, and_assoc]
  rw [spansValid, Scan.all_ascending_iff _ hturn] at h
  obtain ⟨hascending, hfits, hpairs⟩ := h
  have hwithin : ∀ span ∈ spans, ∃ region, findRegion regions span.regionId = some region ∧
      span.Within region := by
    intro span hspan
    obtain ⟨region, hregion, hfit⟩ := (Option.any_eq_true _ _).mp (hfits span hspan)
    exact ⟨region, hregion, spanFits_within hfit⟩
  refine ⟨hascending, hwithin, hpairs.imp_of_mem fun {span other} hspan hother hpair hwrites => ?_⟩
  obtain ⟨region, -, hspanWithin⟩ := hwithin span hspan
  obtain ⟨region', -, hotherWithin⟩ := hwithin other hother
  refine ((spansOverlap_eq_false hotherWithin hspanWithin).mp ?_).symm
  rw [Bool.eq_false_iff]
  intro hoverlap
  obtain ⟨hother, hspan⟩ := or_and_eq_zero_iff.mp (hpair hoverlap)
  rcases hwrites with hwrites | hwrites
  · exact hwrites hspan
  · exact hwrites hother

theorem SpansValid.nodup (h : SpansValid spans regions) :
    (spans.map MemorySpan.spanId).Nodup :=
  pairwise_map.mpr (h.ascending.imp UInt32.ne_of_lt)

theorem SpansValid.findSpan_eq_some (h : SpansValid spans regions) {spanId : UInt32} :
    findSpan spans spanId = some span ↔ span ∈ spans ∧ span.spanId = spanId :=
  find?_key_eq_some h.nodup

/-- Attachments in ascending order, of this generation, with distinct exchange ids. -/
structure AttachmentsValid (attachments : List Attachment) (generation : UInt64) : Prop where
  ascending : attachments.Pairwise fun attachment other =>
    attachment.attachmentId < other.attachmentId
  generation : ∀ attachment ∈ attachments, attachment.generation = generation
  exchangeIds : (attachments.map Attachment.exchangeId).Nodup

theorem attachmentsValid_spec {attachments : List Attachment} {generation : UInt64}
    (h : attachmentsValid attachments generation = true) :
    AttachmentsValid attachments generation := by
  have htrans : IsTrans Attachment fun attachment other =>
      attachment.attachmentId < other.attachmentId := ⟨fun _ _ _ => UInt32.lt_trans⟩
  have hturn : ∀ earlier attachment, attachmentValid generation earlier attachment = true ↔
      (∀ previous, earlier.getLast? = some previous →
        previous.attachmentId < attachment.attachmentId) ∧
      attachmentValid generation [] attachment = true ∧
      ∀ previous ∈ earlier, previous.exchangeId ≠ attachment.exchangeId := by
    intro earlier attachment
    simp only [attachmentValid, Bool.and_eq_true, Option.all_eq_true, decide_eq_true_eq,
      all_eq_true, bne_iff_ne, getLast?_nil, reduceCtorEq, not_mem_nil,
      ne_comm (a := attachment.exchangeId)]
    tauto
  rw [attachmentsValid, Scan.all_ascending_iff _ hturn] at h
  obtain ⟨hascending, hown, hpairs⟩ := h
  refine ⟨hascending, fun attachment hattachment => ?_, pairwise_map.mpr hpairs⟩
  have hattachment := hown attachment hattachment
  simp only [attachmentValid, Bool.and_eq_true, beq_iff_eq] at hattachment
  exact hattachment.1.1.1.1.1.2

theorem AttachmentsValid.nodup {attachments : List Attachment} {generation : UInt64}
    (h : AttachmentsValid attachments generation) :
    (attachments.map Attachment.attachmentId).Nodup :=
  pairwise_map.mpr (h.ascending.imp UInt32.ne_of_lt)

/-- Arguments in ascending order whose references resolve, and which name every span and every
attachment. -/
structure ArgumentsValid (source : Source) : Prop where
  ascending : source.arguments.Pairwise fun argument other =>
    argument.argumentId < other.argumentId
  references : ∀ argument ∈ source.arguments, argumentReferencesValid source argument = true
  spans : ∀ span ∈ source.spans, ∃ argument ∈ source.arguments,
    argument.kind = argumentSpan ∧ argument.value = span.spanId.toUInt64
  attachments : ∀ attachment ∈ source.attachments, ∃ argument ∈ source.arguments,
    argument.kind = argumentAttachment ∧ argument.value = attachment.attachmentId.toUInt64

theorem argumentsValid_spec (h : argumentsValid source = true) :
    ArgumentsValid source := by
  have htrans : IsTrans Argument fun argument other => argument.argumentId < other.argumentId :=
    ⟨fun _ _ _ => UInt32.lt_trans⟩
  have hturn : ∀ earlier argument, argumentValid source earlier argument = true ↔
      (∀ previous, earlier.getLast? = some previous →
        previous.argumentId < argument.argumentId) ∧
      argumentValid source [] argument = true ∧ ∀ previous ∈ earlier, True := by
    intro earlier argument
    simp only [argumentValid, Bool.and_eq_true, Option.all_eq_true, decide_eq_true_eq,
      getLast?_nil, reduceCtorEq]
    tauto
  rw [argumentsValid, Bool.and_eq_true, Bool.and_eq_true, Scan.all_ascending_iff _ hturn] at h
  obtain ⟨⟨⟨hascending, hown, -⟩, hspans⟩, hattachments⟩ := h
  simp only [referenced, all_eq_true, any_eq_true, Bool.and_eq_true, beq_iff_eq]
    at hspans hattachments
  refine ⟨hascending, fun argument hargument => ?_, hspans, hattachments⟩
  have hargument := hown argument hargument
  simp only [argumentValid, Bool.and_eq_true] at hargument
  exact hargument.2

theorem ArgumentsValid.nodup (h : ArgumentsValid source) :
    (source.arguments.map Argument.argumentId).Nodup :=
  pairwise_map.mpr (h.ascending.imp UInt32.ne_of_lt)

theorem ArgumentsValid.findArgument_eq_some (h : ArgumentsValid source) {argumentId : UInt32}
    {argument : Argument} :
    findArgument source argumentId = some argument ↔
      argument ∈ source.arguments ∧ argument.argumentId = argumentId :=
  find?_key_eq_some h.nodup

end Kobox.Gpu
