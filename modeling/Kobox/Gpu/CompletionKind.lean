import Kobox.Gpu.CompletionCodec

/-!
# Completions of different kinds are not confused
-/

namespace Kobox.Gpu
open ByteMemory Protocol

/-- The decoders of successful completions. -/
inductive CompletionKind where
  | inline
  | attachment
  | virtgpuMap
  | modeMap
  | amdgpuMap
  | i915Map
  | sessionOpen
  deriving DecidableEq, Repr

def CompletionKind.Accepts (bytes : List UInt8) : CompletionKind → Prop
  | inline => ∃ session completion, InlineCompletion.decode session bytes = .ok completion
  | attachment => ∃ expected completion, AttachmentCompletion.decode expected bytes = .ok completion
  | virtgpuMap => ∃ expected completion, virtgpuMapCompletionDecode expected bytes = .ok completion
  | modeMap => ∃ expected completion, modeMapCompletionDecode expected bytes = .ok completion
  | amdgpuMap => ∃ expected completion, amdgpuMapCompletionDecode expected bytes = .ok completion
  | i915Map => ∃ expected completion, i915MapCompletionDecode expected bytes = .ok completion
  | sessionOpen => ∃ completion, SessionCompletion.decode opcodeSessionOpen bytes = .ok completion

structure Mark where
  recordSchemaId : Option UInt32
  attachmentCount : ℕ
  bareInline : Bool
  deriving DecidableEq

def markOf (memory : Memory) : Mark where
  recordSchemaId := if (loadU32 memory 56).toNat = 2 then some (loadU32 memory 116) else none
  attachmentCount := (loadU32 memory 64).toNat
  bareInline := decide ((loadU32 memory 56).toNat = 0 ∧ (loadU32 memory 68).toNat ≠ 0)

def CompletionKind.mark : CompletionKind → Mark
  | inline => ⟨none, 0, false⟩
  | attachment => ⟨none, 1, false⟩
  | virtgpuMap => ⟨some virtgpuMapFormat.recordSchemaId, 1, false⟩
  | modeMap => ⟨some modeMapFormat.recordSchemaId, 1, false⟩
  | amdgpuMap => ⟨some amdgpuMapFormat.recordSchemaId, 1, false⟩
  | i915Map => ⟨some i915MapFormat.recordSchemaId, 1, false⟩
  | sessionOpen => ⟨none, 0, true⟩

theorem CompletionKind.mark_injective : Function.Injective mark := by
  intro kind kind'
  cases kind <;> cases kind' <;> decide

section Mark
variable {bytes : List UInt8}

theorem markOf_eq {memory : Memory} {frame : Frame} (h : frameMatches memory frame = true) :
    markOf memory = ⟨if frame.argumentCount = 2 then some (loadU32 memory 116) else none,
      frame.attachmentCount, decide (frame.argumentCount = 0 ∧ frame.inlineLength ≠ 0)⟩ := by
  obtain ⟨hargument, hattachment, hinline⟩ := frameMatches_counts h
  simp only [markOf, hargument, hattachment, hinline]

theorem markOf_inline {session : UInt64} {completion : InlineCompletion}
    (h : InlineCompletion.decode session bytes = .ok completion) :
    markOf (ofList bytes) = CompletionKind.inline.mark := by
  obtain ⟨⟨hvalid, -⟩, hr⟩ := InlineCompletion.decode_eq_ok.mp h
  obtain ⟨-, -, hlength, -, -⟩ := InlineCompletion.valid_iff.mp hvalid
  rw [markOf_eq ((InlineCompletion.held_image hlength).mp hr.held).1.2.2.2]
  dsimp only [InlineCompletion.frame]
  by_cases hdata : completion.data.length = 0
  · simp [hdata, CompletionKind.mark]
  · simp [hdata, CompletionKind.mark]

theorem markOf_attachment {expected : UInt64 × UInt64} {completion : AttachmentCompletion}
    (hstatus : loadU32 (ofList bytes) 48 = statusOk)
    (h : AttachmentCompletion.decode expected bytes = .ok completion) :
    markOf (ofList bytes) = CompletionKind.attachment.mark := by
  obtain ⟨⟨hvalid, -⟩, hr⟩ := (AttachmentCompletion.codec.decode_iff _ _ _).mp h
  have hr := Delegating.represents_success hvalid hstatus hr
  rw [markOf_eq (AttachmentCompletion.held_image.mp hr.held).1.2.2.2]
  rfl

theorem markOf_mapping {format : MappingCompletionFormat} (hformat : format.Standard)
    {expected : UInt64 × UInt64} {completion : MapCompletion}
    (hstatus : loadU32 (ofList bytes) 48 = statusOk)
    (h : MapCompletion.decode format expected bytes = .ok completion) :
    markOf (ofList bytes) = ⟨some format.recordSchemaId, 1, false⟩ := by
  obtain ⟨⟨hvalid, -⟩, hr⟩ := ((MapCompletion.codec hformat).decode_iff _ _ _).mp h
  have hr := Delegating.represents_success hvalid hstatus hr
  obtain ⟨⟨-, -, -, hmatches⟩, ⟨hargument, -⟩, -⟩ := (MapCompletion.held_image hformat).mp hr.held
  rw [argumentMatches_iff, held_argumentImage, decodeArgument, Argument.mk.injEq] at hargument
  rw [markOf_eq hmatches, show loadU32 (ofList bytes) 116 = format.recordSchemaId from
    hargument.1.2.2.2.1]
  rfl

theorem markOf_session {completion : SessionCompletion}
    (hstatus : loadU32 (ofList bytes) 48 = statusOk)
    (h : SessionCompletion.decode opcodeSessionOpen bytes = .ok completion) :
    markOf (ofList bytes) = CompletionKind.sessionOpen.mark := by
  obtain ⟨⟨-, hopcode⟩, hr⟩ := SessionCompletion.decode_eq_ok.mp h
  obtain ⟨⟨-, -, hsame, hmatches⟩, -⟩ := SessionCompletion.held_image.mp hr.held
  have hpayload : SessionCompletion.payload completion.opcode completion.status = 32 :=
    if_pos ⟨hopcode.symm, hsame.symm.trans hstatus⟩
  rw [markOf_eq hmatches, hpayload]
  rfl

theorem CompletionKind.Accepts.mark {kind : CompletionKind}
    (hstatus : loadU32 (ofList bytes) 48 = statusOk) (h : kind.Accepts bytes) :
    markOf (ofList bytes) = kind.mark := by
  cases kind with
  | inline =>
    obtain ⟨_, _, h⟩ := h
    exact markOf_inline h
  | attachment =>
    obtain ⟨_, _, h⟩ := h
    exact markOf_attachment hstatus h
  | virtgpuMap | modeMap | amdgpuMap | i915Map =>
    obtain ⟨_, _, h⟩ := h
    exact markOf_mapping ⟨rfl, rfl, rfl, rfl, rfl⟩ hstatus h
  | sessionOpen =>
    obtain ⟨_, h⟩ := h
    exact markOf_session hstatus h

/-- At most one of the decoders accepts bytes with the status OK. -/
theorem accepted_kind_unique (hstatus : loadU32 (ofList bytes) 48 = statusOk)
    {kind kind' : CompletionKind} (h : kind.Accepts bytes) (h' : kind'.Accepts bytes) :
    kind = kind' :=
  CompletionKind.mark_injective ((h.mark hstatus).symm.trans (h'.mark hstatus))

def onePage : MapCompletion where
  sessionId := 7
  status := statusOk
  mappingId := 4096
  length := 4096
  cachePolicy := 1
  exchangeId := 3
  generation := 9
  rights := 3

theorem onePage_kind :
    ∃ bytes, loadU32 (ofList bytes) 48 = statusOk ∧ CompletionKind.virtgpuMap.Accepts bytes ∧
      ¬CompletionKind.modeMap.Accepts bytes := by
  refine ⟨read (storeAll (cleared [] 240) (onePage.stores virtgpuMapFormat)) 0 240, ?_⟩
  have hstatus : loadU32 (ofList
      (read (storeAll (cleared [] 240) (onePage.stores virtgpuMapFormat)) 0 240)) 48 = statusOk := by
    decide +kernel
  have hmap : CompletionKind.virtgpuMap.Accepts
      (read (storeAll (cleared [] 240) (onePage.stores virtgpuMapFormat)) 0 240) :=
    ⟨(7, 9), onePage, by decide +kernel⟩
  refine ⟨hstatus, hmap, fun hmode => ?_⟩
  exact absurd (accepted_kind_unique hstatus hmap hmode) (by decide)

end Mark

end Kobox.Gpu
