import Kobox.Filesystem.Request
import Kobox.Protocol.Accepted

/-!
# What the filesystem accepts as a request
-/

namespace Kobox.Filesystem
open ByteMemory Protocol List
variable {request : Request} {span : PayloadSpan}

/-! ### The image of the header -/

theorem signed64_eq (value : UInt64) : signed64 value = value.toInt64 := by
  unfold signed64
  split
  · rfl
  · apply Int64.toBitVec.inj
    rw [Int64.toBitVec_sub]
    -- The two constants are all ones.
    change (-1 : BitVec 64) - (uint64Max - value).toBitVec = value.toBitVec
    rw [UInt64.toBitVec_sub]
    change (-1 : BitVec 64) - ((-1 : BitVec 64) - value.toBitVec) = value.toBitVec
    bv_omega

theorem signed64_eq_iff {value : UInt64} {offset : Int64} :
    signed64 value = offset ↔ value = offset.toUInt64 := by
  rw [signed64_eq]
  constructor
  · rintro rfl
    rfl
  · rintro rfl
    rfl

def fields (request : Request) : List Store :=
  [⟨0, abiIdentity⟩, ⟨4, storeU32 request.opcode⟩, ⟨8, storeU64 request.generation⟩,
    ⟨16, storeU64 request.sequence⟩, ⟨24, storeU64 request.client⟩,
    ⟨32, storeU64 request.credentialGeneration⟩, ⟨40, storeU64 request.handle⟩,
    ⟨48, storeU64 request.secondHandle⟩, ⟨56, storeU64 request.offset.toUInt64⟩,
    ⟨64, storeU64 request.length⟩, ⟨72, storeU64 request.flags⟩, ⟨80, storeU64 request.mode⟩,
    ⟨88, storeU64 request.resolve⟩, ⟨96, storeU32 request.mask⟩, ⟨100, storeU32 request.uid⟩,
    ⟨104, storeU32 request.gid⟩, ⟨108, storeU32 request.umask⟩,
    ⟨112, storeU64 request.path.offset⟩, ⟨120, storeU64 request.path.length⟩,
    ⟨128, storeU64 request.secondPath.offset⟩, ⟨136, storeU64 request.secondPath.length⟩,
    ⟨144, storeU64 request.groups.offset⟩, ⟨152, storeU64 request.groups.length⟩,
    ⟨160, storeU64 request.data.offset⟩, ⟨168, storeU64 request.data.length⟩,
    ⟨176, storeU64 request.capabilities⟩]

theorem fills_fields (request : Request) :
    Fills (fields request) (fields request ++ [.zeros 184 8]) 0 requestSize :=
  .cons 4 rfl <| .cons 4 rfl <| .cons 8 rfl <| .cons 8 rfl <| .cons 8 rfl <| .cons 8 rfl <|
    .cons 8 rfl <| .cons 8 rfl <| .cons 8 rfl <| .cons 8 rfl <| .cons 8 rfl <| .cons 8 rfl <|
    .cons 8 rfl <| .cons 4 rfl <| .cons 4 rfl <| .cons 4 rfl <| .cons 4 rfl <| .cons 8 rfl <|
    .cons 8 rfl <| .cons 8 rfl <| .cons 8 rfl <| .cons 8 rfl <| .cons 8 rfl <| .cons 8 rfl <|
    .cons 8 rfl <| .cons 8 rfl <| .skip <| .nil _

def fieldOrder : List ℕ :=
  [0, 2, 3, 4, 5, 6, 7, 9, 10, 11, 12, 25, 17, 18, 19, 20, 21, 22, 23, 24, 1, 13, 14, 15, 16, 8]

theorem fieldOrder_perm : fieldOrder.Perm (List.range 26) := by decide

theorem encodeFields_eq (request : Request) :
    encodeFields request = fieldOrder.filterMap ((fields request)[·]?) := rfl

def format : Format Request where
  size _ := requestSize
  stores := encodeFields
  image request := fields request ++ [.zeros 184 8]
  fills request := (fills_fields request).reorder fieldOrder fieldOrder_perm (encodeFields_eq request)

theorem held_image {memory : Memory} :
    Held memory (format.image request) ↔
      Holds memory 0 abiIdentity ∧ decodeFields memory = request ∧ loadU64 memory 184 = 0 := by
  obtain ⟨_, _, _, _, _, _, _, _, _, _, _, _, _, _, _, _, ⟨⟩, ⟨⟩, ⟨⟩, ⟨⟩, _⟩ := request
  simp only [format, fields, cons_append, nil_append, held_cons, held_nil,
    holds_storeU32_iff, holds_storeU64_iff, holds_zeros_iff64, and_true, decodeFields, decodeSpan,
    Request.mk.injEq, PayloadSpan.mk.injEq, signed64_eq_iff, and_assoc]

section Codec
variable {bytes result : List UInt8} {payloadSize : UInt64} {request : Request}

theorem requestEncode_eq_some :
    requestEncode bytes payloadSize request = some result ↔
      requestValid request payloadSize = true ∧ requestSize ≤ bytes.length ∧
        result = format.emit bytes request := by
  unfold requestEncode
  split_ifs with hbad
  · simp only [false_iff]
    rintro ⟨hvalid, hsize, -⟩
    rcases hbad with hbad | hbad
    · omega
    · rw [hvalid] at hbad
      cases hbad
  · simp only [not_or, Nat.not_lt, Bool.not_eq_false] at hbad
    rw [Option.some.injEq]
    exact ⟨fun h => ⟨hbad.2, hbad.1, h.symm⟩, fun h => h.2.2.symm⟩

theorem requestDecode_eq_some :
    requestDecode bytes payloadSize = some request ↔
      requestValid request payloadSize = true ∧
        format.Represents (bytes.take requestSize) request := by
  rw [show requestSize = format.size request from rfl, Format.represents_take_iff, held_image]
  change _ ↔ _ ∧ requestSize ≤ bytes.length ∧ _
  unfold requestDecode
  dsimp only
  constructor
  · intro h
    split_ifs at h with hbad hvalid
    simp only [not_or, Nat.not_lt, not_not] at hbad
    obtain rfl := Option.some.inj h
    exact ⟨hvalid, hbad.1, hbad.2.1, rfl, hbad.2.2⟩
  · rintro ⟨hvalid, hsize, habi, rfl, hreserved⟩
    rw [if_neg, if_pos hvalid]
    simp only [not_or, Nat.not_lt, not_not]
    exact ⟨hsize, habi, hreserved⟩

theorem requestDecode_iff_encode :
    requestDecode bytes payloadSize = some request ↔
      requestValid request payloadSize = true ∧
        ∃ buffer result, requestEncode buffer payloadSize request = some result ∧
          bytes.take requestSize = result.take requestSize := by
  rw [requestDecode_eq_some]
  constructor
  · rintro ⟨hvalid, hrepresents⟩
    have hsize : requestSize ≤ bytes.length := (Format.represents_take_iff.mp hrepresents).1
    refine ⟨hvalid, bytes, _, requestEncode_eq_some.mpr ⟨hvalid, hsize, rfl⟩, ?_⟩
    exact ((Format.emit_take_iff hsize).mpr hrepresents).symm
  · rintro ⟨hvalid, buffer, result, hencode, hbytes⟩
    obtain ⟨-, hsize, rfl⟩ := requestEncode_eq_some.mp hencode
    exact ⟨hvalid, (Format.emit_take_iff hsize).mp hbytes.symm⟩

end Codec

/-! ### Spans -/

def PayloadSpan.window (span : PayloadSpan) : Span := ⟨span.offset.toNat, span.length.toNat⟩

/-- Each span is empty at 0 or inside the payload behind the header, and no two share a byte. -/
structure Request.Isolated (request : Request) (size : ℕ) : Prop where
  placed : ∀ span ∈ request.spans, (span.length = 0 ∧ span.offset = 0) ∨
    (requestSize ≤ span.window.base ∧ span.window.base + span.window.size ≤ size)
  apart : (request.spans.map PayloadSpan.window).Pairwise Span.Apart
  groups : request.groups.offset.toNat % 4 = 0 ∧ request.groups.length.toNat % 4 = 0

section Spans
variable {size : UInt64}

theorem spanValid_iff :
    spanValid span size = true ↔ (span.length = 0 ∧ span.offset = 0) ∨
      (span.length ≠ 0 ∧ requestSize ≤ span.window.base ∧
        span.window.base + span.window.size ≤ size.toNat) := by
  unfold spanValid
  split_ifs with hempty
  · simp [hempty]
  · have hnone : ¬(span.length = 0 ∧ span.offset = 0) := fun h => hempty h.1
    rw [or_iff_right hnone, and_iff_right hempty]
    simp only [Bool.and_eq_true, decide_eq_true_eq, UInt64.le_iff_toNat_le, and_assoc]
    refine and_congr_right fun _ => ?_
    dsimp only [PayloadSpan.window]
    constructor
    · rintro ⟨hoffset, hlength⟩
      rw [UInt64.toNat_sub_of_le _ _ (UInt64.le_iff_toNat_le.mpr hoffset)] at hlength
      omega
    · intro h
      have hoffset : span.offset.toNat ≤ size.toNat := by omega
      rw [UInt64.toNat_sub_of_le _ _ (UInt64.le_iff_toNat_le.mpr hoffset)]
      omega

theorem window_lt (h : spanValid span size = true) :
    span.window.base + span.window.size < 2 ^ 64 := by
  have hsize := size.toNat_lt
  rcases spanValid_iff.mp h with ⟨hlength, hoffset⟩ | ⟨-, -, hend⟩
  · rw [PayloadSpan.window, hlength, hoffset]
    decide
  · omega

theorem spansMeet_iff {other : PayloadSpan} (h : spanValid span size = true)
    (hother : spanValid other size = true) :
    (!spansMeet span other) = true ↔ other.window.Apart span.window := by
  have hlt := window_lt h
  have hlt' := window_lt hother
  have hzero {x : UInt64} : x = 0 ↔ x.toNat = 0 := UInt64.toNat_inj.symm
  simp only [spansMeet, Bool.not_eq_true', Bool.and_eq_false_iff, bne_eq_false_iff_eq,
    decide_eq_false_iff_not, UInt64.lt_iff_toNat_lt, hzero]
  rw [toNat_add_of_lt hlt, toNat_add_of_lt hlt']
  simp only [Span.Apart, PayloadSpan.window]
  omega

theorem spans_iff :
    (request.spans.zipIdx.all fun (span, i) =>
      spanValid span size && (request.spans.take i).all fun other => !spansMeet span other) = true ↔
      (∀ span ∈ request.spans, spanValid span size = true) ∧
        (request.spans.map PayloadSpan.window).Pairwise Span.Apart := by
  have hstep (earlier : List PayloadSpan) (span : PayloadSpan) :
      (spanValid span size && earlier.all fun other => !spansMeet span other) = true ↔
        spanValid span size = true ∧ ∀ other ∈ earlier, (!spansMeet span other) = true := by
    rw [Bool.and_eq_true, all_eq_true]
  rw [Scan.all_earlier_iff hstep, pairwise_map]
  refine and_congr_right fun hvalid => List.Pairwise.iff_of_mem fun {other span} hother hspan => ?_
  exact spansMeet_iff (hvalid span hspan) (hvalid other hother)

theorem isolated_of_valid (h : requestValid request size = true) :
    request.Isolated size.toNat := by
  simp only [requestValid, Bool.and_eq_true, beq_iff_eq] at h
  obtain ⟨⟨⟨-, hspans⟩, hoffset⟩, hlength⟩ := h
  obtain ⟨hvalid, hapart⟩ := spans_iff.mp hspans
  refine ⟨fun span hspan => ?_, hapart, ?_, ?_⟩
  · exact (spanValid_iff.mp (hvalid span hspan)).imp_right And.right
  · exact (and_mask_eq_zero 2 rfl).mp hoffset
  · exact (and_mask_eq_zero 2 rfl).mp hlength

end Spans

def PayloadSpan.slice (bytes : List UInt8) (span : PayloadSpan) : List UInt8 :=
  (bytes.drop span.offset.toNat).take span.length.toNat

def Terminated (path : List UInt8) : Prop := path.count 0 = 1 ∧ path.getLast? = some 0

theorem terminated_concat {path : List UInt8} {last : UInt8} :
    Terminated (path ++ [last]) ↔ last = 0 ∧ 0 ∉ path := by
  rw [Terminated, getLast?_concat, Option.some.injEq, count_append]
  constructor
  · rintro ⟨hcount, rfl⟩
    rw [count_singleton_self] at hcount
    exact ⟨rfl, count_eq_zero.mp (by omega)⟩
  · rintro ⟨rfl, hpath⟩
    rw [count_singleton_self, count_eq_zero.mpr hpath]
    exact ⟨rfl, rfl⟩

theorem pathValid_iff {bytes : List UInt8} (h : span.window.base + span.window.size ≤ bytes.length) :
    pathValid (ofList bytes) span = true ↔ (span.length ≠ 0 → Terminated (span.slice bytes)) := by
  unfold pathValid
  split_ifs with hempty
  · simp [hempty]
  · have hslice : span.slice bytes = read (ofList bytes) span.offset.toNat span.length.toNat :=
      (read_ofList_window h).symm
    obtain ⟨k, hk⟩ : ∃ k, span.length.toNat = k + 1 := by
      refine Nat.exists_eq_succ_of_ne_zero fun hzero => hempty ?_
      exact UInt64.toNat_inj.mp hzero
    dsimp only
    have hlast : read (ofList bytes) (span.offset.toNat + k) 1 =
        [ofList bytes (span.offset.toNat + k)] := rfl
    rw [hslice, hk, read_append, hlast, terminated_concat, Nat.add_sub_cancel]
    have hcontains : (read (ofList bytes) span.offset.toNat k).contains 0 = false ↔
        0 ∉ read (ofList bytes) span.offset.toNat k := by
      rw [← Bool.not_eq_true, contains_iff_mem]
    simp only [Bool.and_eq_true, beq_iff_eq, Bool.not_eq_true', hcontains, hempty, ne_eq,
      not_false_eq_true, forall_const]

/-- Decoding accepts exactly the encodings of valid requests, whose spans are isolated, and the
check of the paths is that each ends with its only zero. -/
theorem request_codec_isolated :
    (∀ (bytes : List UInt8) (payloadSize : UInt64) (request : Request),
      requestDecode bytes payloadSize = some request ↔
        requestValid request payloadSize = true ∧
          ∃ buffer result, requestEncode buffer payloadSize request = some result ∧
            bytes.take requestSize = result.take requestSize) ∧
    (∀ (buffer : List UInt8) (payloadSize : UInt64) (request : Request),
      requestValid request payloadSize = true → requestSize ≤ buffer.length →
        ∃ result, requestEncode buffer payloadSize request = some result ∧
          requestDecode result payloadSize = some request) ∧
    (∀ (bytes : List UInt8) (payloadSize : UInt64) (request : Request),
      requestDecode bytes payloadSize = some request → request.Isolated payloadSize.toNat) ∧
    ∀ (bytes : List UInt8) (request : Request), bytes.length < 2 ^ 64 →
      (requestValidatePaths bytes request = true ↔
        requestValid request (.ofNat bytes.length) = true ∧
          ∀ span ∈ [request.path, request.secondPath], span.length ≠ 0 →
            Terminated (span.slice bytes)) := by
  refine ⟨fun _ _ _ => requestDecode_iff_encode, fun buffer payloadSize request hvalid hsize => ?_,
    fun bytes payloadSize request h => ?_, fun bytes request hbytes => ?_⟩
  · refine ⟨_, requestEncode_eq_some.mpr ⟨hvalid, hsize, rfl⟩, ?_⟩
    exact requestDecode_eq_some.mpr ⟨hvalid, (Format.emit_take_iff hsize).mp rfl⟩
  · exact isolated_of_valid (requestDecode_eq_some.mp h).1
  · rw [requestValidatePaths, Bool.and_eq_true, all_eq_true]
    refine and_congr_right fun hvalid => forall₂_congr fun span hspan => pathValid_iff ?_
    have hsize : (UInt64.ofNat bytes.length).toNat = bytes.length :=
      UInt64.toNat_ofNat_of_lt' hbytes
    have hisolated := isolated_of_valid hvalid
    rw [hsize] at hisolated
    have hmem : span ∈ request.spans := by
      rcases mem_pair.mp hspan with rfl | rfl
      · exact .head _
      · exact .tail _ (.head _)
    rcases hisolated.placed span hmem with ⟨hlength, hoffset⟩ | ⟨-, hend⟩
    · rw [PayloadSpan.window, hlength, hoffset]
      exact Nat.zero_le _
    · exact hend

end Kobox.Filesystem
